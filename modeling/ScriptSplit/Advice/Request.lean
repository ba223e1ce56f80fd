import ScriptSplit.Facts.Index
import ScriptSplit.Json.Writer
import ScriptSplit.Plan.Basic

/-!
# Requests for advice

What an adviser is told about a script: first the index and the constraints on a plan, then the
feature packs that it asks for. The source is one of them only where that is allowed.
-/

namespace ScriptSplit.Advice

inductive Pack where
  | functions
  | calls
  | imports
  | source
  deriving DecidableEq, Repr

namespace Pack

def name : Pack → String
  | .functions => "functions"
  | .calls => "calls"
  | .imports => "imports"
  | .source => "source"

def ofName? (name : String) : Option Pack :=
  [.functions, .calls, .imports, .source].find? (·.name == name)

def available (sendsSource : Bool) : List Pack :=
  [.functions, .calls, .imports] ++ if sendsSource then [.source] else []

end Pack

def functionDoc (f : FunctionRecord) : Json :=
  .object [("id", .string f.id), ("name", .string f.name), ("size", .int f.size),
    ("exported", .bool f.exported), ("moveable", .bool f.moveable)]

def packDoc (facts : Facts) (source : Option String) : Pack → Json
  | .functions => .array (facts.functions.map functionDoc)
  | .calls => .array (facts.calls.map CallEdge.toDoc)
  | .imports => .array (facts.imports.map ImportRecord.toDoc)
  | .source => .string (source.getD "")

def constraintsDoc (facts : Facts) (maxFiles minClusterSize : Int) : Json :=
  .object [("maxFiles", .int maxFiles), ("minClusterSize", .int minClusterSize),
    ("nonMoveable", .ofStrings ((facts.functions.filter (!·.moveable)).map (·.id))),
    ("rules", .ofStrings [
      "every function id appears in exactly one module",
      "all nonMoveable ids form one module with slug '" ++ originalSlug ++ "'",
      "no other module may use that slug",
      "slugs are short lowercase file names without extension"])]

def firstRequest (index : FactsIndex) (facts : Facts) (maxFiles minClusterSize : Int)
    (sendsSource : Bool) : String :=
  (Json.object [("index", index.toDoc), ("constraints", constraintsDoc facts maxFiles minClusterSize),
    ("availablePacks", .ofStrings ((Pack.available sendsSource).map Pack.name))]).compact

end ScriptSplit.Advice
