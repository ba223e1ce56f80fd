import ScriptSplit.Json.Basic
import ScriptSplit.Text.Names
import ScriptSplit.Text.Quoted

/-!
# Records of facts

What the analysis of a script finds: functions, calls and imports. Each kind of record has a
document form; reading one checks its shape and says what is wrong with it.
-/

namespace ScriptSplit

/-- The name of a function that has none. -/
def anonymousName : String := "<anonymous>"

/-- A function at the top level of a script. Its span is not bound to any text: it may have been
stored before the text was edited. -/
structure FunctionRecord where
  id : String
  name : String
  start : Int
  stop : Int
  exported : Bool := false
  /-- Whether the function can stand in a module of its own. -/
  moveable : Bool := false
  used : List String := []
  free : List String := []
  params : List String := []
  locals : List String := []
  deriving DecidableEq, Repr

/-- A call from the function with the id `caller` to a function known by name. -/
structure CallEdge where
  caller : String
  callee : String
  deriving DecidableEq, Repr

structure ImportRecord where
  source : String
  named : List String := []
  kind : String := "esm"
  deriving DecidableEq, Repr

inductive ShapeKind where
  | object
  | list
  | text
  | integer
  deriving DecidableEq, Repr

def ShapeKind.name : ShapeKind → String
  | .object => "dict"
  | .list => "list"
  | .text => "str"
  | .integer => "int"

inductive ShapeFault where
  | notAFunction
  | notAnObject
  | missing (key : String) (kind : ShapeKind)
  | notStrings (key : String)
  | extNotAnObject
  | invalidSpan (start stop : Int)
  | shardNotAnObject
  deriving DecidableEq, Repr

def ShapeFault.message (what : String) : ShapeFault → String
  | .notAFunction => what ++ ": not a function object"
  | .notAnObject => what ++ ": not an object"
  | .missing key kind =>
    what ++ ": field " ++ Text.quoted key ++ " missing or not " ++ kind.name
  | .notStrings key => what ++ ": field " ++ Text.quoted key ++ " must be a list of strings"
  | .extNotAnObject => what ++ ": field 'ext' must be an object"
  | .invalidSpan start stop =>
    what ++ ": invalid span [" ++ toString start ++ ", " ++ toString stop ++ ")"
  | .shardNotAnObject => what ++ ": shard entry is not an object"

structure ShapeError where
  what : String
  fault : ShapeFault
  deriving DecidableEq, Repr

def ShapeError.message (e : ShapeError) : String := e.fault.message e.what

namespace Json

def requireObject (doc : Json) (key : String) : Except ShapeFault Json :=
  match doc.member? key with
  | some (.object members) => .ok (.object members)
  | _ => .error (.missing key .object)

def requireList (doc : Json) (key : String) : Except ShapeFault (List Json) :=
  match doc.member? key with
  | some (.array items) => .ok items
  | _ => .error (.missing key .list)

def requireText (doc : Json) (key : String) : Except ShapeFault String :=
  match doc.member? key with
  | some (.string value) => .ok value
  | _ => .error (.missing key .text)

def requireInteger (doc : Json) (key : String) : Except ShapeFault Int :=
  match doc.member? key with
  | some (.int value) => .ok value
  | _ => .error (.missing key .integer)

def strings? : List Json → Option (List String)
  | [] => some []
  | .string value :: rest => (strings? rest).map (value :: ·)
  | _ :: _ => none

def stringList (doc : Json) (key : String) : Except ShapeFault (List String) :=
  match doc.member? key with
  | none => .ok []
  | some (.array items) =>
    match strings? items with
    | some names => .ok names
    | none => .error (.notStrings key)
  | some _ => .error (.notStrings key)

def flag (doc : Json) (key : String) : Bool :=
  ((doc.member? key).map isTruthy).getD false

end Json

namespace FunctionRecord

/-- The number of characters of a function, at least one. -/
def size (f : FunctionRecord) : Int :=
  max 1 (f.stop - f.start)

def contains (f other : FunctionRecord) : Bool :=
  f.start ≤ other.start && other.stop ≤ f.stop

def spanDoc (start stop : Int) : Json :=
  .object [("start", .int start), ("end", .int stop)]

def toDoc (f : FunctionRecord) : Json :=
  .object [
    ("type", .string "function"),
    ("id", .string f.id),
    ("name", .string f.name),
    ("exported", .bool f.exported),
    ("span", spanDoc f.start f.stop),
    ("ext", .object [
      ("identifiers.body", .ofStrings (Names.sort f.used)),
      ("identifiers.free", .ofStrings (Names.sort f.free)),
      ("declared.params", .ofStrings (Names.sort f.params)),
      ("declared.locals", .ofStrings (Names.sort f.locals)),
      ("moveable", .bool f.moveable)])]

def docName : String := "function record"

/-- Whether a document may be that of a function: an object that names no other type. -/
def isFunctionDoc : Json → Bool
  | .object members =>
    match members.lookup "type" with
    | none => true
    | some (.string value) => value == "function"
    | some _ => false
  | _ => false

def ofDoc (doc : Json) : Except ShapeFault FunctionRecord := do
  if !isFunctionDoc doc then throw .notAFunction
  let span ← doc.requireObject "span"
  let ext := (doc.member? "ext").getD (.object [])
  match ext with
  | .object _ => pure ()
  | _ => throw .extNotAnObject
  let start ← span.requireInteger "start"
  let stop ← span.requireInteger "end"
  if start < 0 ∨ stop < start then throw (.invalidSpan start stop)
  let id ← doc.requireText "id"
  let name :=
    match doc.member? "name" with
    | some (.string name) => name
    | _ => anonymousName
  let used ← ext.stringList "identifiers.body"
  let free ← ext.stringList "identifiers.free"
  let params ← ext.stringList "declared.params"
  let locals ← ext.stringList "declared.locals"
  return { id, name, start, stop, exported := doc.flag "exported", moveable := ext.flag "moveable",
           used, free, params, locals }

end FunctionRecord

namespace CallEdge

def toDoc (edge : CallEdge) : Json :=
  .object [("type", .string "call"), ("caller", .string edge.caller),
    ("callee", .string edge.callee)]

def docName : String := "call record"

def ofDoc (doc : Json) : Except ShapeFault CallEdge := do
  match doc with
  | .object _ => pure ()
  | _ => throw .notAnObject
  let caller ← doc.requireText "caller"
  let callee ← doc.requireText "callee"
  return { caller, callee }

end CallEdge

namespace ImportRecord

def toDoc (record : ImportRecord) : Json :=
  .object [("type", .string "import"), ("kind", .string record.kind),
    ("from", .string record.source), ("named", .ofStrings record.named)]

def docName : String := "import record"

def ofDoc (doc : Json) : Except ShapeFault ImportRecord := do
  match doc with
  | .object _ => pure ()
  | _ => throw .notAnObject
  let source ← doc.requireText "from"
  let named ← doc.stringList "named"
  let kind :=
    match doc.member? "kind" with
    | some (.string kind) => kind
    | _ => "esm"
  return { source, named, kind }

end ImportRecord

end ScriptSplit
