import ScriptSplit.Facts.Record
import ScriptSplit.Json.Display

/-!
# Facts and their index

All facts about one script, and the index of a stored set of facts: which files hold the records of
each kind and how many there are.
-/

namespace ScriptSplit

structure Shard where
  kind : String
  /-- Relative to the directory of the facts. -/
  path : String
  count : Int
  deriving DecidableEq, Repr

structure FactsIndex where
  source : String
  shards : List Shard
  /-- Counts by name; what a stored index holds under a name is kept as it is. -/
  stats : List (String × Json)
  version : String
  features : List String
  deriving Repr

/-- Everything known about one script. -/
structure Facts where
  source : String
  functions : List FunctionRecord
  calls : List CallEdge := []
  imports : List ImportRecord := []
  topLevel : List String := []
  deriving DecidableEq, Repr

def Shard.toDoc (shard : Shard) : Json :=
  .object [("kind", .string shard.kind), ("path", .string shard.path), ("count", .int shard.count)]

def shardDirectory : String := "facts.d"

namespace FactsIndex

def currentVersion : String := "0.3"

def currentFeatures : List String :=
  ["imports.esm", "functions.core", "identifiers.body", "callgraph.basic"]

def toDoc (index : FactsIndex) : Json :=
  .object [
    ("dfpVersion", .string index.version),
    ("source", .string index.source),
    ("features", .ofStrings index.features),
    ("capabilities", .object
      (index.features.foldl (fun members f => Table.put members f (.bool true)) [])),
    ("shards", .array (index.shards.map Shard.toDoc)),
    ("stats", .object index.stats)]

def docName : String := "facts index"

def shardOfDoc (doc : Json) : Except ShapeFault Shard := do
  match doc with
  | .object _ => pure ()
  | _ => throw .shardNotAnObject
  let kind ← doc.requireText "kind"
  let path ← doc.requireText "path"
  let count ← doc.requireInteger "count"
  return { kind, path, count }

def ofDoc (doc : Json) : Except ShapeFault FactsIndex := do
  match doc with
  | .object _ => pure ()
  | _ => throw .notAnObject
  let shards ← (← doc.requireList "shards").mapM shardOfDoc
  let stats :=
    match doc.member? "stats" with
    | some (.object members) => members
    | _ => []
  let source ← doc.requireText "source"
  let features ← doc.stringList "features"
  let version :=
    match doc.member? "dfpVersion" with
    | some value => value.display
    | none => currentVersion
  return { source, shards, stats, version, features }

def shard? (index : FactsIndex) (kind : String) : Option Shard :=
  index.shards.find? (·.kind == kind)

def noShardMessage (kind : String) : String :=
  "facts index has no " ++ Text.quoted kind ++ " shard"

end FactsIndex

namespace Facts

/-- The function with an id; of several the last. -/
def function? (facts : Facts) (id : String) : Option FunctionRecord :=
  facts.functions.reverse.find? (·.id == id)

def index (facts : Facts) : FactsIndex where
  source := facts.source
  shards := [
    { kind := "functions", path := shardDirectory ++ "/functions.ndjson",
      count := facts.functions.length },
    { kind := "imports", path := shardDirectory ++ "/imports.ndjson",
      count := facts.imports.length },
    { kind := "calls", path := shardDirectory ++ "/calls.ndjson", count := facts.calls.length }]
  stats := [("functionCount", .ofNat facts.functions.length),
    ("importCount", .ofNat facts.imports.length)]
  version := FactsIndex.currentVersion
  features := FactsIndex.currentFeatures

end Facts

end ScriptSplit
