import ScriptSplit.Json.Reader
import ScriptSplit.Run.Storage

/-!
# Stored facts

The facts about a script as a directory: an index, one file for each kind of record with a record on each
line, the names at the top level, and the counts. The index is written last, since it marks a complete
set.
-/

namespace ScriptSplit

namespace StoredFacts

def indexFile : String := "facts.index.json"

def namesFile : String := "top-level.json"

def countsFile : String := "facts.json"

def recordLines (docs : List Json) : Text :=
  docs.flatMap fun doc => doc.compact.toList ++ ['\n']

def lineContent (line : Text) : Text :=
  line.takeWhile (!Text.isLineBoundary ·)

/-- Lines with their numbers, those that are blank left out. -/
def numberedLines (text : Text) : List (Nat × Text) :=
  ((text.lines.map lineContent).zipIdx 1).filterMap fun (line, n) =>
    if Text.isBlankText line then none else some (n, line)

def parseRecords {α : Type} (name what : String) (ofDoc : Json → Except ShapeFault α)
    (text : Text) : Except ArtifactError (List α) :=
  (numberedLines text).mapM fun (n, line) =>
    match Json.readDocument line with
    | .error refusal => .error (.faultyLine name n (refusal.message line))
    | .ok doc =>
      match ofDoc doc with
      | .ok record => .ok record
      | .error fault => .error (.shape { what, fault })

end StoredFacts

namespace Storage

def artifact {α : Type} (cause : ArtifactError) : Storage α :=
  throw (.artifact cause)

def orArtifact {α : Type} : Except ArtifactError α → Storage α
  | .ok a => pure a
  | .error cause => artifact cause

def writeFacts (directory : Path) (facts : Facts) : Storage FactsIndex := do
  let shards := directory / shardDirectory
  writeText (shards / "functions.ndjson")
    (StoredFacts.recordLines (facts.functions.map FunctionRecord.toDoc))
  writeText (shards / "imports.ndjson")
    (StoredFacts.recordLines (facts.imports.map ImportRecord.toDoc))
  writeText (shards / "calls.ndjson") (StoredFacts.recordLines (facts.calls.map CallEdge.toDoc))
  writeDocument (directory / StoredFacts.namesFile)
    (.object [("names", .ofStrings (Names.sort facts.topLevel))])
  writeDocument (directory / StoredFacts.countsFile)
    (.object [("functions", .ofNat facts.functions.length),
      ("imports", .ofNat facts.imports.length)])
  writeDocument (directory / StoredFacts.indexFile) facts.index.toDoc
  return facts.index

/-- Reads a document that the stage `writer` has written. -/
def readDocument (path : Path) (writer : Stage) : Storage Json := do
  match (← attempt (readText path)) with
  | .ok text =>
    match Json.readDocument text with
    | .ok doc => return doc
    | .error refusal => artifact (.unreadable path (.notJson (refusal.message text)))
  | .error (.system cause) =>
    if cause.kind = .notFound then artifact (.notFound path.name path.parent writer)
    else artifact (.unreadable path (.system cause))
  | .error (.undecodable cause) => artifact (.unreadable path (.undecodable cause))
  | .error other => throw other

/-- Reads the records of one kind; a file that is not there holds none. -/
def readRecords {α : Type} (path : Path) (what : String) (ofDoc : Json → Except ShapeFault α) :
    Storage (List α) := do
  match (← attempt (readText path)) with
  | .ok text => orArtifact (StoredFacts.parseRecords path.name what ofDoc text)
  | .error (.system cause) =>
    if cause.kind = .notFound then return []
    else artifact (.unreadable path (.system cause))
  | .error other => throw other

def shaped {α : Type} (what : String) (read : Except ShapeFault α) : Storage α :=
  match read with
  | .ok a => pure a
  | .error fault => artifact (.shape { what, fault })

def readIndex (directory : Path) : Storage FactsIndex := do
  shaped FactsIndex.docName
    (FactsIndex.ofDoc (← readDocument (directory / StoredFacts.indexFile) .analyze))

def shardPath (directory : Path) (index : FactsIndex) (kind : String) : Storage Path :=
  match index.shard? kind with
  | some shard =>
    if '\x00' ∈ shard.path.toList then throw (.nameless .nullCharacter)
    else pure (directory / shard.path)
  | none => artifact (.noShard kind)

/-- Reads the names at the top level; a file that is not there holds none. -/
def readTopLevel (directory : Path) : Storage (List String) := do
  let path := directory / StoredFacts.namesFile
  if (← files).has path then
    match (← readDocument path .analyze) with
    | .object members => shaped "top-level names" (Json.stringList (.object members) "names")
    | _ => return []
  else return []

def readFacts (directory : Path) : Storage Facts := do
  let index ← readIndex directory
  let functions ← readRecords (← shardPath directory index "functions")
    FunctionRecord.docName FunctionRecord.ofDoc
  if functions.isEmpty then artifact (.noFunctions directory)
  let calls ← readRecords (← shardPath directory index "calls") CallEdge.docName CallEdge.ofDoc
  let imports ← readRecords (← shardPath directory index "imports")
    ImportRecord.docName ImportRecord.ofDoc
  let topLevel ← readTopLevel directory
  return { source := index.source, functions, calls, imports, topLevel }

end Storage

end ScriptSplit
