import ScriptSplit.Json.Basic

/-!
# Documents of TOML

A document is built up line by line. A table is opened once, what an inline value holds is complete, and
a name is given once; marks on the names remember what may still be added where.
-/

namespace ScriptSplit.Toml

abbrev Key := List String

/-- Changes the table at a place and creates the tables on the way to it. With `throughLists` the last
item of a list of tables stands for the list. -/
def changeAt (throughLists : Bool) (change : Table Json → Option (Table Json)) :
    Key → Table Json → Option (Table Json)
  | [], table => change table
  | name :: rest, table =>
    match table.get? name with
    | none => do return table.put name (.object (← changeAt throughLists change rest []))
    | some (.object members) => do
      return table.put name (.object (← changeAt throughLists change rest members))
    | some (.array items) =>
      match throughLists, items.getLast? with
      | true, some (.object members) => do
        return table.put name
          (.array (items.dropLast ++ [.object (← changeAt throughLists change rest members)]))
      | _, _ => none
    | some _ => none

def define (name : String) (value : Json) (table : Table Json) : Option (Table Json) :=
  if table.has name then none else some (table.put name value)

def appendTable (name : String) (table : Table Json) : Option (Table Json) :=
  match table.get? name with
  | none => some (table.put name (.array [.object []]))
  | some (.array items) => some (table.put name (.array (items ++ [.object []])))
  | some _ => none

structure Document where
  root : Table Json := []
  /-- The place that lines without a header of their own add to. -/
  header : Key := []
  /-- The tables that cannot be opened again. -/
  opened : List Key := []
  /-- The tables that dotted names have created in the current section. -/
  dotted : List Key := []
  /-- The places that hold complete values. -/
  complete : List Key := []

namespace Document

def isComplete (doc : Document) (key : Key) : Bool :=
  doc.complete.any (·.isPrefixOf key)

def endSection (doc : Document) : Document :=
  { doc with opened := doc.dotted ++ doc.opened, dotted := [] }

def openTable (doc : Document) (key : Key) : Option Document := do
  guard (!doc.opened.contains key && !doc.isComplete key)
  let root ← changeAt true some key doc.root
  return { doc with root, header := key, opened := key :: doc.opened }

/-- Opens one more table of a list. Whatever was opened below the last one can be opened anew. -/
def openListTable (doc : Document) (key : Key) : Option Document := do
  guard (!doc.isComplete key)
  let name ← key.getLast?
  let root ← changeAt true (appendTable name) key.dropLast doc.root
  return { doc with
    root
    header := key
    opened := key :: doc.opened.filter (!key.isPrefixOf ·)
    complete := doc.complete.filter (!key.isPrefixOf ·) }

def onTheWay (header key : Key) : List Key :=
  (List.range' 1 (key.length - 1)).map fun n => header ++ key.take n

/-- Whether a value cannot be added to any more. -/
def isClosed : Json → Bool
  | .array _ | .object _ => true
  | _ => false

def add (doc : Document) (key : Key) (value : Json) : Option Document := do
  let name ← key.getLast?
  let passed := onTheWay doc.header key
  guard (!passed.any doc.opened.contains)
  let place := doc.header ++ key.dropLast
  guard (!doc.isComplete place)
  let root ← changeAt true (define name value) place doc.root
  return { doc with
    root
    dotted := passed ++ doc.dotted
    complete := if isClosed value then (doc.header ++ key) :: doc.complete else doc.complete }

end Document

structure InlineTable where
  members : Table Json := []
  complete : List Key := []

def InlineTable.add (table : InlineTable) (key : Key) (value : Json) : Option InlineTable := do
  let name ← key.getLast?
  guard (!table.complete.any (·.isPrefixOf key))
  let members ← changeAt false (define name value) key.dropLast table.members
  return { members
           complete := if Document.isClosed value then key :: table.complete else table.complete }

end ScriptSplit.Toml
