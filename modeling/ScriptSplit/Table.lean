/-!
# Tables

Values by name, in the order in which the names were first seen.
-/

namespace ScriptSplit

abbrev Table (α : Type) := List (String × α)

namespace Table

def get? {α : Type} (table : Table α) (name : String) : Option α :=
  table.lookup name

/-- Puts a value under a name: a name that is already there keeps its place. -/
def put {α : Type} (table : Table α) (name : String) (value : α) : Table α :=
  match table with
  | [] => [(name, value)]
  | (key, old) :: rest =>
    if key = name then (name, value) :: rest else (key, old) :: put rest name value

/-- Puts a value under a name that has none yet. -/
def putNew {α : Type} (table : Table α) (name : String) (value : α) : Table α :=
  match table.get? name with
  | some _ => table
  | none => table ++ [(name, value)]

def has {α : Type} (table : Table α) (name : String) : Bool :=
  (table.get? name).isSome

end Table

end ScriptSplit
