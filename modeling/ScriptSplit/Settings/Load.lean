import ScriptSplit.Settings.Basic
import ScriptSplit.Toml.Reader

/-!
# Settings files

Settings come from a table of the project's description and then from a file of their own, whose values
win. A file that is missing or faulty says nothing.
-/

namespace ScriptSplit.Settings

def projectFile : String := "pyproject.toml"

def ownFile : String := ".atomizer.toml"

/-- The table with a name, empty where there is none; nothing where the name has another value. -/
def subtable? (table : Table Json) (name : String) : Option (Table Json) :=
  match table.get? name with
  | none => some []
  | some (.object members) => some members
  | some _ => none

/-- The settings that two files describe. Nothing where the project's description has something else in
the place of a table of settings. -/
def ofTables? (project own : Table Json) : Option Settings := do
  let tools ← subtable? project "tool"
  let described ← subtable? tools "atomizer"
  return (overlay {} described).overlay own

/-- The table in a file, empty where the file is missing or faulty. -/
def tableOf (text : Option Text) : Table Json :=
  (text.bind Toml.readTable?).getD []

end ScriptSplit.Settings
