import ScriptSplit.Table
import ScriptSplit.Text.Case
import ScriptSplit.Text.Names
import ScriptSplit.Text.Search

/-!
# Public names

The names under which a bridge exports what the modules export. A name that looks generated gets a
readable one made from the slug of its module and a number.
-/

namespace ScriptSplit

/-- Whether a name looks generated: `f` and at least three digits. One line feed at its end
passes. -/
def isOpaque (name : String) : Bool :=
  match Text.dropFinalNewline name.toList with
  | 'f' :: digits => 3 ≤ digits.length && digits.all Text.isDecimalDigit
  | _ => false

def separatesWords (c : Char) : Bool :=
  c == '-' || c == '_' || c == '.' || Text.isBlank c

def capitalised (word : String) : String :=
  Text.upper (String.ofList (word.toList.take 1)) ++ Text.lower (String.ofList (word.toList.drop 1))

def camelCase (slug : String) : String :=
  let words := ((Text.splitAny separatesWords slug.toList).filter (!·.isEmpty)).map String.ofList
  match words with
  | [] => "module"
  | first :: rest =>
    let name := Text.lower first ++ String.join (rest.map capitalised)
    let name := if name.toList.head?.any Text.isNameStart then name else "m" ++ name
    String.ofList (name.toList.filter Text.isNamePart)

/-- The names that each module exports, by its slug, in the order of the plan. -/
abbrev ModuleExports := List (String × List String)

namespace PublicNames

/-- The base and then the base with the numbers from two on. -/
def numbered (base : String) (n : Nat) : String :=
  if n = 0 then base else base ++ toString (n + 1)

def firstFree (base : String) (taken : List String) : String :=
  let candidates := (List.range (taken.length + 1)).map (numbered base)
  (candidates.find? (!taken.contains ·)).getD base

structure Aliases where
  taken : List String
  names : Table String

/-- Adds aliases for the generated names of one module, the first of which is the `n`-th. -/
def Aliases.add (base : String) (n : Nat) (aliases : Aliases) : List String → Aliases
  | [] => aliases
  | name :: rest =>
    let shown := firstFree (base ++ toString n) aliases.taken
    Aliases.add base (n + 1)
      { taken := shown :: aliases.taken, names := aliases.names.put name shown } rest

end PublicNames

/-- The public name of every exported name: itself, or an alias that no other name has. -/
def publicNames (exports : ModuleExports) : Table String :=
  let plain := (exports.flatMap (·.2)).filter (!isOpaque ·)
  let start : PublicNames.Aliases :=
    { taken := plain, names := plain.foldl (fun table name => table.put name name) [] }
  (exports.foldl (fun aliases (slug, names) =>
    PublicNames.Aliases.add (camelCase slug) 1 aliases (names.filter isOpaque)) start).names

def publicName (mapping : Table String) (name : String) : String :=
  (mapping.get? name).getD name

end ScriptSplit
