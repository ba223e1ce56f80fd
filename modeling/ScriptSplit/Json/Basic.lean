import ScriptSplit.Number.Double
import ScriptSplit.Table

/-!
# JSON values

A document as it was read: integers are exact and apart from floating-point numbers, and the
members of an object keep the order in which their names were first seen.
-/

namespace ScriptSplit

inductive Json where
  | null
  | bool (value : Bool)
  | int (value : Int)
  | float (value : Double)
  | string (value : String)
  | array (items : List Json)
  | object (members : List (String × Json))
  deriving Repr, Inhabited

namespace Json

def member? (name : String) : Json → Option Json
  | .object members => Table.get? members name
  | _ => none

/-- Whether a document counts as true: all but `null`, `false`, zeros and empty values do. -/
def isTruthy : Json → Bool
  | .null => false
  | .bool value => value
  | .int value => value != 0
  | .float value => !value.isZero
  | .string value => !value.isEmpty
  | .array items => !items.isEmpty
  | .object members => !members.isEmpty

def ofStrings (names : List String) : Json :=
  .array (names.map .string)

def ofNat (n : Nat) : Json :=
  .int n

/-- A text, or `null` where there is none. -/
def ofString? : Option String → Json
  | some text => .string text
  | none => .null

end Json

end ScriptSplit
