import ScriptSplit.Json.Basic
import ScriptSplit.Number.Shortest
import ScriptSplit.Text.Quoted

/-!
# Documents in messages

How a document is shown where a message or a name is made of it: a string as it is, everything
else as a literal, in which strings are quoted.
-/

namespace ScriptSplit.Json

def displayFloat (x : Double) : String :=
  x.text .plain "nan" "inf"

mutual

def literal : Json → String
  | .null => "None"
  | .bool true => "True"
  | .bool false => "False"
  | .int value => toString value
  | .float value => displayFloat value
  | .string value => Text.quoted value
  | .array items => "[" ++ ", ".intercalate (literals items) ++ "]"
  | .object members => "\x7b" ++ ", ".intercalate (memberLiterals members) ++ "\x7d"

def literals : List Json → List String
  | [] => []
  | item :: rest => literal item :: literals rest

def memberLiterals : List (String × Json) → List String
  | [] => []
  | (name, value) :: rest => (Text.quoted name ++ ": " ++ literal value) :: memberLiterals rest

end

def display : Json → String
  | .string value => value
  | doc => literal doc

end ScriptSplit.Json
