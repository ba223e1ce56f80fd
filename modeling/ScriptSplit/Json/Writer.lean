import ScriptSplit.Json.Basic
import ScriptSplit.Number.Shortest

/-!
# Writing JSON

Two layouts: on one line, with a blank after every comma and colon, or indented by a number of
blanks per level, where empty arrays and objects stay on one line. Everything outside printable
ASCII is written as a `\u` escape, above U+FFFF as a surrogate pair.
-/

namespace ScriptSplit

namespace Json

def hexDigit (n : Nat) : Char :=
  if n < 10 then Char.ofNat (48 + n) else Char.ofNat (87 + n)

def hexUnit (n : Nat) : List Char :=
  [hexDigit (n / 4096 % 16), hexDigit (n / 256 % 16), hexDigit (n / 16 % 16), hexDigit (n % 16)]

/-- The escape of a code point, as one 16-bit unit or as a surrogate pair. -/
def unicodeEscape (n : Nat) : List Char :=
  if n < 0x10000 then '\\' :: 'u' :: hexUnit n
  else
    let high := 0xD800 + (n - 0x10000) / 1024
    let low := 0xDC00 + (n - 0x10000) % 1024
    '\\' :: 'u' :: hexUnit high ++ '\\' :: 'u' :: hexUnit low

def escapeChar (c : Char) : List Char :=
  match c with
  | '"' => ['\\', '"']
  | '\\' => ['\\', '\\']
  | '\n' => ['\\', 'n']
  | '\r' => ['\\', 'r']
  | '\t' => ['\\', 't']
  | '\x08' => ['\\', 'b']
  | '\x0c' => ['\\', 'f']
  | c => if 0x20 ≤ c.toNat ∧ c.toNat ≤ 0x7E then [c] else unicodeEscape c.toNat

def quote (s : String) : List Char :=
  '"' :: s.toList.flatMap escapeChar ++ ['"']

/-- Floating-point numbers are written with the words for the special values that readers of the
format know. -/
def floatText (x : Double) : String :=
  x.text .plain "NaN" "Infinity"

inductive Layout where
  | line
  | indented (width : Nat)

/-- What stands before an item at a nesting depth, after a bracket or a comma. -/
def Layout.lead (layout : Layout) (depth : Nat) : List Char :=
  match layout with
  | .line => []
  | .indented width => '\n' :: List.replicate (width * depth) ' '

def Layout.separator (layout : Layout) (depth : Nat) : List Char :=
  match layout with
  | .line => [',', ' ']
  | .indented _ => ',' :: layout.lead depth

mutual

def write (layout : Layout) (depth : Nat) : Json → List Char
  | .null => ['n', 'u', 'l', 'l']
  | .bool true => ['t', 'r', 'u', 'e']
  | .bool false => ['f', 'a', 'l', 's', 'e']
  | .int value => (toString value).toList
  | .float value => (floatText value).toList
  | .string value => quote value
  | .array [] => ['[', ']']
  | .array (item :: items) =>
    '[' :: layout.lead (depth + 1) ++ write layout (depth + 1) item ++
      (writeItems layout (depth + 1) items ++ layout.lead depth ++ [']'])
  | .object [] => ['{', '}']
  | .object ((name, value) :: members) =>
    '{' :: layout.lead (depth + 1) ++ (quote name ++ ':' :: ' ' :: write layout (depth + 1) value) ++
      (writeMembers layout (depth + 1) members ++ layout.lead depth ++ ['}'])

def writeItems (layout : Layout) (depth : Nat) : List Json → List Char
  | [] => []
  | item :: items =>
    layout.separator depth ++ write layout depth item ++ writeItems layout depth items

def writeMembers (layout : Layout) (depth : Nat) : List (String × Json) → List Char
  | [] => []
  | (name, value) :: members =>
    layout.separator depth ++ (quote name ++ ':' :: ' ' :: write layout depth value) ++
      writeMembers layout depth members

end

def compact (doc : Json) : String :=
  String.ofList (doc.write .line 0)

/-- A document indented by two blanks per level. -/
def pretty (doc : Json) : String :=
  String.ofList (doc.write (.indented 2) 0)

end Json

end ScriptSplit
