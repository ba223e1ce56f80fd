import ScriptSplit.Text.Lines

/-!
# File name patterns

A star stands for any characters, a question mark for one, and brackets for one of the characters
between them or, after an exclamation mark, for one that is not.
-/

namespace ScriptSplit

inductive NamePart where
  | char (c : Char)
  | anyChar
  | anyText
  /-- One character in (or, if `negated`, outside) one of the ranges. -/
  | oneOf (negated : Bool) (ranges : List (Char × Char))
  deriving Repr

namespace NamePart

def ranges : List Char → List (Char × Char)
  | a :: '-' :: b :: rest => (a, b) :: ranges rest
  | c :: rest => (c, c) :: ranges rest
  | [] => []

/-- The characters between brackets, from the first one on, and what follows the closing bracket. A
bracket in the first place stands for itself. -/
def bracketed? : List Char → Option (Bool × List Char × List Char)
  | text =>
    let negated := text.head? == some '!'
    let text := if negated then text.tail else text
    let first := text.take 1
    let rest := text.drop 1
    let inner := rest.takeWhile (· != ']')
    match rest.dropWhile (· != ']') with
    | _ :: after => some (negated, first ++ inner, after)
    | [] => none

/-- Reads a pattern. An opening bracket without a closing one stands for itself. -/
def parse : Nat → List Char → List NamePart
  | 0, _ => []
  | _ + 1, [] => []
  | fuel + 1, '*' :: rest => .anyText :: parse fuel rest
  | fuel + 1, '?' :: rest => .anyChar :: parse fuel rest
  | fuel + 1, '[' :: rest =>
    match bracketed? rest with
    | some (negated, inner, after) => .oneOf negated (ranges inner) :: parse fuel after
    | none => .char '[' :: parse fuel rest
  | fuel + 1, c :: rest => .char c :: parse fuel rest

def accepts (c : Char) : NamePart → Bool
  | .char d => c == d
  | .anyChar => true
  | .anyText => false
  | .oneOf negated ranges => ranges.any (fun r => r.1 ≤ c && c ≤ r.2) != negated

/-- Whether some end of a name passes a test. -/
def someEnd (test : List Char → Bool) : List Char → Bool
  | [] => test []
  | c :: name => test (c :: name) || someEnd test name

def matches_ : List NamePart → List Char → Bool
  | [], name => name.isEmpty
  | .anyText :: parts, name => someEnd (matches_ parts) name
  | _ :: _, [] => false
  | part :: parts, c :: name => part.accepts c && matches_ parts name

end NamePart

/-- Whether names can have the shape of a pattern. Two stars in a row stand for directories, and only between
slashes. -/
def isNamePattern (pattern : String) : Bool :=
  (Text.find? pattern "**").isNone

def matchesPattern (pattern name : String) : Bool :=
  NamePart.matches_ (NamePart.parse (pattern.length + 1) pattern.toList) name.toList

end ScriptSplit
