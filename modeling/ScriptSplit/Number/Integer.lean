import ScriptSplit.Text.Lines

/-!
# Written integers

An integer as a user writes it: a sign if there is one, digits of any script, and single low lines
between digits. Blanks around it do not matter.
-/

namespace ScriptSplit.Integer

def maxDigits : Nat := 4300

/-- Digit values; a low line stands between two digits. -/
def digits? : Text → Option (List Nat)
  | [] => none
  | [c] => (Text.digitValue? c).map ([·])
  | c :: '_' :: rest => do return (← Text.digitValue? c) :: (← digits? rest)
  | c :: rest => do return (← Text.digitValue? c) :: (← digits? rest)

def ofText? (text : Text) : Option Int := do
  let text := text.strip
  let (negative, rest) :=
    match text with
    | '-' :: rest => (true, rest)
    | '+' :: rest => (false, rest)
    | _ => (false, text)
  let digits ← digits? rest
  guard (digits.length ≤ maxDigits)
  let size : Nat := digits.foldl (fun n d => n * 10 + d) 0
  return if negative then -(size : Int) else size

end ScriptSplit.Integer
