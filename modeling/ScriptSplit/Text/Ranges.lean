/-!
# Sets of code points written as ranges

The tables of character properties are lists of closed ranges; membership is the only operation
on them.
-/

namespace ScriptSplit.Text

/-- A set of code points, written as closed ranges. -/
abbrev Ranges := List (Nat × Nat)

def Ranges.contains (table : Ranges) (n : Nat) : Bool :=
  table.any fun range => range.1 ≤ n && n ≤ range.2

end ScriptSplit.Text
