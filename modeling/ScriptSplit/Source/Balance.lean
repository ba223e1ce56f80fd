import ScriptSplit.Source.Lexer

/-!
# Balanced spans

A span of a text is balanced when the lexer, started in code at its first character, stops exactly
at its end with nothing open.
-/

namespace ScriptSplit

/-- Whether the span closes every brace, string and comment that it opens, and no other. -/
def isBalanced (text : Text) (start stop : Nat) : Bool :=
  let lexer := (Lexer.start text start).advanceTo stop
  lexer.pos == stop && lexer.balanced

/-- Tries the `count` offsets from `stop` on; a brace closed too often ends the search. -/
def Lexer.firstBalanced (lexer : Lexer) (stop : Nat) : Nat → Option Nat
  | 0 => none
  | count + 1 =>
    let lexer := lexer.advanceTo stop
    if lexer.wentNegative then none
    else if lexer.pos == stop && lexer.balanced then some stop
    else lexer.firstBalanced (stop + 1) count

/-- The first end from `stop` up to `limit` at which a span from `start` is balanced. -/
def findBalancedEnd (text : Text) (start stop limit : Nat) : Option Nat :=
  (Lexer.start text start).firstBalanced stop (min limit text.length + 1 - stop)

/-- The offset just past the brace that closes the first brace opened at or after `pos`. -/
def matchingBraceEnd (text : Text) (pos : Nat) : Option Nat :=
  match text.findFrom? ['{'] pos with
  | none => none
  | some brace => findBalancedEnd text brace (brace + 1) text.length

end ScriptSplit
