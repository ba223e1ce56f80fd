import ScriptSplit.Script.Grammar.Statement
import ScriptSplit.Script.Grammar.Markup

/-!
# Parsing scripts

The grammar is tied together here: the parsers of one level of nesting are built from those of the
level below, and a text of `n` characters nests less than `n` levels deep.
-/

namespace ScriptSplit.Script

/-- The grammar of constructs that nest at most so deep. -/
def Grammar.ofDepth : Nat → Grammar
  | 0 => { expression := fun _ => Parser.refuse, statement := Parser.refuse, markup := Parser.refuse }
  | depth + 1 =>
    let parts := ofDepth depth
    { expression := parts.chain
      statement := parts.anyStatement
      markup := parts.markupElement }

open ScriptSplit.Script.Parser in
def program (g : Grammar) : Parser Tree := do
  skipToOperand
  match (← get).rest with
  | '#' :: '!' :: rest => discard <| take (2 + (rest.takeWhile (· != '\n')).length)
  | _ => pure ()
  let statements ← many do
    skipToOperand
    if (← get).rest.isEmpty then return none else return some (← g.statement)
  node .program 0 statements

/-- Reads a text as a program; where it is none, yields the offset at which it goes wrong. -/
def readProgram (text : Text) : Except Nat Tree :=
  match program (Grammar.ofDepth (text.length + 2)) { pos := 0, rest := text } with
  | .ok (t, _) =>
    match t.preorder.find? (·.kind == .coverInitializer) with
    | some wrong => .error wrong.start
    | none => .ok t
  | .error offset => .error offset

/-- The syntax tree of a text that is a program from its first to its last character. -/
def parseProgram? (text : Text) : Option Tree :=
  (readProgram text).toOption

def isProgram (text : Text) : Bool :=
  (parseProgram? text).isSome

end ScriptSplit.Script
