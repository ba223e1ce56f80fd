import ScriptSplit.Text.Lines

/-!
# The brace lexer

A tolerant lexer that only knows where braces count: outside comments, quoted strings and the
literal text of templates. An interpolation inside a template is code again. Regular expression
literals are not told apart from division.

The lexer reads one or two characters at a step and looks at most one character ahead, so its
state after any number of characters does not depend on where it was stopped on the way.
-/

namespace ScriptSplit

/-- What the characters at the lexer's position belong to. -/
inductive Lexer.Mode where
  | code
  | lineComment
  | blockComment
  | string
  | template
  deriving DecidableEq, Repr

/-- Everything the lexer remembers of the characters it has read. -/
structure Lexer.State where
  mode : Mode
  /-- Open braces less closed ones since the innermost interpolation was entered. -/
  depth : Int
  /-- Whether a brace was ever closed that none had opened. -/
  wentNegative : Bool
  /-- The quote that opened the last string. -/
  quote : Option Char
  /-- The depths at which the surrounding interpolations were entered, innermost first. -/
  saved : List Int
  deriving DecidableEq, Repr

namespace Lexer.State

def initial : State where
  mode := .code
  depth := 0
  wentNegative := false
  quote := none
  saved := []

/-- Nothing is open and nothing was closed too often. -/
def balanced (s : State) : Bool :=
  s.mode == .code && s.saved.isEmpty && s.depth == 0 && !s.wentNegative

/-- Whether the character `c`, followed by `next`, is read together with `next`. -/
def takesPair (s : State) (c : Char) (next : Option Char) : Bool :=
  match s.mode with
  | .lineComment => false
  | .blockComment => c == '*' && next == some '/'
  | .string => c == '\\'
  | .template => c == '\\' || (c == '$' && next == some '{')
  | .code => c == '/' && (next == some '/' || next == some '*')

def close (s : State) : State :=
  match s.saved with
  | outer :: saved =>
    if s.depth = 0 then { s with depth := outer, saved, mode := .template }
    else { s with depth := s.depth - 1, wentNegative := s.wentNegative || s.depth - 1 < 0 }
  | [] => { s with depth := s.depth - 1, wentNegative := s.wentNegative || s.depth - 1 < 0 }

/-- The state after the character `c`, which is followed by `next`. -/
def after (s : State) (c : Char) (next : Option Char) : State :=
  match s.mode with
  | .lineComment => if Text.isNewline c then { s with mode := .code } else s
  | .blockComment => if c == '*' && next == some '/' then { s with mode := .code } else s
  | .string =>
    if c == '\\' then s
    else if s.quote == some c || Text.isNewline c then { s with mode := .code }
    else s
  | .template =>
    if c == '\\' then s
    else if c == '`' then { s with mode := .code }
    else if c == '$' && next == some '{' then
      { s with mode := .code, depth := 0, saved := s.depth :: s.saved }
    else s
  | .code =>
    if c == '/' && next == some '/' then { s with mode := .lineComment }
    else if c == '/' && next == some '*' then { s with mode := .blockComment }
    else if c == '"' || c == '\'' then { s with mode := .string, quote := some c }
    else if c == '`' then { s with mode := .template }
    else if c == '{' then { s with depth := s.depth + 1 }
    else if c == '}' then s.close
    else s

end Lexer.State

/-- A lexer at the offset `pos` of a text of which `rest` is still to be read. -/
structure Lexer extends Lexer.State where
  pos : Nat
  rest : Text
  deriving DecidableEq, Repr

namespace Lexer

def start (text : Text) (pos : Nat) : Lexer where
  toState := .initial
  pos
  rest := text.drop pos

/-- Reads one or two characters; at the end of the text nothing happens. -/
def step (lexer : Lexer) : Lexer :=
  match lexer.rest with
  | [] => lexer
  | c :: rest =>
    let state := lexer.toState.after c rest.head?
    if lexer.toState.takesPair c rest.head? then
      { toState := state, pos := lexer.pos + 2, rest := rest.drop 1 }
    else
      { toState := state, pos := lexer.pos + 1, rest }

theorem length_rest_step_lt (lexer : Lexer) (h : lexer.rest ≠ []) :
    lexer.step.rest.length < lexer.rest.length := by
  unfold step
  split
  · contradiction
  · next c rest heq =>
    rw [heq]
    dsimp only
    split <;> simp only [List.length_drop, List.length_cons] <;> omega

/-- Reads on until the offset `target` or the end of the text is reached. -/
def advanceTo (lexer : Lexer) (target : Nat) : Lexer :=
  if h : lexer.pos < target ∧ lexer.rest ≠ [] then
    have := length_rest_step_lt lexer h.2
    lexer.step.advanceTo target
  else
    lexer
termination_by lexer.rest.length

end Lexer

end ScriptSplit
