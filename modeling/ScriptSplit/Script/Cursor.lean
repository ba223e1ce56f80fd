import ScriptSplit.Script.Lexeme
import ScriptSplit.Script.Tree

/-!
# Reading lexemes

A parser is a function on cursors that may refuse; then it says at which offset the text went
wrong. A cursor stands between two lexemes; white space and comments in front of a lexeme are passed
over when the lexeme is read, so that the end of the last lexeme read is also the end of the
construct read last.
-/

namespace ScriptSplit.Script

structure Cursor where
  pos : Nat
  rest : Text

/-- A parser that yields a value and a later place, or the offset at which it refuses. -/
abbrev Parser := StateT Cursor (Except Nat)

namespace Parser

/-- Refuses at the next lexeme. -/
def refuse {α : Type} : Parser α := fun c =>
  .error (c.pos + Lexeme.trivia false c.rest)

def take (n : Nat) : Parser String := do
  let c ← get
  set { pos := c.pos + n, rest := c.rest.drop n : Cursor }
  return String.ofList (c.rest.take n)

/-- What follows the white space and comments ahead. -/
def ahead : Parser Text := do
  let c ← get
  return c.rest.drop (Lexeme.trivia false c.rest)

def skip : Parser Unit := do
  let c ← get
  discard <| take (Lexeme.trivia false c.rest)

/-- Passes over white space and comments where an operand may stand. There a markup comment is one
too. -/
def skipToOperand : Parser Unit := do
  let c ← get
  discard <| take (Lexeme.trivia true c.rest)

def mark : Parser Nat := do
  skip
  return (← get).pos

/-- The offset just past the last lexeme. -/
def here : Parser Nat := do
  return (← get).pos

def word? : Parser (Option String) := do
  let text ← ahead
  return (Lexeme.name? text).map fun n => String.ofList (text.take n)

def atPunctuator (p : String) : Parser Bool := do
  return Lexeme.punctuator (← ahead) == p

def atWord (w : String) : Parser Bool := do
  return (← word?) == some w

def punctuator (p : String) : Parser Unit := do
  unless (← atPunctuator p) do refuse
  skip
  discard <| take p.length

def optional (p : String) : Parser Bool := do
  if (← atPunctuator p) then
    punctuator p
    return true
  else return false

def keyword (w : String) : Parser Unit := do
  unless (← atWord w) do refuse
  skip
  discard <| take w.length

def optionalKeyword (w : String) : Parser Bool := do
  if (← atWord w) then
    keyword w
    return true
  else return false

def node (kind : Kind) (start : Nat) (children : List Tree) : Parser Tree := do
  return .node { kind, role := none, start, stop := ← here, text := "" } children

def leaf (kind : Kind) (n : Nat) : Parser Tree := do
  skip
  let start ← here
  let text ← take n
  return .node { kind, role := none, start, stop := start + n, text } []

def lexeme (kind : Kind) (recognise : Text → Option Nat) : Parser Tree := do
  match recognise (← ahead) with
  | some n => leaf kind n
  | none => refuse

def reservedWords : List String :=
  ["break", "case", "catch", "class", "const", "continue", "debugger", "default", "delete", "do",
    "else", "export", "extends", "false", "finally", "for", "function", "if", "import", "in",
    "instanceof", "new", "null", "return", "super", "switch", "this", "throw", "true", "try",
    "typeof", "var", "void", "while", "with"]

def isReserved (w : String) : Bool := reservedWords.contains w

def identifier : Parser Tree := do
  match (← word?) with
  | some w => if isReserved w then refuse else leaf .identifier w.length
  | none => refuse

/-- Reads a name that an expression refers to. There the word `export` is a name as well. -/
def reference : Parser Tree := do
  if (← atWord "export") then leaf .identifier "export".length else identifier

def atLineEnd (inExpression : Bool) : Parser Bool := do
  return (Lexeme.automaticSemicolon? inExpression (← get).rest).isSome

/-- Moves to the place where a semicolon is supplied, if there is one. A comment in front of that
place then belongs to the statement. -/
def suppliedSemicolon (inExpression : Bool) : Parser Bool := do
  match Lexeme.automaticSemicolon? inExpression (← get).rest with
  | some n =>
    discard <| take n
    return true
  | none => return false

/-- Reads the end of a statement: a semicolon, or a place where one is supplied. -/
def semicolon (inExpression : Bool) : Parser Unit := do
  unless (← suppliedSemicolon inExpression) do punctuator ";"

/-- Reads the end of a statement where nothing at all will do as well. -/
def optionalSemicolon : Parser Unit := do
  unless (← suppliedSemicolon false) do discard <| optional ";"

def lookAhead {α : Type} (p : Parser α) : Parser α := do
  let c ← get
  let a ← p
  set c
  return a

def succeeds {α : Type} (p : Parser α) : Parser Bool := fun c =>
  .ok ((p c).isOk, c)

/-- Runs a parser that says when the repetition is over, at most `fuel` times. -/
def collect {α : Type} (p : Parser (Option α)) : Nat → Parser (List α)
  | 0 => refuse
  | fuel + 1 => do
    match (← p) with
    | some a => return a :: (← collect p fuel)
    | none => return []

/-- Repeats a parser that reads at least one character each time until it says that it is over. -/
def many {α : Type} (p : Parser (Option α)) : Parser (List α) := do
  collect p ((← get).rest.length + 1)

/-- Feeds a value through a parser that reads at least one character each time until it says that
it is over. -/
def iterate {α : Type} (p : α → Parser (Option α)) : Nat → α → Parser α
  | 0, _ => refuse
  | fuel + 1, a => do
    match (← p a) with
    | some b => iterate p fuel b
    | none => return a

/-- `iterate` for as long as the text lasts. -/
def extend {α : Type} (a : α) (p : α → Parser (Option α)) : Parser α := do
  iterate p ((← get).rest.length + 1) a

end Parser

end ScriptSplit.Script
