import ScriptSplit.Script.Cursor
import ScriptSplit.Script.Pattern

/-!
# The grammar: parts shared by expressions and statements

The parsers of the constructs that contain each other are fields of a `Grammar`. A parser of a
compound construct takes the grammar of its parts as an argument, and the whole is built in levels,
each from the level below, so that no parser calls itself.

Where the end of a statement may be supplied, an expression is read with the flag `ends` set: then
a line end that ends the statement also ends the expression.
-/

namespace ScriptSplit.Script

/-- The parsers of the parts of a construct. -/
structure Grammar where
  /-- One expression without commas. -/
  expression : (ends : Bool) → Parser Tree
  statement : Parser Tree
  /-- A markup element, from its opening bracket on. -/
  markup : Parser Tree

namespace Grammar

open ScriptSplit.Script.Parser

/-- The items of a bracketed list, and whether it is a plain one. -/
structure Items where
  items : List Tree
  /-- A comma stood where an item was expected. -/
  holes : Bool
  /-- The last item is followed by a comma. -/
  trailing : Bool

/-- A list being read: the items so far, last first. -/
structure Items.State where
  seen : List Tree := []
  holes : Bool := false
  afterItem : Bool := false

def items (close : String) (item : Parser Tree) : Parser Items := do
  let done ← extend ({} : Items.State) fun s => do
    if (← atPunctuator close) then return none
    else if s.afterItem then
      punctuator ","
      return some { s with afterItem := false }
    else if (← optional ",") then return some { s with holes := true }
    else
      let t ← item
      return some { s with seen := t :: s.seen, afterItem := true }
  punctuator close
  return { items := done.seen.reverse, holes := done.holes,
           trailing := !done.seen.isEmpty && !done.afterItem }

def spreadOr (g : Grammar) : Parser Tree := do
  if (← atPunctuator "...") then
    let start ← mark
    punctuator "..."
    let inner ← g.expression false
    node .spread start [inner]
  else g.expression false

def expressions (g : Grammar) (ends : Bool) : Parser Tree := do
  let first ← g.expression ends
  let more ← many do
    if ends && (← atLineEnd true) then return none
    else if (← optional ",") then return some (← g.expression ends)
    else return none
  if more.isEmpty then return first
  else node .sequence first.start (first :: more)

/-- The statements of a block with its braces. A semicolon may be supplied after it. -/
def block (g : Grammar) : Parser Tree := do
  let start ← mark
  punctuator "\x7b"
  let statements ← many do
    if (← atPunctuator "\x7d") then return none
    else return some (← g.statement)
  punctuator "\x7d"
  discard <| suppliedSemicolon true
  node .block start statements

/-- A block, or what `other` reads where there is none. A block that begins with a label might as
well be an object; then `other` is preferred where it reads the text. -/
def blockOr (g : Grammar) (other : Parser Tree) : Parser Tree := fun c =>
  match block g c with
  | .error wrong =>
    match other c with
    | .ok read => .ok read
    | .error otherWrong => .error (max wrong otherWrong)
  | .ok (t, after) =>
    if t.children.head?.any (·.kind == .labeledStatement) then
      match other c with
      | .ok read => .ok read
      | .error _ => .ok (t, after)
    else .ok (t, after)

def formalParameters (g : Grammar) : Parser Tree := do
  let start ← mark
  punctuator "("
  let list ← items ")" (spreadOr g)
  if list.holes then refuse
  match Tree.toElements? list.items with
  | some parameters => node .parameters start parameters
  | none => refuse

def signatureAndBody (g : Grammar) : Parser (List Tree) := do
  let parameters ← formalParameters g
  let body ← block g
  return [parameters.withRole .parameters, body.withRole .body]

def parenthesized (g : Grammar) : Parser Tree := do
  let start ← mark
  punctuator "("
  let inner ← expressions g false
  punctuator ")"
  node .parenthesized start [inner]

def arguments (g : Grammar) : Parser Tree := do
  let start ← mark
  punctuator "("
  let list ← items ")" (spreadOr g)
  node .arguments start list.items

/-- A literal template, whose interpolations are its children. -/
def template (g : Grammar) : Parser Tree := do
  let start ← mark
  discard <| take 1
  let parts ← many do
    match (← get).rest with
    | '`' :: _ => return none
    | '\\' :: _ =>
      match Lexeme.stringEscape? (← get).rest with
      | some n =>
        discard <| take n
        return some []
      | none => refuse
    | '$' :: '{' :: _ =>
      discard <| take 2
      let inner ← expressions g false
      punctuator "\x7d"
      return some [inner]
    | [] => refuse
    | c :: rest =>
      let plain := rest.takeWhile fun c => !(c == '`' || c == '\\' || c == '$')
      discard <| take (1 + plain.length)
      if c.toNat == 0 || plain.any (·.toNat == 0) then refuse
      return some []
  discard <| take 1
  node .template start parts.flatten

def atExpression : Parser Bool := do
  match (← word?) with
  | some w =>
    return !isReserved w || ["function", "class", "new", "this", "super", "null", "true", "false",
      "typeof", "void", "delete", "import", "export"].contains w
  | none =>
    match (← ahead) with
    | [] => return false
    | c :: rest =>
      if c == '"' || c == '\'' || c == '`' || Text.isAsciiDigit c then return true
      else if c == '.' then return rest.head?.any Text.isAsciiDigit
      else
        return ["(", "[", "\x7b", "+", "-", "!", "~", "++", "--", "<", "/", "/=", "@", "#"].contains
          (Lexeme.punctuator (c :: rest))

end Grammar

end ScriptSplit.Script
