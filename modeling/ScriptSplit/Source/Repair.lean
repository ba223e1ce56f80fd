import ScriptSplit.Source.Balance

/-!
# Span repair

Stored spans drift when the source is edited, and spans of a tolerant parse are approximate. A span
is trusted when it is balanced, or when a caller's own check accepts the text it covers. Otherwise
its start is pulled back over braces it closes without opening, its end is moved forward to the
first trustworthy offset, and failing that to the next declaration or to the end of the text.
-/

namespace ScriptSplit

namespace Repair

/-- How far past the reported end a balanced boundary is looked for. -/
def lookahead : Nat := 4096

/-- How far before the reported start missing open braces are looked for. -/
def lookbehind : Nat := 1024

/-- How often the caller's check is asked for one span. -/
def maxAttempts : Nat := 64

/-- A caller's check that a piece of text stands on its own. -/
abbrev Check := Text → Bool

/-- The offset of the `need`-th open brace, read backwards over `before`, which ends at `stop`. -/
def openBraceBefore (before : Text) (stop need : Nat) : Option Nat :=
  match before with
  | [] => none
  | c :: earlier =>
    if c == '{' then
      if need ≤ 1 then some (stop - 1) else openBraceBefore earlier (stop - 1) (need - 1)
    else openBraceBefore earlier (stop - 1) need

/-- Moves `start` back over enough open braces to cover the surplus closing ones of the span. -/
def pullBackStart (text : Text) (start stop : Nat) : Nat :=
  let span := text.slice start stop
  let need := span.count '}' - span.count '{'
  if need = 0 then start
  else
    let before := text.slice (start - lookbehind) start
    (openBraceBefore before.reverse start need).getD start

/-- Whether a check is worth asking for at `stop`: at the reported end, and after a character
that may end a statement. -/
def atStatementEnd (text : Text) (reported stop : Nat) : Bool :=
  stop == reported ||
    match text[stop - 1]? with
    | some c => c == '}' || c == ';' || c == '\n'
    | none => false

/-- Tries the `count` offsets from `stop` on, asking `check` at most `attempts` more times. -/
def firstGoodEndFrom (text : Text) (start reported : Nat) (check : Option Check)
    (lexer : Lexer) (attempts stop : Nat) : Nat → Option Nat
  | 0 => none
  | count + 1 =>
    let lexer := lexer.advanceTo stop
    if lexer.pos == stop && lexer.balanced then some stop
    else
      match check, attempts with
      | some accepts, attempts + 1 =>
        if atStatementEnd text reported stop then
          if accepts (text.slice start stop) then some stop
          else firstGoodEndFrom text start reported check lexer attempts (stop + 1) count
        else firstGoodEndFrom text start reported check lexer (attempts + 1) (stop + 1) count
      | _, attempts =>
        firstGoodEndFrom text start reported check lexer attempts (stop + 1) count

/-- The first end from `stop` up to `limit` at which the span is balanced or passes the check. -/
def firstGoodEnd (text : Text) (start stop limit : Nat) (check : Option Check) : Option Nat :=
  firstGoodEndFrom text start stop check (Lexer.start text start) maxAttempts stop
    (limit + 1 - stop)

def afterKeyword? (keyword : String) (text : Text) : Option Text :=
  if keyword.toList.isPrefixOf text then
    match text.drop keyword.length with
    | [] => none
    | c :: rest => if Text.isBlank c then some (rest.dropWhile Text.isBlank) else none
  else none

def startsDeclaration (text : Text) : Bool :=
  ["function", "var", "let", "const"].any (fun word => (afterKeyword? word text).isSome) ||
    match afterKeyword? "async" text with
    | some rest => (afterKeyword? "function" rest).isSome
    | none => false

/-- Whether `text` starts with a line end after which, past blanks, a declaration begins. -/
def declarationFollows : Text → Bool
  | '\r' :: '\n' :: rest => startsDeclaration (rest.dropWhile Text.isBlank)
  | '\n' :: rest => startsDeclaration (rest.dropWhile Text.isBlank)
  | _ => false

def nextDeclarationFrom (offset : Nat) : Text → Option Nat
  | [] => none
  | c :: rest =>
    if declarationFollows (c :: rest) then some offset else nextDeclarationFrom (offset + 1) rest

/-- The line end, at or after `offset`, in front of the next declaration. -/
def nextDeclaration (text : Text) (offset : Nat) : Option Nat :=
  nextDeclarationFrom offset (text.drop offset)

inductive Method where
  | ok
  | backward
  | forward
  | snap
  | eof
  deriving DecidableEq, Repr

def Method.name : Method → String
  | .ok => "ok"
  | .backward => "backward"
  | .forward => "forward"
  | .snap => "snap"
  | .eof => "eof"

end Repair

structure Repair where
  start : Nat
  stop : Nat
  method : Repair.Method
  deriving DecidableEq, Repr

namespace Repair

def degraded (repair : Repair) : Bool :=
  repair.method == .snap || repair.method == .eof

def accepted (text : Text) (check : Option Check) (start stop : Nat) : Bool :=
  isBalanced text start stop ||
    match check with
    | some accepts => accepts (text.slice start stop)
    | none => false

/-- The last resort for a span that is open to the end of the text. -/
def guess (text : Text) (start stop : Nat) : Repair :=
  match nextDeclaration text stop with
  | some line => { start, stop := line, method := .snap }
  | none => { start, stop := text.length, method := .eof }

/-- Moves the end of a rejected span forward; `method` says whether its start was moved. -/
def extend (text : Text) (check : Option Check) (start stop : Nat) (method : Method) : Repair :=
  match firstGoodEnd text start stop text.length check with
  | some good => { start, stop := good, method }
  | none => guess text start stop

end Repair

/-- A trustworthy end for the span from `start` to `stop`: the first good end at most `lookahead`
characters on, or `stop` itself. -/
def validateEnd (text : Text) (start stop : Nat) (check : Option Repair.Check) : Nat :=
  let stop := min stop text.length
  let limit := min text.length (stop + Repair.lookahead)
  let from_ := Repair.pullBackStart text start stop
  (Repair.firstGoodEnd text from_ stop limit check).getD stop

/-- Checks a stored span against the text as it is now and mends it where it does not fit. -/
def repairSpan (text : Text) (start stop : Nat) (check : Option Repair.Check) : Repair :=
  let stop := min (max start stop) text.length
  if Repair.accepted text check start stop then { start, stop, method := .ok }
  else
    let pulled := Repair.pullBackStart text start stop
    if pulled = start then Repair.extend text check start stop .forward
    else
      let start := text.lineStart pulled
      if Repair.accepted text check start stop then { start, stop, method := .backward }
      else Repair.extend text check start stop .backward

end ScriptSplit
