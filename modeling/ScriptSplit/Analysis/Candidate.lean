import ScriptSplit.Analysis.Cues
import ScriptSplit.Source.Repair

/-!
# Candidates

Functions found in a script before it is decided which of them are kept: a function inside the span
of another is dropped. When the syntax tree cannot be trusted, candidates are found by patterns in
the text alone, and none of them counts as moveable.
-/

namespace ScriptSplit

structure Candidate where
  name : String
  start : Nat
  stop : Nat
  exported : Bool := false
  moveable : Bool := false
  used : List String := []
  free : List String := []
  params : List String := []
  locals : List String := []
  callees : List String := []
  deriving DecidableEq, Repr

namespace Candidate

/-- Earlier ones first, and of two with one start the longer. -/
def before (a b : Candidate) : Bool :=
  if a.start = b.start then b.stop ≤ a.stop else a.start < b.start

def covers (outer inner : Candidate) : Bool :=
  outer.start ≤ inner.start && inner.stop ≤ outer.stop

def keepOuter (kept : List Candidate) : List Candidate → List Candidate
  | [] => []
  | c :: rest =>
    if kept.any (·.covers c) then keepOuter kept rest else c :: keepOuter (c :: kept) rest

def dedupe (candidates : List Candidate) : List Candidate :=
  keepOuter [] (candidates.mergeSort before)

end Candidate

namespace PatternScan

def functionAt : Text.Recogniser String := fun before text =>
  if before.any Text.isWord then none
  else do
    let rest ← Text.afterWord? "function" text
    let rest ← Text.afterBlanks? rest
    let (name, rest) ← Text.spanName? rest
    match Text.skipBlanks rest with
    | '(' :: after => some (String.ofList name, text.length - after.length)
    | _ => none

/-- What follows the first character of a value that may be a function. -/
def valueStart? (text : Text) : Option Text :=
  match Text.afterWord? "function" text with
  | some rest => some rest
  | none =>
    match text with
    | c :: rest => if c == '(' || Text.isNameStart c then some rest else none
    | [] => none

/-- What follows the first character of a value, past the word `async` where that leaves a
value. -/
def asyncValueStart? (text : Text) : Option Text :=
  match (Text.afterWord? "async" text).bind fun rest => valueStart? (Text.skipBlanks rest) with
  | some rest => some rest
  | none => valueStart? text

/-- Recognises a variable with an initial value that may be a function. -/
def variableAt : Text.Recogniser String := fun before text =>
  if before.any Text.isWord then none
  else
    ["var", "let", "const"].findSome? fun word => do
      let rest ← Text.afterWord? word text
      let rest ← Text.afterBlanks? rest
      let (name, rest) ← Text.spanName? rest
      match Text.skipBlanks rest with
      | '=' :: rest =>
        let after ← asyncValueStart? (Text.skipBlanks rest)
        some (String.ofList name, text.length - after.length)
      | _ => none

def candidate (text : Text) (found : Text.Found String) (stop : Nat) : Candidate where
  name := found.value
  start := (docCommentStart text found.start).getD found.start
  stop
  exported := looksExported text found.start

def functionEnd (text : Text) (pos : Nat) : Nat :=
  (matchingBraceEnd text pos).getD text.length

def statementEnd? (text : Text) (pos : Nat) : Option Nat :=
  ((text.drop pos).findIdx? fun c => c == ';' || c == '\n').map (· + pos + 1)

/-- The end of a variable whose value begins just before `pos`: the end of its statement, or the
end of its braces where these come first. -/
def variableEnd (text : Text) (pos : Nat) : Nat :=
  match statementEnd? text pos, text.findFrom? ['{'] pos with
  | some stop, none => stop
  | some stop, some brace => if stop ≤ brace then stop else functionEnd text pos
  | none, _ => functionEnd text pos

/-- All candidates that patterns find: functions first, then variables. -/
def candidates (text : Text) : List Candidate :=
  (Text.findAll functionAt text).map (fun f => candidate text f (functionEnd text f.stop)) ++
    (Text.findAll variableAt text).map fun f => candidate text f (variableEnd text f.stop)

end PatternScan

end ScriptSplit
