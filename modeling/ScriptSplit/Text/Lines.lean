import ScriptSplit.Text.Class

/-!
# Lines, blanks and other cuts of a text

A text is a list of characters, so that offsets count characters. Lines end at every line boundary
and a carriage return directly before a line feed belongs to the same boundary.
-/

namespace ScriptSplit

abbrev Text := List Char

instance : Coe String Text := ⟨String.toList⟩

namespace Text

def slice (text : Text) (start stop : Nat) : Text :=
  (text.take stop).drop start

/-- Splits after the first line boundary. -/
def cutLine : Text → Text × Text
  | [] => ([], [])
  | '\r' :: '\n' :: rest => (['\r', '\n'], rest)
  | c :: rest =>
    if isLineBoundary c then ([c], rest)
    else
      let (line, after) := cutLine rest
      (c :: line, after)

theorem length_cutLine_snd_le (text : Text) : (cutLine text).2.length ≤ text.length := by
  fun_induction cutLine text <;> grind

theorem length_cutLine_snd_lt (c : Char) (rest : Text) :
    (cutLine (c :: rest)).2.length < (c :: rest).length := by
  unfold cutLine
  split <;> grind [length_cutLine_snd_le]

/-- The lines of a text with the boundaries that end them. -/
def lines (text : Text) : List Text :=
  match text with
  | [] => []
  | c :: rest => (cutLine (c :: rest)).1 :: lines (cutLine (c :: rest)).2
termination_by text.length
decreasing_by exact length_cutLine_snd_lt c rest

/-- A text without one line feed at its end. -/
def dropFinalNewline (text : Text) : Text :=
  if text.getLast? == some '\n' then text.dropLast else text

def stripLeft (text : Text) : Text :=
  text.dropWhile isBlank

def stripRight (text : Text) : Text :=
  (text.reverse.dropWhile isBlank).reverse

def strip (text : Text) : Text :=
  stripRight (stripLeft text)

def isBlankText (text : Text) : Bool :=
  text.all isBlank

def find? (text needle : Text) : Option Nat :=
  match text with
  | [] => if needle.isEmpty then some 0 else none
  | c :: rest =>
    if needle.isPrefixOf (c :: rest) then some 0 else (find? rest needle).map (· + 1)

def findFrom? (text needle : Text) (start : Nat) : Option Nat :=
  if text.length < start then none else (find? (text.drop start) needle).map (· + start)

def findLast? (text needle : Text) : Option Nat :=
  match text with
  | [] => if needle.isEmpty then some 0 else none
  | c :: rest =>
    match findLast? rest needle with
    | some found => some (found + 1)
    | none => if needle.isPrefixOf (c :: rest) then some 0 else none

/-- The offset just after the last line feed before `offset`, or 0. -/
def lineStart (text : Text) (offset : Nat) : Nat :=
  match findLast? (text.take offset) ['\n'] with
  | some newline => newline + 1
  | none => 0

end Text

end ScriptSplit
