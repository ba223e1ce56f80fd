import ScriptSplit.Text.Lines

/-!
# Searching a text

A recogniser looks at the head of a text, knowing the character before it, and answers with a value
and the number of characters it took. Searching applies it from left to right without overlaps.
-/

namespace ScriptSplit.Text

/-- Recognises something at the head of a text, given the character before it. The count of
characters is positive. -/
abbrev Recogniser (α : Type) := Option Char → Text → Option (α × Nat)

structure Found (α : Type) where
  value : α
  start : Nat
  stop : Nat

/-- All finds in a text that begins at `offset` after the character `before`, once `skip` more
characters have been passed. -/
def findAllFrom {α : Type} (recognise : Recogniser α) (offset : Nat) (before : Option Char)
    (skip : Nat) : Text → List (Found α)
  | [] => []
  | c :: rest =>
    if 0 < skip then findAllFrom recognise (offset + 1) (some c) (skip - 1) rest
    else
      match recognise before (c :: rest) with
      | some (value, n) =>
        { value, start := offset, stop := offset + n } ::
          findAllFrom recognise (offset + 1) (some c) (n - 1) rest
      | none => findAllFrom recognise (offset + 1) (some c) 0 rest

/-- All finds in a text, from left to right and without overlaps. -/
def findAll {α : Type} (recognise : Recogniser α) (text : Text) : List (Found α) :=
  findAllFrom recognise 0 none 0 text

/-- The text from a place on, after the character `before` and once `skip` more characters have been
left out, with every find replaced by its value. -/
def replaceFrom (recognise : Recogniser Text) (before : Option Char) (skip : Nat) : Text → Text
  | [] => []
  | c :: rest =>
    if 0 < skip then replaceFrom recognise (some c) (skip - 1) rest
    else
      match recognise before (c :: rest) with
      | some (value, n) => value ++ replaceFrom recognise (some c) (n - 1) rest
      | none => c :: replaceFrom recognise (some c) 0 rest

def replaceAll (recognise : Recogniser Text) (text : Text) : Text :=
  replaceFrom recognise none 0 text

def afterWord? (word : String) (text : Text) : Option Text :=
  if word.toList.isPrefixOf text then some (text.drop word.length) else none

def skipBlanks (text : Text) : Text :=
  text.dropWhile isBlank

/-- What follows the blanks at the head of a text, of which there is at least one. -/
def afterBlanks? : Text → Option Text
  | [] => none
  | c :: rest => if isBlank c then some (skipBlanks rest) else none

def spanName? : Text → Option (Text × Text)
  | [] => none
  | c :: rest =>
    if isNameStart c then some (c :: rest.takeWhile isNamePart, rest.dropWhile isNamePart)
    else none

def isName (text : Text) : Bool :=
  match text with
  | [] => false
  | c :: rest => isNameStart c && rest.all isNamePart

def splitAny (isSeparator : Char → Bool) : Text → List Text
  | [] => [[]]
  | c :: rest =>
    if isSeparator c then [] :: splitAny isSeparator rest
    else
      match splitAny isSeparator rest with
      | [] => [[c]]
      | part :: more => (c :: part) :: more

def isIndent (c : Char) : Bool := c == ' ' || c == '\t'

/-- Whether a text whose last character was `before` goes on at the start of a line. -/
def atLineStart (before : Option Char) : Bool :=
  before.all (· == '\n')

def startsWithWord (word : String) (text : Text) : Bool :=
  match afterWord? word text with
  | some rest => !rest.head?.any isWord
  | none => false

def unlines (lines : List Text) : Text :=
  lines.flatMap (· ++ ['\n'])

/-- The two sides of the first `as` between spaces, if there is one. -/
def splitAlias? (item : Text) : Option (Text × Text) :=
  (find? item " as ").map fun n => (strip (item.take n), strip (item.drop (n + 4)))

/-- The entries of a list with commas between them, without blanks around them; empty ones are
left out. -/
def commaList (text : Text) : List Text :=
  ((splitAny (· == ',') text).map strip).filter (!·.isEmpty)

end ScriptSplit.Text
