import ScriptSplit.Text.Search

/-!
# Header of a source

The comments, directives and blank lines at the top of a source, which its bridge repeats. The first
line of code ends the header, so that no state of the source is copied.
-/

namespace ScriptSplit

namespace Header

def isDirective : Text → Bool
  | [] => false
  | quote :: rest =>
    let isQuote (c : Char) : Bool := c == '"' || c == '\''
    isQuote quote &&
      match rest.dropWhile (!isQuote ·) with
      | closing :: after => closing == quote && (after.isEmpty || after == [';'])
      | [] => false

/-- Whether a header goes on with a line, given without blanks at its ends, and whether a block
comment is open after it. -/
def step (inBlock : Bool) (line : Text) : Option Bool :=
  let closes (text : Text) : Bool := (text.find? "*/").isSome
  if inBlock then some (!closes line)
  else if "/*".toList.isPrefixOf line then
    if !closes (line.drop 2) then some true
    else if "*/".toList.isSuffixOf line then some false
    else none
  else if line.isEmpty || "//".toList.isPrefixOf line || isDirective line then some false
  else none

def dropNewlines (line : Text) : Text :=
  (line.reverse.dropWhile Text.isNewline).reverse

def take (stop : Option Nat) (offset : Nat) (inBlock : Bool) : List Text → List Text
  | [] => []
  | line :: rest =>
    let next := offset + line.length
    if stop.any (· < next) then []
    else
      match step inBlock (Text.strip line) with
      | some inBlock => dropNewlines line :: take stop next inBlock rest
      | none => []

end Header

/-- The header of a source: the lines before the first line of code and before the line that holds the
offset `stop`, without blank lines at the end. -/
def headerLines (source : Text) (stop : Option Nat) : List Text :=
  ((Header.take stop 0 false source.lines).reverse.dropWhile Text.isBlankText).reverse

end ScriptSplit
