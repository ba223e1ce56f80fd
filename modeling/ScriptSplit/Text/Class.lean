import ScriptSplit.Text.WordTable
import ScriptSplit.Text.PrintTable

/-!
# Character classes

The classes that the text patterns of the library use: blank characters, line boundaries, word
characters, printable characters and the characters of identifiers.
-/

namespace ScriptSplit.Text

/-- White space: the ASCII blanks and separators and every Unicode space or line separator. -/
def isBlank (c : Char) : Bool :=
  let n := c.toNat
  (9 ≤ n && n ≤ 13) || (0x1C ≤ n && n ≤ 0x20) || n == 0x85 || n == 0xA0 || n == 0x1680 ||
    (0x2000 ≤ n && n ≤ 0x200A) || n == 0x2028 || n == 0x2029 || n == 0x202F || n == 0x205F ||
    n == 0x3000

def isLineBoundary (c : Char) : Bool :=
  let n := c.toNat
  (10 ≤ n && n ≤ 13) || (0x1C ≤ n && n ≤ 0x1E) || n == 0x85 || n == 0x2028 || n == 0x2029

/-- A carriage return or a line feed. -/
def isNewline (c : Char) : Bool :=
  c == '\n' || c == '\r'

def isAsciiDigit (c : Char) : Bool :=
  '0' ≤ c && c ≤ '9'

def isAsciiLower (c : Char) : Bool :=
  'a' ≤ c && c ≤ 'z'

def isAsciiUpper (c : Char) : Bool :=
  'A' ≤ c && c ≤ 'Z'

def isAsciiLetter (c : Char) : Bool :=
  isAsciiLower c || isAsciiUpper c

def isHexDigit (c : Char) : Bool :=
  isAsciiDigit c || ('a' ≤ c && c ≤ 'f') || ('A' ≤ c && c ≤ 'F')

/-- A letter, a number of any script, or the low line. -/
def isWord (c : Char) : Bool :=
  if c.toNat < 128 then isAsciiLetter c || isAsciiDigit c || c == '_'
  else letterOrNumberRanges.contains c.toNat

def isDecimalDigit (c : Char) : Bool :=
  if c.toNat < 128 then isAsciiDigit c else decimalDigitRanges.contains c.toNat

/-- The value of a decimal digit of any script. Every script has its ten digits in a row. -/
def digitValue? (c : Char) : Option Nat :=
  if isAsciiDigit c then some (c.toNat - '0'.toNat)
  else (decimalDigitRanges.find? fun range => range.1 ≤ c.toNat && c.toNat ≤ range.2).map
    fun range => (c.toNat - range.1) % 10

def isPrintable (c : Char) : Bool :=
  if c.toNat < 128 then 0x20 ≤ c.toNat && c.toNat < 0x7F
  else !unprintableRanges.contains c.toNat

/-- A character that may start a name: an ASCII letter, the low line or a dollar sign. -/
def isNameStart (c : Char) : Bool :=
  isAsciiLetter c || c == '_' || c == '$'

/-- A character that may continue a name: a word character or a dollar sign. -/
def isNamePart (c : Char) : Bool :=
  isWord c || c == '$'

end ScriptSplit.Text
