import ScriptSplit.Json.Basic
import ScriptSplit.Text.Class

/-!
# Reading JSON

A recursive-descent reader that says where and why it refuses a text. A fault is noted with the
number of characters that were left when it was found; the offset in the text follows from that.
Besides the standard values the words `NaN`, `Infinity` and `-Infinity` are numbers.
-/

namespace ScriptSplit

namespace Json

inductive Fault where
  | expectingValue
  | extraData
  | expectingName
  | expectingColon
  | expectingComma
  | unterminatedString
  | controlCharacter
  | badEscape
  | badUnicodeEscape
  | byteOrderMark
  deriving DecidableEq, Repr

def Fault.what : Fault → String
  | .expectingValue => "Expecting value"
  | .extraData => "Extra data"
  | .expectingName => "Expecting property name enclosed in double quotes"
  | .expectingColon => "Expecting ':' delimiter"
  | .expectingComma => "Expecting ',' delimiter"
  | .unterminatedString => "Unterminated string starting at"
  | .controlCharacter => "Invalid control character at"
  | .badEscape => "Invalid \\escape"
  | .badUnicodeEscape => "Invalid \\uXXXX escape"
  | .byteOrderMark => "Unexpected UTF-8 BOM (decode using utf-8-sig)"

/-- A refusal: a fault and how many characters were left where it lies, or an integer literal with
more digits than are converted. -/
inductive Refusal where
  | fault (fault : Fault) (left : Nat)
  | tooManyDigits (count : Nat)
  deriving DecidableEq, Repr

abbrev Result := Except Refusal

def failAt {α : Type} (fault : Fault) (rest : List Char) : Result α :=
  .error (.fault fault rest.length)

def isSpace (c : Char) : Bool :=
  c == ' ' || c == '\t' || c == '\n' || c == '\r'

def skipSpace (text : List Char) : List Char :=
  text.dropWhile isSpace

def hexValue? (c : Char) : Option Nat :=
  if '0' ≤ c && c ≤ '9' then some (c.toNat - 48)
  else if 'a' ≤ c && c ≤ 'f' then some (c.toNat - 87)
  else if 'A' ≤ c && c ≤ 'F' then some (c.toNat - 55)
  else none

def hexUnit? : List Char → Option Nat
  | [a, b, c, d] => do
    let a ← hexValue? a
    let b ← hexValue? b
    let c ← hexValue? c
    let d ← hexValue? d
    return ((a * 16 + b) * 16 + c) * 16 + d
  | _ => none

/-- Reads the four digits after `\u`, of which `rest` is the text; at least one more character has
to follow them. `fromU` is the text from the `u` on, where a fault is reported. -/
def readUnit (fromU rest : List Char) : Result (Nat × List Char) :=
  if rest.length < 5 then failAt .badUnicodeEscape fromU
  else
    match hexUnit? (rest.take 4) with
    | some unit => .ok (unit, rest.drop 4)
    | none => failAt .badUnicodeEscape fromU

def pairChar (high low : Nat) : Char :=
  Char.ofNat (0x10000 + (high - 0xD800) * 1024 + (low - 0xDC00))

/-- Reads the escape after a backslash and `u`: one unit, or two that form a surrogate pair. Half of a pair alone is no
character and is read as U+0000, so texts that differ in such halves alone are read as one. -/
def readUnicodeEscape (fromU rest : List Char) : Result (Char × List Char) := do
  let (unit, rest) ← readUnit fromU rest
  if 0xD800 ≤ unit ∧ unit ≤ 0xDBFF then
    match rest with
    | '\\' :: 'u' :: digits =>
      if digits.length < 5 then return (Char.ofNat unit, rest)
      let (low, after) ← readUnit ('u' :: digits) digits
      if 0xDC00 ≤ low ∧ low ≤ 0xDFFF then return (pairChar unit low, after)
      return (Char.ofNat unit, rest)
    | _ => return (Char.ofNat unit, rest)
  else return (Char.ofNat unit, rest)

def escaped? : Char → Option Char
  | '"' => some '"'
  | '\\' => some '\\'
  | '/' => some '/'
  | 'b' => some '\x08'
  | 'f' => some '\x0c'
  | 'n' => some '\n'
  | 'r' => some '\r'
  | 't' => some '\t'
  | _ => none

/-- Reads a string literal after its opening quote. `opening` is the text from that quote on. -/
def readString (opening : List Char) (fuel : Nat) (seen : List Char) (text : List Char) :
    Result (String × List Char) :=
  match fuel, text with
  | _, [] => failAt .unterminatedString opening
  | 0, _ => failAt .unterminatedString opening
  | fuel + 1, c :: rest =>
    if c == '"' then .ok (String.ofList seen.reverse, rest)
    else if c == '\\' then
      match rest with
      | [] => failAt .unterminatedString opening
      | 'u' :: digits => do
        let (decoded, after) ← readUnicodeEscape rest digits
        readString opening fuel (decoded :: seen) after
      | letter :: after =>
        match escaped? letter with
        | some decoded => readString opening fuel (decoded :: seen) after
        | none => failAt .badEscape (c :: rest)
    else if c.toNat < 0x20 then failAt .controlCharacter (c :: rest)
    else readString opening fuel (c :: seen) rest

def isDigit (c : Char) : Bool :=
  '0' ≤ c && c ≤ '9'

def spanDigits (text : List Char) : List Char × List Char :=
  text.span isDigit

def digitsValue (digits : List Char) : Nat :=
  digits.foldl (fun n c => n * 10 + (c.toNat - 48)) 0

/-- Integer literals with more digits than this are not converted. -/
def maxDigits : Nat := 4300

/-- The fraction at the head of a text: a point and at least one digit. -/
def fractionPart : List Char → List Char × List Char
  | '.' :: rest => if (spanDigits rest).1.isEmpty then ([], '.' :: rest) else spanDigits rest
  | rest => ([], rest)

/-- The exponent at the head of a text: the letter, perhaps a sign, and at least one digit. -/
def exponentPart? : List Char → Option (Int × List Char)
  | letter :: rest =>
    if letter == 'e' || letter == 'E' then
      let (negative, rest) :=
        match rest with
        | '-' :: rest => (true, rest)
        | '+' :: rest => (false, rest)
        | rest => (false, rest)
      let (digits, rest) := spanDigits rest
      if digits.isEmpty then none
      else
        let size : Int := digitsValue digits
        some (if negative then -size else size, rest)
    else none
  | [] => none

/-- Reads a number whose sign has been read and whose digits are at the head of `text`. -/
def readMagnitude (start : List Char) (negative : Bool) (text : List Char) : Result (Json × List Char) :=
  let (whole, rest) :=
    match text with
    | '0' :: rest => (['0'], rest)
    | text => spanDigits text
  if whole.isEmpty then failAt .expectingValue start
  else
    let (fraction, afterFraction) := fractionPart rest
    match exponentPart? afterFraction with
    | some (exponent, after) =>
      .ok (.float (.ofDecimal negative (digitsValue (whole ++ fraction))
        (exponent - fraction.length)), after)
    | none =>
      if fraction.isEmpty then
        if maxDigits < whole.length then .error (.tooManyDigits whole.length)
        else
          let size : Int := digitsValue whole
          .ok (.int (if negative then -size else size), afterFraction)
      else
        .ok (.float (.ofDecimal negative (digitsValue (whole ++ fraction)) (-fraction.length)),
          afterFraction)

def readScalar (text : List Char) : Result (Json × List Char) :=
  let word? (word : String) (value : Json) : Option (Json × List Char) :=
    if word.toList.isPrefixOf text then some (value, text.drop word.length) else none
  let words := [word? "null" .null, word? "true" (.bool true), word? "false" (.bool false),
    word? "NaN" (.float .nan), word? "Infinity" (.float (.infinite false)),
    word? "-Infinity" (.float (.infinite true))]
  match words.findSome? id with
  | some read => .ok read
  | none =>
    match text with
    | '-' :: rest => readMagnitude text true rest
    | text => readMagnitude text false text

mutual

def readValue (fuel : Nat) (text : List Char) : Result (Json × List Char) :=
  match fuel, text with
  | _, [] => failAt .expectingValue []
  | 0, text => failAt .expectingValue text
  | _ + 1, '"' :: rest => do
    let (value, rest) ← readString ('"' :: rest) rest.length [] rest
    return (.string value, rest)
  | fuel + 1, '{' :: rest =>
    match skipSpace rest with
    | '}' :: after => .ok (.object [], after)
    | inner => readMembers fuel [] inner
  | fuel + 1, '[' :: rest =>
    match skipSpace rest with
    | ']' :: after => .ok (.array [], after)
    | inner => readItems fuel [] inner
  | _, text => readScalar text

/-- Reads the items of an array up to its bracket; `seen` are those read so far, last first. -/
def readItems (fuel : Nat) (seen : List Json) (text : List Char) : Result (Json × List Char) :=
  match fuel with
  | 0 => failAt .expectingValue text
  | fuel + 1 => do
    let (item, rest) ← readValue fuel text
    match skipSpace rest with
    | ']' :: after => return (.array (item :: seen).reverse, after)
    | ',' :: after => readItems fuel (item :: seen) (skipSpace after)
    | rest => failAt .expectingComma rest

/-- Reads the members of an object up to its brace; `seen` are those read so far. -/
def readMembers (fuel : Nat) (seen : Table Json) (text : List Char) : Result (Json × List Char) :=
  match fuel, text with
  | fuel + 1, '"' :: rest => do
    let (name, rest) ← readString ('"' :: rest) rest.length [] rest
    match skipSpace rest with
    | ':' :: rest =>
      let (value, rest) ← readValue fuel (skipSpace rest)
      let members := seen.put name value
      match skipSpace rest with
      | '}' :: after => return (.object members, after)
      | ',' :: after => readMembers fuel members (skipSpace after)
      | rest => failAt .expectingComma rest
    | rest => failAt .expectingColon rest
  | _, text => failAt .expectingName text

end

def readDocument (text : List Char) : Result Json := do
  match text with
  | '\uFEFF' :: _ => failAt .byteOrderMark text
  | _ =>
    let (value, rest) ← readValue (2 * text.length + 2) (skipSpace text)
    match skipSpace rest with
    | [] => return value
    | rest => failAt .extraData rest

/-- The wording of a refusal of `text`: line, column and offset of the fault. -/
def Refusal.message (text : List Char) : Refusal → String
  | .fault cause left =>
    let offset := text.length - left
    let before := text.take offset
    let line := before.count '\n' + 1
    let column := (before.reverse.takeWhile (· != '\n')).length + 1
    cause.what ++ ": line " ++ toString line ++ " column " ++ toString column ++
      " (char " ++ toString offset ++ ")"
  | .tooManyDigits count =>
    "Exceeds the limit (" ++ toString maxDigits ++
      " digits) for integer string conversion: value has " ++ toString count ++
      " digits; use sys.set_int_max_str_digits() to increase the limit"

end Json

end ScriptSplit
