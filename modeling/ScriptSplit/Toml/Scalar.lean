import ScriptSplit.Json.Reader
import ScriptSplit.Text.Search

/-!
# Plain values of TOML

Numbers, dates and times, and strings. Each reader takes the text from its first character on and gives
the value with what follows it, or nothing where the text is faulty.
-/

namespace ScriptSplit.Toml

abbrev Reader (α : Type) := Text → Option (α × Text)

def skipBlanks (text : Text) : Text :=
  text.dropWhile Text.isIndent

def isControl (c : Char) : Bool :=
  (c.toNat < 0x20 && c != '\t') || c.toNat == 0x7F

/-- Takes digits of a class, with single underscores between them; at least one. -/
def digits? (isDigit : Char → Bool) : Reader (List Char)
  | [] => none
  | c :: rest => if isDigit c then some (more [c] rest) else none
where
  /-- Goes on after the digits seen so far, last first. -/
  more (seen : List Char) : Text → List Char × Text
    | [] => (seen.reverse, [])
    | '_' :: c :: rest =>
      if isDigit c then more (c :: seen) rest else (seen.reverse, '_' :: c :: rest)
    | c :: rest => if isDigit c then more (c :: seen) rest else (seen.reverse, c :: rest)

def valueOf (base : Nat) (digits : List Char) : Nat :=
  digits.foldl (fun n c => n * base + ((Json.hexValue? c).getD 0)) 0

def based? : Reader Json
  | '0' :: 'x' :: rest => read 16 Text.isHexDigit rest
  | '0' :: 'b' :: rest => read 2 (fun c => c == '0' || c == '1') rest
  | '0' :: 'o' :: rest => read 8 (fun c => '0' ≤ c && c ≤ '7') rest
  | _ => none
where
  read (base : Nat) (isDigit : Char → Bool) (text : Text) : Option (Json × Text) := do
    let (digits, rest) ← digits? isDigit text
    return (.int (valueOf base digits), rest)

def sign : Text → Bool × Text
  | '-' :: rest => (true, rest)
  | '+' :: rest => (false, rest)
  | text => (false, text)

/-- Takes the whole part of a decimal number: a lone zero, or digits that begin with another one. -/
def whole? : Reader (List Char)
  | '0' :: rest => some (['0'], rest)
  | text => digits? Text.isAsciiDigit text

def fraction? : Reader (List Char)
  | '.' :: rest => digits? Text.isAsciiDigit rest
  | _ => none

def exponent? : Reader Int
  | c :: rest => do
    guard (c == 'e' || c == 'E')
    let (negative, rest) := sign rest
    let (digits, rest) ← digits? Text.isAsciiDigit rest
    let size : Int := valueOf 10 digits
    return (if negative then -size else size, rest)
  | [] => none

def decimal? (text : Text) : Option (Json × Text) := do
  let (negative, rest) := sign text
  let (whole, rest) ← whole? rest
  let (fraction, rest, isFloat) :=
    match fraction? rest with
    | some (fraction, rest) => (fraction, rest, true)
    | none => ([], rest, false)
  let (exponent, rest, isFloat) :=
    match exponent? rest with
    | some (exponent, rest) => (exponent, rest, true)
    | none => (0, rest, isFloat)
  if isFloat then
    return (.float (Double.ofDecimal negative (valueOf 10 (whole ++ fraction))
      (exponent - fraction.length)), rest)
  else if Json.maxDigits < whole.length then none
  else
    let size : Int := valueOf 10 whole
    return (.int (if negative then -size else size), rest)

def special? (text : Text) : Option (Json × Text) :=
  let (negative, rest) := sign text
  match rest with
  | 'i' :: 'n' :: 'f' :: rest => some (.float (.infinite negative), rest)
  | 'n' :: 'a' :: 'n' :: rest => some (.float .nan, rest)
  | _ => none

def pair? (low high : Nat) : Reader Nat
  | a :: b :: rest => do
    guard (Text.isAsciiDigit a && Text.isAsciiDigit b)
    let n := valueOf 10 [a, b]
    guard (low ≤ n && n ≤ high)
    return (n, rest)
  | _ => none

def char? (c : Char) : Reader Unit
  | d :: rest => if c == d then some ((), rest) else none
  | [] => none

def afterTime? (text : Text) : Option Text := do
  let (_, rest) ← pair? 0 23 text
  let (_, rest) ← char? ':' rest
  let (_, rest) ← pair? 0 59 rest
  let (_, rest) ← char? ':' rest
  let (_, rest) ← pair? 0 59 rest
  match rest with
  | '.' :: c :: more =>
    if Text.isAsciiDigit c then return more.dropWhile Text.isAsciiDigit else return rest
  | _ => return rest

/-- What follows the offset of a time, which may be missing. -/
def afterOffset (text : Text) : Text :=
  match text with
  | 'Z' :: rest | 'z' :: rest => rest
  | c :: rest =>
    let offset : Option Text := do
      guard (c == '+' || c == '-')
      let (_, rest) ← pair? 0 23 rest
      let (_, rest) ← char? ':' rest
      return (← pair? 0 59 rest).2
    offset.getD text
  | [] => []

def daysIn (year month : Nat) : Nat :=
  if month = 2 then
    if year % 4 = 0 && (year % 100 != 0 || year % 400 = 0) then 29 else 28
  else if month = 4 || month = 6 || month = 9 || month = 11 then 30
  else 31

/-- Reads a date, with or without a time of day. Its value is the text itself. The outer result is
missing where no date begins, the inner one where the day does not exist. -/
def date? (text : Text) : Option (Option (Json × Text)) := do
  let [a, b, c, d] := text.take 4 | none
  guard ([a, b, c, d].all Text.isAsciiDigit)
  let (_, rest) ← char? '-' (text.drop 4)
  let (month, rest) ← pair? 1 12 rest
  let (_, rest) ← char? '-' rest
  let (day, rest) ← pair? 1 31 rest
  let year := valueOf 10 [a, b, c, d]
  let after :=
    match rest with
    | separator :: more =>
      if separator == 'T' || separator == 't' || separator == ' ' then
        ((afterTime? more).map afterOffset).getD rest
      else rest
    | [] => []
  let value := Json.string (String.ofList (text.take (text.length - after.length)))
  return if year = 0 || daysIn year month < day then none else some (value, after)

def time? (text : Text) : Option (Json × Text) := do
  let after ← afterTime? text
  return (.string (String.ofList (text.take (text.length - after.length))), after)

def number? (text : Text) : Option (Json × Text) :=
  match date? text with
  | some read => read
  | none => (((time? text).or (based? text)).or (decimal? text)).or (special? text)

def hexChar? (width : Nat) (text : Text) : Option (Char × Text) := do
  let digits := text.take width
  guard (digits.length = width && digits.all Text.isHexDigit)
  let n := valueOf 16 digits
  if h : n.isValidChar then return (Char.ofNatAux n h, text.drop width) else none

def escape? : Reader Char
  | 'b' :: rest => some ('\x08', rest)
  | 't' :: rest => some ('\t', rest)
  | 'n' :: rest => some ('\n', rest)
  | 'f' :: rest => some ('\x0c', rest)
  | 'r' :: rest => some ('\r', rest)
  | '"' :: rest => some ('"', rest)
  | '\\' :: rest => some ('\\', rest)
  | 'u' :: rest => hexChar? 4 rest
  | 'U' :: rest => hexChar? 8 rest
  | _ => none

/-- Passes over a line end escaped by a backslash, with all blanks and line ends after it. -/
def escapedLineEnd? (text : Text) : Option Text :=
  match skipBlanks text with
  | '\n' :: rest => some (rest.dropWhile fun c => Text.isIndent c || c == '\n')
  | [] => if text.isEmpty then none else some []
  | _ => none

/-- Reads a string between double quotes on one line, after its first quote; `seen` is what has been
read so far, last character first. -/
def basicString? (seen : List Char) : Nat → Reader String
  | 0, _ => none
  | _ + 1, [] => none
  | _ + 1, '"' :: rest => some (String.ofList seen.reverse, rest)
  | fuel + 1, '\\' :: rest => do
    let (c, rest) ← escape? rest
    basicString? (c :: seen) fuel rest
  | fuel + 1, c :: rest => if isControl c then none else basicString? (c :: seen) fuel rest

def longBasicString? (seen : List Char) : Nat → Reader String
  | 0, _ => none
  | _ + 1, [] => none
  | _ + 1, '"' :: '"' :: '"' :: rest => some (String.ofList seen.reverse, rest)
  | fuel + 1, '\\' :: rest =>
    match escapedLineEnd? rest with
    | some rest => longBasicString? seen fuel rest
    | none => do
      let (c, rest) ← escape? rest
      longBasicString? (c :: seen) fuel rest
  | fuel + 1, c :: rest =>
    if isControl c && c != '\n' then none else longBasicString? (c :: seen) fuel rest

def literalString? (text : Text) : Option (String × Text) := do
  let body := text.takeWhile (· != '\'')
  let _ :: rest := text.dropWhile (· != '\'') | none
  guard (!body.any isControl)
  return (String.ofList body, rest)

def longLiteralString? (text : Text) : Option (String × Text) := do
  let stop ← text.find? "'''"
  let body := text.take stop
  guard (!body.any fun c => isControl c && c != '\n')
  return (String.ofList body, text.drop (stop + 3))

/-- Adds up to two quotes that directly follow a long string to it. -/
def withClosingQuotes (quote : Char) (read : String × Text) : String × Text :=
  match read.2 with
  | a :: b :: rest =>
    if a == quote && b == quote then (read.1.push a |>.push b, rest)
    else if a == quote then (read.1.push a, b :: rest)
    else read
  | [a] => if a == quote then (read.1.push a, []) else read
  | [] => read

def dropFirstLineEnd : Text → Text
  | '\n' :: rest => rest
  | text => text

def string? : Reader String
  | '"' :: rest => basicString? [] (rest.length + 1) rest
  | '\'' :: rest => literalString? rest
  | _ => none

def anyString? : Reader String
  | '"' :: '"' :: '"' :: rest =>
    (longBasicString? [] (rest.length + 1) (dropFirstLineEnd rest)).map (withClosingQuotes '"')
  | '\'' :: '\'' :: '\'' :: rest =>
    (longLiteralString? (dropFirstLineEnd rest)).map (withClosingQuotes '\'')
  | text => string? text

end ScriptSplit.Toml
