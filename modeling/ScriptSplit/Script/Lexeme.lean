import ScriptSplit.Text.Lines

/-!
# The lexical grammar of scripts

Recognisers for the lexemes of a script. Each looks at the head of a text and answers how many
characters the lexeme has; what follows it is not examined. Which recogniser to ask is up to the
parser, since a slash may start a regular expression or divide.
-/

namespace ScriptSplit.Script.Lexeme

def isSpace (c : Char) : Bool :=
  let n := c.toNat
  (9 ≤ n && n ≤ 13) || n == 0x20 || n == 0x85 || n == 0xA0 || n == 0x1680 ||
    (0x2000 ≤ n && n ≤ 0x200B) || n == 0x2028 || n == 0x2029 || n == 0x202F || n == 0x205F ||
    n == 0x2060 || n == 0x3000 || n == 0xFEFF

def isSeparator (c : Char) : Bool :=
  c.toNat == 0x2028 || c.toNat == 0x2029

def lineRest (text : Text) : Nat :=
  (text.takeWhile fun c => !(c == '\n' || c == '\r' || isSeparator c)).length

/-- The number of characters up to and with the first `*/`. -/
def blockRest? : Text → Option Nat
  | [] => none
  | '*' :: '/' :: _ => some 2
  | _ :: rest => (blockRest? rest).map (· + 1)

def comment? : Text → Option Nat
  | '/' :: '/' :: rest => some (2 + lineRest rest)
  | '/' :: '*' :: rest => (blockRest? rest).map (· + 2)
  | _ => none

/-- The number of characters of a comment in the manner of markup, which also ends with its
line. -/
def markupComment? : Text → Option Nat
  | '<' :: '!' :: '-' :: '-' :: rest =>
    some (4 + (rest.takeWhile fun c => !(c == '\n' || isSeparator c)).length)
  | '-' :: '-' :: '>' :: rest =>
    some (3 + (rest.takeWhile fun c => !(c == '\n' || isSeparator c)).length)
  | _ => none

def triviaFrom (markupComments : Bool) : Nat → Text → Nat
  | 0, _ => 0
  | fuel + 1, text =>
    match text with
    | [] => 0
    | c :: rest =>
      if isSpace c then 1 + triviaFrom markupComments fuel rest
      else
        match comment? text with
        | some n => n + triviaFrom markupComments fuel (text.drop n)
        | none =>
          if markupComments then
            match markupComment? text with
            | some n => n + triviaFrom markupComments fuel (text.drop n)
            | none => 0
          else 0

def trivia (markupComments : Bool) (text : Text) : Nat :=
  triviaFrom markupComments text.length text

def isNameStart (c : Char) : Bool :=
  let n := c.toNat
  if n < 128 then Text.isAsciiLetter c || c == '_' || c == '$' || n == 127
  else !isSpace c

def unicodeEscape? : Text → Option Nat
  | '\\' :: 'u' :: '{' :: rest =>
    let digits := rest.takeWhile Text.isHexDigit
    if digits.isEmpty then none
    else
      match rest.drop digits.length with
      | '}' :: _ => some (digits.length + 4)
      | _ => none
  | '\\' :: 'u' :: rest =>
    if (rest.take 4).length = 4 && (rest.take 4).all Text.isHexDigit then some 6 else none
  | _ => none

def nameRest : Nat → Text → Nat
  | 0, _ => 0
  | fuel + 1, text =>
    match text with
    | [] => 0
    | c :: rest =>
      if isNameStart c || Text.isAsciiDigit c then 1 + nameRest fuel rest
      else
        match unicodeEscape? text with
        | some n => n + nameRest fuel (text.drop n)
        | none => 0

def name? (text : Text) : Option Nat :=
  match text with
  | [] => none
  | c :: rest =>
    if isNameStart c then some (1 + nameRest rest.length rest)
    else
      match unicodeEscape? text with
      | some n => some (n + nameRest text.length (text.drop n))
      | none => none

def digits (isDigit : Char → Bool) : Text → Nat
  | [] => 0
  | c :: rest =>
    if isDigit c then 1 + more rest else 0
where
  /-- The digits after the first. -/
  more : Text → Nat
    | '_' :: c :: rest =>
      if isDigit c then 2 + more rest else 0
    | c :: rest => if isDigit c then 1 + more rest else 0
    | [] => 0

def decimals (text : Text) : Nat := digits Text.isAsciiDigit text

def exponent (text : Text) : Nat :=
  match text with
  | c :: rest =>
    if c == 'e' || c == 'E' then
      let sign := match rest with
        | '+' :: _ => 1
        | '-' :: _ => 1
        | _ => 0
      let n := decimals (rest.drop sign)
      if n = 0 then 0 else 1 + sign + n
    else 0
  | [] => 0

/-- Whether digits may be followed by a fraction or an exponent: a leading zero stands alone or
before a digit that is no zero. -/
def isDecimalInteger : Text → Bool
  | ['0'] => true
  | '0' :: c :: _ => c != '0' && c != '_'
  | _ :: _ => true
  | [] => false

/-- The number of characters of an integer with a base mark, and perhaps the mark of a big
integer. -/
def based (isDigit : Char → Bool) (rest : Text) : Option Nat :=
  let n := digits isDigit rest
  if n = 0 then none
  else some (2 + n + (if rest[n]? == some 'n' then 1 else 0))

def isOctal (c : Char) : Bool := '0' ≤ c && c ≤ '7'

def isBinary (c : Char) : Bool := c == '0' || c == '1'

def decimalNumber (text : Text) : Nat :=
  let whole := decimals text
  let after := text.drop whole
  if isDecimalInteger (text.take whole) then
    match after with
    | '.' :: fraction =>
      let n := decimals fraction
      whole + 1 + n + exponent (fraction.drop n)
    | 'n' :: _ => whole + 1
    | after => whole + exponent after
  else if after.head? == some 'n' then whole + 1
  else whole

def number? : Text → Option Nat
  | '.' :: rest =>
    let n := decimals rest
    if n = 0 then none else some (1 + n + exponent (rest.drop n))
  | '0' :: mark :: rest =>
    let special :=
      if mark == 'x' || mark == 'X' then based Text.isHexDigit rest
      else if mark == 'o' || mark == 'O' then based isOctal rest
      else if mark == 'b' || mark == 'B' then based isBinary rest
      else none
    some (special.getD (decimalNumber ('0' :: mark :: rest)))
  | text =>
    let n := decimalNumber text
    if n = 0 then none else some n

/-- The number of characters of an escape in a string, from the backslash on. -/
def stringEscape? (text : Text) : Option Nat :=
  match text.drop 1 with
  | [] => none
  | c :: rest =>
    if c == 'x' then
      if (rest.take 2).length = 2 && (rest.take 2).all Text.isHexDigit then some 4 else none
    else if c == 'u' then unicodeEscape? text
    else if isOctal c then some (1 + ((c :: rest).take 3 |>.takeWhile isOctal).length)
    else
      match c, rest with
      | '\r', d :: _ => if d == '\n' || isSeparator d then some 3 else some 2
      | '?', d :: _ => if d == '\n' || isSeparator d then some 3 else some 2
      | _, _ => some 2

def stringRest (quote : Char) : Nat → Text → Option Nat
  | 0, _ => none
  | fuel + 1, text =>
    match text with
    | [] => none
    | c :: rest =>
      if c == quote then some 1
      else if c == '\\' then
        match stringEscape? text with
        | some n => (stringRest quote fuel (text.drop n)).map (· + n)
        | none => none
      else if c == '\n' || c == '\r' then none
      else (stringRest quote fuel rest).map (· + 1)

def string? : Text → Option Nat
  | quote :: rest =>
    if quote == '"' || quote == '\'' then (stringRest quote rest.length rest).map (· + 1)
    else none
  | [] => none

def classRest : Nat → Text → Option Nat
  | 0, _ => none
  | fuel + 1, text =>
    match text with
    | ']' :: _ => some 1
    | '\\' :: c :: rest => if c == '\n' then none else (classRest fuel rest).map (· + 2)
    | c :: rest => if c == '\n' || c == '\\' then none else (classRest fuel rest).map (· + 1)
    | [] => none

def patternRest : Nat → Text → Option Nat
  | 0, _ => none
  | fuel + 1, text =>
    match text with
    | '/' :: _ => some 1
    | '[' :: rest =>
      match classRest rest.length rest with
      | some n => (patternRest fuel (rest.drop n)).map (· + (n + 1))
      | none => none
    | '\\' :: c :: rest => if c == '\n' then none else (patternRest fuel rest).map (· + 2)
    | c :: rest => if c == '\n' || c == '\\' then none else (patternRest fuel rest).map (· + 1)
    | [] => none

def regex? : Text → Option Nat
  | '/' :: rest =>
    match patternRest rest.length rest with
    | some n => some (1 + n + ((rest.drop n).takeWhile Text.isAsciiLower).length)
    | none => none
  | _ => none

def punctuators : List String :=
  [">>>=", "...", "===", "!==", ">>>", "<<=", ">>=", "**=", "&&=", "||=", "??=",
    "=>", "==", "!=", "<=", ">=", "&&", "||", "??", "?.", "++", "--", "+=", "-=", "*=", "/=", "%=",
    "&=", "|=", "^=", "<<", ">>", "**",
    "\x7b", "\x7d", "(", ")", "[", "]", ";", ",", "<", ">", "+", "-", "*", "/", "%", "&", "|", "^",
    "!", "~", "?", ":", "=", ".", "@", "#"]

/-- The punctuator at the head of a text, or the empty text. A question mark before a point and a
digit stands alone. -/
def punctuator (text : Text) : String :=
  match text with
  | '?' :: '.' :: c :: _ => if Text.isAsciiDigit c then "?" else "?."
  | _ => (punctuators.find? fun p => p.toList.isPrefixOf text).getD ""

/-! ### Automatic semicolons -/

/-- White space for the purpose of automatic semicolons. -/
def isSemicolonSpace (c : Char) : Bool :=
  let n := c.toNat
  (9 ≤ n && n ≤ 13) || n == 0x20 || n == 0x1680 || (0x2000 ≤ n && n ≤ 0x2006) ||
    (0x2008 ≤ n && n ≤ 0x200A) || n == 0x2028 || n == 0x2029 || n == 0x205F || n == 0x3000

/-- A letter for the purpose of automatic semicolons. -/
def isLetter (c : Char) : Bool :=
  Text.isAsciiLetter c || (128 ≤ c.toNat && Text.isWord c && !Text.isDecimalDigit c)

/-- What a run of blanks and comments ended with. -/
inductive Skipped where
  /-- No comment follows the slash. -/
  | slash
  /-- The run ended inside a line. -/
  | sameLine (rest : Text)
  /-- The run ended, or a comment held a line end. -/
  | passed (rest : Text)

/-- The text after a block comment's opener, and whether the comment held a line end. An open
comment runs to the end of the text. -/
def skipBlock (sawLine : Bool) : Text → Bool × Text
  | [] => (sawLine, [])
  | '*' :: '/' :: rest => (sawLine, rest)
  | c :: rest => skipBlock (sawLine || c == '\n' || isSeparator c) rest

/-- Skips blanks and comments. Unless `consume` is set, it stops after a block comment. -/
def skipRun (consume : Bool) (sawLine : Bool) : Nat → Text → Skipped
  | 0, text => .passed text
  | fuel + 1, text =>
    match text.dropWhile isSemicolonSpace with
    | '/' :: '/' :: rest =>
      skipRun consume sawLine fuel (rest.dropWhile fun c => !(c == '\n' || isSeparator c))
    | '/' :: '*' :: rest =>
      let (sawLine, rest) := skipBlock sawLine rest
      if rest.head? != some '/' && !consume then
        if sawLine then .passed rest else .sameLine rest
      else skipRun consume sawLine fuel rest
    | '/' :: _ => .slash
    | rest => .passed rest

/-- Whether the head of a line, blanks and comments skipped, lets the statement before it end. -/
def lineEndsStatement (text : Text) : Bool :=
  match text with
  | [] => true
  | '.' :: rest => rest.head?.any Text.isAsciiDigit
  | '+' :: rest => rest.head? == some '+'
  | '-' :: rest => rest.head? == some '-'
  | '!' :: rest => rest.head? != some '='
  | 'i' :: 'n' :: rest =>
    if rest.head?.any isLetter then
      if "stanceof".toList.isPrefixOf rest then (rest.drop 8).head?.any isLetter else true
    else false
  | c :: _ => !("`,:;*%><=[(?^|&/".toList.contains c)

/-- Whether a statement may end at the head of a text: at its end, before a closing brace, and at a
line end unless the next line continues the statement. `inExpression` says that an operator might
follow. -/
def endsStatement (inExpression : Bool) : Nat → Text → Bool
  | 0, _ => true
  | fuel + 1, text =>
    match text with
    | [] => true
    | '/' :: _ =>
      match skipRun false false text.length text with
      | .slash => false
      | .passed rest =>
        if !inExpression && rest.head? != some ',' && rest.head? != some '=' then true
        else afterComment inExpression fuel rest
      | .sameLine rest => afterComment inExpression fuel rest
    | text => afterComment inExpression fuel text
where
  /-- The test on the character after a possible comment. -/
  afterComment (inExpression : Bool) (fuel : Nat) : Text → Bool
    | [] => true
    | c :: rest =>
      if c == '}' then true
      else if c == '\n' || isSeparator c then
        match skipRun true false rest.length rest with
        | .slash => false
        | .passed rest | .sameLine rest => lineEndsStatement rest
      else if isSemicolonSpace c then endsStatement inExpression fuel rest
      else false

/-- The number of characters in front of a supplied semicolon. The question is asked again after
each comment in the way. -/
def semicolonAfterComments? (inExpression : Bool) : Nat → Text → Option Nat
  | 0, _ => none
  | fuel + 1, text =>
    if endsStatement inExpression (text.length + 1) text then some 0
    else
      let blanks := (text.takeWhile isSpace).length
      let text := text.drop blanks
      match comment? text with
      | some n => (semicolonAfterComments? inExpression fuel (text.drop n)).map (· + (blanks + n))
      | none => none

/-- Where a semicolon is supplied at the head of a text: after so many characters, which are
comments and blanks between them. -/
def automaticSemicolon? (inExpression : Bool) (text : Text) : Option Nat :=
  semicolonAfterComments? inExpression (text.length + 1) text

end ScriptSplit.Script.Lexeme
