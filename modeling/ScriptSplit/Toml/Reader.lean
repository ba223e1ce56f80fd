import ScriptSplit.Toml.Document
import ScriptSplit.Toml.Scalar

/-!
# Reading TOML

The text of a settings file as one table. A faulty text has no value at all.
-/

namespace ScriptSplit.Toml

def isBareKey (c : Char) : Bool :=
  Text.isAsciiLetter c || Text.isAsciiDigit c || c == '-' || c == '_'

def keyPart? (text : Text) : Option (String × Text) :=
  let bare := text.takeWhile isBareKey
  if bare.isEmpty then string? text else some (String.ofList bare, text.dropWhile isBareKey)

def key? : Nat → Reader Key
  | 0, _ => none
  | fuel + 1, text => do
    let (part, rest) ← keyPart? text
    match skipBlanks rest with
    | '.' :: rest =>
      let (parts, rest) ← key? fuel (skipBlanks rest)
      return (part :: parts, rest)
    | rest => return ([part], rest)

def dottedKey? (text : Text) : Option (Key × Text) :=
  key? (text.length + 1) text

def skipComment? (text : Text) : Option Text :=
  match text with
  | '#' :: rest =>
    if (rest.takeWhile (· != '\n')).any isControl then none else some (rest.dropWhile (· != '\n'))
  | _ => some text

def skipArraySpace? : Nat → Text → Option Text
  | 0, text => some text
  | fuel + 1, text => do
    let rest := text.dropWhile fun c => Text.isIndent c || c == '\n'
    match rest with
    | '#' :: _ => skipArraySpace? fuel (← skipComment? rest)
    | _ => return rest

/-- `skipArraySpace?` for as long as the text lasts. -/
def arraySpace? (text : Text) : Option Text :=
  skipArraySpace? text.length text

mutual

def value? (fuel : Nat) (text : Text) : Option (Json × Text) :=
  match fuel, text with
  | 0, _ => none
  | _ + 1, '"' :: rest => (anyString? ('"' :: rest)).map fun (s, rest) => (.string s, rest)
  | _ + 1, '\'' :: rest => (anyString? ('\'' :: rest)).map fun (s, rest) => (.string s, rest)
  | _ + 1, 't' :: 'r' :: 'u' :: 'e' :: rest => some (.bool true, rest)
  | _ + 1, 'f' :: 'a' :: 'l' :: 's' :: 'e' :: rest => some (.bool false, rest)
  | fuel + 1, '[' :: rest => do items? fuel [] (← arraySpace? rest)
  | fuel + 1, '{' :: rest =>
    match skipBlanks rest with
    | '}' :: rest => some (.object [], rest)
    | rest => members? fuel {} rest
  | _ + 1, text => number? text

/-- Reads the items of an array up to its bracket; `seen` are those read so far, last first. -/
def items? (fuel : Nat) (seen : List Json) (text : Text) : Option (Json × Text) :=
  match fuel, text with
  | _, ']' :: rest => some (.array seen.reverse, rest)
  | 0, _ => none
  | fuel + 1, text => do
    let (item, rest) ← value? fuel text
    match (← arraySpace? rest) with
    | ']' :: rest => return (.array (item :: seen).reverse, rest)
    | ',' :: rest => items? fuel (item :: seen) (← arraySpace? rest)
    | _ => none

def members? (fuel : Nat) (table : InlineTable) (text : Text) : Option (Json × Text) :=
  match fuel with
  | 0 => none
  | fuel + 1 => do
    let (key, rest) ← dottedKey? text
    let '=' :: rest := rest | none
    let (value, rest) ← value? fuel (skipBlanks rest)
    let table ← table.add key value
    match skipBlanks rest with
    | '}' :: rest => return (.object table.members, rest)
    | ',' :: rest => members? fuel table (skipBlanks rest)
    | _ => none

end

def assignment? (text : Text) : Option ((Key × Json) × Text) := do
  let (key, rest) ← dottedKey? text
  let '=' :: rest := rest | none
  let (value, rest) ← value? (2 * rest.length + 2) (skipBlanks rest)
  return ((key, value), rest)

def statement? (doc : Document) (text : Text) : Option (Document × Text) :=
  match text with
  | '[' :: '[' :: rest => do
    let (key, rest) ← dottedKey? (skipBlanks rest)
    let doc ← doc.endSection.openListTable key
    let ']' :: ']' :: rest := rest | none
    return (doc, rest)
  | '[' :: rest => do
    let (key, rest) ← dottedKey? (skipBlanks rest)
    let doc ← doc.endSection.openTable key
    let ']' :: rest := rest | none
    return (doc, rest)
  | '#' :: _ => some (doc, text)
  | _ => do
    let ((key, value), rest) ← assignment? text
    return (← doc.add key value, rest)

def lines? : Nat → Document → Text → Option Document
  | 0, _, _ => none
  | fuel + 1, doc, text => do
    match skipBlanks text with
    | [] => return doc
    | '\n' :: rest => lines? fuel doc rest
    | line =>
      let (doc, rest) ← statement? doc line
      match (← skipComment? (skipBlanks rest)) with
      | [] => return doc
      | '\n' :: rest => lines? fuel doc rest
      | _ => none

/-- A text with plain line feeds in place of carriage returns and line feeds. -/
def plainLineEnds : Text → Text
  | '\r' :: '\n' :: rest => '\n' :: plainLineEnds rest
  | c :: rest => c :: plainLineEnds rest
  | [] => []

def readTable? (text : Text) : Option (Table Json) :=
  let text := plainLineEnds text
  (lines? (text.length + 1) {} text).map (·.root)

end ScriptSplit.Toml
