import ScriptSplit.Script.Grammar.Basic

/-!
# The grammar: markup elements inside expressions

Tag names refer to bindings; attribute names do not. The text between tags is not kept.
-/

namespace ScriptSplit.Script.Grammar

open ScriptSplit.Script.Parser

/-- The number of characters of a reference to a character, from its ampersand on. -/
def characterReference? : Text → Option Nat
  | '&' :: rest =>
    let ends (digits : Nat) (n : Nat) : Option Nat :=
      if 0 < digits ∧ rest[n]? = some ';' then some (n + 2) else none
    match rest with
    | '#' :: 'x' :: more | '#' :: 'X' :: more =>
      let n := (more.takeWhile Text.isHexDigit).length
      if n ≤ 6 then ends n (n + 2) else none
    | '#' :: more =>
      let n := (more.takeWhile Text.isAsciiDigit).length
      if n ≤ 5 then ends n (n + 1) else none
    | more =>
      let n := (more.takeWhile Text.isAsciiLetter).length
      if n ≤ 30 then ends n n else none
  | _ => none

/-- The number of characters of a name in a tag, which may hold hyphens. -/
def tagName? (text : Text) : Option Nat :=
  match text with
  | c :: rest =>
    let isPart (c : Char) : Bool :=
      Text.isAsciiLetter c || Text.isAsciiDigit c || c == '_' || c == '$' || c == '-'
    let n := 1 + (rest.takeWhile isPart).length
    let plain := (Lexeme.name? text).getD 0
    if Text.isNameStart c && plain < n then some n else Lexeme.name? text
  | [] => none

def tagIdentifier : Parser Tree :=
  lexeme .identifier tagName?

def elementName : Parser (List Tree) := do
  let first ← tagIdentifier
  if (← optional ":") then
    let second ← tagIdentifier
    return [first, second]
  else
    let whole ← extend first fun t => do
      if (← optional ".") then
        let property ← lexeme .propertyName Lexeme.name?
        return some (← node .member t.start [t, property.withRole .property])
      else return none
    return [whole]

/-- The number of characters of a quoted attribute value after its quote. -/
def attributeRest (quote : Char) : Nat → Text → Option Nat
  | 0, _ => none
  | fuel + 1, text =>
    match text with
    | [] => none
    | '&' :: rest =>
      if rest.head?.any fun c => c == '#' || Text.isAsciiLetter c then
        match characterReference? text with
        | some n => (attributeRest quote fuel (text.drop n)).map (· + n)
        | none => none
      else (attributeRest quote fuel rest).map (· + 1)
    | c :: rest => if c == quote then some 1 else (attributeRest quote fuel rest).map (· + 1)

def attributeValue? : Text → Option Nat
  | c :: rest =>
    if c == '"' || c == '\'' then (attributeRest c rest.length rest).map (· + 1) else none
  | [] => none

def embedded (g : Grammar) : Parser (List Tree) := do
  punctuator "\x7b"
  if (← optional "\x7d") then return []
  else
    let inner ← if (← atPunctuator "...") then spreadOr g else expressions g false
    punctuator "\x7d"
    return [inner]

def attribute_ (g : Grammar) : Parser (List Tree) := do
  if (← atPunctuator "\x7b") then embedded g
  else
    let name ← tagIdentifier
    let names ←
      if (← optional ":") then (do return [name, ← tagIdentifier])
      else pure [name.withKind .propertyName]
    if (← optional "=") then
      let value ←
        match (← ahead).head? with
        | some '{' => embedded g
        | some '<' => (do return [← g.markup])
        | _ => (do return [← lexeme .literal attributeValue?])
      return names ++ value
    else return names

/-- Whether characters between tags are text, and not only a line end with blanks around it. -/
def isContent (text : Text) : Bool :=
  go false text
where
  /-- `newline` says that only blanks have passed since a line end. -/
  go (newline : Bool) : Text → Bool
    | [] => false
    | c :: rest =>
      if c == '\n' then go true rest
      else if newline && Lexeme.isSemicolonSpace c then go true rest
      else true

/-- What is left of an element after its opening tag: its children and the closing tag. -/
def elementRest (g : Grammar) : Parser (List Tree) := do
  let children ← many do
    let raw := (← get).rest.takeWhile fun c => !("<>\x7b\x7d&".toList.contains c)
    if isContent raw then
      discard <| take raw.length
      return some []
    else
      let text ← ahead
      match text with
      | '<' :: '/' :: _ => return none
      | '<' :: _ => return some [← g.markup]
      | '{' :: _ => return some (← embedded g)
      | '&' :: _ =>
        discard <| lexeme .literal characterReference?
        return some []
      | _ => refuse
  skip
  discard <| take 2
  unless (← atPunctuator ">") do discard elementName
  punctuator ">"
  return children.flatten

def markupElement (g : Grammar) : Parser Tree := do
  let start ← mark
  punctuator "<"
  if (← optional ">") then
    let children ← elementRest g
    node .markup start children
  else
    let name ← elementName
    let attributes ← many do
      if (← atPunctuator ">") then return none
      else if (← ahead).take 2 == ['/', '>'] then return none
      else return some (← attribute_ g)
    if (← optional ">") then
      let children ← elementRest g
      node .markup start (name ++ attributes.flatten ++ children)
    else
      skip
      discard <| take 2
      node .markup start (name ++ attributes.flatten)

end ScriptSplit.Script.Grammar
