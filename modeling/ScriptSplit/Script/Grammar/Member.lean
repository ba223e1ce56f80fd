import ScriptSplit.Script.Grammar.Basic

/-!
# The grammar: functions, classes and object literals
-/

namespace ScriptSplit.Script.Grammar

open ScriptSplit.Script.Parser

def privateName : Parser Tree :=
  lexeme .privateName fun
    | '#' :: rest => (Lexeme.name? rest).map (· + 1)
    | _ => none

def atPropertyName : Parser Bool := do
  match (← ahead) with
  | [] => return false
  | c :: rest =>
    return (Lexeme.name? (c :: rest)).isSome || c == '"' || c == '\'' || c == '[' || c == '#' ||
      (Lexeme.number? (c :: rest)).isSome

def propertyName (g : Grammar) : Parser Tree := do
  match (← ahead) with
  | [] => refuse
  | c :: rest =>
    if (Lexeme.name? (c :: rest)).isSome then lexeme .propertyName Lexeme.name?
    else if c == '"' || c == '\'' then lexeme .literal Lexeme.string?
    else if c == '#' then privateName
    else if c == '[' then
      let start ← mark
      punctuator "["
      let inner ← g.expression false
      punctuator "]"
      node .computedName start [inner]
    else lexeme .literal Lexeme.number?

/-- Whether the word `w` is next and modifies the member whose name follows it. -/
def atModifier (w : String) (beforeStar ends : Bool) : Parser Bool := do
  if (← atWord w) then
    lookAhead do
      keyword w
      if ends && (← atLineEnd false) then return false
      else return (← atPropertyName) || (beforeStar && (← atPunctuator "*"))
  else return false

def optionalModifier (w : String) (beforeStar ends : Bool) : Parser Bool := do
  if (← atModifier w beforeStar ends) then optionalKeyword w else return false

/-- The modifiers and the name of a member, and whether the modifiers are those of a method. -/
def memberHead (g : Grammar) (ends : Bool) : Parser (Bool × Tree) := do
  discard <| optionalModifier "static" true ends
  let async ← optionalModifier "async" true ends
  let special ← do
    if (← optional "*") then pure true
    else if (← optionalModifier "get" false ends) then pure true
    else optionalModifier "set" false ends
  let name ← propertyName g
  return (async || special, name)

/-- A decorator: a name with members, perhaps called, or an expression in parentheses. -/
def decorator (g : Grammar) : Parser Tree := do
  let start ← mark
  punctuator "@"
  if (← atPunctuator "(") then
    let inner ← parenthesized g
    node .decorator start [inner]
  else
    let name ← identifier
    let target ← extend name fun t => do
      if (← optional ".") then
        let property ← lexeme .propertyName Lexeme.name?
        return some (← node .member t.start [t, property.withRole .property])
      else return none
    if (← atPunctuator "(") then
      let inner ← arguments g
      let call ← node .call target.start [target.withRole .function, inner]
      node .decorator start [call]
    else node .decorator start [target]

def decorators (g : Grammar) : Parser (List Tree) :=
  many do
    if (← atPunctuator "@") then return some (← decorator g) else return none

def methodRest (g : Grammar) (start : Nat) (leading : List Tree) (name : Tree) : Parser Tree := do
  let rest ← signatureAndBody g
  node .methodDefinition start (leading ++ name.withRole .name :: rest)

def objectMember (g : Grammar) : Parser Tree := do
  if (← atPunctuator "...") then spreadOr g
  else
    let start ← mark
    let leading ← decorators g
    let isStatic ← atModifier "static" true false
    let (modified, name) ← memberHead g false
    if (← atPunctuator "(") then methodRest g start leading name
    else if modified || isStatic || !leading.isEmpty then refuse
    else if (← optional ":") then
      let value ← g.expression false
      node .pair start [name, value.withRole .value]
    else if name.kind != .propertyName || (isReserved name.text && name.text != "export") then
      refuse
    else if (← optional "=") then
      let value ← g.expression false
      node .coverInitializer start
        [(name.withKind .shorthandPattern).withRole .left, value.withRole .right]
    else return name.withKind .shorthandProperty

def object (g : Grammar) : Parser Tree := do
  let start ← mark
  punctuator "\x7b"
  let list ← items "\x7d" (objectMember g)
  node .object start list.items

def array (g : Grammar) : Parser Tree := do
  let start ← mark
  punctuator "["
  let list ← items "]" (spreadOr g)
  node .array start list.items

def bindingTarget (g : Grammar) : Parser Tree := do
  let literal ←
    if (← atPunctuator "\x7b") then object g
    else if (← atPunctuator "[") then array g
    else return (← identifier)
  match literal.toPattern? with
  | some pattern => return pattern
  | none => refuse

/-- The word `function`, perhaps a star, perhaps a name, parameters and body. `start` is where
the function begins. -/
def functionRest (g : Grammar) (start : Nat) : Parser Tree := do
  keyword "function"
  let generator ← optional "*"
  let name ← if (← word?).isSome then (do return [(← identifier).withRole .name]) else pure []
  let rest ← signatureAndBody g
  node (if generator then .generatorFunction else .functionExpression) start (name ++ rest)

def classMember (g : Grammar) : Parser Tree := do
  let start ← mark
  let leading ← decorators g
  let startsStatic ← atWord "static"
  let isBlock ←
    if startsStatic && leading.isEmpty then
      lookAhead do
        keyword "static"
        atPunctuator "\x7b"
    else pure false
  if isBlock then
    keyword "static"
    let body ← block g
    node .staticBlock start [body.withRole .body]
  else
    let (modified, name) ← memberHead g true
    if (← atPunctuator "(") then methodRest g start leading name
    else if modified then refuse
    else if (← optional "=") then
      let value ← g.expression true
      semicolon true
      node .classField start (leading ++ [name.withRole .property, value.withRole .value])
    else
      semicolon false
      node .classField start (leading ++ [name.withRole .property])

def classBody (g : Grammar) : Parser Tree := do
  let start ← mark
  punctuator "\x7b"
  let members ← many do
    if (← atPunctuator "\x7d") then return none
    else if (← optional ";") then return some []
    else return some [← classMember g]
  punctuator "\x7d"
  node .classBody start members.flatten

def classRest (g : Grammar) (kind : Kind) (start : Nat) (leading : List Tree) : Parser Tree := do
  keyword "class"
  let name ←
    match (← word?) with
    | none => pure []
    | some w => if w == "extends" then pure [] else (do return [(← identifier).withRole .name])
  let parent ← if (← optionalKeyword "extends") then (do return [← g.expression false]) else pure []
  let body ← classBody g
  node kind start (leading ++ name ++ parent ++ [body.withRole .body])

end ScriptSplit.Script.Grammar
