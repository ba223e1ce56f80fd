import ScriptSplit.Script.Grammar.Member

/-!
# The grammar: expressions

Operators are read as a chain without regard to their binding strength, which no analysis asks for:
the operands of a chain stand in the tree in the order of the text.
-/

namespace ScriptSplit.Script.Grammar

open ScriptSplit.Script.Parser

def arrowBody (g : Grammar) (ends : Bool) : Parser Tree := do
  if (← atPunctuator "\x7b") then blockOr g (g.expression ends) else g.expression ends

def arrowRest (g : Grammar) (ends : Bool) (start : Nat) (head : Tree) : Parser Tree := do
  punctuator "=>"
  let body ← arrowBody g ends
  node .arrowFunction start [head, body.withRole .body]

/-- Parentheses: the parameters of an arrow function or an expression. -/
def parenthesizedOrArrow (g : Grammar) (ends : Bool) : Parser Tree := do
  let start ← mark
  punctuator "("
  let list ← items ")" (spreadOr g)
  if list.holes then refuse
  if (← atPunctuator "=>") then
    match Tree.toElements? list.items with
    | some parameters =>
      let head ← node .parameters start parameters
      arrowRest g ends start (head.withRole .parameters)
    | none => refuse
  else if list.items.isEmpty || list.trailing || list.items.any (·.kind == .spread) then refuse
  else node .parenthesized start list.items

/-- A name: the parameter of an arrow function or a reference. -/
def referenceOrArrow (g : Grammar) (ends : Bool) (start : Nat) : Parser Tree := do
  let name ← reference
  if (← atPunctuator "=>") then arrowRest g ends start (name.withRole .parameter)
  else if name.text == "undefined" then return name.withKind .undefined
  else return name

/-- What the word `async` begins: a function, an arrow function, a call or a name. -/
def asyncForm (g : Grammar) (ends : Bool) : Parser Tree := do
  let start ← mark
  let name ← identifier
  if ends && (← atLineEnd true) then return name
  else if (← atWord "function") then functionRest g start
  else if (← atPunctuator "(") then
    let listStart ← mark
    punctuator "("
    let list ← items ")" (spreadOr g)
    let inner ← node .arguments listStart list.items
    if (← atPunctuator "=>") then
      match Tree.toElements? list.items with
      | some parameters =>
        if list.holes then refuse
        let head := Tree.node { inner.label with kind := .parameters } parameters
        arrowRest g ends start (head.withRole .parameters)
      | none => refuse
    else node .call start [name.withRole .function, inner]
  else if (← atPunctuator "=>") then arrowRest g ends start (name.withRole .parameter)
  else
    let isArrow ← succeeds (lookAhead do
      discard <| reference
      punctuator "=>")
    if isArrow then referenceOrArrow g ends start else return name

def importForm : Parser Tree := do
  let word ← leaf .literal 6
  if (← atPunctuator ".") then
    let isMeta ← succeeds (lookAhead do
      punctuator "."
      keyword "meta")
    if isMeta then
      punctuator "."
      keyword "meta"
      node .literal word.start []
    else return word
  else if (← atPunctuator "(") then return word
  else refuse

/-- What follows an operand and belongs to it, calls in parentheses apart. -/
def memberSuffix (g : Grammar) (t : Tree) : Parser (Option Tree) := do
  let property : Parser Tree := do
    if (← atPunctuator "#") then privateName else lexeme .propertyName Lexeme.name?
  if (← optional ".") then
    let name ← property
    return some (← node .member t.start [t, name.withRole .property])
  else if (← atPunctuator "?.") then
    let isCall ← lookAhead do
      punctuator "?."
      atPunctuator "("
    if isCall then return none
    else
      punctuator "?."
      if (← optional "[") then
        let inner ← expressions g false
        punctuator "]"
        return some (← node .subscript t.start [t, inner])
      else
        let name ← property
        return some (← node .member t.start [t, name.withRole .property])
  else if (← optional "[") then
    let inner ← expressions g false
    punctuator "]"
    return some (← node .subscript t.start [t, inner])
  else if (← ahead).head? == some '`' then
    let inner ← template g
    return some (← node .call t.start [t.withRole .function, inner])
  else return none

def suffix (g : Grammar) (ends : Bool) (t : Tree) : Parser (Option Tree) := do
  if ends && (← atLineEnd true) then return none
  else
    match (← memberSuffix g t) with
    | some longer => return some longer
    | none =>
      discard <| optional "?."
      if (← atPunctuator "(") then
        let inner ← arguments g
        return some (← node .call t.start [t.withRole .function, inner])
      else return none

/-- Operands without prefix operators and suffixes, `new` apart. -/
def simplePrimary (g : Grammar) (ends : Bool) : Parser Tree := do
  match (← ahead) with
  | [] => refuse
  | c :: rest =>
    let text := c :: rest
    match Lexeme.name? text with
    | some n =>
      let w := String.ofList (text.take n)
      if w == "function" then functionRest g (← mark)
      else if w == "class" then classRest g .classExpression (← mark) []
      else if w == "async" then asyncForm g ends
      else if w == "import" then importForm
      else if ["this", "super", "null", "true", "false"].contains w then leaf .literal n
      else referenceOrArrow g ends (← mark)
    | none =>
      if c == '(' then parenthesizedOrArrow g ends
      else if c == '[' then array g
      else if c == '{' then object g
      else if c == '"' || c == '\'' then lexeme .literal Lexeme.string?
      else if c == '`' then template g
      else if c == '/' then lexeme .literal Lexeme.regex?
      else if c == '<' then g.markup
      else if c == '@' then
        let start ← mark
        let leading ← decorators g
        classRest g .classExpression start leading
      else lexeme .literal Lexeme.number?

def construct (g : Grammar) (ends : Bool) : Parser Tree := do
  let starts ← many do
    if (← atWord "new") then
      let start ← mark
      keyword "new"
      return some start
    else return none
  if (← atPunctuator ".") then
    punctuator "."
    keyword "target"
    node .literal (starts.getLast?.getD 0) []
  else
    let base ← simplePrimary g ends
    starts.reverse.foldlM (fun t start => do
      let target ← extend t (memberSuffix g)
      if (← atPunctuator "(") then
        let inner ← arguments g
        node .construct start [target, inner]
      else node .construct start [target]) base

def primary (g : Grammar) (ends : Bool) : Parser Tree := do
  let base ← if (← atWord "new") then construct g ends else simplePrimary g ends
  extend base (suffix g ends)

/-- An operand of a chain: the node, and the part of it that an assignment could change. -/
structure Operand where
  tree : Tree
  target : Option Tree

def atPrefixOperator (ends : Bool) : Parser Bool := do
  match (← word?) with
  | some w =>
    if w == "await" then
      lookAhead do
        keyword "await"
        if ends && (← atLineEnd true) then return false else atExpression
    else return ["typeof", "void", "delete"].contains w
  | none =>
    return ["!", "~", "+", "-", "++", "--"].contains (Lexeme.punctuator (← ahead))

/-- Passes over prefix operators; yields how many there were. -/
def prefixOperators (ends : Bool) : Parser Nat :=
  extend 0 fun n => do
    skipToOperand
    if (← atPrefixOperator ends) then
      match (← word?) with
      | some w => keyword w
      | none => punctuator (Lexeme.punctuator (← ahead))
      return some (n + 1)
    else return none

def yieldForm (g : Grammar) (ends : Bool) : Parser Tree := do
  let start ← mark
  keyword "yield"
  if ends && (← atLineEnd true) then node .operation start []
  else if (← optional "*") then
    let inner ← g.expression ends
    node .operation start [inner]
  else if (← atExpression) then
    let inner ← g.expression ends
    node .operation start [inner]
  else node .operation start []

def operand (g : Grammar) (ends : Bool) : Parser Operand := do
  skipToOperand
  let start ← here
  let operators ← prefixOperators ends
  if (← atWord "yield") then
    let t ← yieldForm g ends
    return { tree := t, target := none }
  else if (← atPunctuator "#") then
    let t ← privateName
    unless (← atWord "in") do refuse
    return { tree := t, target := none }
  else
    let t ← primary g ends
    let stops ← if ends then atLineEnd true else pure false
    let after := Lexeme.punctuator (← ahead)
    if !stops && (after == "++" || after == "--") then
      punctuator after
      return { tree := ← node .operation start [t], target := none }
    else if operators = 0 then return { tree := t, target := some t }
    else return { tree := ← node .operation start [t], target := some t }

def binaryOperators : List String :=
  ["&&", "||", "??", ">>>", ">>", "<<", "&", "^", "|", "+", "-", "*", "/", "%", "**", "<", "<=",
    "==", "===", "!=", "!==", ">=", ">"]

def updateOperators : List String :=
  ["+=", "-=", "*=", "/=", "%=", "^=", "&=", "|=", ">>=", ">>>=", "<<=", "**=", "&&=", "||=", "??="]

/-- A chain being read: its parts, last first, what the last could be assigned through, and
whether the chain is complete. -/
structure Chain where
  parts : List Tree
  target : Option Tree
  complete : Bool

def chainStep (g : Grammar) (ends : Bool) (chain : Chain) : Parser (Option Chain) := do
  if chain.complete then return none
  else if ends && (← atLineEnd true) then return none
  else
    let push (more : List Tree) (target : Option Tree) (complete : Bool) : Option Chain :=
      some { parts := more.reverse ++ chain.parts, target, complete }
    match (← word?) with
    | some w =>
      if w == "in" || w == "instanceof" then
        keyword w
        let right ← operand g ends
        return push [right.tree] right.target false
      else return none
    | none =>
      let p := Lexeme.punctuator (← ahead)
      if binaryOperators.contains p then
        punctuator p
        let right ← operand g ends
        return push [right.tree] right.target false
      else if p == "?" then
        punctuator "?"
        let yes ← g.expression false
        punctuator ":"
        let no ← g.expression ends
        return push [yes, no] none true
      else if p == "=" then
        match chain.target.bind Tree.toTarget?, chain.parts with
        | some target, last :: earlier =>
          punctuator "="
          let value ← g.expression ends
          let assigned ← node .assignment target.start
            [target.withRole .left, value.withRole .right]
          -- under a prefix operator the assignment is its operand
          let whole :=
            if last.kind == .operation then
              Tree.node { last.label with stop := assigned.stop } [assigned]
            else assigned
          return some { parts := whole :: earlier, target := none, complete := true }
        | _, _ => return none
      else if updateOperators.contains p then
        match chain.target with
        | some target =>
          if target.isSimpleTarget || target.kind == .parenthesized then
            punctuator p
            let value ← g.expression ends
            return push [value] none true
          else return none
        | none => return none
      else return none

def chain (g : Grammar) (ends : Bool) : Parser Tree := do
  let first ← operand g ends
  let read ← extend ({ parts := [first.tree], target := first.target, complete := false } : Chain)
    (chainStep g ends)
  match read.parts.reverse with
  | [only] => return only
  | parts => node .operation first.tree.start parts

end ScriptSplit.Script.Grammar
