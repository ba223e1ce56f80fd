import ScriptSplit.Script.Grammar.Expression

/-!
# The grammar: statements
-/

namespace ScriptSplit.Script.Grammar

open ScriptSplit.Script.Parser

def initializer (g : Grammar) (ends : Bool) : Parser (List Tree) := do
  if (← optional "=") then return [(← g.expression ends).withRole .value] else return []

def declarator (g : Grammar) (ends : Bool) : Parser Tree := do
  let name ← bindingTarget g
  let value ← initializer g ends
  node .variableDeclarator name.start (name.withRole .name :: value)

/-- Whether an operator could follow what was read last of a declaration. -/
def endsInExpression (declarators : List Tree) : Bool :=
  declarators.getLast?.any fun d => d.children.length == 2

def declarators (g : Grammar) : Parser (List Tree) := do
  let first ← declarator g true
  let more ← many do
    if (← optional ",") then return some (← declarator g true) else return none
  let all := first :: more
  semicolon (endsInExpression all)
  return all

/-- Whether the next word declares variables and is not a name itself: something that can be bound
follows it on the same statement. -/
def atDeclaringWord (w : String) (allowPattern : Bool) : Parser Bool := do
  if (← atWord w) then
    lookAhead do
      keyword w
      if (← atLineEnd true) then return false
      match (← word?) with
      | some next => return !isReserved next
      | none => return allowPattern && ((← atPunctuator "[") || (← atPunctuator "\x7b"))
  else return false

def variables? (g : Grammar) : Parser (Option Tree) := do
  let start ← mark
  if (← optionalKeyword "var") then
    return some (← node .variableDeclaration start (← declarators g))
  else if (← optionalKeyword "const") then
    return some (← node .lexicalDeclaration start (← declarators g))
  else if (← atDeclaringWord "let" true) then
    keyword "let"
    return some (← node .lexicalDeclaration start (← declarators g))
  else if (← atDeclaringWord "using" false) then
    keyword "using"
    return some (← node .usingDeclaration start (← declarators g))
  else
    let awaits ←
      if (← atWord "await") then
        lookAhead do
          keyword "await"
          atDeclaringWord "using" false
      else pure false
    if awaits then
      keyword "await"
      keyword "using"
      return some (← node .usingDeclaration start (← declarators g))
    else return none

def function? (g : Grammar) : Parser (Option Tree) := do
  let start ← mark
  let isNamed ← succeeds (lookAhead do
    if (← optionalKeyword "async") then
      if (← atLineEnd true) then refuse
    keyword "function"
    discard <| optional "*"
    discard <| identifier)
  if isNamed then
    discard <| optionalKeyword "async"
    let f ← functionRest g start
    return some (f.withKind
      (if f.kind == .generatorFunction then .generatorDeclaration else .functionDeclaration))
  else return none

/-- A class with a name, if one is next; `leading` are the decorators read before it. -/
def class? (g : Grammar) (start : Nat) (leading : List Tree) : Parser (Option Tree) := do
  let isNamed ← succeeds (lookAhead do
    keyword "class"
    if (← atWord "extends") then refuse
    discard <| identifier)
  if isNamed then return some (← classRest g .classDeclaration start leading) else return none

def declaration? (g : Grammar) : Parser (Option Tree) := do
  match (← function? g) with
  | some t => return some t
  | none =>
    match (← class? g (← mark) []) with
    | some t => return some t
    | none => variables? g

def exportName : Parser Tree := do
  match (← word?) with
  | some w =>
    if isReserved w && w != "default" then refuse else leaf .identifier w.length
  | none => lexeme .literal Lexeme.string?

def exportSpecifier : Parser Tree := do
  let start ← mark
  let name ← exportName
  if (← optionalKeyword "as") then
    let shown ← exportName
    node .exportSpecifier start [name.withRole .name, shown]
  else node .exportSpecifier start [name.withRole .name]

def exportClause : Parser Tree := do
  let start ← mark
  punctuator "\x7b"
  let list ← items "\x7d" exportSpecifier
  if list.holes then refuse
  node .exportClause start list.items

def fromClause : Parser Tree := do
  keyword "from"
  return (← lexeme .literal Lexeme.string?).withRole .source

def importAttributes (g : Grammar) : Parser (List Tree) := do
  if (← optionalKeyword "with") then return [← object g] else return []

def defaultExport (g : Grammar) : Parser (List Tree) := do
  let word ← leaf .keyword 7
  let start ← mark
  let leading ← decorators g
  if !leading.isEmpty || (← atWord "class") then
    match (← class? g start leading) with
    | some t => return [word, t.withRole .declaration]
    | none =>
      let t ← classRest g .classDeclaration start leading
      discard <| optional ";"
      return [word, t.withRole .declaration]
  else
    match (← declaration? g) with
    | some t => return [word, t.withRole .declaration]
    | none =>
      let value ← g.expression true
      semicolon true
      return [word, value.withRole .value]

def exportStatement (g : Grammar) (start : Nat) (leading : List Tree) : Parser Tree := do
  keyword "export"
  if (← atWord "default") then node .exportStatement start (leading ++ (← defaultExport g))
  else if (← optional "*") then
    if (← optionalKeyword "as") then discard exportName
    let source ← fromClause
    semicolon false
    node .exportStatement start [source]
  else if (← atPunctuator "\x7b") then
    let clause ← exportClause
    let source ← if (← atWord "from") then (do return [← fromClause]) else pure []
    semicolon false
    node .exportStatement start (clause :: source)
  else
    let declarationStart ← mark
    let inner ← decorators g
    let declared ←
      if inner.isEmpty then declaration? g else class? g declarationStart inner
    match declared with
    | some t => node .exportStatement start (leading ++ [t.withRole .declaration])
    | none => refuse

def namedImports : Parser Unit := do
  punctuator "\x7b"
  let list ← items "\x7d" do
    let name ← exportName
    if (← optionalKeyword "as") then identifier
    else if name.kind == .literal || name.text == "default" then refuse
    else return name
  if list.holes then refuse

def namespaceImport : Parser Unit := do
  punctuator "*"
  keyword "as"
  discard identifier

def importStatement (g : Grammar) : Parser Tree := do
  let start ← mark
  keyword "import"
  unless (← ahead).head?.any fun c => c == '"' || c == '\'' do
    if (← atPunctuator "\x7b") then namedImports
    else if (← atPunctuator "*") then namespaceImport
    else
      discard identifier
      if (← optional ",") then
        if (← atPunctuator "\x7b") then namedImports else namespaceImport
    keyword "from"
  let source ← lexeme .literal Lexeme.string?
  let attributes ← importAttributes g
  semicolon false
  node .importStatement start (source :: attributes)

def forInHead (g : Grammar) : Parser (List Tree) := do
  let declared ←
    if (← atWord "var") || (← atWord "const") then pure true
    else if (← atDeclaringWord "let" true) then pure true
    else if (← atDeclaringWord "using" false) then
      lookAhead do
        keyword "using"
        return !(← atWord "of") || (← succeeds (lookAhead do
          keyword "of"
          keyword "of"))
    else pure false
  let left ←
    if declared then
      let w := (← word?).getD ""
      let word ← leaf .keyword w.length
      let name ← bindingTarget g
      let value ← if w == "var" then initializer g false else pure []
      pure (word.withRole .kind :: name.withRole .left :: value)
    else
      let t ← primary g false
      match t.toTarget? with
      | some target => pure [target.withRole .left]
      | none => refuse
  unless (← optionalKeyword "in") do keyword "of"
  let right ← expressions g false
  punctuator ")"
  return left ++ [right.withRole .right]

def forHead (g : Grammar) : Parser (List Tree) := do
  let initial ←
    match (← variables? g) with
    | some t => pure [t]
    | none =>
      if (← optional ";") then pure []
      else
        let t ← expressions g false
        punctuator ";"
        pure [t]
  let condition ←
    if (← optional ";") then pure []
    else
      let t ← expressions g false
      punctuator ";"
      pure [t]
  let increment ← if (← atPunctuator ")") then pure [] else (do return [← expressions g false])
  punctuator ")"
  return initial ++ condition ++ increment

def forStatement (g : Grammar) : Parser Tree := do
  let start ← mark
  keyword "for"
  let awaits ← optionalKeyword "await"
  punctuator "("
  let isForIn ← succeeds (forInHead g)
  if isForIn then
    let head ← forInHead g
    let body ← g.statement
    node .forIn start (head ++ [body.withRole .body])
  else if awaits then refuse
  else
    let head ← forHead g
    let body ← g.statement
    node .statement start (head ++ [body.withRole .body])

def switchBody (g : Grammar) : Parser Tree := do
  let start ← mark
  punctuator "\x7b"
  let parts ← many do
    if (← atPunctuator "\x7d") then return none
    else
      let test ←
        if (← optionalKeyword "default") then pure []
        else
          keyword "case"
          pure [← expressions g false]
      punctuator ":"
      let body ← many do
        if (← atPunctuator "\x7d") || (← atWord "case") || (← atWord "default") then return none
        else return some (← g.statement)
      return some (test ++ body)
  punctuator "\x7d"
  node .statement start parts.flatten

def tryStatement (g : Grammar) : Parser Tree := do
  let start ← mark
  keyword "try"
  let body ← block g
  let handler ←
    if (← atWord "catch") then do
      let handlerStart ← mark
      keyword "catch"
      let parameter ←
        if (← optional "(") then do
          let name ← bindingTarget g
          punctuator ")"
          pure [name.withRole .parameter]
        else pure []
      let inner ← block g
      let t ← node .catchClause handlerStart (parameter ++ [inner.withRole .body])
      pure [t]
    else pure []
  let last ← if (← optionalKeyword "finally") then (do return [← block g]) else pure []
  node .statement start (body :: handler ++ last)

def jumpStatement (word : String) : Parser Tree := do
  let start ← mark
  keyword word
  if (← atLineEnd false) then node .statement start []
  else
    if (← word?).isSome then discard identifier
    semicolon false
    node .statement start []

def valueStatement (g : Grammar) (word : String) : Parser Tree := do
  let start ← mark
  keyword word
  if (← atLineEnd false) then node .statement start []
  else if (← optional ";") then node .statement start []
  else
    let value ← expressions g true
    semicolon true
    node .statement start [value]

def expressionStatement (g : Grammar) : Parser Tree := do
  skipToOperand
  let start ← here
  let t ← expressions g true
  semicolon true
  node .expressionStatement start [t]

def labeledStatement (g : Grammar) : Parser Tree := do
  let start ← mark
  discard reference
  punctuator ":"
  let body ← g.statement
  node .labeledStatement start [body.withRole .body]

def labeledOrExpression (g : Grammar) : Parser Tree := do
  let isLabel ← succeeds (lookAhead do
    discard reference
    punctuator ":")
  if isLabel then labeledStatement g else expressionStatement g

/-- Whether the word `export` is next and begins an export: what is exported follows it on the same
statement. -/
def atExport : Parser Bool :=
  lookAhead do
    keyword "export"
    if (← atLineEnd true) then return false
    match (← word?) with
    | some w => return w != "in" && w != "instanceof"
    | none => return ["*", "\x7b", "@"].contains (Lexeme.punctuator (← ahead))

def wordStatement (g : Grammar) (w : String) : Parser Tree := do
  let start ← mark
  match w with
  | "if" =>
    keyword w
    let condition ← parenthesized g
    let yes ← g.statement
    let no ← if (← optionalKeyword "else") then (do return [← g.statement]) else pure []
    node .statement start (condition :: yes :: no)
  | "for" => forStatement g
  | "while" | "with" =>
    keyword w
    let condition ← parenthesized g
    let body ← g.statement
    node .statement start [condition, body]
  | "do" =>
    keyword w
    let body ← g.statement
    keyword "while"
    let condition ← parenthesized g
    optionalSemicolon
    node .statement start [body, condition]
  | "switch" =>
    keyword w
    let value ← parenthesized g
    let body ← switchBody g
    node .statement start [value, body]
  | "try" => tryStatement g
  | "break" | "continue" => jumpStatement w
  | "return" => valueStatement g w
  | "throw" =>
    keyword w
    let value ← expressions g true
    semicolon true
    node .statement start [value]
  | "debugger" =>
    keyword w
    semicolon false
    node .statement start []
  | "export" => if (← atExport) then exportStatement g start [] else labeledOrExpression g
  | "import" =>
    let isExpression ← lookAhead do
      keyword w
      return (← atPunctuator "(") || (← atPunctuator ".")
    if isExpression then expressionStatement g else importStatement g
  | _ =>
    match (← declaration? g) with
    | some t => return t
    | none => labeledOrExpression g

def anyStatement (g : Grammar) : Parser Tree := do
  skipToOperand
  match (← word?) with
  | some w => wordStatement g w
  | none =>
    if (← atPunctuator "\x7b") then blockOr g (expressionStatement g)
    else if (← atPunctuator ";") then
      let start ← mark
      punctuator ";"
      node .emptyStatement start []
    else if (← atPunctuator "@") then
      let start ← mark
      let leading ← decorators g
      if (← atWord "export") then exportStatement g start leading
      else
        match (← class? g start leading) with
        | some t => return t
        | none =>
          let t ← classRest g .classExpression start leading
          semicolon true
          node .expressionStatement start [t]
    else expressionStatement g

end ScriptSplit.Script.Grammar
