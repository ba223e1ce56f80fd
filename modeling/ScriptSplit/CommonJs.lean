import ScriptSplit.Emit.Exports

/-!
# CommonJS forms of modules

A module with `import` and `export` becomes one with `require` and `module.exports` by changing lines
that begin with these words. Nothing else in the text is looked at.
-/

namespace ScriptSplit.CommonJs

open Text

/-- The specifier of a relative `.js` file names its CommonJS form. -/
def requireSpecifier (specifier : String) : String :=
  let text := specifier.toList
  if text.head? == some '.' && ".js".toList.isSuffixOf text then
    String.ofList (text.take (text.length - 3)) ++ ".cjs"
  else specifier

def destructure (clause : Text) : Text :=
  [',', ' '].intercalate <| (commaList clause).map fun item =>
    match splitAlias? item with
    | some (name, binding) => name ++ [':', ' '] ++ binding
    | none => item

/-- A list between braces, without the blanks at its head, and what follows it. -/
def bracedList? (text : Text) : Option (Text × Text) := do
  let '{' :: rest := skipBlanks text | none
  let rest := skipBlanks rest
  let _ :: after := rest.dropWhile (· != '}') | none
  return (rest.takeWhile (· != '}'), after)

def quotedSpecifier? (text : Text) : Option (Text × Text) := do
  let isQuote (c : Char) : Bool := c == '"' || c == '\''
  let open_ :: rest := text | none
  let _ :: after := rest.dropWhile (!isQuote ·) | none
  let body := rest.takeWhile (!isQuote ·)
  if isQuote open_ && !body.isEmpty then return (body, after) else none

/-- What follows the words of `keywords` at the head of a text, with blanks after each of them. -/
def afterKeywords? (keywords : List String) (text : Text) : Option Text :=
  keywords.foldlM (fun text keyword => (afterWord? keyword text).bind afterBlanks?) text

/-- What follows the word `async` and blanks, or the text itself. -/
def skipAsync (text : Text) : Text :=
  (afterKeywords? ["async"] text).getD text

def functionName? (text : Text) : Option Text := do
  let rest ← afterWord? "function" (skipAsync text)
  let rest := skipBlanks rest
  let rest := if rest.head? == some '*' then skipBlanks rest.tail else rest
  return (← spanName? rest).1

def keywordName? (keywords : List String) (text : Text) : Option Text :=
  keywords.findSome? fun keyword => do return (← spanName? (← afterKeywords? [keyword] text)).1

/-- A find at the start of a line, after its indentation. -/
def lineFind {α : Type} (find : (indent rest : Text) → Option (α × Text)) : Recogniser α :=
  fun before text => do
    guard (atLineStart before)
    let (value, after) ← find (text.takeWhile isIndent) (text.dropWhile isIndent)
    return (value, text.length - after.length)

/-- The binding that holds a default export without a name. -/
def defaultBinding : String := "_default"

/-- The name of a default export: that of its function or class, if it has one. -/
def defaultName? (text : Text) : Option Text :=
  if startsWithWord "function" (skipAsync text) then functionName? text
  else keywordName? ["class"] text

/-- What a default export leaves in its place, and the name that it exports. -/
def defaultExport : Recogniser (Text × Option Text) :=
  lineFind fun indent rest => do
    let rest ← afterKeywords? ["export", "default"] rest
    match defaultName? rest with
    | some name => return ((indent, some name), rest)
    | none => return ((indent ++ "const " ++ defaultBinding ++ " = ", none), rest)

def startsDeclaration (text : Text) : Bool :=
  startsWithWord "function" (skipAsync text) ||
    ["class", "const", "let", "var"].any (startsWithWord · text)

/-- What an exported declaration leaves in its place, and the name that it declares. -/
def inlineExport : Recogniser (Text × Option Text) :=
  lineFind fun indent rest => do
    let rest ← afterKeywords? ["export"] rest
    guard (startsDeclaration rest)
    return ((indent, (functionName? rest).or (keywordName? ["class", "const", "let", "var"] rest)),
      rest)

def namedImport : Recogniser Text :=
  lineFind fun indent rest => do
    let rest ← afterWord? "import" rest
    let (clause, rest) ← bracedList? rest
    let rest ← afterWord? "from" (skipBlanks rest)
    let (specifier, rest) ← quotedSpecifier? (skipBlanks rest)
    let rest := if rest.head? == some ';' then rest.tail else rest
    return (indent ++ "const \x7b " ++ destructure clause ++ " \x7d = require('" ++
      requireSpecifier (String.ofList specifier) ++ "');", rest)

/-- An export list that takes its names from the module itself. -/
def exportList : Recogniser Text :=
  lineFind fun _ rest => do
    let rest ← afterWord? "export" rest
    let (clause, rest) ← bracedList? rest
    let rest := rest.dropWhile isIndent
    guard (!startsWithWord "from" rest)
    let rest := if rest.head? == some ';' then rest.tail else rest
    let rest := rest.dropWhile isIndent
    let rest := if rest.head? == some '\r' then rest.tail else rest
    let rest := if rest.head? == some '\n' then rest.tail else rest
    return (clause, rest)

def replacing (recognise : Recogniser (Text × Option Text)) : Recogniser Text :=
  fun before text => (recognise before text).map fun ((left, _), n) => (left, n)

/-- The module in its CommonJS form, and the names that it exports. -/
def ofModule (text : Text) : Text × List String :=
  let defaults := (findAll defaultExport text).map (·.value.2)
  let body := replaceAll (replacing defaultExport) text
  let declared := (findAll inlineExport body).filterMap (·.value.2)
  let body := replaceAll (replacing inlineExport) body
  let body := replaceAll namedImport body
  let listed := (findAll exportList body).flatMap fun found =>
    (commaList found.value).map fun item => ((splitAlias? item).map (·.1)).getD item
  let body := replaceAll (fun before rest => (exportList before rest).map fun (_, n) => ([], n)) body
  let names := ((defaults.filterMap id ++ declared ++ listed).map String.ofList).eraseDups
  let entries := names ++
    match defaults with
    | [] => []
    | first :: _ => ["default: " ++ (first.map String.ofList).getD defaultBinding]
  (body ++ (if body.getLast? == some '\n' then [] else ['\n']) ++
      unlines [[], ("module.exports = \x7b " ++ ", ".intercalate entries ++ " \x7d;").toList],
    names)

end ScriptSplit.CommonJs
