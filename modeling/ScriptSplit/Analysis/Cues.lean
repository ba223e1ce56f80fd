import ScriptSplit.Facts.Record
import ScriptSplit.Text.Search

/-!
# Cues in the text

What the text itself says about a function and about the script, without a syntax tree: a doc
comment in front of a declaration, the word that exports it, and the static imports.
-/

namespace ScriptSplit

/-- How far before a declaration a doc comment is looked for. -/
def docLookback : Nat := 300

def exportLookback : Nat := 80

/-- The start of the doc comment that ends at `offset`, blanks aside. -/
def docCommentStart (text : Text) (offset : Nat) : Option Nat :=
  let floor := offset - docLookback
  match (text.slice floor offset).findLast? "/**" with
  | none => none
  | some distance =>
    let pos := floor + distance
    match text.findFrom? "*/" (pos + 3) with
    | none => none
    | some close =>
      if offset < close + 2 then none
      else if (text.slice (close + 2) offset).isBlankText then some pos
      else none

def wholeWord (word : String) : Text.Recogniser Unit := fun before text =>
  match Text.afterWord? word text with
  | some rest =>
    if before.any Text.isWord || rest.head?.any Text.isWord then none else some ((), word.length)
  | none => none

/-- Whether the word `export` stands shortly before an offset. -/
def looksExported (text : Text) (offset : Nat) : Bool :=
  !(Text.findAll (wholeWord "export") (text.slice (offset - exportLookback) offset)).isEmpty

namespace ImportScan

def isQuote (c : Char) : Bool := c == '"' || c == '\''

def specifier? : Text → Option (Text × Text)
  | [] => none
  | c :: rest =>
    if isQuote c then
      let body := rest.takeWhile (!isQuote ·)
      match rest.dropWhile (!isQuote ·) with
      | _ :: after => if body.isEmpty then none else some (body, after)
      | [] => none
    else none

def fromClause? (text : Text) : Option (Text × Text) := do
  let rest ← Text.afterBlanks? text
  let rest ← Text.afterWord? "from" rest
  let rest ← Text.afterBlanks? rest
  specifier? rest

/-- The shortest clause on one line in front of a `from` clause. `seen` is its beginning, last
character first. -/
def clause? (seen : Text) : Text → Option (Text × Text × Text)
  | [] => none
  | c :: rest =>
    if c == '\n' then none
    else
      match fromClause? rest with
      | some (source, after) => some ((c :: seen).reverse, source, after)
      | none => clause? (c :: seen) rest

/-- A clause after at least one blank and at most `n`; the longer runs of blanks are tried
first. -/
def afterSomeBlanks? (text : Text) : Nat → Option (Text × Text × Text)
  | 0 => none
  | n + 1 =>
    match clause? [] (text.drop (n + 1)) with
    | some found => some found
    | none => afterSomeBlanks? text n

def boundName? (part : Text) : Option String :=
  let part := part.strip
  let part :=
    match part.findLast? " as " with
    | some offset => Text.strip (part.drop (offset + 4))
    | none => part
  if Text.isName part then some (String.ofList part) else none

def boundNames (clause : Text) : List String :=
  (Text.splitAny (fun c => c == '{' || c == '}' || c == ',') clause).filterMap boundName?

def importAt : Text.Recogniser ImportRecord := fun before text =>
  if before == none || before == some '\n' then do
    let rest ← Text.afterWord? "import" (Text.skipBlanks text)
    let (clause, source, after) ←
      afterSomeBlanks? rest (rest.takeWhile Text.isBlank).length
    let after := if after.head? == some ';' then after.drop 1 else after
    return ({ source := String.ofList source, named := boundNames clause },
      text.length - after.length)
  else none

end ImportScan

def scanImports (text : Text) : List ImportRecord :=
  (Text.findAll ImportScan.importAt text).map (·.value)

end ScriptSplit
