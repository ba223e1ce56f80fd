import ScriptSplit.Facts.Record
import ScriptSplit.Text.Search

/-!
# Exports of emitted modules

Which names a module can list in its export statement, and which declarations of the source already
carry the word `export` themselves.
-/

namespace ScriptSplit

/-- The words that no export list may name. -/
def unexportableWords : List String :=
  ["break", "case", "catch", "class", "const", "continue", "debugger", "default", "delete", "do",
    "else", "enum", "export", "extends", "false", "finally", "for", "function", "if", "import",
    "in", "instanceof", "new", "null", "return", "super", "switch", "this", "throw", "true", "try",
    "typeof", "var", "void", "while", "with", "yield", "let", "static", "implements", "interface",
    "package", "private", "protected", "public", "await"]

/-- Whether a name may stand in an export list. One line feed at its end passes. -/
def isExportable (name : String) : Bool :=
  Text.isName (Text.dropFinalNewline name.toList) && !unexportableWords.contains name

def exportNames (records : List FunctionRecord) : List String :=
  ((records.map (·.name)).filter isExportable).eraseDups

def exportStatement (names : List String) : String :=
  "export \x7b " ++ ", ".intercalate names ++ " \x7d;"

namespace InlineExport

def lookback : Nat := 32

/-- Where the word `export` begins that stands before an offset with nothing but blanks, and at least
one, in between. -/
def wordBefore? (source : Text) (offset : Nat) : Option Nat :=
  let before := (source.take offset).reverse
  let blanks := (before.takeWhile Text.isBlank).length
  match Text.afterWord? "tropxe" (before.drop blanks) with
  | some earlier =>
    if blanks = 0 || earlier.head?.any Text.isWord || earlier.length < offset - lookback then none
    else some earlier.length
  | none => none

def later (a b : Nat × Nat) : Bool :=
  if a.1 = b.1 then b.2 ≤ a.2 else b.1 < a.1

/-- The exported functions whose declaration has the word `export` directly before it, with the span
of that word. -/
def found (source : Text) (records : List FunctionRecord) : List (String × Nat × Nat) :=
  (records.filter (·.exported)).filterMap fun f =>
    (wordBefore? source f.start.toNat).map fun start => (f.name, start, f.start.toNat)

end InlineExport

/-- The source without the word `export` before the declarations of exported functions, and the names
of these functions. -/
def stripInlineExports (source : Text) (records : List FunctionRecord) : Text × List String :=
  let found := InlineExport.found source records
  let cuts := (found.map (·.2)).mergeSort InlineExport.later
  (cuts.foldl (fun text cut => text.take cut.1 ++ text.drop cut.2) source,
    Names.ofList (found.map (·.1)))

def startsDefaultExport (text : Text) : Bool :=
  match (Text.afterWord? "export" text).bind Text.afterBlanks? with
  | some rest => Text.startsWithWord "default" rest
  | none => false

/-- Whether the words `export default` follow, blanks aside, the end of a comment. -/
def commentThenDefaultExport : Text → Bool
  | [] => false
  | '*' :: '/' :: rest =>
    startsDefaultExport (Text.skipBlanks rest) || commentThenDefaultExport ('/' :: rest)
  | _ :: rest => commentThenDefaultExport rest

/-- Whether the span of a function begins with the words `export default`, perhaps after a doc
comment. -/
def isDefaultExport (source : Text) (f : FunctionRecord) : Bool :=
  let text := source.drop f.start.toNat
  startsDefaultExport text ||
    match Text.afterWord? "/**" text with
    | some rest => commentThenDefaultExport rest
    | none => false

end ScriptSplit
