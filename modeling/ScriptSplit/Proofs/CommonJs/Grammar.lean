import ScriptSplit.Proofs.CommonJs.Mirror

/-!
# Modules as lines and statements

A module is read line by line. Every line is an import or an export that stands at its start, or a line that opens
no such statement; an import or an export may go on over further lines, in its list or before it has named what it
exports. The names that a module exports are read off its statements.
-/

namespace ScriptSplit

open Text (atLineStart isBlank isIndent isName isNamePart skipBlanks)

namespace EsModule

/-! ## Small parts -/

/-- Blanks, perhaps none, with line feeds among them. -/
structure Blanks where
  text : Text
  blank : ∀ c ∈ text, isBlank c = true

structure Parting extends Blanks where
  nonempty : text ≠ []

/-- Spaces and tabs, perhaps none. -/
structure Gap extends Blanks where
  indent : ∀ c ∈ text, isIndent c = true

structure Spaces extends Gap, Parting

structure Name where
  text : Text
  isName : isName text = true

theorem isBlank_of_isIndent {c : Char} (hc : isIndent c = true) : isBlank c = true := by
  have hspace : c = ' ' ∨ c = '\t' := by simpa [isIndent] using hc
  rcases hspace with rfl | rfl <;> decide

def Gap.ofText (text : Text) (indent : ∀ c ∈ text, isIndent c = true) : Gap where
  text := text
  blank c hc := isBlank_of_isIndent (indent c hc)
  indent := indent

/-! ## Lists between braces -/

inductive Entry where
  | plain (name : Name)
  | renamed (name : Name) (before after : Spaces) (other : Name)

def Entry.text : Entry → Text
  | plain name => name.text
  | renamed name before after other => name.text ++ before.text ++ "as".toList ++ after.text ++ other.text

structure Item where
  lead : Blanks
  entry : Entry
  trail : Blanks

def Item.text (item : Item) : Text := item.lead.text ++ item.entry.text ++ item.trail.text

/-- What stands between the braces of a list: items with a comma behind each, and an item without one or blanks. -/
structure Clause where
  items : List Item
  last : Item ⊕ Blanks

def Clause.text (clause : Clause) : Text :=
  clause.items.flatMap (fun item => item.text ++ [',']) ++ Sum.elim Item.text Blanks.text clause.last

def Clause.entries (clause : Clause) : List Entry :=
  clause.items.map Item.entry ++ Sum.elim (fun item => [item.entry]) (fun _ => []) clause.last

/-! ## Statements -/

def Ended (tail : Text) : Prop := ∀ c ∈ tail.head?, c = '\n'

/-- Whether a text begins, its indentation aside, with a list that is imported or exported, or with the export of a
declaration or of a default. -/
inductive Begins (text : Text) : Prop where
  | list (word : String) (hword : word ∈ ["import", "export"]) (rest : Text)
      (htext : text.dropWhile isIndent = word.toList ++ rest)
      (hbrace : (skipBlanks rest).head? = some '\x7b')
  | declaration (rest : Text) (htext : text.dropWhile isIndent = "export".toList ++ rest)
      (hblank : ∃ c ∈ rest.head?, isBlank c = true) (keyword : String)
      (hkeyword : keyword ∈ ["default", "async", "function", "class", "const", "let", "var"])
      (hstarts : keyword.toList <+: skipBlanks rest)

/-- Whether no statement begins with a line, whatever the lines below it hold. -/
def Quiet (row : Text) : Prop := ∀ tail, Ended tail → ¬ Begins (row ++ tail)

def NoneBegins (text rest : Text) : Prop :=
  ∀ front back, text = front ++ back → front.getLast? = some '\n' → ¬ Begins (back ++ rest)

/-- Whether no statement begins with a further line of a text, whatever the lines below it hold. -/
def Continues (text : Text) : Prop := ∀ tail, Ended tail → NoneBegins text tail

/-- A line that opens no statement. -/
structure Row where
  text : Text
  noFeed : '\n' ∉ text
  quiet : Quiet text

structure NamedImport where
  indent : Gap
  gap : Blanks
  clause : Clause
  beforeFrom : Gap
  afterFrom : Gap
  quote : Char
  isQuote : quote = '"' ∨ quote = '\''
  specifier : Text
  nonempty : specifier ≠ []
  plain : ∀ c ∈ specifier, c ∉ ['"', '\'', '\n']
  behind : Text
  noFeed : '\n' ∉ behind

def NamedImport.text (i : NamedImport) : Text :=
  i.indent.text ++ ("import".toList ++ (i.gap.text ++ '\x7b' :: (i.clause.text ++ '\x7d' ::
    (i.beforeFrom.text ++ ("from".toList ++ (i.afterFrom.text ++ i.quote ::
      (i.specifier ++ i.quote :: i.behind)))))))

/-- A list of names that a module exports, from itself or from another module. -/
structure ExportList where
  indent : Gap
  gap : Blanks
  clause : Clause
  behind : Text
  noFeed : '\n' ∉ behind

def ExportList.text (l : ExportList) : Text :=
  l.indent.text ++ ("export".toList ++ (l.gap.text ++ '\x7b' :: (l.clause.text ++ '\x7d' :: l.behind)))

def ExportList.passesOn (l : ExportList) : Bool :=
  Text.startsWithWord "from" (l.behind.dropWhile isIndent)

/-- What stands between `function` and the name. -/
inductive Mark where
  | blanks (gap : Parting)
  | star (before after : Blanks)

def Mark.text : Mark → Text
  | blanks gap => gap.text
  | star before after => before.text ++ '*' :: after.text

def asyncText : Option Spaces → Text
  | none => []
  | some gap => "async".toList ++ gap.text

structure FunctionHead where
  async : Option Spaces
  mark : Mark
  name : Name

def FunctionHead.text (h : FunctionHead) : Text :=
  asyncText h.async ++ ("function".toList ++ (h.mark.text ++ h.name.text))

/-- A declaration up to the name that it declares, or up to the bracket of a pattern. -/
inductive Declared where
  | function (head : FunctionHead)
  | binding (keyword : String) (hkeyword : keyword ∈ ["class", "const", "let", "var"]) (gap : Parting)
      (name : Name)
  | pattern (keyword : String) (hkeyword : keyword ∈ ["const", "let", "var"]) (gap : Blanks)
      (bracket : Char) (hbracket : bracket = '\x7b' ∨ bracket = '[')

namespace Declared

def text : Declared → Text
  | function head => head.text
  | binding keyword _ gap name => keyword.toList ++ (gap.text ++ name.text)
  | pattern keyword _ gap bracket _ => keyword.toList ++ (gap.text ++ [bracket])

def name? : Declared → Option Text
  | function head => some head.name.text
  | binding _ _ _ name => some name.text
  | pattern .. => none

end Declared

/-- The export of a declaration, with what stands behind the name in its line. -/
structure Declaration where
  indent : Gap
  gap : Parting
  declared : Declared
  behind : Text
  noFeed : '\n' ∉ behind
  ends : ∀ c ∈ behind.head?, isNamePart c = false
  continues : Continues (indent.text ++ ("export".toList ++ (gap.text ++ (declared.text ++ behind))))

def Declaration.text (d : Declaration) : Text :=
  d.indent.text ++ ("export".toList ++ (d.gap.text ++ (d.declared.text ++ d.behind)))

/-- A default value without a name, with what stands behind it in its line. -/
inductive Nameless : Text → Prop where
  | other {text : Text} (hne : text ≠ []) (hhead : ∀ c ∈ text.head?, isBlank c = false)
      (hwords : ∀ word ∈ ["async", "function", "class"], ¬ word.toList <+: text) (hfeed : '\n' ∉ text) :
      Nameless text
  | function (async : Option Spaces) (before : Blanks) (rest : Text) (hfeed : '\n' ∉ rest) :
      Nameless (asyncText async ++ ("function".toList ++ (before.text ++ '(' :: rest)))
  | generator (async : Option Spaces) (before after : Blanks) (rest : Text) (hfeed : '\n' ∉ rest) :
      Nameless (asyncText async ++ ("function".toList ++ (before.text ++ '*' :: (after.text ++ '(' :: rest))))
  | class (gap : Blanks) (rest : Text) (hfeed : '\n' ∉ rest) :
      Nameless ("class".toList ++ (gap.text ++ '\x7b' :: rest))
  | arrow (gap : Gap) (c : Char) (hblank : isBlank c = false) (hc : gap.text = [] ∨ c ≠ 'f') (rest : Text)
      (hfeed : '\n' ∉ rest) : Nameless ("async".toList ++ (gap.text ++ c :: rest))
  | longer (word : String) (hword : word ∈ ["function", "class"]) (c : Char) (hc : Text.isWord c = true)
      (rest : Text) (hfeed : '\n' ∉ rest) : Nameless (word.toList ++ c :: rest)

inductive Value where
  | function (head : FunctionHead)
  | class (gap : Parting) (name : Name) (hname : name.text ≠ "extends".toList)
  | nameless (text : Text) (htext : Nameless text)

namespace Value

def text : Value → Text
  | function head => head.text
  | «class» gap name _ => "class".toList ++ (gap.text ++ name.text)
  | nameless text _ => text

def name? : Value → Option Text
  | function head => some head.name.text
  | «class» _ name _ => some name.text
  | nameless .. => none

end Value

structure DefaultExport where
  indent : Gap
  gap : Parting
  second : Parting
  value : Value
  behind : Text
  noFeed : '\n' ∉ behind
  ends : ∀ c ∈ behind.head?, isNamePart c = false
  continues : Continues (indent.text ++ ("export".toList ++ (gap.text ++ ("default".toList ++ (second.text ++
    (value.text ++ behind))))))

def DefaultExport.text (d : DefaultExport) : Text :=
  d.indent.text ++ ("export".toList ++ (d.gap.text ++ ("default".toList ++ (d.second.text ++
    (d.value.text ++ d.behind)))))

/-- A line of a module, or an import or an export with the lines that it goes on over. -/
inductive Statement where
  | row (row : Row)
  | named (i : NamedImport)
  | list (l : ExportList)
  | declaration (d : Declaration)
  | byDefault (d : DefaultExport)

def Statement.text : Statement → Text
  | row r => r.text
  | named i => i.text
  | list l => l.text
  | declaration d => d.text
  | byDefault d => d.text

end EsModule

/-- A module by its statements. No line feed needs to stand behind the last one. -/
structure EsModule where
  statements : List EsModule.Statement
  last : EsModule.Statement

def EsModule.text (m : EsModule) : Text :=
  m.statements.flatMap (fun s => s.text ++ ['\n']) ++ m.last.text

end ScriptSplit
