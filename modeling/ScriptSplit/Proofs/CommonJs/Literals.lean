import ScriptSplit.Proofs.CommonJs.Conversion
import ScriptSplit.Proofs.Source.Reading

/-!
# Lines inside of templates and comments

A line that begins inside of a template or of a comment over several lines, and whose first word is neither `import`
nor `export`, stays as it is in the CommonJS form, and no name comes from it. The lines that imports and exports go on
over do not begin in this way, because nothing in a list opens a template or a comment.
-/

namespace ScriptSplit

open Text (atLineStart isBlank isIndent isName isNamePart)

namespace Lexer

variable {lexer : Lexer} {front rest : Text}

/-! ## Starts of lines -/

theorem State.takesPair_feed (s : State) (next : Option Char) : s.takesPair '\n' next = false := by
  unfold State.takesPair
  split <;> simp

/-- The lexer stops at the start of every line. -/
theorem advanceTo_feed {target : Nat} (h : lexer.rest = front ++ '\n' :: rest)
    (htarget : target = lexer.pos + (front.length + 1)) :
    (lexer.advanceTo target).pos = target ∧ (lexer.advanceTo target).rest = rest := by
  induction hlength : front.length using Nat.strongRecOn generalizing lexer front with
  | _ length ih =>
      subst hlength
      rw [advanceTo_step (by omega) (by rw [h]; simp)]
      cases front with
      | nil =>
          rw [step_single h (State.takesPair_feed _ _), advanceTo_of_le htarget.le]
          exact ⟨htarget.symm, rfl⟩
      | cons c front =>
          by_cases hpair : lexer.toState.takesPair c (front ++ '\n' :: rest).head? = true
          · cases front with
            | nil =>
                rw [step_pair h hpair, advanceTo_of_le htarget.le]
                exact ⟨htarget.symm, rfl⟩
            | cons d front =>
                rw [step_pair h hpair]
                exact ih front.length (by simp) rfl (by simp [htarget]; omega) rfl
          · rw [step_single h (by simpa using hpair)]
            exact ih front.length (by simp) rfl (by simp [htarget]; omega) rfl

/-- The lexer that starts with a text stops at the start of every line. -/
theorem advanceTo_start (text : Text) (htext : text = front ++ rest) (hstart : atLineStart front.getLast? = true) :
    ((start text 0).advanceTo front.length).pos = front.length ∧
      ((start text 0).advanceTo front.length).rest = rest := by
  rcases List.eq_nil_or_concat front with rfl | ⟨row, last, rfl⟩
  · rw [List.length_nil, advanceTo_of_le (le_refl 0)]
    exact ⟨rfl, by simpa [start] using htext⟩
  · rw [List.concat_eq_append, List.getLast?_append_of_ne_nil _ (by simp)] at hstart
    obtain rfl : last = '\n' := by simpa [atLineStart] using hstart
    have hrest : (start text 0).rest = row ++ '\n' :: rest := by simp [start, htext]
    exact advanceTo_feed hrest (by simp [start])

/-! ## What opens neither a template nor a comment -/

def Mode.Outside (mode : Mode) : Prop := mode ≠ .template ∧ mode ≠ .blockComment

instance (mode : Mode) : Decidable mode.Outside := inferInstanceAs (Decidable (_ ∧ _))

/-- The characters of a list or of a declared name with the words in front of it. -/
def Calm (c : Char) : Prop := isNamePart c = true ∨ isBlank c = true ∨ c ∈ [',', '\x7b', '*']

theorem Calm.ne {c other : Char} (h : Calm c)
    (hother : isNamePart other = false ∧ isBlank other = false ∧ other ∉ [',', '\x7b', '*']) : c ≠ other := by
  rintro rfl
  rcases h with h | h | h
  · rw [hother.1] at h
    cases h
  · rw [hother.2.1] at h
    cases h
  · exact hother.2.2 h

theorem State.after_calm {s : State} {c : Char} (hs : s.mode.Outside) (hc : Calm c) (next : Option Char) :
    s.takesPair c next = false ∧ (s.after c next).mode.Outside := by
  have hslash : c ≠ '/' := hc.ne (by decide)
  have hback : c ≠ '\\' := hc.ne (by decide)
  have hquotes : c ≠ '"' ∧ c ≠ '\'' ∧ c ≠ '\x60' := ⟨hc.ne (by decide), hc.ne (by decide), hc.ne (by decide)⟩
  have hclose : c ≠ '\x7d' := hc.ne (by decide)
  unfold State.takesPair State.after
  cases hmode : s.mode with
  | template => exact absurd hmode hs.1
  | blockComment => exact absurd hmode hs.2
  | lineComment =>
      refine ⟨rfl, ?_⟩
      dsimp only
      split <;> simp [Mode.Outside, hmode]
  | string =>
      refine ⟨by simpa using hback, ?_⟩
      simp only [beq_iff_eq, hback, if_false]
      split <;> simp [Mode.Outside, hmode]
  | code =>
      refine ⟨by simp [hslash], ?_⟩
      simp only [beq_iff_eq, Bool.and_eq_true, Bool.or_eq_true, hslash, hquotes.1, hquotes.2.1, hquotes.2.2,
        hclose, false_and, or_self, if_false]
      split <;> simp [Mode.Outside, hmode]

theorem advanceTo_calm {part : Text} {target : Nat} (h : lexer.rest = part ++ rest)
    (hpart : ∀ c ∈ part, Calm c) (hmode : lexer.mode.Outside) (htarget : target = lexer.pos + part.length) :
    (lexer.advanceTo target).mode.Outside := by
  induction part generalizing lexer with
  | nil => rwa [advanceTo_of_le (by simp [htarget])]
  | cons c part ih =>
      obtain ⟨hpair, hafter⟩ := State.after_calm hmode (hpart c List.mem_cons_self) (part ++ rest).head?
      rw [advanceTo_step (by simp [htarget]) (by rw [h]; simp), step_single h hpair]
      exact ih rfl (fun d hd => hpart d (List.mem_cons_of_mem _ hd)) hafter (by simp [htarget]; omega)

end Lexer

namespace EsModule

open Lexer (Calm)

variable {m : EsModule} {front row back : Text}

/-! ## Lines of a module -/

/-- Where a line stands in a text. -/
structure IsLine (text front row back : Text) : Prop where
  text_eq : text = front ++ (row ++ back)
  starts : atLineStart front.getLast? = true
  noFeed : '\n' ∉ row
  ended : Ended back

/-- Whether a line begins inside of a template or of a comment over several lines. -/
structure LiteralLine (text front row back : Text) : Prop extends IsLine text front row back where
  inside : ¬ ((Lexer.start text 0).advanceTo front.length).mode.Outside

def textOf (statements : List Statement) : Text := statements.flatMap fun s => s.text ++ ['\n']

theorem IsLine.cases {text rest : Text} (h : IsLine (text ++ '\n' :: rest) front row back) :
    (∃ more, IsLine text front row more) ∨
      ∃ lead, front = text ++ '\n' :: lead ∧ IsLine rest lead row back := by
  obtain ⟨htext, hstarts, hrow, hback⟩ := h
  rcases List.append_eq_append_iff.1 htext with ⟨more, rfl, hmore⟩ | ⟨more, rfl, hmore⟩
  · cases more with
    | nil =>
        have hempty : row = [] := by
          cases row with
          | nil => rfl
          | cons c row =>
              rw [List.nil_append, List.cons_append] at hmore
              exact absurd ((List.cons.inj hmore).1 ▸ List.mem_cons_self) hrow
        exact Or.inl ⟨[], by simp [hempty], hstarts, hrow, ended_nil⟩
    | cons c lead =>
        obtain ⟨rfl, hrest⟩ := List.cons.inj hmore
        refine Or.inr ⟨lead, rfl, hrest, ?_, hrow, hback⟩
        cases lead with
        | nil => rfl
        | cons d lead => rwa [List.getLast?_append_of_ne_nil _ (by simp), List.getLast?_cons_cons] at hstarts
  · rcases List.append_eq_append_iff.1 hmore with ⟨others, rfl, hothers⟩ | ⟨others, rfl, hothers⟩
    · refine Or.inl ⟨others, rfl, hstarts, hrow, ?_⟩
      cases others with
      | nil => exact ended_nil
      | cons c others =>
          intro d hd
          exact hback d (by rw [hothers]; exact hd)
    · cases others with
      | nil => exact Or.inl ⟨[], by simp, hstarts, hrow, ended_nil⟩
      | cons c others =>
          obtain ⟨rfl, -⟩ := List.cons.inj hothers
          exact absurd (by simp) hrow

/-- Every line of a module lies in one of its statements. -/
theorem IsLine.exists_statement (h : IsLine m.text front row back) :
    ∃ before s after lead more, m.all = before ++ s :: after ∧ front = textOf before ++ lead ∧
      IsLine s.text lead row more := by
  obtain ⟨statements, last⟩ := m
  simp only [text, all] at h ⊢
  induction statements generalizing front with
  | nil => exact ⟨[], last, [], front, back, rfl, rfl, h⟩
  | cons s statements ih =>
      rw [List.flatMap_cons, List.append_assoc, List.append_assoc, List.singleton_append] at h
      rcases h.cases with ⟨more, hline⟩ | ⟨lead, rfl, hline⟩
      · exact ⟨[], s, statements ++ [last], front, more, rfl, rfl, hline⟩
      · obtain ⟨before, found, after, lead, more, hall, rfl, hfound⟩ := ih hline
        exact ⟨s :: before, found, after, lead, more, by rw [List.cons_append, hall]; rfl,
          by simp [textOf], hfound⟩

theorem text_around {before after : List Statement} {s : Statement} (h : m.all = before ++ s :: after) :
    ∃ tail, m.text = textOf before ++ (s.text ++ tail) ∧ Ended tail := by
  rcases List.eq_nil_or_concat after with rfl | ⟨others, last, rfl⟩
  · obtain ⟨hstatements, hlast⟩ := List.append_inj' (h : m.statements ++ [m.last] = before ++ [s]) rfl
    obtain rfl : m.last = s := (List.cons.inj hlast).1
    exact ⟨[], by rw [text, hstatements, List.append_nil]; rfl, ended_nil⟩
  · rw [List.concat_eq_append, ← List.cons_append, ← List.append_assoc] at h
    obtain ⟨hstatements, hlast⟩ := List.append_inj' (h : m.statements ++ [m.last] = _ ++ [last]) rfl
    refine ⟨'\n' :: (textOf others ++ m.last.text), ?_, ended_feed _⟩
    rw [text, hstatements]
    simp [textOf]

/-! ## Statements that are not lines alone -/

theorem calm_name (name : Name) : ∀ c ∈ name.text, Calm c := fun c hc =>
  Or.inl (Text.isNamePart_of_isName name.isName c hc)

theorem calm_blanks (blanks : Blanks) : ∀ c ∈ blanks.text, Calm c := fun c hc => Or.inr (Or.inl (blanks.blank c hc))

theorem calm_word {word : String} (hword : isName word.toList = true) : ∀ c ∈ word.toList, Calm c := fun c hc =>
  Or.inl (Text.isNamePart_of_isName hword c hc)

theorem calm_asyncText (async : Option Spaces) : ∀ c ∈ asyncText async, Calm c := by
  cases async with
  | none => simp [asyncText]
  | some spaces => exact List.forall_mem_append.2 ⟨calm_word (by decide), calm_blanks spaces.toBlanks⟩

theorem FunctionHead.calm (head : FunctionHead) : ∀ c ∈ head.text, Calm c := by
  obtain ⟨async, mark, name⟩ := head
  have hmark : ∀ c ∈ mark.text, Calm c := by
    cases mark with
    | blanks gap => exact calm_blanks gap.toBlanks
    | star before after =>
        simp only [Mark.text, List.forall_mem_append, List.forall_mem_cons]
        exact ⟨calm_blanks before, Or.inr (Or.inr (by simp)), calm_blanks after⟩
  simp only [text, List.forall_mem_append]
  exact ⟨calm_asyncText async, calm_word (by decide), hmark, calm_name name⟩

theorem Declared.exists_calm (d : Declared) :
    ∃ opening last, d.text = opening ++ last ∧ (∀ c ∈ opening, Calm c) ∧ '\n' ∉ last := by
  cases d with
  | function head => exact ⟨head.text, [], (List.append_nil _).symm, head.calm, List.not_mem_nil⟩
  | binding keyword hkeyword gap name =>
      have hword : ∀ keyword ∈ ["class", "const", "let", "var"], isName keyword.toList = true := by decide
      refine ⟨_, [], (List.append_nil _).symm, ?_, List.not_mem_nil⟩
      simp only [text, List.forall_mem_append]
      exact ⟨calm_word (hword keyword hkeyword), calm_blanks gap.toBlanks, calm_name name⟩
  | pattern keyword hkeyword gap bracket hbracket =>
      have hword : ∀ keyword ∈ ["const", "let", "var"], isName keyword.toList = true := by decide
      refine ⟨keyword.toList ++ gap.text, [bracket], by simp [text], ?_, ?_⟩
      · exact List.forall_mem_append.2 ⟨calm_word (hword keyword hkeyword), calm_blanks gap⟩
      · rcases hbracket with rfl | rfl <;> decide

theorem Nameless.exists_calm {text : Text} (h : Nameless text) :
    ∃ opening last, text = opening ++ last ∧ (∀ c ∈ opening, Calm c) ∧ '\n' ∉ last := by
  have hname : ∀ word ∈ ["function", "class"], isName word.toList = true := by decide
  cases h with
  | other hne hhead hwords hfeed => exact ⟨[], text, rfl, List.forall_mem_nil _, hfeed⟩
  | function async before rest hfeed =>
      refine ⟨asyncText async ++ ("function".toList ++ before.text), '(' :: rest, by simp, ?_, by simpa using hfeed⟩
      simp only [List.forall_mem_append]
      exact ⟨calm_asyncText async, calm_word (by decide), calm_blanks before⟩
  | generator async before after rest hfeed =>
      refine ⟨asyncText async ++ ("function".toList ++ (before.text ++ '*' :: after.text)), '(' :: rest, by simp, ?_,
        by simpa using hfeed⟩
      simp only [List.forall_mem_append, List.forall_mem_cons]
      exact ⟨calm_asyncText async, calm_word (by decide), calm_blanks before, Or.inr (Or.inr (by simp)),
        calm_blanks after⟩
  | «class» gap rest hfeed =>
      refine ⟨"class".toList ++ gap.text, '\x7b' :: rest, by simp, ?_, by simpa using hfeed⟩
      exact List.forall_mem_append.2 ⟨calm_word (by decide), calm_blanks gap⟩
  | arrow gap c hblank hc rest hfeed =>
      refine ⟨"async".toList ++ gap.text, c :: rest, by simp, ?_, ?_⟩
      · exact List.forall_mem_append.2 ⟨calm_word (by decide), calm_blanks gap.toBlanks⟩
      · rintro (_ | ⟨_, hmem⟩)
        · exact absurd hblank (by decide)
        · exact hfeed hmem
  | longer word hword c hc rest hfeed =>
      refine ⟨word.toList, c :: rest, rfl, calm_word (hname word hword), ?_⟩
      rintro (_ | ⟨_, hmem⟩)
      · exact absurd hc (by decide)
      · exact hfeed hmem

theorem Value.exists_calm (value : Value) :
    ∃ opening last, value.text = opening ++ last ∧ (∀ c ∈ opening, Calm c) ∧ '\n' ∉ last := by
  cases value with
  | function head => exact (Declared.function head).exists_calm
  | «class» gap name => exact (Declared.binding "class" (by simp) gap name).exists_calm
  | nameless text htext => exact htext.exists_calm

theorem Statement.opens {s : Statement} (h : ∀ r, s ≠ .row r) :
    (∃ word ∈ ["import", "export"], Text.startsWithWord word (s.text.dropWhile isIndent) = true) ∧
      ∃ opening behind, s.text = opening ++ behind ∧ (∀ c ∈ opening, Calm c) ∧ '\n' ∉ behind := by
  have hlist : ∀ (indent : Gap) (gap : Blanks) (word : String) (clause : Clause), word ∈ ["import", "export"] →
      ∀ c ∈ indent.text ++ (word.toList ++ (gap.text ++ '\x7b' :: clause.text)), Calm c := by
    intro indent gap word clause hmem
    simp only [List.forall_mem_append, List.forall_mem_cons]
    refine ⟨calm_blanks indent.toBlanks, calm_word (isName_of_mem_words word hmem), calm_blanks gap,
      Or.inr (Or.inr (by simp)), fun c hc => ?_⟩
    rcases clause.calm c hc with hc | hc | rfl
    · exact Or.inl hc
    · exact Or.inr (Or.inl hc)
    · exact Or.inr (Or.inr (by simp))
  have hstarts : ∀ {text : Text} (word : String) (gap : Blanks) (c : Char) (rest : Text), isNamePart c = false →
      text.dropWhile isIndent = word.toList ++ (gap.text ++ c :: rest) →
        Text.startsWithWord word (text.dropWhile isIndent) = true := by
    intro text word gap c rest hc htext
    rw [htext]
    exact startsWithWord_append fun d hd => not_isWord_of_not_isNamePart (gap.head hc rest d hd)
  have hparts : ∀ {text : Text} (word : String) (gap : Parting) (rest : Text),
      text.dropWhile isIndent = word.toList ++ (gap.text ++ rest) →
        Text.startsWithWord word (text.dropWhile isIndent) = true := by
    intro text word gap rest htext
    rw [htext]
    exact startsWithWord_append fun d hd => not_isWord_of_not_isNamePart (gap.head rest d hd)
  cases s with
  | row r => exact absurd rfl (h r)
  | named i =>
      refine ⟨⟨"import", by simp, hstarts _ i.gap '\x7b' _ (by decide) (by simpa [Statement.text] using i.drop_indent [])⟩, _,
        '\x7d' :: i.source, ?_, hlist i.indent i.gap "import" i.clause (by simp), ?_⟩
      · simp [Statement.text, NamedImport.text, NamedImport.source]
      · simpa using i.source_noFeed
  | list l =>
      refine ⟨⟨"export", by simp, hstarts _ l.gap '\x7b' _ (by decide) (by simpa [Statement.text] using l.drop_indent [])⟩, _,
        '\x7d' :: l.behind, ?_, hlist l.indent l.gap "export" l.clause (by simp), ?_⟩
      · simp [Statement.text, ExportList.text]
      · simpa using l.noFeed
  | declaration d =>
      obtain ⟨opening, last, hdeclared, hcalm, hlast⟩ := d.declared.exists_calm
      refine ⟨⟨"export", by simp, hparts _ d.gap _ (by simpa [Statement.text] using d.drop_indent [])⟩,
        d.indent.text ++ ("export".toList ++ (d.gap.text ++ opening)), last ++ d.behind, ?_, ?_, ?_⟩
      · simp [Statement.text, Declaration.text, hdeclared]
      · simp only [List.forall_mem_append]
        exact ⟨calm_blanks d.indent.toBlanks, calm_word (by decide), calm_blanks d.gap.toBlanks, hcalm⟩
      · simp [hlast, d.noFeed]
  | byDefault d =>
      obtain ⟨opening, last, hvalue, hcalm, hlast⟩ := d.value.exists_calm
      refine ⟨⟨"export", by simp, hparts _ d.gap _ (by simpa [Statement.text] using d.drop_indent [])⟩,
        d.indent.text ++ ("export".toList ++ (d.gap.text ++ ("default".toList ++ (d.second.text ++ opening)))),
        last ++ d.behind, ?_, ?_, ?_⟩
      · simp [Statement.text, DefaultExport.text, hvalue]
      · simp only [List.forall_mem_append]
        exact ⟨calm_blanks d.indent.toBlanks, calm_word (by decide), calm_blanks d.gap.toBlanks,
          calm_word (by decide), calm_blanks d.second.toBlanks, hcalm⟩
      · simp [hlast, d.noFeed]

/-- A line of an import or of an export, its first one aside, begins behind calm characters. -/
theorem IsLine.calm {s : Statement} (hs : ∀ r, s ≠ .row r) {lead more : Text} (h : IsLine s.text lead row more) :
    ∀ c ∈ lead, Calm c := by
  obtain ⟨-, opening, behind, htext, hcalm, hbehind⟩ := Statement.opens hs
  obtain ⟨heq, hstarts, -, -⟩ := h
  rw [htext] at heq
  rcases List.append_eq_append_iff.1 heq with ⟨others, rfl, hothers⟩ | ⟨others, rfl, -⟩
  · rcases List.eq_nil_or_concat others with rfl | ⟨others, c, rfl⟩
    · simpa using hcalm
    · rw [List.concat_eq_append, ← List.append_assoc, List.getLast?_concat] at hstarts
      obtain rfl : c = '\n' := by simpa [atLineStart] using hstarts
      exact absurd (by rw [hothers]; simp) hbehind
  · exact fun c hc => hcalm c (List.mem_append_left _ hc)

theorem textOf_starts (statements : List Statement) : atLineStart (textOf statements).getLast? = true := by
  rcases List.eq_nil_or_concat statements with rfl | ⟨others, s, rfl⟩
  · rfl
  · simp [textOf, atLineStart]

theorem exists_first_line (text : Text) : ∃ row rest, text = row ++ rest ∧ '\n' ∉ row ∧ Ended rest := by
  refine ⟨text.takeWhile (· != '\n'), text.dropWhile (· != '\n'), List.takeWhile_append_dropWhile.symm, ?_, ?_⟩
  · intro hmem
    simpa using List.mem_takeWhile_imp hmem
  · intro c hc
    have hhead := List.head?_dropWhile_not (· != '\n') text
    rw [Option.mem_def.1 hc] at hhead
    simpa using hhead

/-- A line that begins inside of a template or of a comment, and with neither word, is a row of its own. -/
theorem LiteralLine.exists_row
    (hopens : ∀ {front row back}, LiteralLine m.text front row back → ∀ word ∈ ["import", "export"],
      Text.startsWithWord word (row.dropWhile isIndent) = false)
    (h : LiteralLine m.text front row back) :
    ∃ before r after, m.all = before ++ .row r :: after ∧ front = textOf before ∧ r.text = row := by
  obtain ⟨before, s, after, lead, more, hall, rfl, hline⟩ := h.toIsLine.exists_statement
  by_cases hs : ∃ r, s = .row r
  · obtain ⟨r, rfl⟩ := hs
    obtain ⟨htext, hstarts, -, hended⟩ := hline
    have hnone : '\n' ∉ lead ++ (row ++ more) := htext ▸ r.noFeed
    have hlead : lead = [] := by
      rcases List.eq_nil_or_concat lead with rfl | ⟨others, c, rfl⟩
      · rfl
      · rw [List.concat_eq_append, List.getLast?_concat] at hstarts
        obtain rfl : c = '\n' := by simpa [atLineStart] using hstarts
        exact absurd (by simp) hnone
    have hmore : more = [] := by
      cases more with
      | nil => rfl
      | cons c more =>
          obtain rfl : c = '\n' := hended c rfl
          exact absurd (by simp) hnone
    subst hlead hmore
    exact ⟨before, r, after, hall, by simp, by simpa [Statement.text] using htext⟩
  · have hs : ∀ r, s ≠ .row r := fun r hr => hs ⟨r, hr⟩
    obtain ⟨tail, htext, htail⟩ := text_around hall
    obtain ⟨⟨word, hword, hstarts⟩, -⟩ := Statement.opens hs
    -- the first line of the statement begins outside, because it begins with the word
    have houtside : ((Lexer.start m.text 0).advanceTo (textOf before).length).mode.Outside := by
      by_contra hinside
      obtain ⟨first, rest, hfirst, hfeed, hrest⟩ := exists_first_line s.text
      have hended : Ended (rest ++ tail) := by
        cases rest with
        | nil => exact htail
        | cons c rest => exact hrest
      have hliteral : LiteralLine m.text (textOf before) first (rest ++ tail) :=
        ⟨⟨by rw [htext, hfirst, List.append_assoc], textOf_starts before, hfeed, hended⟩, hinside⟩
      have hnot := hopens hliteral word hword
      rw [hfirst, hrest.dropWhile_isIndent, hrest.startsWithWord (isName_of_mem_words word hword), hnot] at hstarts
      cases hstarts
    obtain ⟨hpos, hrest⟩ := Lexer.advanceTo_start m.text htext (textOf_starts before)
    refine absurd ?_ h.inside
    have hleft : (Lexer.advanceTo (Lexer.start m.text 0) (textOf before).length).rest =
        lead ++ (row ++ more ++ tail) := by
      rw [hrest, hline.text_eq, List.append_assoc]
    have hle : (textOf before).length ≤ (textOf before ++ lead).length := by simp
    rw [← Lexer.advanceTo_advanceTo (Lexer.start m.text 0) hle]
    exact Lexer.advanceTo_calm hleft (hline.calm hs) houtside (by rw [hpos]; simp)

/-! ## What is left of such a line -/

theorem namesOf_row (before after : List Statement) (r : Row) :
    namesOf (before ++ .row r :: after) = namesOf (before ++ after) := by
  simp [namesOf, Statement.defaults, Statement.declared, Statement.listed]

theorem Statement.line_row (r : Row) : (Statement.row r).line = r.text ++ ['\n'] := rfl

theorem line_starts (statements : List Statement) :
    atLineStart (statements.flatMap Statement.line).getLast? = true := by
  induction statements using List.reverseRecOn with
  | nil => rfl
  | append_singleton statements s ih =>
      rw [List.flatMap_append, List.flatMap_singleton, Statement.line]
      split
      · rwa [List.append_nil]
      · simp [atLineStart]

theorem isLine_ofModule {before after : List Statement} {r : Row} (h : m.all = before ++ .row r :: after) :
    ∃ back, IsLine (CommonJs.ofModule m.text).1 (before.flatMap Statement.line) r.text back := by
  obtain ⟨rest, hrest⟩ : ∃ rest, (CommonJs.ofModule m.text).1 =
      before.flatMap Statement.line ++ (r.text ++ '\n' :: rest) := by
    rw [ofModule_text]
    rcases List.eq_nil_or_concat after with rfl | ⟨others, last, rfl⟩
    · obtain ⟨hstatements, hlast⟩ := List.append_inj' (h : m.statements ++ [m.last] = before ++ [.row r]) rfl
      have hleft : m.left = before.flatMap Statement.line ++ r.text := by
        rw [left, hstatements, (List.cons.inj hlast).1]
        rfl
      simp only [hleft, List.append_assoc]
      split
      · exact ⟨_, rfl⟩
      · exact ⟨_, rfl⟩
    · rw [List.concat_eq_append, ← List.cons_append, ← List.append_assoc] at h
      obtain ⟨hstatements, hlast⟩ := List.append_inj' (h : m.statements ++ [m.last] = _ ++ [last]) rfl
      have hleft : m.left = before.flatMap Statement.line ++ (r.text ++ '\n' ::
          (others.flatMap Statement.line ++ m.last.left)) := by
        rw [left, hstatements]
        simp [Statement.line_row]
      rw [hleft]
      simp only [List.append_assoc, List.cons_append]
      exact ⟨_, rfl⟩
  exact ⟨'\n' :: rest, hrest, line_starts before, r.noFeed, ended_feed rest⟩

/-- A line that begins inside of a template or of a comment over several lines stays a line of the CommonJS form, and
the exported names are those of the other statements, unless one of the lines that begin there begins with a word of
imports or exports. -/
theorem literal_line_kept
    (hopens : ∀ {front row back}, LiteralLine m.text front row back → ∀ word ∈ ["import", "export"],
      Text.startsWithWord word (row.dropWhile isIndent) = false)
    (h : LiteralLine m.text front row back) :
    ∃ before r after, m.all = before ++ .row r :: after ∧ front = textOf before ∧ r.text = row ∧
      (∃ rest, IsLine (CommonJs.ofModule m.text).1 (before.flatMap Statement.line) row rest) ∧
      (CommonJs.ofModule m.text).2 = namesOf (before ++ after) := by
  obtain ⟨before, r, after, hall, hfront, rfl⟩ := h.exists_row hopens
  refine ⟨before, r, after, hall, hfront, rfl, isLine_ofModule hall, ?_⟩
  rw [ofModule_text, hall, namesOf_row]

def template : EsModule where
  statements := [
    .row (.ofText "const text = \x60".toList (by decide) (by decide +kernel)),
    .row (.ofText "  exports nothing".toList (by decide) (by decide +kernel)),
    .row (.ofText "\x60;".toList (by decide) (by decide +kernel)),
    .list ⟨noGap, space.toBlanks, ⟨[], .inl ⟨⟨[' '], List.forall_mem_singleton.2 rfl⟩, .plain ⟨"text".toList, by decide⟩,
      ⟨[' '], List.forall_mem_singleton.2 rfl⟩⟩⟩, "; // offered".toList, by decide⟩]
  last := .row noRow

theorem literal_line_kept_template :
    LiteralLine template.text "const text = \x60\n".toList "  exports nothing".toList
        "\n\x60;\nexport \x7b text \x7d; // offered\n".toList ∧
      ∃ before r after, template.all = before ++ .row r :: after ∧ r.text = "  exports nothing".toList ∧
        (∃ rest, IsLine (CommonJs.ofModule template.text).1 (before.flatMap Statement.line) r.text rest) ∧
        (CommonJs.ofModule template.text).2 = namesOf (before ++ after) := by
  have hline : LiteralLine template.text "const text = \x60\n".toList "  exports nothing".toList
      "\n\x60;\nexport \x7b text \x7d; // offered\n".toList :=
    ⟨⟨by decide +kernel, by decide, by simp, by simp [Ended]⟩, by decide +kernel⟩
  have hopens : ∀ {front row back}, LiteralLine template.text front row back → ∀ word ∈ ["import", "export"],
      Text.startsWithWord word (row.dropWhile isIndent) = false := by
    intro front row back h word hword
    have hinside : ∀ n < template.text.length + 1,
        ¬ ((Lexer.start template.text 0).advanceTo n).mode.Outside → ∀ word ∈ ["import", "export"],
          Text.startsWithWord word ((template.text.drop n).dropWhile isIndent) = false := by
      decide +kernel
    have hlength : front.length < template.text.length + 1 := by
      rw [h.text_eq, List.length_append]
      omega
    have hdrop : template.text.drop front.length = row ++ back := by
      rw [h.text_eq, List.drop_left]
    have hnot := hinside _ hlength h.inside word hword
    rwa [hdrop, h.ended.dropWhile_isIndent, h.ended.startsWithWord (isName_of_mem_words word hword)] at hnot
  obtain ⟨before, r, after, hall, -, hrow, hkept⟩ := literal_line_kept hopens hline
  exact ⟨hline, before, r, after, hall, hrow, by rwa [hrow]⟩

end EsModule

end ScriptSplit
