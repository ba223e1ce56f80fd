import ScriptSplit.Proofs.CommonJs.Lists

/-!
# Exports of declarations and defaults

The export of a declaration loses its first word and keeps the declaration, whose name is read off its head. So does
a default with a name; one without is bound to a name first.
-/

namespace ScriptSplit

open Text (Scans atLineStart isBlank isIndent isName isNamePart skipBlanks)

namespace EsModule

open CommonJs (afterKeywords?)

variable {text rest tail : Text} {word : String}

/-! ## Names behind words -/

theorem skipBlanks_name (name : Name) (rest : Text) : skipBlanks (name.text ++ rest) = name.text ++ rest := by
  apply Text.skipBlanks_of_head
  rw [List.head?_append_of_ne_nil _ (Text.ne_nil_of_isName name.isName)]
  exact (Text.isEntry_of_isName name.isName).first

theorem prefix_of_append (hword : isName word.toList = true) (hrest : ∀ c ∈ rest.head?, isNamePart c = false)
    (h : word.toList <+: text ++ rest) : word.toList <+: text := by
  rcases List.prefix_or_prefix_of_prefix h (List.prefix_append text rest) with htext | ⟨more, hmore⟩
  · exact htext
  · cases more with
    | nil => exact ⟨[], by rw [← hmore, List.append_nil, List.append_nil]⟩
    | cons c more =>
        rw [← hmore, List.prefix_append_right_inj] at h
        cases rest with
        | nil => cases List.prefix_nil.1 h
        | cons d rest =>
            obtain ⟨rfl, -⟩ := List.cons_prefix_cons.1 h
            have hpart := Text.isNamePart_of_isName hword c (by rw [← hmore]; simp)
            rw [hrest c rfl] at hpart
            cases hpart

theorem skipAsync_eq_self (h : ¬ "async".toList <+: text) : CommonJs.skipAsync text = text := by
  rw [CommonJs.skipAsync, afterKeywords?_eq_none h, Option.getD_none]

theorem skipAsync_asyncText (async : Option Spaces) (rest : Text) :
    CommonJs.skipAsync (asyncText async ++ ("function".toList ++ rest)) = "function".toList ++ rest := by
  cases async with
  | none => exact skipAsync_eq_self (by simp [List.cons_prefix_cons, asyncText])
  | some spaces =>
      rw [CommonJs.skipAsync, asyncText, List.append_assoc, afterKeywords?_parting _ spaces.toParting,
        skipBlanks_word (by decide)]
      rfl

theorem functionName?_eq_none (hasync : ¬ "async".toList <+: text) (hfunction : ¬ "function".toList <+: text) :
    CommonJs.functionName? text = none := by
  have hword : Text.afterWord? "function" text = none := by
    rw [Option.eq_none_iff_forall_ne_some]
    intro rest hrest
    exact hfunction ⟨rest, (afterWord?_eq_some.1 hrest).symm⟩
  rw [CommonJs.functionName?, skipAsync_eq_self hasync, hword]
  rfl

theorem functionName?_head (head : FunctionHead) (hrest : ∀ c ∈ rest.head?, isNamePart c = false) :
    CommonJs.functionName? (head.text ++ rest) = some head.name.text := by
  have hname := spanName?_name head.name.isName hrest
  have hstart : ∀ c ∈ (head.name.text ++ rest).head?, c ≠ '*' := by
    rintro c hc rfl
    rw [List.head?_append_of_ne_nil _ (Text.ne_nil_of_isName head.name.isName)] at hc
    have hpart := Text.isNamePart_of_isName head.name.isName _ (List.mem_of_mem_head? hc)
    revert hpart
    decide
  rw [CommonJs.functionName?, FunctionHead.text, List.append_assoc, List.append_assoc, skipAsync_asyncText,
    Text.afterWord?_append]
  simp only [Option.bind_eq_bind, Option.bind_some]
  cases head.mark with
  | blanks gap =>
      have hskip : skipBlanks (Mark.text (.blanks gap) ++ head.name.text ++ rest) = head.name.text ++ rest := by
        rw [Mark.text, List.append_assoc, skipBlanks_append gap.blank, skipBlanks_name]
      rw [hskip, if_neg, hname]
      · rfl
      · intro hstar
        exact hstart '*' (by simpa using hstar) rfl
  | star before after =>
      have hskip : skipBlanks (Mark.text (.star before after) ++ head.name.text ++ rest) =
          '*' :: (after.text ++ (head.name.text ++ rest)) := by
        rw [Mark.text, List.append_assoc, List.append_assoc, List.cons_append,
          skipBlanks_mark before (by decide)]
      rw [hskip, if_pos (by rfl), List.tail_cons, skipBlanks_append after.blank, skipBlanks_name, hname]
      rfl

theorem FunctionHead.startsWithWord (head : FunctionHead) (rest : Text) :
    Text.startsWithWord "function" (CommonJs.skipAsync (head.text ++ rest)) = true := by
  have hmark : ∀ c ∈ (head.mark.text ++ (head.name.text ++ rest)).head?, Text.isWord c = false := by
    intro c hc
    cases hmark : head.mark with
    | blanks gap =>
        rw [hmark] at hc
        exact not_isWord_of_not_isNamePart (gap.head _ c hc)
    | star before after =>
        rw [hmark, Mark.text, List.append_assoc, List.cons_append] at hc
        exact not_isWord_of_not_isNamePart (before.head (by decide) _ c hc)
  rw [FunctionHead.text, List.append_assoc, List.append_assoc, skipAsync_asyncText, List.append_assoc,
    startsWithWord_append hmark]

theorem keywordName?_eq_none {keywords : List String} (h : ∀ keyword ∈ keywords, ¬ keyword.toList <+: text) :
    CommonJs.keywordName? keywords text = none := by
  rw [CommonJs.keywordName?, List.findSome?_eq_none_iff]
  intro keyword hkeyword
  rw [afterKeywords?_eq_none (h keyword hkeyword)]
  rfl

theorem keywordName?_cons_of_other {keyword : String} (h : ¬ keyword.toList <+: text)
    (keywords : List String) :
    CommonJs.keywordName? (keyword :: keywords) text = CommonJs.keywordName? keywords text := by
  rw [CommonJs.keywordName?, List.findSome?_cons, afterKeywords?_eq_none h]
  rfl

theorem afterKeywords?_of_not_isBlank {words : List String} {c : Char} (hc : isBlank c = false) :
    afterKeywords? (word :: words) (word.toList ++ c :: rest) = none := by
  rw [Option.eq_none_iff_forall_ne_some]
  intro after hafter
  obtain ⟨others, hothers, ⟨d, hd, hblank⟩, -⟩ := afterKeywords?_cons_eq_some.1 hafter
  obtain rfl := List.append_cancel_left hothers
  obtain rfl : c = d := by simpa using hd
  rw [hc] at hblank
  cases hblank

theorem keywordName?_name {keyword : String} {keywords : List String} (gap : Parting) (name : Name)
    (hrest : ∀ c ∈ rest.head?, isNamePart c = false) :
    CommonJs.keywordName? (keyword :: keywords) (keyword.toList ++ (gap.text ++ (name.text ++ rest))) =
      some name.text := by
  have hword : afterKeywords? [keyword] (keyword.toList ++ (gap.text ++ (name.text ++ rest))) =
      some (name.text ++ rest) := by
    rw [afterKeywords?_parting, skipBlanks_name]
    rfl
  rw [CommonJs.keywordName?, List.findSome?_cons, hword]
  simp [spanName?_name name.isName hrest]

theorem keywordName?_bracket {keyword : String} (gap : Blanks) {c : Char} (hblank : isBlank c = false)
    (hstart : Text.isNameStart c = false) (keywords : List String) :
    CommonJs.keywordName? (keyword :: keywords) (keyword.toList ++ (gap.text ++ c :: rest)) =
      CommonJs.keywordName? keywords (keyword.toList ++ (gap.text ++ c :: rest)) := by
  have hnone : ((afterKeywords? [keyword] (keyword.toList ++ (gap.text ++ c :: rest))).bind
      Text.spanName?) = none := by
    rw [Option.eq_none_iff_forall_ne_some]
    intro found hfound
    obtain ⟨after, hafter, hspan⟩ := Option.bind_eq_some_iff.1 hfound
    obtain ⟨more, hmore, -, hwords⟩ := afterKeywords?_cons_eq_some.1 hafter
    obtain rfl := List.append_cancel_left hmore
    obtain rfl : skipBlanks (gap.text ++ c :: rest) = after := by simpa [afterKeywords?] using hwords
    rw [skipBlanks_mark gap hblank, Text.spanName?, if_neg (by simp [hstart])] at hspan
    cases hspan
  rw [CommonJs.keywordName?, List.findSome?_cons]
  cases hafter : afterKeywords? [keyword] (keyword.toList ++ (gap.text ++ c :: rest)) with
  | none => rfl
  | some after =>
      rw [hafter, Option.bind_some] at hnone
      simp [hnone, CommonJs.keywordName?]

/-! ## Declarations -/

namespace Declared

variable (d : Declared)

theorem exists_word : ∃ word ∈ ["async", "function", "class", "const", "let", "var"], ∃ more,
    d.text = word.toList ++ more ∧ more ≠ [] ∧ ∀ c ∈ more.head?, isNamePart c = false := by
  cases d with
  | function head =>
      obtain ⟨async, mark, name⟩ := head
      cases async with
      | some spaces =>
          exact ⟨"async", by simp, _, by simp [text, FunctionHead.text, asyncText]; rfl,
            by simp [spaces.nonempty], spaces.toParting.head _⟩
      | none =>
          refine ⟨"function", by simp, mark.text ++ name.text, by simp [text, FunctionHead.text, asyncText],
            ?_, ?_⟩
          · simp [Text.ne_nil_of_isName name.isName]
          · cases mark with
            | blanks gap => exact gap.head _
            | star before after =>
                rw [Mark.text, List.append_assoc, List.cons_append]
                exact before.head (by decide) _
  | binding keyword hkeyword gap name =>
      exact ⟨keyword, by simp only [List.mem_cons] at hkeyword ⊢; tauto, _, rfl,
        by simp [gap.nonempty], gap.head _⟩
  | pattern keyword hkeyword gap bracket hbracket =>
      refine ⟨keyword, by simp only [List.mem_cons] at hkeyword ⊢; tauto, _, rfl, by simp, ?_⟩
      apply gap.head
      rcases hbracket with rfl | rfl <;> decide

theorem exists_head (rest : Text) : ∃ c others, d.text ++ rest = c :: others ∧ isBlank c = false ∧
    c ≠ '\x7b' ∧ c ≠ 'd' ∧ c ≠ 'i' ∧ c ≠ 'e' := by
  obtain ⟨word, hword, more, htext, -⟩ := d.exists_word
  rw [htext]
  simp only [List.mem_cons, List.not_mem_nil, or_false] at hword
  rcases hword with rfl | rfl | rfl | rfl | rfl | rfl
  · exact ⟨'a', _, rfl, by decide⟩
  · exact ⟨'f', _, rfl, by decide⟩
  · exact ⟨'c', _, rfl, by decide⟩
  · exact ⟨'c', _, rfl, by decide⟩
  · exact ⟨'l', _, rfl, by decide⟩
  · exact ⟨'v', _, rfl, by decide⟩

theorem skipBlanks_text (rest : Text) : skipBlanks (d.text ++ rest) = d.text ++ rest := by
  obtain ⟨c, others, htext, hblank, -⟩ := d.exists_head rest
  rw [htext, Text.skipBlanks_cons hblank]

theorem startsDeclaration : CommonJs.startsDeclaration (d.text ++ rest) = true := by
  cases d with
  | function head => rw [CommonJs.startsDeclaration, text, head.startsWithWord, Bool.true_or]
  | binding keyword hkeyword gap name =>
      rw [CommonJs.startsDeclaration, Bool.or_eq_true, List.any_eq_true]
      refine Or.inr ⟨keyword, hkeyword, ?_⟩
      rw [text, List.append_assoc, List.append_assoc]
      exact startsWithWord_append fun c hc => not_isWord_of_not_isNamePart (gap.head _ c hc)
  | pattern keyword hkeyword gap bracket hbracket =>
      rw [CommonJs.startsDeclaration, Bool.or_eq_true, List.any_eq_true]
      refine Or.inr ⟨keyword, List.mem_cons_of_mem _ hkeyword, ?_⟩
      rw [text, List.append_assoc, List.append_assoc]
      refine startsWithWord_append fun c hc => not_isWord_of_not_isNamePart (gap.head ?_ _ c hc)
      rcases hbracket with rfl | rfl <;> decide

theorem quiet (indent : Gap) (rest : Text) : Quiet (indent.text ++ (d.text ++ rest)) := by
  obtain ⟨word, hword, more, htext, hne, hmore⟩ := d.exists_word
  have hname : ∀ word ∈ ["async", "function", "class", "const", "let", "var"],
      isName word.toList = true ∧ word.toList ≠ "import".toList ∧ word.toList ≠ "export".toList := by
    decide
  refine quiet_of_name word.toList (more ++ rest) (hname word hword).1 (hname word hword).2 ?_ ?_
  · rw [List.dropWhile_append_of_pos indent.indent, htext, List.append_assoc]
    exact Text.dropWhile_isIndent_word (hname word hword).1 _
  · rwa [List.head?_append_of_ne_nil _ hne]

/-- No line of a declaration opens a statement, unless it begins with a name that is one of the words. -/
theorem noneBegins (hname : ∀ name ∈ d.name?, name ≠ "import".toList ∧ name ≠ "export".toList)
    (hrest : ∀ c ∈ rest.head?, isNamePart c = false) : NoneBegins d.text rest := by
  have hbehind : ∀ {blanks : Text} {name : Name}, (∀ c ∈ blanks, isBlank c = true) →
      name.text ≠ "import".toList ∧ name.text ≠ "export".toList → NoneBegins (blanks ++ name.text) rest := by
    intro blanks name hblanks hne
    have hfeed : '\n' ∉ name.text := Text.not_mem_of_isName name.isName (by decide)
    exact NoneBegins.append (noneBegins_of_blanks hblanks fun _ => not_begins_name _ name hne hrest)
      (noneBegins_of_not_mem hfeed rest)
  cases d with
  | function head =>
      obtain ⟨async, mark, name⟩ := head
      have hasync : '\n' ∉ asyncText async := by
        cases async with
        | none => simp [asyncText]
        | some spaces => simp [asyncText, spaces.feed_not_mem]
      have hne := hname name.text rfl
      have hmark : NoneBegins (mark.text ++ name.text) rest := by
        cases mark with
        | blanks gap => exact hbehind gap.blank hne
        | star before after =>
            rw [Mark.text, List.append_assoc, List.cons_append]
            refine NoneBegins.append (noneBegins_of_blanks before.blank fun _ => not_begins_blanks _ ?_)
              ((hbehind after.blank hne).cons (by decide))
            simp
            decide
      exact NoneBegins.append (noneBegins_of_not_mem hasync _)
        (NoneBegins.append (noneBegins_of_not_mem (by decide) _) hmark)
  | binding keyword hkeyword gap name =>
      have hfeed : ∀ keyword ∈ ["class", "const", "let", "var"], '\n' ∉ keyword.toList := by simp
      exact NoneBegins.append (noneBegins_of_not_mem (hfeed keyword hkeyword) _)
        (hbehind gap.blank (hname name.text rfl))
  | pattern keyword hkeyword gap bracket hbracket =>
      have hfeed : ∀ keyword ∈ ["const", "let", "var"], '\n' ∉ keyword.toList := by simp
      refine NoneBegins.append (noneBegins_of_not_mem (hfeed keyword hkeyword) _)
        (NoneBegins.append (noneBegins_of_blanks gap.blank fun _ => not_begins_blanks _ ?_)
          (noneBegins_of_not_mem ?_ _))
      · rcases hbracket with rfl | rfl <;> simp <;> decide
      · rcases hbracket with rfl | rfl <;> simp

theorem name?_eq (hrest : ∀ c ∈ rest.head?, isNamePart c = false) :
    (CommonJs.functionName? (d.text ++ rest)).or
      (CommonJs.keywordName? ["class", "const", "let", "var"] (d.text ++ rest)) = d.name? := by
  cases d with
  | function head =>
      rw [text, functionName?_head head hrest]
      rfl
  | binding keyword hkeyword gap name =>
      have hfunction : CommonJs.functionName? (keyword.toList ++ (gap.text ++ (name.text ++ rest))) = none := by
        simp only [List.mem_cons, List.not_mem_nil, or_false] at hkeyword
        rcases hkeyword with rfl | rfl | rfl | rfl <;>
          exact functionName?_eq_none (by simp [List.cons_prefix_cons]) (by simp [List.cons_prefix_cons])
      simp only [text, List.append_assoc, hfunction, Option.none_or, name?]
      simp only [List.mem_cons, List.not_mem_nil, or_false] at hkeyword
      rcases hkeyword with rfl | rfl | rfl | rfl
      · exact keywordName?_name gap name hrest
      · rw [keywordName?_cons_of_other (by simp [List.cons_prefix_cons])]
        exact keywordName?_name gap name hrest
      · iterate 2 rw [keywordName?_cons_of_other (by simp [List.cons_prefix_cons])]
        exact keywordName?_name gap name hrest
      · iterate 3 rw [keywordName?_cons_of_other (by simp [List.cons_prefix_cons])]
        exact keywordName?_name gap name hrest
  | pattern keyword hkeyword gap bracket hbracket =>
      have hbracket : isBlank bracket = false ∧ Text.isNameStart bracket = false := by
        rcases hbracket with rfl | rfl <;> decide
      have hfunction : CommonJs.functionName? (keyword.toList ++ (gap.text ++ bracket :: rest)) = none := by
        simp only [List.mem_cons, List.not_mem_nil, or_false] at hkeyword
        rcases hkeyword with rfl | rfl | rfl <;>
          exact functionName?_eq_none (by simp [List.cons_prefix_cons]) (by simp [List.cons_prefix_cons])
      simp only [text, List.append_assoc, List.singleton_append, hfunction, Option.none_or, name?]
      simp only [List.mem_cons, List.not_mem_nil, or_false] at hkeyword
      rcases hkeyword with rfl | rfl | rfl
      · rw [keywordName?_cons_of_other (by simp [List.cons_prefix_cons]),
          keywordName?_bracket gap hbracket.1 hbracket.2]
        exact keywordName?_eq_none (by simp [List.cons_prefix_cons])
      · iterate 2 rw [keywordName?_cons_of_other (by simp [List.cons_prefix_cons])]
        rw [keywordName?_bracket gap hbracket.1 hbracket.2]
        exact keywordName?_eq_none (by simp [List.cons_prefix_cons])
      · iterate 3 rw [keywordName?_cons_of_other (by simp [List.cons_prefix_cons])]
        rw [keywordName?_bracket gap hbracket.1 hbracket.2]
        exact keywordName?_eq_none (by simp)

end Declared

namespace Declaration

def ofDeclared (indent : Gap) (gap : Parting) (declared : Declared) (behind : Text) (noFeed : '\n' ∉ behind)
    (ends : ∀ c ∈ behind.head?, isNamePart c = false)
    (hname : ∀ name ∈ declared.name?, name ≠ "import".toList ∧ name ≠ "export".toList) : Declaration where
  indent := indent
  gap := gap
  declared := declared
  behind := behind
  noFeed := noFeed
  ends := ends
  continues tail htail := by
    have hdeclared : NoneBegins (declared.text ++ behind) tail :=
      NoneBegins.append (declared.noneBegins hname (head_append_ended ends htail)) (noneBegins_of_not_mem noFeed tail)
    have hgap : NoneBegins gap.text (declared.text ++ behind ++ tail) := by
      refine noneBegins_of_blanks gap.blank fun _ => not_begins_blanks _ ?_
      obtain ⟨c, others, htext, hblank, -, -, hi, he⟩ := declared.exists_head (behind ++ tail)
      rw [List.append_assoc, htext]
      simp [hblank, hi, he]
    exact NoneBegins.append (noneBegins_of_not_mem indent.feed_not_mem _)
      (NoneBegins.append (noneBegins_of_not_mem (by decide) _) (NoneBegins.append hgap hdeclared))

variable (d : Declaration)

def left : Text := d.declared.text ++ d.behind

def kept : Text := d.indent.text ++ d.left

theorem text_append (tail : Text) : d.text ++ tail = d.indent.text ++ ("export".toList ++
    (d.gap.text ++ (d.left ++ tail))) := by
  simp [text, left]

theorem drop_indent (tail : Text) : (d.text ++ tail).dropWhile isIndent = "export".toList ++
    (d.gap.text ++ (d.left ++ tail)) := by
  rw [d.text_append, List.dropWhile_append_of_pos d.indent.indent]
  rfl

theorem reads_kept {α : Type} {recognise : Text.Recogniser α} (h : FindsStatements recognise) :
    Reads recognise d.kept ((d.kept ++ ['\n']).map .inr) (d.kept.map .inr) := by
  have hlines : Continues ((d.indent.text ++ "export".toList ++ d.gap.text) ++ d.left) := by
    have hall := d.continues
    simpa [left] using hall
  exact h.reads_quiet (d.declared.quiet d.indent d.behind) (hlines.replace d.indent.feed_not_mem)

theorem skipBlanks_left (tail : Text) : skipBlanks (d.gap.text ++ (d.left ++ tail)) = d.left ++ tail := by
  rw [skipBlanks_append d.gap.blank, left, List.append_assoc, d.declared.skipBlanks_text]

theorem reads_defaultExport :
    Reads CommonJs.defaultExport d.text ((d.text ++ ['\n']).map .inr) (d.text.map .inr) := by
  refine findsStatements_defaultExport.reads_passed (fun before tail _ => ?_) d.continues
  apply defaultExport_eq_none (d.drop_indent tail)
  obtain ⟨c, others, htext, -, -, hne, -⟩ := d.declared.exists_head (d.behind ++ tail)
  rw [d.skipBlanks_left, left, List.append_assoc, htext]
  simp [List.cons_prefix_cons, hne.symm]

theorem inlineExport_eq {before : Option Char} (hbefore : atLineStart before = true) (htail : Ended tail) :
    CommonJs.inlineExport before (d.text ++ tail) = some ((d.indent.text, d.declared.name?),
      (d.text ++ tail).length - (d.left ++ tail).length) := by
  have hleft : d.left ++ tail = d.declared.text ++ (d.behind ++ tail) := by simp [left]
  have hname := d.declared.name?_eq (head_append_ended d.ends htail)
  have hword : afterKeywords? ["export"] ("export".toList ++ (d.gap.text ++ (d.left ++ tail))) =
      some (d.left ++ tail) := by
    rw [afterKeywords?_parting, hleft, d.declared.skipBlanks_text]
    rfl
  have hstarts : CommonJs.startsDeclaration (d.left ++ tail) = true := by
    rw [hleft, d.declared.startsDeclaration]
  rw [← hleft] at hname
  rw [d.text_append, CommonJs.inlineExport, lineFind_gap _ _ hbefore (by simp [isIndent])]
  rw [Option.bind_eq_bind, hword, Option.bind_some, hstarts, hname]
  rfl

/-- The first word of an exported declaration goes. -/
theorem reads_inlineExport :
    Reads CommonJs.inlineExport d.text
      (.inl (d.indent.text, d.declared.name?) :: (d.left ++ ['\n']).map .inr)
      (.inl (d.indent.text, d.declared.name?) :: d.left.map .inr) := by
  obtain ⟨taken, htaken, hsome⟩ : ∃ taken, d.text = taken ++ d.left ∧ taken ≠ [] :=
    ⟨d.indent.text ++ "export".toList ++ d.gap.text, by simp [text, left], by simp⟩
  rw [htaken]
  refine findsStatements_inlineExport.reads_found hsome (htaken ▸ d.continues) ?_
  · intro before tail hbefore htail
    rw [← List.append_assoc, ← htaken, d.inlineExport_eq hbefore htail]
    simp [htaken]

end Declaration

/-! ## Defaults -/

theorem Nameless.head {text : Text} (h : Nameless text) : ∃ c others, text = c :: others ∧ isBlank c = false := by
  have hasync : ∀ (async : Option Spaces) (rest : Text), ∃ c others,
      asyncText async ++ ("function".toList ++ rest) = c :: others ∧ isBlank c = false := by
    intro async rest
    cases async with
    | none => exact ⟨'f', _, rfl, by decide⟩
    | some spaces => exact ⟨'a', _, rfl, by decide⟩
  cases h with
  | other hne hhead hwords hfeed =>
      obtain ⟨c, others, rfl⟩ := List.exists_cons_of_ne_nil hne
      exact ⟨c, others, rfl, hhead c rfl⟩
  | function async => exact hasync async _
  | generator async => exact hasync async _
  | «class» => exact ⟨'c', _, rfl, by decide⟩
  | arrow => exact ⟨'a', _, rfl, by decide⟩
  | longer word hword =>
      simp only [List.mem_cons, List.not_mem_nil, or_false] at hword
      rcases hword with rfl | rfl
      · exact ⟨'f', _, rfl, by decide⟩
      · exact ⟨'c', _, rfl, by decide⟩

theorem defaultName?_of_not_function (hfunction : Text.startsWithWord "function" (CommonJs.skipAsync text) = false)
    (hclass : ¬ "class".toList <+: text) : CommonJs.defaultName? text = none := by
  rw [CommonJs.defaultName?, hfunction]
  exact keywordName?_eq_none (by simpa using hclass)

theorem not_function_of_class (rest : Text) :
    Text.startsWithWord "function" (CommonJs.skipAsync ("class".toList ++ rest)) = false := by
  rw [skipAsync_eq_self (by simp [List.cons_prefix_cons])]
  exact not_startsWithWord (by simp [List.cons_prefix_cons])

/-- Behind `async`, with blanks or without, there is a function only if it begins with an `f`. -/
theorem not_function_of_async (gap : Gap) {c : Char} (hblank : isBlank c = false)
    (hc : gap.text = [] ∨ c ≠ 'f') (rest : Text) :
    Text.startsWithWord "function" (CommonJs.skipAsync ("async".toList ++ (gap.text ++ c :: rest))) = false := by
  rw [CommonJs.skipAsync]
  cases hgap : gap.text with
  | nil =>
      rw [List.nil_append, afterKeywords?_of_not_isBlank hblank]
      exact not_startsWithWord (by simp [List.cons_prefix_cons])
  | cons d others =>
      have hne : c ≠ 'f' := hc.resolve_left (by simp [hgap])
      have hafter : afterKeywords? ["async"] ("async".toList ++ (gap.text ++ c :: rest)) = some (c :: rest) :=
        (afterKeywords?_parting [] { gap with nonempty := by simp [hgap] } (c :: rest)).trans
          (by rw [Text.skipBlanks_cons hblank]; rfl)
      rw [← hgap, hafter, Option.getD_some]
      exact not_startsWithWord (by simp [List.cons_prefix_cons, hne.symm])

theorem functionName?_bracket (async : Option Spaces) (before : Blanks) :
    CommonJs.functionName? (asyncText async ++ ("function".toList ++ (before.text ++ '(' :: rest))) = none := by
  rw [CommonJs.functionName?, skipAsync_asyncText, Text.afterWord?_append]
  simp only [Option.bind_eq_bind, Option.bind_some, skipBlanks_mark before (show isBlank '(' = false by decide)]
  rfl

theorem functionName?_star_bracket (async : Option Spaces) (before after : Blanks) :
    CommonJs.functionName? (asyncText async ++ ("function".toList ++ (before.text ++ '*' ::
      (after.text ++ '(' :: rest)))) = none := by
  rw [CommonJs.functionName?, skipAsync_asyncText, Text.afterWord?_append]
  simp only [Option.bind_eq_bind, Option.bind_some, skipBlanks_mark before (show isBlank '*' = false by decide),
    List.head?_cons, BEq.rfl, if_true, List.tail_cons,
    skipBlanks_mark after (show isBlank '(' = false by decide)]
  rfl

theorem Nameless.defaultName?_eq {text : Text} (h : Nameless text)
    (hrest : ∀ c ∈ rest.head?, isNamePart c = false) : CommonJs.defaultName? (text ++ rest) = none := by
  have hstarts : ∀ (async : Option Spaces) {more : Text}, (∀ c ∈ more.head?, isNamePart c = false) →
      Text.startsWithWord "function" (CommonJs.skipAsync (asyncText async ++ ("function".toList ++ more))) =
        true := by
    intro async more hmore
    rw [skipAsync_asyncText]
    exact startsWithWord_append fun c hc => not_isWord_of_not_isNamePart (hmore c hc)
  cases h with
  | other hne hhead hwords =>
      have hnone : ∀ word ∈ ["async", "function", "class"], ¬ word.toList <+: text ++ rest := by
        intro word hword hprefix
        have hname : ∀ word ∈ ["async", "function", "class"], isName word.toList = true := by decide
        exact hwords word hword (prefix_of_append (hname word hword) hrest hprefix)
      refine defaultName?_of_not_function ?_ (hnone "class" (by simp))
      rw [skipAsync_eq_self (hnone "async" (by simp))]
      exact not_startsWithWord (hnone "function" (by simp))
  | function async before more =>
      simp only [List.append_assoc, List.cons_append]
      rw [CommonJs.defaultName?, hstarts async (before.head (by decide) _), if_pos rfl,
        functionName?_bracket]
  | generator async before after more =>
      simp only [List.append_assoc, List.cons_append]
      rw [CommonJs.defaultName?, hstarts async (before.head (by decide) _), if_pos rfl,
        functionName?_star_bracket]
  | «class» gap more =>
      simp only [List.append_assoc, List.cons_append]
      rw [CommonJs.defaultName?, not_function_of_class, if_neg (by simp),
        keywordName?_bracket gap (by decide) (by decide)]
      rfl
  | arrow gap c hblank hc more =>
      simp only [List.append_assoc, List.cons_append]
      exact defaultName?_of_not_function (not_function_of_async gap hblank hc _) (by simp [List.cons_prefix_cons])
  | longer word hword c hc more =>
      simp only [List.append_assoc, List.cons_append]
      simp only [List.mem_cons, List.not_mem_nil, or_false] at hword
      rcases hword with rfl | rfl
      · refine defaultName?_of_not_function ?_ (by simp [List.cons_prefix_cons])
        rw [skipAsync_eq_self (by simp [List.cons_prefix_cons]), Text.startsWithWord, Text.afterWord?_append]
        simp [hc]
      · have hblank : isBlank c = false := by
          by_contra hblank
          have hpart := Text.isNamePart_of_isBlank (by simpa using hblank : isBlank c = true)
          rw [not_isWord_of_not_isNamePart hpart] at hc
          cases hc
        rw [CommonJs.defaultName?, not_function_of_class, if_neg (by simp), CommonJs.keywordName?,
          List.findSome?_cons, afterKeywords?_of_not_isBlank hblank]
        rfl

namespace Value

variable (value : Value)

theorem exists_head (rest : Text) : ∃ c others, value.text ++ rest = c :: others ∧ isBlank c = false := by
  cases value with
  | function head =>
      obtain ⟨c, others, htext, hblank, -⟩ := (Declared.function head).exists_head rest
      exact ⟨c, others, htext, hblank⟩
  | «class» => exact ⟨'c', _, rfl, by decide⟩
  | nameless text htext =>
      obtain ⟨c, others, rfl, hblank⟩ := htext.head
      exact ⟨c, _, rfl, hblank⟩

theorem defaultName?_eq (hrest : ∀ c ∈ rest.head?, isNamePart c = false) :
    CommonJs.defaultName? (value.text ++ rest) = value.name? := by
  cases value with
  | function head =>
      rw [text, CommonJs.defaultName?, if_pos (head.startsWithWord rest), functionName?_head head hrest]
      rfl
  | «class» gap name hname =>
      rw [text, List.append_assoc, List.append_assoc, CommonJs.defaultName?, not_function_of_class,
        if_neg (by simp), keywordName?_name gap name hrest]
      rfl
  | nameless text htext => exact htext.defaultName?_eq hrest

end Value

namespace DefaultExport

variable (d : DefaultExport)

def binding : Text :=
  d.indent.text ++ if d.value.name?.isSome then [] else "const _default = ".toList

def left : Text := d.value.text ++ d.behind

def kept : Text := d.binding ++ d.left

theorem quiet_kept : Quiet d.kept := by
  cases hvalue : d.value with
  | function head =>
      simp only [kept, binding, left, hvalue, Value.name?, Option.isSome_some, if_true, List.append_nil]
      exact (Declared.function head).quiet d.indent d.behind
  | «class» gap name hname =>
      simp only [kept, binding, left, hvalue, Value.name?, Option.isSome_some, if_true, List.append_nil]
      exact (Declared.binding "class" (by simp) gap name).quiet d.indent d.behind
  | nameless text htext =>
      simp only [kept, binding, hvalue, Value.name?, Option.isSome_none, Bool.false_eq_true, if_false,
        List.append_assoc]
      refine quiet_of_name "const".toList (" _default = ".toList ++ d.left) (by decide) (by decide) ?_
        (by simp [Text.isNamePart]; decide)
      rw [List.dropWhile_append_of_pos d.indent.indent]
      rfl

theorem reads_kept {α : Type} {recognise : Text.Recogniser α} (h : FindsStatements recognise) :
    Reads recognise d.kept ((d.kept ++ ['\n']).map .inr) (d.kept.map .inr) := by
  have hlines : Continues ((d.indent.text ++ "export".toList ++ d.gap.text ++ "default".toList ++ d.second.text) ++
      d.left) := by
    have hall := d.continues
    simpa [left] using hall
  have hbinding : '\n' ∉ d.binding := by
    unfold binding
    split <;> simp [d.indent.feed_not_mem]
  exact h.reads_quiet d.quiet_kept (hlines.replace hbinding)

theorem text_append (tail : Text) : d.text ++ tail = d.indent.text ++ ("export".toList ++
    (d.gap.text ++ ("default".toList ++ (d.second.text ++ (d.left ++ tail))))) := by
  simp [text, left]

theorem drop_indent (tail : Text) : (d.text ++ tail).dropWhile isIndent = "export".toList ++
    (d.gap.text ++ ("default".toList ++ (d.second.text ++ (d.left ++ tail)))) := by
  rw [d.text_append, List.dropWhile_append_of_pos d.indent.indent]
  rfl

theorem defaultExport_eq {before : Option Char} (hbefore : atLineStart before = true) (htail : Ended tail) :
    CommonJs.defaultExport before (d.text ++ tail) = some ((d.binding, d.value.name?),
      (d.text ++ tail).length - (d.left ++ tail).length) := by
  have hleft : d.left ++ tail = d.value.text ++ (d.behind ++ tail) := by simp [left]
  have hname := d.value.defaultName?_eq (head_append_ended d.ends htail)
  have hskip : skipBlanks (d.left ++ tail) = d.left ++ tail := by
    obtain ⟨c, others, htext, hblank⟩ := d.value.exists_head (d.behind ++ tail)
    rw [hleft, htext, Text.skipBlanks_cons hblank]
  have hwords : afterKeywords? ["export", "default"] ("export".toList ++ (d.gap.text ++
      ("default".toList ++ (d.second.text ++ (d.left ++ tail))))) = some (d.left ++ tail) := by
    rw [afterKeywords?_parting, skipBlanks_word (by decide), afterKeywords?_parting, hskip]
    rfl
  rw [← hleft] at hname
  rw [d.text_append, CommonJs.defaultExport, lineFind_gap _ _ hbefore (by simp [isIndent])]
  rw [Option.bind_eq_bind, hwords, Option.bind_some, hname, binding]
  cases d.value.name? with
  | some name => simp
  | none => simp [CommonJs.defaultBinding]

theorem reads_defaultExport :
    Reads CommonJs.defaultExport d.text
      (.inl (d.binding, d.value.name?) :: (d.left ++ ['\n']).map .inr)
      (.inl (d.binding, d.value.name?) :: d.left.map .inr) := by
  obtain ⟨taken, htaken, hsome⟩ : ∃ taken, d.text = taken ++ d.left ∧ taken ≠ [] :=
    ⟨d.indent.text ++ "export".toList ++ d.gap.text ++ "default".toList ++ d.second.text,
      by simp [text, left], by simp⟩
  rw [htaken]
  refine findsStatements_defaultExport.reads_found hsome (htaken ▸ d.continues) ?_
  · intro before tail hbefore htail
    rw [← List.append_assoc, ← htaken, d.defaultExport_eq hbefore htail]
    simp [htaken]

end DefaultExport

end EsModule

end ScriptSplit
