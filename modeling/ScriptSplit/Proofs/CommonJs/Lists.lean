import ScriptSplit.Proofs.CommonJs.Recognise

/-!
# Imports and exports of lists

A list between braces is read as its entries. It may go on over several lines, none of which begins a statement: what
stands at the start of such a line is an entry, a comma or one of the braces.
-/

namespace ScriptSplit

open Text (IsEntry Scans atLineStart commaList isBlank isIndent isName isNamePart skipBlanks)

namespace EsModule

variable {recognise : Text.Recogniser Text} {text rest tail front back : Text} {word : String}

/-! ## Lines that begin no statement -/

def followers : List String := ["default", "async", "function", "class", "const", "let", "var"]

theorem isName_of_mem_followers : ∀ keyword ∈ followers, isName keyword.toList = true := by decide

theorem isName_of_mem_words : ∀ word ∈ ["import", "export"], isName word.toList = true := by decide

/-- A statement begins with a whole word, and with what may follow that. -/
theorem Begins.exists_word (h : Begins text) : ∃ word ∈ ["import", "export"], ∃ rest,
    text.dropWhile isIndent = word.toList ++ rest ∧ (∀ c ∈ rest.head?, isNamePart c = false) ∧
      ((skipBlanks rest).head? = some '\x7b' ∨ ∃ keyword ∈ followers, keyword.toList <+: skipBlanks rest) := by
  cases h with
  | list word hword rest htext hbrace =>
      refine ⟨word, hword, rest, htext, ?_, Or.inl hbrace⟩
      intro c hc
      by_cases hblank : isBlank c = true
      · exact Text.isNamePart_of_isBlank hblank
      · obtain ⟨more, rfl⟩ := List.head?_eq_some_iff.1 hc
        rw [Text.skipBlanks_cons (by simpa using hblank)] at hbrace
        obtain rfl : c = '\x7b' := by simpa using hbrace
        decide
  | declaration rest htext hblank keyword hkeyword hstarts =>
      refine ⟨"export", by simp, rest, htext, ?_, Or.inr ⟨keyword, hkeyword, hstarts⟩⟩
      obtain ⟨d, hd, hblank⟩ := hblank
      intro c hc
      obtain rfl : d = c := Option.some.inj (hd.symm.trans hc)
      exact Text.isNamePart_of_isBlank hblank

theorem Begins.startsWithWord (h : Begins text) :
    ∃ word ∈ ["import", "export"], Text.startsWithWord word (text.dropWhile isIndent) = true := by
  obtain ⟨word, hword, rest, htext, hhead, -⟩ := h.exists_word
  refine ⟨word, hword, ?_⟩
  rw [htext]
  exact startsWithWord_append fun c hc => not_isWord_of_not_isNamePart (hhead c hc)

theorem quiet_of_not_startsWithWord
    (h : ∀ word ∈ ["import", "export"], Text.startsWithWord word (text.dropWhile isIndent) = false) :
    Quiet text := by
  intro tail htail hbegins
  obtain ⟨word, hword, hstarts⟩ := hbegins.startsWithWord
  rw [htail.dropWhile_isIndent, htail.startsWithWord (isName_of_mem_words word hword),
    h word hword] at hstarts
  cases hstarts

theorem spanName?_name {name : Text} (hname : isName name = true)
    (hrest : ∀ c ∈ rest.head?, isNamePart c = false) : Text.spanName? (name ++ rest) = some (name, rest) := by
  cases rest with
  | cons c rest => exact Text.spanName?_append hname (hrest c rfl) rest
  | nil =>
      cases name with
      | nil => cases hname
      | cons c name =>
          simp only [isName, Bool.and_eq_true, List.all_eq_true] at hname
          rw [List.append_nil, Text.spanName?, if_pos hname.1, List.takeWhile_eq_self_iff.2 hname.2,
            List.dropWhile_eq_nil_iff.2 hname.2]

theorem name_append_inj {name other more : Text} (hname : isName name = true) (hother : isName other = true)
    (hrest : ∀ c ∈ rest.head?, isNamePart c = false) (hmore : ∀ c ∈ more.head?, isNamePart c = false)
    (h : name ++ rest = other ++ more) : name = other ∧ rest = more := by
  have hspan := spanName?_name hname hrest
  rw [h, spanName?_name hother hmore, Option.some.injEq, Prod.mk.injEq] at hspan
  exact hspan.imp Eq.symm Eq.symm

theorem Begins.name (h : Begins text) {name : Text} (hname : isName name = true)
    (htext : text.dropWhile isIndent = name ++ rest) (hrest : ∀ c ∈ rest.head?, isNamePart c = false) :
    ((skipBlanks rest).head? = some '\x7b' ∨ ∃ keyword ∈ followers, keyword.toList <+: skipBlanks rest) ∧
      (name = "import".toList ∨ name = "export".toList) := by
  obtain ⟨word, hword, more, hmore, hhead, hfollows⟩ := h.exists_word
  obtain ⟨rfl, rfl⟩ := name_append_inj hname (isName_of_mem_words word hword) hrest hhead
    (htext.symm.trans hmore)
  refine ⟨hfollows, ?_⟩
  simp only [List.mem_cons, List.not_mem_nil, or_false] at hword
  exact hword.imp (congrArg String.toList) (congrArg String.toList)

theorem quiet_of_name (name rest : Text) (hname : isName name = true)
    (hne : name ≠ "import".toList ∧ name ≠ "export".toList)
    (htext : text.dropWhile isIndent = name ++ rest) (hrest : ∀ c ∈ rest.head?, isNamePart c = false) :
    Quiet text := by
  intro tail htail hbegins
  have hboth : (text ++ tail).dropWhile isIndent = name ++ (rest ++ tail) := by
    rw [htail.dropWhile_isIndent, htext, List.append_assoc]
  obtain ⟨-, hwords⟩ := hbegins.name hname hboth (head_append_ended hrest htail)
  exact hwords.elim hne.1 hne.2

/-! ## Entries -/

theorem Entry.text_eq (entry : Entry) : ∃ name rest, isName name = true ∧ entry.text = name ++ rest ∧
    (rest = [] ∨ ∃ (before after : Spaces) (other : Name),
      rest = before.text ++ ("as".toList ++ (after.text ++ other.text))) := by
  cases entry with
  | plain name => exact ⟨name.text, [], name.isName, by simp [text], Or.inl rfl⟩
  | renamed name before after other =>
      exact ⟨name.text, _, name.isName, by simp [text], Or.inr ⟨before, after, other, rfl⟩⟩

theorem Entry.calm (entry : Entry) : ∀ c ∈ entry.text, isNamePart c = true ∨ isIndent c = true := by
  have hname : ∀ name : Name, ∀ c ∈ name.text, isNamePart c = true :=
    fun name => Text.isNamePart_of_isName name.isName
  cases entry with
  | plain name => exact fun c hc => Or.inl (hname name c hc)
  | renamed name before after other =>
      simp only [text, List.forall_mem_append]
      exact ⟨⟨⟨⟨fun c hc => Or.inl (hname name c hc), fun c hc => Or.inr (before.indent c hc)⟩,
        fun c hc => Or.inl (Text.isNamePart_of_isName (show isName "as".toList = true by decide) c hc)⟩,
        fun c hc => Or.inr (after.indent c hc)⟩, fun c hc => Or.inl (hname other c hc)⟩

theorem Entry.not_mem (entry : Entry) {c : Char} (hpart : isNamePart c = false) (hindent : isIndent c = false) :
    c ∉ entry.text := by
  intro hc
  rcases entry.calm c hc with h | h
  · rw [hpart] at h
    cases h
  · rw [hindent] at h
    cases h

theorem Entry.isEntry (entry : Entry) : IsEntry entry.text := by
  have hcomma : ',' ∉ entry.text := entry.not_mem (by decide) (by decide)
  cases entry with
  | plain name => exact Text.isEntry_of_isName name.isName
  | renamed name before after other =>
      have hfirst := Text.isEntry_of_isName name.isName
      have hsecond := Text.isEntry_of_isName other.isName
      refine ⟨by simp [text, hfirst.nonempty], hcomma, ?_, ?_⟩
      · intro c hc
        simp only [text, List.append_assoc] at hc
        rw [List.head?_append_of_ne_nil _ hfirst.nonempty] at hc
        exact hfirst.first c hc
      · intro c hc
        rw [text, List.getLast?_append_of_ne_nil _ hsecond.nonempty] at hc
        exact hsecond.last c hc

/-! ## Lists -/

theorem commaList_item (item : Item) : commaList item.text = [item.entry.text] := by
  have hnone : ∀ c ∈ item.text, (c == ',') = false :=
    List.forall_mem_append.2 ⟨List.forall_mem_append.2
      ⟨Text.comma_not_blank item.lead.blank, item.entry.isEntry.no_separator⟩,
        Text.comma_not_blank item.trail.blank⟩
  rw [commaList, Text.splitAny_of_forall_not hnone, List.map_singleton, Item.text,
    Text.strip_blanks item.lead.blank item.trail.blank, item.entry.isEntry.stripped]
  exact List.filter_cons_of_pos (by simpa using item.entry.isEntry.nonempty)

theorem commaList_item_append (item : Item) (rest : Text) :
    commaList (item.text ++ [','] ++ rest) = item.entry.text :: commaList rest := by
  have hnone : ∀ c ∈ item.text, (c == ',') = false :=
    List.forall_mem_append.2 ⟨List.forall_mem_append.2
      ⟨Text.comma_not_blank item.lead.blank, item.entry.isEntry.no_separator⟩,
        Text.comma_not_blank item.trail.blank⟩
  rw [commaList, List.append_assoc, List.singleton_append, Text.splitAny_append hnone (by simp),
    List.map_cons, Item.text, Text.strip_blanks item.lead.blank item.trail.blank,
    item.entry.isEntry.stripped]
  exact List.filter_cons_of_pos (by simpa using item.entry.isEntry.nonempty)

theorem commaList_clause (clause : Clause) :
    commaList clause.text = clause.entries.map Entry.text := by
  obtain ⟨items, last⟩ := clause
  simp only [Clause.text, Clause.entries]
  induction items with
  | nil =>
      cases last with
      | inl item => exact commaList_item item
      | inr blanks =>
          have hstrip : Text.strip blanks.text = [] := by
            have hnone := Text.strip_blanks blanks.blank (List.forall_mem_nil _) []
            simpa [Text.strip, Text.stripLeft, Text.stripRight] using hnone
          simp [commaList, Text.splitAny_of_forall_not (Text.comma_not_blank blanks.blank), hstrip]
  | cons item items ih =>
      rw [List.flatMap_cons, List.append_assoc, commaList_item_append, ih]
      rfl

theorem commaList_skipBlanks (text : Text) : commaList (skipBlanks text) = commaList text := by
  induction text with
  | nil => rfl
  | cons c text ih =>
      by_cases hc : isBlank c = true
      · have hcomma : (c == ',') = false := Text.comma_not_blank (List.forall_mem_singleton.2 hc) c (List.mem_singleton_self c)
        have hstrip (part : Text) : Text.strip (c :: part) = Text.strip part := by
          simp [Text.strip, Text.stripLeft, hc]
        have hskip : skipBlanks (c :: text) = skipBlanks text := by simp [skipBlanks, hc]
        rw [hskip, ih, commaList, commaList]
        simp only [Text.splitAny, hcomma, Bool.false_eq_true, if_false]
        cases Text.splitAny (· == ',') text with
        | nil =>
            simp only [List.map_cons, List.map_nil, hstrip]
            rfl
        | cons part parts => simp [hstrip]
      · rw [Text.skipBlanks_cons (by simpa using hc)]

/-! ## The further lines of a list -/

/-- What a line of a list has at its start: an entry with what follows it, a comma or the closing brace. -/
inductive Resumes : Text → Prop where
  | mark (blanks : Blanks) (c : Char) (hc : c = ',' ∨ c = '\x7d') (rest : Text) :
      Resumes (blanks.text ++ c :: rest)
  | entry (blanks : Blanks) (entry : Entry) (trail : Blanks) (c : Char) (hc : c = ',' ∨ c = '\x7d')
      (rest : Text) : Resumes (blanks.text ++ (entry.text ++ (trail.text ++ c :: rest)))

theorem not_blank_of_mark {c : Char} (hc : c = ',' ∨ c = '\x7d') : isBlank c = false ∧ isNamePart c = false := by
  rcases hc with rfl | rfl <;> decide

/-- Blanks in front of a text are its indentation, or the text does not begin with a word. -/
theorem Begins.behind_blanks (blanks : Blanks) (hrest : ∀ c ∈ rest.head?, isBlank c = false)
    (h : Begins (blanks.text ++ rest)) : (blanks.text ++ rest).dropWhile isIndent = rest := by
  obtain ⟨word, hword, hstarts⟩ := h.startsWithWord
  obtain ⟨more, hmore⟩ := prefix_of_startsWithWord hstarts
  by_cases hindent : ∀ c ∈ blanks.text, isIndent c = true
  · rw [List.dropWhile_append_of_pos hindent]
    cases rest with
    | nil => rfl
    | cons c rest => rw [List.dropWhile_cons_of_neg (by simp [not_isIndent_of_not_isBlank (hrest c rfl)])]
  · have hne : blanks.text.dropWhile isIndent ≠ [] := by
      rw [ne_eq, List.dropWhile_eq_nil_iff]
      exact hindent
    obtain ⟨c, others, hc⟩ := List.exists_cons_of_ne_nil hne
    have hblank : isBlank c = true :=
      blanks.blank c ((List.dropWhile_suffix _).subset (by rw [hc]; exact List.mem_cons_self))
    obtain ⟨first, letters, hfirst⟩ := List.exists_cons_of_ne_nil
      (Text.ne_nil_of_isName (isName_of_mem_words word hword))
    have hunblank := Text.not_isBlank_of_isName (isName_of_mem_words word hword) first
      (by rw [hfirst]; exact List.mem_cons_self)
    rw [List.dropWhile_append, if_neg (by simp [hc]), hc, hfirst] at hmore
    obtain rfl : first = c := (List.cons.inj hmore).1
    rw [hblank] at hunblank
    cases hunblank

theorem not_begins_blanks (blanks : Blanks)
    (hrest : ∀ c ∈ rest.head?, isBlank c = false ∧ c ≠ 'i' ∧ c ≠ 'e') : ¬ Begins (blanks.text ++ rest) := by
  intro h
  have hdrop := h.behind_blanks blanks fun c hc => (hrest c hc).1
  obtain ⟨word, hword, hstarts⟩ := h.startsWithWord
  rw [hdrop] at hstarts
  obtain ⟨more, rfl⟩ := prefix_of_startsWithWord hstarts
  simp only [List.mem_cons, List.not_mem_nil, or_false] at hword
  rcases hword with rfl | rfl
  · exact (hrest 'i' rfl).2.1 rfl
  · exact (hrest 'e' rfl).2.2 rfl

theorem not_begins_name (blanks : Blanks) (name : Name)
    (hne : name.text ≠ "import".toList ∧ name.text ≠ "export".toList)
    (hrest : ∀ c ∈ rest.head?, isNamePart c = false) : ¬ Begins (blanks.text ++ (name.text ++ rest)) := by
  intro h
  have hdrop := h.behind_blanks blanks fun c hc => by
    rw [List.head?_append_of_ne_nil _ (Text.ne_nil_of_isName name.isName)] at hc
    exact Text.not_isBlank_of_isName name.isName c (List.mem_of_mem_head? hc)
  obtain ⟨-, hwords⟩ := h.name name.isName hdrop hrest
  exact hwords.elim hne.1 hne.2

theorem noneBegins_of_blanks {blanks : Text} (hblanks : ∀ c ∈ blanks, isBlank c = true)
    (h : ∀ others : Blanks, ¬ Begins (others.text ++ rest)) : NoneBegins blanks rest := by
  rintro front back rfl -
  exact h ⟨back, fun c hc => hblanks c (List.mem_append_right _ hc)⟩

theorem Resumes.not_begins (h : Resumes text) : ¬ Begins text := by
  intro hbegins
  cases h with
  | mark blanks c hc rest =>
      refine not_begins_blanks blanks ?_ hbegins
      rcases hc with rfl | rfl <;> simp <;> decide
  | entry blanks entry trail c hc rest =>
      obtain ⟨hblank, hpart⟩ := not_blank_of_mark hc
      obtain ⟨name, more, hname, hentry, hmore⟩ := entry.text_eq
      have hdrop := hbegins.behind_blanks blanks (by
        intro d hd
        rw [List.head?_append_of_ne_nil _ entry.isEntry.nonempty] at hd
        exact entry.isEntry.first d hd)
      rw [hentry, List.append_assoc] at hbegins hdrop
      have hends : ∀ d ∈ (more ++ (trail.text ++ c :: rest)).head?, isNamePart d = false := by
        intro d hd
        rcases hmore with rfl | ⟨before, after, other, rfl⟩
        · exact trail.head hpart rest d hd
        · rw [List.append_assoc] at hd
          exact before.toParting.head _ d hd
      obtain ⟨hfollows, -⟩ := hbegins.name hname hdrop hends
      rcases hmore with rfl | ⟨before, after, other, rfl⟩
      · -- behind a name, the list goes on
        rw [List.nil_append, skipBlanks_append trail.blank, Text.skipBlanks_cons hblank] at hfollows
        rcases hfollows with hbrace | ⟨keyword, hkeyword, hstarts⟩
        · obtain rfl : c = '\x7b' := by simpa using hbrace
          rcases hc with hc | hc <;> exact absurd hc (by decide)
        · obtain ⟨first, letters, hfirst⟩ := List.exists_cons_of_ne_nil
            (Text.ne_nil_of_isName (isName_of_mem_followers keyword hkeyword))
          rw [hfirst, List.cons_prefix_cons] at hstarts
          have hletter := Text.isNamePart_of_isName (isName_of_mem_followers keyword hkeyword) first
            (by rw [hfirst]; exact List.mem_cons_self)
          rw [hstarts.1, hpart] at hletter
          cases hletter
      · -- behind a name that is given another one, `as` follows, which none of the words begins with
        obtain ⟨e, others, he⟩ := List.exists_cons_of_ne_nil after.nonempty
        have hindent := after.indent e (by rw [he]; exact List.mem_cons_self)
        have hskip : skipBlanks (before.text ++ ("as".toList ++ (after.text ++ other.text)) ++
            (trail.text ++ c :: rest)) =
              'a' :: 's' :: e :: (others ++ other.text ++ (trail.text ++ c :: rest)) := by
          simp only [List.append_assoc]
          rw [skipBlanks_append before.blank, he]
          exact Text.skipBlanks_cons (by decide) _
        rw [hskip] at hfollows
        rcases hfollows with hbrace | ⟨keyword, hkeyword, hstarts⟩
        · exact absurd hbrace (by simp)
        · have hy : e ≠ 'y' := by
            rintro rfl
            exact absurd hindent (by decide)
          simp only [followers, List.mem_cons, List.not_mem_nil, or_false] at hkeyword
          rcases hkeyword with rfl | rfl | rfl | rfl | rfl | rfl | rfl <;>
            simp [List.cons_prefix_cons, hy.symm] at hstarts

theorem Item.behind_feed (item : Item) (htext : item.text = front ++ back)
    (hlast : front.getLast? = some '\n') :
    (∃ blanks : Blanks, back = blanks.text ++ (item.entry.text ++ item.trail.text)) ∨
      ∃ blanks : Blanks, back = blanks.text := by
  rw [Item.text, List.append_assoc, List.append_eq_append_iff] at htext
  rcases htext with ⟨more, rfl, hback⟩ | ⟨more, hlead, rfl⟩
  · rcases List.append_eq_append_iff.1 hback with ⟨others, rfl, htrail⟩ | ⟨others, hentry, rfl⟩
    · exact Or.inr ⟨⟨back, fun c hc => item.trail.blank c (by rw [htrail]; exact List.mem_append_right _ hc)⟩,
        rfl⟩
    · cases more with
      | nil => exact Or.inl ⟨⟨[], by simp⟩, by rw [hentry]; rfl⟩
      | cons c more =>
          rw [List.getLast?_append_of_ne_nil _ (by simp)] at hlast
          refine absurd ?_ (item.entry.not_mem (c := '\n') (by decide) (by decide))
          rw [hentry]
          exact List.mem_append_left _ (List.mem_of_getLast? hlast)
  · exact Or.inl ⟨⟨more, fun c hc => item.lead.blank c (by rw [hlead]; exact List.mem_append_right _ hc)⟩,
      rfl⟩

theorem Clause.resumes (clause : Clause) (htext : clause.text = front ++ back)
    (hlast : front.getLast? = some '\n') (rest : Text) : Resumes (back ++ '\x7d' :: rest) := by
  have hitem : ∀ {item : Item} {front back : Text}, item.text = front ++ back →
      front.getLast? = some '\n' → ∀ c, c = ',' ∨ c = '\x7d' → ∀ rest, Resumes (back ++ c :: rest) := by
    intro item front back hitem hlast c hc rest
    rcases item.behind_feed hitem hlast with ⟨blanks, rfl⟩ | ⟨blanks, rfl⟩
    · simp only [List.append_assoc]
      exact .entry blanks item.entry item.trail c hc rest
    · exact .mark blanks c hc rest
  obtain ⟨items, last⟩ := clause
  simp only [Clause.text] at htext
  induction items generalizing front with
  | nil =>
      cases last with
      | inl item => exact hitem htext hlast _ (Or.inr rfl) rest
      | inr blanks =>
          have htext : blanks.text = front ++ back := htext
          exact .mark ⟨back, fun c hc => blanks.blank c (by rw [htext]; exact List.mem_append_right _ hc)⟩
            _ (Or.inr rfl) rest
  | cons item items ih =>
      rw [List.flatMap_cons, List.append_assoc, List.append_eq_append_iff] at htext
      rcases htext with ⟨more, rfl, hback⟩ | ⟨more, hfirst, rfl⟩
      · cases more with
        | nil =>
            rw [List.append_nil, List.getLast?_concat] at hlast
            cases hlast
        | cons c more =>
            rw [List.getLast?_append_of_ne_nil _ (by simp)] at hlast
            exact ih hlast hback
      · rcases List.eq_nil_or_concat more with rfl | ⟨others, comma, rfl⟩
        · rw [List.append_nil] at hfirst
          rw [← hfirst, List.getLast?_concat] at hlast
          cases hlast
        · rw [List.concat_eq_append, ← List.append_assoc] at hfirst
          obtain ⟨hfront, hcomma⟩ := List.append_inj' hfirst rfl
          obtain rfl : ',' = comma := (List.cons.inj hcomma).1
          rw [List.concat_eq_append, List.append_assoc, List.append_assoc]
          exact hitem hfront hlast _ (Or.inl rfl) _

theorem Gap.feed_not_mem (gap : Gap) : '\n' ∉ gap.text := fun h =>
  absurd (gap.indent _ h) (by decide)

/-- No statement begins with a further line of a list. -/
theorem Clause.continues (clause : Clause) (indent : Gap) (hword : '\n' ∉ word.toList) (gap : Blanks)
    {behind : Text} (hbehind : '\n' ∉ behind) :
    Continues (indent.text ++ (word.toList ++ (gap.text ++ '\x7b' :: (clause.text ++ '\x7d' :: behind)))) := by
  intro tail _
  have hclose : NoneBegins ('\x7d' :: behind) tail := noneBegins_of_not_mem (by simpa using hbehind) tail
  have hlist : NoneBegins (clause.text ++ '\x7d' :: behind) tail :=
    NoneBegins.append (fun front back htext hlast => by
      simpa using (clause.resumes htext hlast (behind ++ tail)).not_begins) hclose
  have hopen : ∀ blanks : Blanks, ¬ Begins (blanks.text ++ ('\x7b' :: (clause.text ++ '\x7d' :: behind) ++ tail)) :=
    fun blanks => not_begins_blanks blanks (by simp; decide)
  have hgap : NoneBegins (gap.text ++ '\x7b' :: (clause.text ++ '\x7d' :: behind)) tail :=
    NoneBegins.append (noneBegins_of_blanks gap.blank hopen) (hlist.cons (by decide))
  exact NoneBegins.append (noneBegins_of_not_mem indent.feed_not_mem _)
    (NoneBegins.append (noneBegins_of_not_mem hword _) hgap)

theorem Clause.calm (clause : Clause) :
    ∀ c ∈ clause.text, isNamePart c = true ∨ isBlank c = true ∨ c = ',' := by
  have hitem : ∀ item : Item, ∀ c ∈ item.text, isNamePart c = true ∨ isBlank c = true ∨ c = ',' := by
    intro item c hc
    simp only [Item.text, List.mem_append] at hc
    rcases hc with (hc | hc) | hc
    · exact Or.inr (Or.inl (item.lead.blank c hc))
    · exact (item.entry.calm c hc).imp_right fun h => Or.inl (isBlank_of_isIndent h)
    · exact Or.inr (Or.inl (item.trail.blank c hc))
  intro c hc
  rcases List.mem_append.1 hc with hc | hc
  · obtain ⟨item, -, hc⟩ := List.mem_flatMap.1 hc
    rcases List.mem_append.1 hc with hc | hc
    · exact hitem item c hc
    · exact Or.inr (Or.inr (List.mem_singleton.1 hc))
  · cases hlast : clause.last with
    | inl item => exact hitem item c (by simpa [hlast] using hc)
    | inr blanks => exact Or.inr (Or.inl (blanks.blank c (by simpa [hlast] using hc)))

theorem Clause.close_not_mem (clause : Clause) : ∀ c ∈ clause.text, (c != '\x7d') = true := by
  intro c hc
  rw [bne_iff_ne]
  rintro rfl
  have hcalm := clause.calm _ hc
  revert hcalm
  decide

theorem bracedList?_clause (gap : Blanks) (clause : Clause) (rest : Text) :
    CommonJs.bracedList? (gap.text ++ '\x7b' :: (clause.text ++ '\x7d' :: rest)) =
      some (skipBlanks clause.text, rest) := by
  have hskip : skipBlanks (clause.text ++ '\x7d' :: rest) = skipBlanks clause.text ++ '\x7d' :: rest := by
    rw [skipBlanks, List.dropWhile_append]
    split
    · next hnone =>
        rw [skipBlanks, List.isEmpty_iff.1 hnone]
        exact List.dropWhile_cons_of_neg (by decide)
    · rfl
  have hclose : ∀ c ∈ skipBlanks clause.text, (c != '\x7d') = true :=
    fun c hc => clause.close_not_mem c ((List.dropWhile_suffix _).subset hc)
  rw [CommonJs.bracedList?, skipBlanks_mark gap (by decide)]
  simp only [hskip]
  rw [List.dropWhile_append_of_pos hclose, List.takeWhile_append_of_pos hclose]
  simp

/-! ## Export lists -/

/-- What an export list leaves of its line: all behind the list, without a semicolon and what stands around
that. -/
def ExportList.left (l : ExportList) : Text :=
  without '\r' ((without ';' (l.behind.dropWhile isIndent)).dropWhile isIndent)

theorem without_suffix (c : Char) (text : Text) : without c text <:+ text := by
  unfold without
  split
  · exact List.tail_suffix text
  · exact List.suffix_refl text

namespace ExportList

variable (l : ExportList)

theorem left_suffix : l.left <:+ l.behind :=
  (without_suffix _ _).trans ((List.dropWhile_suffix _).trans
    ((without_suffix _ _).trans (List.dropWhile_suffix _)))

theorem left_noFeed : '\n' ∉ l.left := fun h => l.noFeed (l.left_suffix.subset h)

theorem text_append (tail : Text) : l.text ++ tail = l.indent.text ++ ("export".toList ++
    (l.gap.text ++ '\x7b' :: (l.clause.text ++ '\x7d' :: (l.behind ++ tail)))) := by
  simp [text]

theorem drop_indent (tail : Text) : (l.text ++ tail).dropWhile isIndent = "export".toList ++
    (l.gap.text ++ '\x7b' :: (l.clause.text ++ '\x7d' :: (l.behind ++ tail))) := by
  rw [l.text_append, List.dropWhile_append_of_pos l.indent.indent]
  rfl

theorem continues : Continues l.text :=
  l.clause.continues l.indent (by decide) l.gap l.noFeed

theorem reads_defaultExport :
    Reads CommonJs.defaultExport l.text ((l.text ++ ['\n']).map .inr) (l.text.map .inr) := by
  refine findsStatements_defaultExport.reads_passed (fun before tail _ => ?_) l.continues
  apply defaultExport_eq_none (l.drop_indent tail)
  rw [skipBlanks_mark l.gap (by decide)]
  simp [List.cons_prefix_cons]

theorem reads_inlineExport :
    Reads CommonJs.inlineExport l.text ((l.text ++ ['\n']).map .inr) (l.text.map .inr) := by
  refine findsStatements_inlineExport.reads_passed (fun before tail _ => ?_) l.continues
  apply inlineExport_eq_none (l.drop_indent tail)
  rw [skipBlanks_mark l.gap (by decide)]
  exact CommonJs.startsDeclaration_brace _

theorem reads_namedImport :
    Reads CommonJs.namedImport l.text ((l.text ++ ['\n']).map .inr) (l.text.map .inr) :=
  findsStatements_namedImport.reads_passed (fun _ tail _ => namedImport_eq_none (l.drop_indent tail)) l.continues

theorem exportList_eq {before : Option Char} (hbefore : atLineStart before = true) (htail : Ended tail) :
    CommonJs.exportList before (l.text ++ tail) =
      if l.passesOn then none
      else some (skipBlanks l.clause.text,
        (l.text ++ tail).length - (without '\n' (l.left ++ tail)).length) := by
  have hleft : without '\r' ((without ';' ((l.behind ++ tail).dropWhile isIndent)).dropWhile isIndent) =
      l.left ++ tail := by
    rw [htail.dropWhile_isIndent, htail.without (by decide), htail.dropWhile_isIndent,
      htail.without (by decide)]
    rfl
  have hfrom : Text.startsWithWord "from" ((l.behind ++ tail).dropWhile isIndent) = l.passesOn := by
    rw [htail.dropWhile_isIndent, htail.startsWithWord (by decide)]
    rfl
  rw [l.text_append, CommonJs.exportList, lineFind_gap _ _ hbefore (by simp [isIndent])]
  simp only [Text.afterWord?_append, Option.bind_eq_bind, Option.bind_some, bracedList?_clause, hfrom]
  cases l.passesOn with
  | true => rfl
  | false =>
      rw [← hleft]
      rfl

theorem reads_exportList_passed (h : l.passesOn = true) :
    Reads CommonJs.exportList l.text ((l.text ++ ['\n']).map .inr) (l.text.map .inr) := by
  refine findsStatements_exportList.reads_passed (fun before tail htail => ?_) l.continues
  by_cases hbefore : atLineStart before = true
  · rw [l.exportList_eq hbefore htail, if_pos h]
  · exact findsStatements_exportList.eq_none (by simpa using hbefore) _

/-- An export list goes with its line feed, unless it leaves something of its line. -/
theorem reads_exportList (h : l.passesOn = false) :
    Reads CommonJs.exportList l.text
      (.inl (skipBlanks l.clause.text) ::
        (if l.left.isEmpty then [] else (l.left ++ ['\n']).map .inr))
      (.inl (skipBlanks l.clause.text) :: l.left.map .inr) := by
  have hne : l.text ≠ [] := by simp [text]
  by_cases hleft : l.left = []
  · rw [hleft]
    constructor
    · apply Scans.found_line
      intro before rest hbefore
      rw [l.exportList_eq hbefore (ended_feed rest), h, hleft]
      simp [without]
      omega
    · intro before hbefore
      have hfound := l.exportList_eq hbefore ended_nil
      rw [h, hleft] at hfound
      simp only [Bool.false_eq_true, if_false, List.append_nil, without] at hfound
      obtain ⟨c, others, hc⟩ := List.exists_cons_of_ne_nil hne
      rw [hc] at hfound ⊢
      rw [Text.scan, if_neg (by simp), hfound]
      simp only [List.head?_nil, reduceBEq, Bool.false_eq_true, if_false, List.length_cons,
        List.length_nil, Nat.sub_zero, Nat.add_sub_cancel, List.map_nil]
      have hskip := @Text.scan_skip _ CommonJs.exportList (some c) others []
      rw [List.append_nil, Text.scan_nil] at hskip
      rw [hskip]
  · obtain ⟨more, hmore⟩ := l.left_suffix
    obtain ⟨taken, htaken, hsome⟩ : ∃ taken, l.text = taken ++ l.left ∧ taken ≠ [] :=
      ⟨l.indent.text ++ ("export".toList ++ (l.gap.text ++ '\x7b' :: l.clause.text)) ++ '\x7d' :: more,
        by simp [text, ← hmore], by simp⟩
    rw [if_neg (by simpa using hleft), htaken]
    refine findsStatements_exportList.reads_found hsome (htaken ▸ l.continues) ?_
    · intro before tail hbefore htail
      obtain ⟨c, others, hc⟩ := List.exists_cons_of_ne_nil hleft
      have hne : c ≠ '\n' := by
        rintro rfl
        exact l.left_noFeed (by rw [hc]; exact List.mem_cons_self)
      have hkept : without '\n' (l.left ++ tail) = l.left ++ tail := by
        simp [without, hc, hne]
      rw [← List.append_assoc, ← htaken, l.exportList_eq hbefore htail, h, hkept]
      simp [htaken]

end ExportList

/-! ## Imports -/

namespace NamedImport

variable (i : NamedImport)

def source : Text :=
  i.beforeFrom.text ++ ("from".toList ++ (i.afterFrom.text ++ i.quote ::
    (i.specifier ++ i.quote :: i.behind)))

def left : Text := without ';' i.behind

def require : Text :=
  i.indent.text ++ "const \x7b ".toList ++ CommonJs.destructure (skipBlanks i.clause.text) ++
    " \x7d = require('".toList ++ (CommonJs.requireSpecifier (String.ofList i.specifier)).toList ++
    "');".toList

theorem left_noFeed : '\n' ∉ i.left := fun h => i.noFeed ((without_suffix _ _).subset h)

theorem source_noFeed : '\n' ∉ i.source := by
  have hquote : i.quote ≠ '\n' := by
    rcases i.isQuote with h | h <;> rw [h] <;> decide
  have hspecifier : '\n' ∉ i.specifier := fun h => absurd (i.plain _ h) (by decide)
  simp [source, i.beforeFrom.feed_not_mem, i.afterFrom.feed_not_mem, hquote.symm, hspecifier, i.noFeed]

theorem text_append (tail : Text) : i.text ++ tail = i.indent.text ++ ("import".toList ++
    (i.gap.text ++ '\x7b' :: (i.clause.text ++ '\x7d' :: (i.source ++ tail)))) := by
  simp [text, source]

theorem drop_indent (tail : Text) : (i.text ++ tail).dropWhile isIndent = "import".toList ++
    (i.gap.text ++ '\x7b' :: (i.clause.text ++ '\x7d' :: (i.source ++ tail))) := by
  rw [i.text_append, List.dropWhile_append_of_pos i.indent.indent]
  rfl

theorem continues : Continues i.text := by
  rw [text]
  exact i.clause.continues i.indent (by decide) i.gap i.source_noFeed

theorem reads_defaultExport :
    Reads CommonJs.defaultExport i.text ((i.text ++ ['\n']).map .inr) (i.text.map .inr) :=
  findsStatements_defaultExport.reads_passed (fun _ tail _ => defaultExport_import (i.drop_indent tail)) i.continues

theorem reads_inlineExport :
    Reads CommonJs.inlineExport i.text ((i.text ++ ['\n']).map .inr) (i.text.map .inr) :=
  findsStatements_inlineExport.reads_passed (fun _ tail _ => inlineExport_import (i.drop_indent tail)) i.continues

theorem quotedSpecifier?_eq (rest : Text) :
    CommonJs.quotedSpecifier? (i.quote :: (i.specifier ++ i.quote :: rest)) = some (i.specifier, rest) := by
  have hbody : ∀ c ∈ i.specifier, (!(c == '"' || c == '\'')) = true := by
    intro c hc
    have hplain := i.plain c hc
    simp only [List.mem_cons, List.not_mem_nil, or_false, not_or] at hplain
    simp [hplain.1, hplain.2.1]
  rw [CommonJs.quotedSpecifier?]
  simp only
  rw [List.dropWhile_append_of_pos hbody, List.takeWhile_append_of_pos hbody]
  rcases i.isQuote with h | h <;> simp [h, i.nonempty]

theorem namedImport_eq {before : Option Char} (hbefore : atLineStart before = true) (htail : Ended tail) :
    CommonJs.namedImport before (i.text ++ tail) =
      some (i.require, (i.text ++ tail).length - (i.left ++ tail).length) := by
  have hquote : isBlank i.quote = false := by
    rcases i.isQuote with h | h <;> rw [h] <;> decide
  have hfrom : skipBlanks (i.source ++ tail) = "from".toList ++ (i.afterFrom.text ++ i.quote ::
      (i.specifier ++ i.quote :: (i.behind ++ tail))) := by
    rw [source, List.append_assoc, List.append_assoc, skipBlanks_append i.beforeFrom.blank, skipBlanks_word (by decide)]
    simp
  have hleft : without ';' (i.behind ++ tail) = i.left ++ tail := htail.without (by decide) i.behind
  rw [i.text_append, CommonJs.namedImport, lineFind_gap _ _ hbefore (by simp [isIndent])]
  simp only [Text.afterWord?_append, Option.bind_eq_bind, Option.bind_some, bracedList?_clause, hfrom,
    skipBlanks_mark i.afterFrom.toBlanks hquote, i.quotedSpecifier?_eq]
  rw [← hleft]
  simp [require, without]

/-- A `require` takes the place of an import. -/
theorem reads_namedImport :
    Reads CommonJs.namedImport i.text (.inl i.require :: (i.left ++ ['\n']).map .inr)
      (.inl i.require :: i.left.map .inr) := by
  obtain ⟨more, hmore⟩ := without_suffix ';' i.behind
  have hleft : more ++ i.left = i.behind := hmore
  obtain ⟨taken, htaken, hsome⟩ : ∃ taken, i.text = taken ++ i.left ∧ taken ≠ [] :=
    ⟨i.indent.text ++ ("import".toList ++ (i.gap.text ++ '\x7b' :: (i.clause.text ++ '\x7d' ::
      (i.beforeFrom.text ++ ("from".toList ++ (i.afterFrom.text ++ i.quote :: i.specifier)))))) ++
        i.quote :: more, by simp [text, ← hleft], by simp⟩
  rw [htaken]
  refine findsStatements_namedImport.reads_found hsome (htaken ▸ i.continues) ?_
  · intro before tail hbefore htail
    rw [← List.append_assoc, ← htaken, i.namedImport_eq hbefore htail]
    simp [htaken]

end NamedImport

end EsModule

end ScriptSplit
