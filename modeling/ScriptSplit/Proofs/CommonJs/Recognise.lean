import ScriptSplit.Proofs.CommonJs.Grammar

/-!
# What the recognisers find in statements

Each of the four recognisers finds its own kind of statement, at the head of it, and passes all others. What a find
leaves of its statement stands in the rest of the line.
-/

namespace ScriptSplit

open Text (Recogniser Scans atLineStart isBlank isIndent isName isNamePart scan skipBlanks)

namespace EsModule

open CommonJs (afterKeywords? lineFind)

variable {α : Type} {recognise : Recogniser α} {text rest tail front : Text} {word : String}

/-! ## Words and blanks -/

theorem not_isIndent_of_not_isBlank {c : Char} (hc : isBlank c = false) : isIndent c = false := by
  by_contra hindent
  rw [isBlank_of_isIndent (by simpa using hindent)] at hc
  cases hc

theorem afterWord?_eq_some : Text.afterWord? word text = some rest ↔ text = word.toList ++ rest := by
  constructor
  · intro h
    unfold Text.afterWord? at h
    split at h
    · next hprefix =>
        obtain ⟨more, rfl⟩ := List.isPrefixOf_iff_prefix.1 hprefix
        rw [← String.length_toList, List.drop_left] at h
        cases h
        rfl
    · cases h
  · rintro rfl
    exact Text.afterWord?_append word rest

theorem afterBlanks?_eq_some : Text.afterBlanks? text = some rest ↔
    (∃ c ∈ text.head?, isBlank c = true) ∧ rest = skipBlanks text := by
  cases text with
  | nil => simp [Text.afterBlanks?]
  | cons c text =>
      by_cases hc : isBlank c = true
      · simp only [Text.afterBlanks?, skipBlanks, hc, if_true, Option.some.injEq, List.head?_cons,
          Option.mem_def, exists_eq_left', true_and, List.dropWhile_cons_of_pos]
        exact eq_comm
      · simp [Text.afterBlanks?, hc]

theorem afterKeywords?_cons_eq_some {words : List String} :
    afterKeywords? (word :: words) text = some rest ↔ ∃ more, text = word.toList ++ more ∧
      (∃ c ∈ more.head?, isBlank c = true) ∧ afterKeywords? words (skipBlanks more) = some rest := by
  simp only [afterKeywords?, List.foldlM_cons, Option.bind_eq_bind, Option.bind_eq_some_iff,
    afterWord?_eq_some, afterBlanks?_eq_some]
  constructor
  · rintro ⟨_, ⟨more, rfl, hblank, rfl⟩, hwords⟩
    exact ⟨more, rfl, hblank, hwords⟩
  · rintro ⟨more, rfl, hblank, hwords⟩
    exact ⟨_, ⟨more, rfl, hblank, rfl⟩, hwords⟩

theorem skipBlanks_append {blanks : Text} (hblanks : ∀ c ∈ blanks, isBlank c = true) (rest : Text) :
    skipBlanks (blanks ++ rest) = skipBlanks rest :=
  List.dropWhile_append_of_pos hblanks

theorem skipBlanks_mark (blanks : Blanks) {c : Char} (hc : isBlank c = false) (rest : Text) :
    skipBlanks (blanks.text ++ c :: rest) = c :: rest := by
  rw [skipBlanks_append blanks.blank, Text.skipBlanks_cons hc]

theorem skipBlanks_word (hword : isName word.toList = true) (rest : Text) :
    skipBlanks (word.toList ++ rest) = word.toList ++ rest := by
  obtain ⟨c, others, hc⟩ := List.exists_cons_of_ne_nil (Text.ne_nil_of_isName hword)
  have hblank := Text.not_isBlank_of_isName hword c (by rw [hc]; exact List.mem_cons_self)
  rw [hc, List.cons_append, Text.skipBlanks_cons hblank]

theorem afterKeywords?_parting (words : List String) (gap : Parting) (rest : Text) :
    afterKeywords? (word :: words) (word.toList ++ (gap.text ++ rest)) =
      afterKeywords? words (skipBlanks rest) := by
  obtain ⟨c, others, hc⟩ := List.exists_cons_of_ne_nil gap.nonempty
  have hfirst : isBlank c = true := gap.blank c (by rw [hc]; exact List.mem_cons_self)
  have hafter : Text.afterBlanks? (gap.text ++ rest) = some (skipBlanks rest) :=
    afterBlanks?_eq_some.2 ⟨⟨c, by simp [hc], hfirst⟩, (skipBlanks_append gap.blank rest).symm⟩
  simp [afterKeywords?, Text.afterWord?_append, hafter]

theorem afterKeywords?_eq_none {words : List String} (h : ¬ word.toList <+: text) :
    afterKeywords? (word :: words) text = none := by
  rw [Option.eq_none_iff_forall_ne_some]
  intro rest hrest
  obtain ⟨more, rfl, -⟩ := afterKeywords?_cons_eq_some.1 hrest
  exact h (List.prefix_append _ _)

theorem not_isWord_of_not_isNamePart {c : Char} (hc : isNamePart c = false) : Text.isWord c = false := by
  rw [isNamePart, Bool.or_eq_false_iff] at hc
  exact hc.1

theorem Parting.head (gap : Parting) (rest : Text) :
    ∀ c ∈ (gap.text ++ rest).head?, isNamePart c = false := by
  intro c hc
  rw [List.head?_append_of_ne_nil _ gap.nonempty] at hc
  exact Text.isNamePart_of_isBlank (gap.blank c (List.mem_of_mem_head? hc))

theorem Blanks.head (gap : Blanks) {c : Char} (hc : isNamePart c = false) (rest : Text) :
    ∀ d ∈ (gap.text ++ c :: rest).head?, isNamePart d = false := by
  intro d hd
  cases hgap : gap.text with
  | nil =>
      rw [hgap] at hd
      obtain rfl : c = d := by simpa using hd
      exact hc
  | cons e others =>
      rw [hgap] at hd
      obtain rfl : e = d := by simpa using hd
      exact Text.isNamePart_of_isBlank (gap.blank e (by rw [hgap]; exact List.mem_cons_self))

theorem startsWithWord_append (hc : ∀ c ∈ rest.head?, Text.isWord c = false) :
    Text.startsWithWord word (word.toList ++ rest) = true := by
  rw [Text.startsWithWord, Text.afterWord?_append]
  cases rest with
  | nil => rfl
  | cons c rest => simp [hc c rfl]

theorem not_startsWithWord (h : ¬ word.toList <+: text) : Text.startsWithWord word text = false := by
  rw [Text.startsWithWord]
  cases hafter : Text.afterWord? word text with
  | none => rfl
  | some rest => exact absurd ⟨rest, (afterWord?_eq_some.1 hafter).symm⟩ h

theorem prefix_of_startsWithWord (h : Text.startsWithWord word text = true) : word.toList <+: text := by
  by_contra hnot
  rw [not_startsWithWord hnot] at h
  cases h

/-! ## Where a line ends -/

theorem ended_nil : Ended [] := by simp [Ended]

theorem ended_feed (rest : Text) : Ended ('\n' :: rest) := by simp [Ended]

theorem Ended.cases (h : Ended tail) : tail = [] ∨ ∃ rest, tail = '\n' :: rest := by
  cases tail with
  | nil => exact Or.inl rfl
  | cons c rest => exact Or.inr ⟨rest, by rw [h c rfl]⟩

theorem Ended.dropWhile_isIndent (h : Ended tail) (text : Text) :
    (text ++ tail).dropWhile isIndent = text.dropWhile isIndent ++ tail := by
  have htail : tail.dropWhile isIndent = tail := by
    rcases h.cases with rfl | ⟨rest, rfl⟩
    · rfl
    · exact List.dropWhile_cons_of_neg (by decide)
  rw [List.dropWhile_append, htail]
  split
  · next hnone => rw [List.isEmpty_iff.1 hnone, List.nil_append]
  · rfl

theorem head_append_ended (hrest : ∀ c ∈ rest.head?, isNamePart c = false) (htail : Ended tail) :
    ∀ c ∈ (rest ++ tail).head?, isNamePart c = false := by
  cases rest with
  | cons c rest => exact hrest
  | nil =>
      intro c hc
      rw [htail c hc]
      decide

/-! ## The further lines of a statement -/

theorem noneBegins_of_not_mem (h : '\n' ∉ text) (rest : Text) : NoneBegins text rest := by
  rintro front back rfl hlast
  exact absurd (List.mem_append_left back (List.mem_of_getLast? hlast)) h

theorem continues_of_not_mem (h : '\n' ∉ text) : Continues text :=
  fun tail _ => noneBegins_of_not_mem h tail

theorem NoneBegins.append {more : Text} (h : NoneBegins text (more ++ rest)) (hmore : NoneBegins more rest) :
    NoneBegins (text ++ more) rest := by
  intro front back hboth hlast
  rcases List.append_eq_append_iff.1 hboth with ⟨others, rfl, hothers⟩ | ⟨others, rfl, rfl⟩
  · by_cases hnil : others = []
    · subst hnil
      rw [List.append_nil] at hlast
      rw [List.nil_append] at hothers
      exact hothers ▸ h text [] (List.append_nil _).symm hlast
    · rw [List.getLast?_append_of_ne_nil _ hnil] at hlast
      exact hmore others back hothers hlast
  · rw [List.append_assoc]
    exact h front others rfl hlast

theorem NoneBegins.cons {c : Char} (hc : c ≠ '\n') (h : NoneBegins text rest) : NoneBegins (c :: text) rest := by
  have hfirst : NoneBegins [c] (text ++ rest) := noneBegins_of_not_mem (by simpa using hc.symm) _
  exact hfirst.append h

theorem Continues.replace {opening other left : Text} (h : Continues (opening ++ left)) (hother : '\n' ∉ other) :
    Continues (other ++ left) := by
  intro tail htail
  refine NoneBegins.append (noneBegins_of_not_mem hother _) ?_
  rintro front back rfl hlast
  refine h tail htail (opening ++ front) back (List.append_assoc _ _ _).symm ?_
  rw [List.getLast?_append, hlast]
  rfl

theorem Ended.startsWith (h : Ended tail) (hword : isName word.toList = true) :
    word.toList <+: text ++ tail ↔ word.toList <+: text := by
  rcases h.cases with rfl | ⟨rest, rfl⟩
  · rw [List.append_nil]
  · exact Text.prefix_append_feed hword rest

theorem Ended.startsWithWord (h : Ended tail) (hword : isName word.toList = true) :
    Text.startsWithWord word (text ++ tail) = Text.startsWithWord word text := by
  by_cases hprefix : word.toList <+: text
  · obtain ⟨rest, rfl⟩ := hprefix
    simp only [Text.startsWithWord, List.append_assoc, Text.afterWord?_append]
    cases rest with
    | cons c rest => rfl
    | nil =>
        have hfeed : Text.isWord '\n' = false := by decide
        rcases h.cases with rfl | ⟨rest, rfl⟩ <;> simp [hfeed]
  · rw [not_startsWithWord hprefix, not_startsWithWord fun hboth => hprefix ((h.startsWith hword).1 hboth)]

def without (c : Char) (text : Text) : Text :=
  if text.head? == some c then text.tail else text

theorem Ended.without (h : Ended tail) {c : Char} (hc : c ≠ '\n') (text : Text) :
    without c (text ++ tail) = without c text ++ tail := by
  cases text with
  | cons d text =>
      unfold EsModule.without
      by_cases hd : d = c <;> simp [hd]
  | nil => rcases h.cases with rfl | ⟨rest, rfl⟩ <;> simp [EsModule.without, hc.symm]

theorem lineFind_gap (find : Text → Text → Option (α × Text)) (gap : Gap) {before : Option Char}
    (hbefore : atLineStart before = true) (hhead : ∀ c ∈ text.head?, isIndent c = false) :
    lineFind find before (gap.text ++ text) = (find gap.text text).map fun (value, after) =>
      (value, (gap.text ++ text).length - after.length) := by
  have hdrop : (gap.text ++ text).dropWhile isIndent = text := by
    rw [List.dropWhile_append_of_pos gap.indent]
    cases text with
    | nil => rfl
    | cons c text => exact List.dropWhile_cons_of_neg (by simp [hhead c rfl])
  have htake : (gap.text ++ text).takeWhile isIndent = gap.text := by
    have hboth := List.takeWhile_append_dropWhile (p := isIndent) (l := gap.text ++ text)
    rw [hdrop] at hboth
    exact List.append_cancel_right hboth
  simp [lineFind, hbefore, guard, hdrop, htake, Option.map_eq_bind]

/-! ## Statements alone are found -/

/-- Whether a recogniser finds nothing but statements, each at the start of a line. -/
def FindsStatements (recognise : Recogniser α) : Prop :=
  ∀ {before text found}, recognise before text = some found → atLineStart before = true ∧ Begins text

theorem head?_of_bracedList? {found : Text × Text} (h : CommonJs.bracedList? text = some found) :
    (skipBlanks text).head? = some '\x7b' := by
  unfold CommonJs.bracedList? at h
  split at h
  · next heq => rw [heq]; rfl
  · cases h

theorem keyword_of_startsDeclaration (h : CommonJs.startsDeclaration text = true) :
    ∃ keyword ∈ ["async", "function", "class", "const", "let", "var"], keyword.toList <+: text := by
  simp only [CommonJs.startsDeclaration, Bool.or_eq_true, List.any_eq_true] at h
  rcases h with h | ⟨keyword, hkeyword, h⟩
  · unfold CommonJs.skipAsync at h
    cases hasync : afterKeywords? ["async"] text with
    | none =>
        rw [hasync, Option.getD_none] at h
        exact ⟨"function", by simp, prefix_of_startsWithWord h⟩
    | some rest =>
        obtain ⟨more, rfl, -⟩ := afterKeywords?_cons_eq_some.1 hasync
        exact ⟨"async", by simp, List.prefix_append _ _⟩
  · exact ⟨keyword, by simp only [List.mem_cons] at hkeyword ⊢; tauto, prefix_of_startsWithWord h⟩

section Ahead

variable {before : Option Char}

theorem ahead_of_defaultExport {found} (h : CommonJs.defaultExport before text = some found) :
    ∃ rest, text.dropWhile isIndent = "export".toList ++ rest ∧ (∃ c ∈ rest.head?, isBlank c = true) ∧
      "default".toList <+: skipBlanks rest := by
  obtain ⟨-, value, after, hfind, -⟩ := CommonJs.lineFind_eq_some.1 h
  simp only [Option.bind_eq_bind, Option.bind_eq_some_iff] at hfind
  obtain ⟨more, hwords, -⟩ := hfind
  obtain ⟨rest, htext, hblank, hdefault⟩ := afterKeywords?_cons_eq_some.1 hwords
  obtain ⟨others, hothers, -⟩ := afterKeywords?_cons_eq_some.1 hdefault
  exact ⟨rest, htext, hblank, others, hothers.symm⟩

theorem ahead_of_inlineExport {found} (h : CommonJs.inlineExport before text = some found) :
    ∃ rest, text.dropWhile isIndent = "export".toList ++ rest ∧ (∃ c ∈ rest.head?, isBlank c = true) ∧
      CommonJs.startsDeclaration (skipBlanks rest) = true := by
  obtain ⟨-, value, after, hfind, -⟩ := CommonJs.lineFind_eq_some.1 h
  simp only [Option.bind_eq_bind, Option.bind_eq_some_iff, guard] at hfind
  obtain ⟨more, hwords, _, hguard, -⟩ := hfind
  obtain ⟨rest, htext, hblank, hrest⟩ := afterKeywords?_cons_eq_some.1 hwords
  obtain rfl : skipBlanks rest = more := by simpa [afterKeywords?] using hrest
  refine ⟨rest, htext, hblank, ?_⟩
  by_contra hnot
  rw [if_neg hnot] at hguard
  cases hguard

theorem ahead_of_namedImport {found} (h : CommonJs.namedImport before text = some found) :
    ∃ rest, text.dropWhile isIndent = "import".toList ++ rest ∧
      (skipBlanks rest).head? = some '\x7b' := by
  obtain ⟨-, value, after, hfind, -⟩ := CommonJs.lineFind_eq_some.1 h
  simp only [Option.bind_eq_bind, Option.bind_eq_some_iff] at hfind
  obtain ⟨rest, hword, _, hlist, -⟩ := hfind
  exact ⟨rest, afterWord?_eq_some.1 hword, head?_of_bracedList? hlist⟩

theorem ahead_of_exportList {found} (h : CommonJs.exportList before text = some found) :
    ∃ rest, text.dropWhile isIndent = "export".toList ++ rest ∧
      (skipBlanks rest).head? = some '\x7b' := by
  obtain ⟨-, value, after, hfind, -⟩ := CommonJs.lineFind_eq_some.1 h
  simp only [Option.bind_eq_bind, Option.bind_eq_some_iff] at hfind
  obtain ⟨rest, hword, _, hlist, -⟩ := hfind
  exact ⟨rest, afterWord?_eq_some.1 hword, head?_of_bracedList? hlist⟩

end Ahead

theorem findsStatements_defaultExport : FindsStatements CommonJs.defaultExport := by
  intro before text found h
  obtain ⟨rest, htext, hblank, hprefix⟩ := ahead_of_defaultExport h
  exact ⟨(CommonJs.lineFind_eq_some.1 h).1, .declaration rest htext hblank "default" (by simp) hprefix⟩

theorem findsStatements_inlineExport : FindsStatements CommonJs.inlineExport := by
  intro before text found h
  obtain ⟨rest, htext, hblank, hdeclaration⟩ := ahead_of_inlineExport h
  obtain ⟨keyword, hkeyword, hprefix⟩ := keyword_of_startsDeclaration hdeclaration
  exact ⟨(CommonJs.lineFind_eq_some.1 h).1,
    .declaration rest htext hblank keyword (List.mem_cons_of_mem _ hkeyword) hprefix⟩

theorem findsStatements_namedImport : FindsStatements CommonJs.namedImport := by
  intro before text found h
  obtain ⟨rest, htext, hbrace⟩ := ahead_of_namedImport h
  exact ⟨(CommonJs.lineFind_eq_some.1 h).1, .list "import" (by simp) rest htext hbrace⟩

theorem findsStatements_exportList : FindsStatements CommonJs.exportList := by
  intro before text found h
  obtain ⟨rest, htext, hbrace⟩ := ahead_of_exportList h
  exact ⟨(CommonJs.lineFind_eq_some.1 h).1, .list "export" (by simp) rest htext hbrace⟩

/-! ## Statements of another kind -/

section Passed

variable {before : Option Char}

section Export

variable (htext : text.dropWhile isIndent = "export".toList ++ rest)

include htext

theorem defaultExport_eq_none (h : ¬ "default".toList <+: skipBlanks rest) :
    CommonJs.defaultExport before text = none := by
  rw [Option.eq_none_iff_forall_ne_some]
  intro found hfound
  obtain ⟨more, hmore, -, hprefix⟩ := ahead_of_defaultExport hfound
  obtain rfl := List.append_cancel_left (htext.symm.trans hmore)
  exact h hprefix

theorem inlineExport_eq_none (h : CommonJs.startsDeclaration (skipBlanks rest) = false) :
    CommonJs.inlineExport before text = none := by
  rw [Option.eq_none_iff_forall_ne_some]
  intro found hfound
  obtain ⟨more, hmore, -, hdeclaration⟩ := ahead_of_inlineExport hfound
  obtain rfl := List.append_cancel_left (htext.symm.trans hmore)
  rw [h] at hdeclaration
  cases hdeclaration

theorem namedImport_eq_none : CommonJs.namedImport before text = none := by
  rw [Option.eq_none_iff_forall_ne_some]
  intro found hfound
  obtain ⟨more, hmore, -⟩ := ahead_of_namedImport hfound
  cases htext.symm.trans hmore

end Export

variable (htext : text.dropWhile isIndent = "import".toList ++ rest)

include htext

theorem defaultExport_import : CommonJs.defaultExport before text = none := by
  rw [Option.eq_none_iff_forall_ne_some]
  intro found hfound
  obtain ⟨more, hmore, -⟩ := ahead_of_defaultExport hfound
  cases htext.symm.trans hmore

theorem inlineExport_import : CommonJs.inlineExport before text = none := by
  rw [Option.eq_none_iff_forall_ne_some]
  intro found hfound
  obtain ⟨more, hmore, -⟩ := ahead_of_inlineExport hfound
  cases htext.symm.trans hmore

end Passed

/-! ## Scanning one statement -/

/-- What a recogniser makes of a statement with a line feed behind it, and of one that ends the text. -/
structure Reads (recognise : Recogniser α) (text : Text) (line last : List (α ⊕ Char)) : Prop where
  line : Scans recognise (text ++ ['\n']) line
  last : ∀ before, atLineStart before = true → scan recognise before 0 text = last

theorem FindsStatements.feed (h : FindsStatements recognise) (before : Option Char) (rest : Text) :
    recognise before ('\n' :: rest) = none := by
  have hdrop : ('\n' :: rest).dropWhile isIndent = '\n' :: rest := List.dropWhile_cons_of_neg (by decide)
  rw [Option.eq_none_iff_forall_ne_some]
  intro found hfound
  cases (h hfound).2 with
  | list word hword more htext =>
      rw [hdrop] at htext
      simp only [List.mem_cons, List.not_mem_nil, or_false] at hword
      rcases hword with rfl | rfl <;> cases htext
  | declaration more htext =>
      rw [hdrop] at htext
      cases htext

theorem FindsStatements.eq_none (h : FindsStatements recognise) {before : Option Char}
    (hbefore : atLineStart before = false) (text : Text) : recognise before text = none := by
  rw [Option.eq_none_iff_forall_ne_some]
  intro found hfound
  rw [(h hfound).1] at hbefore
  cases hbefore

theorem scan_passed {before : Option Char}
    (h : ∀ front back, text = front ++ back → back ≠ [] →
      recognise (front.getLast?.or before) (back ++ tail) = none) :
    scan recognise before 0 (text ++ tail) =
      text.map .inr ++ scan recognise (text.getLast?.or before) 0 tail := by
  induction text generalizing before with
  | nil => rfl
  | cons c text ih =>
      have hhead := h [] (c :: text) rfl (by simp)
      rw [List.getLast?_nil, Option.none_or, List.cons_append] at hhead
      have hrest : scan recognise (some c) 0 (text ++ tail) =
          text.map .inr ++ scan recognise (text.getLast?.or (some c)) 0 tail := by
        apply ih
        intro front back htext hback
        have hback' := h (c :: front) back (by rw [htext]; rfl) hback
        rw [List.getLast?_cons] at hback'
        cases hlast : front.getLast? with
        | none => simpa [hlast] using hback'
        | some last => simpa [hlast] using hback'
      rw [List.cons_append, scan, if_neg (by simp), hhead]
      simp only
      rw [hrest, List.getLast?_cons]
      cases text.getLast? <;> rfl

namespace FindsStatements

variable (h : FindsStatements recognise)

include h

/-- The rest of a statement is passed if no statement begins with a line of it. -/
theorem scan_rest {before : Option Char}
    (hlines : ∀ front back, text = front ++ back → atLineStart (front.getLast?.or before) = true →
      ¬ Begins (back ++ tail)) :
    scan recognise before 0 (text ++ tail) =
      text.map .inr ++ scan recognise (text.getLast?.or before) 0 tail := by
  apply scan_passed
  intro front back htext _
  rw [Option.eq_none_iff_forall_ne_some]
  intro found hfound
  obtain ⟨hstart, hbegins⟩ := h hfound
  exact hlines front back htext hstart hbegins

theorem reads_of_scan {result : List (α ⊕ Char)}
    (hscan : ∀ before tail, atLineStart before = true → Ended tail → ∃ last,
      scan recognise before 0 (text ++ tail) = result ++ scan recognise last 0 tail) :
    Reads recognise text (result ++ [.inr '\n']) result where
  line before rest hbefore := by
    obtain ⟨last, hlast⟩ := hscan before ('\n' :: rest) hbefore (ended_feed rest)
    refine ⟨some '\n', rfl, ?_⟩
    rw [List.append_assoc, List.singleton_append, hlast, scan, if_neg (by simp), h.feed]
    simp
  last before hbefore := by
    obtain ⟨last, hlast⟩ := hscan before [] hbefore ended_nil
    simpa using hlast

/-- A statement is passed if nothing is found at its head and no statement begins with its other lines. -/
theorem reads_passed (hhead : ∀ before tail, Ended tail → recognise before (text ++ tail) = none)
    (hlines : Continues text) :
    Reads recognise text ((text ++ ['\n']).map .inr) (text.map .inr) := by
  rw [List.map_append]
  refine h.reads_of_scan fun before tail _ htail => ⟨_, scan_passed ?_⟩
  intro front back htext _
  rw [Option.eq_none_iff_forall_ne_some]
  intro found hfound
  cases hlast : front.getLast? with
  | none =>
      obtain rfl := List.getLast?_eq_none_iff.1 hlast
      rw [List.nil_append] at htext
      rw [← htext, hhead _ tail htail] at hfound
      cases hfound
  | some last =>
      obtain ⟨hstart, hbegins⟩ := h hfound
      rw [hlast, Option.some_or] at hstart
      obtain rfl : last = '\n' := by simpa [atLineStart] using hstart
      exact hlines tail htail front back htext hlast hbegins

theorem reads_quiet (hquiet : Quiet text) (hlines : Continues text) :
    Reads recognise text ((text ++ ['\n']).map .inr) (text.map .inr) := by
  refine h.reads_passed (fun before tail htail => ?_) hlines
  rw [Option.eq_none_iff_forall_ne_some]
  exact fun found hfound => hquiet tail htail (h hfound).2

theorem reads_found {taken left : Text} {value : α} (htaken : taken ≠ []) (hlines : Continues (taken ++ left))
    (hfound : ∀ before tail, atLineStart before = true → Ended tail →
      recognise before (taken ++ (left ++ tail)) = some (value, taken.length)) :
    Reads recognise (taken ++ left) (.inl value :: (left ++ ['\n']).map .inr)
      (.inl value :: left.map .inr) := by
  rw [List.map_append, ← List.cons_append]
  apply h.reads_of_scan
  intro before tail hbefore htail
  have hhead := hfound before tail hbefore htail
  obtain ⟨c, others, rfl⟩ := List.exists_cons_of_ne_nil htaken
  have hlast : (c :: others).getLast? = others.getLast?.or (some c) := by
    rw [List.getLast?_cons]
    cases others.getLast? <;> rfl
  refine ⟨left.getLast?.or (others.getLast?.or (some c)), ?_⟩
  rw [List.cons_append] at hhead
  rw [List.append_assoc, List.cons_append, scan, if_neg (by simp), hhead]
  simp only [List.length_cons, Nat.add_sub_cancel]
  rw [Text.scan_skip, h.scan_rest]
  · rfl
  · intro front back hleft hstart
    refine hlines tail htail (c :: others ++ front) back (by rw [hleft, List.append_assoc]) ?_
    rw [← hlast, ← List.getLast?_append] at hstart
    cases hboth : (c :: others ++ front).getLast? with
    | none => simp at hboth
    | some last =>
        rw [hboth] at hstart
        simpa [atLineStart] using hstart

end FindsStatements

theorem Row.continues (row : Row) : Continues row.text :=
  continues_of_not_mem row.noFeed

theorem Row.reads (row : Row) (h : FindsStatements recognise) :
    Reads recognise row.text ((row.text ++ ['\n']).map .inr) (row.text.map .inr) :=
  h.reads_quiet row.quiet row.continues

end EsModule

end ScriptSplit
