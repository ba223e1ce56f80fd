import Mathlib.Data.List.Basic
import ScriptSplit.Proofs.Text.Lines
import ScriptSplit.Text.Search

/-!
# Texts between separators

The parts that a text is split into hold no separator, and a text that is put together from such parts is split
into them again. So is a list with commas whose entries have no blanks around them.
-/

namespace ScriptSplit.Text

variable {isSeparator : Char → Bool} {text part : Text}

theorem splitAny_of_forall_not (htext : ∀ c ∈ text, isSeparator c = false) :
    splitAny isSeparator text = [text] := by
  induction text with
  | nil => rfl
  | cons c rest ih =>
      have hc : isSeparator c = false := htext c (by simp)
      have hrest := ih fun d hd => htext d (by simp [hd])
      simp [splitAny, hc, hrest]

theorem of_mem_splitAny (hpart : part ∈ splitAny isSeparator text) :
    ∀ c ∈ part, isSeparator c = false ∧ c ∈ text := by
  induction text generalizing part with
  | nil =>
      simp only [splitAny, List.mem_singleton] at hpart
      simp [hpart]
  | cons c rest ih =>
      have hlater : ∀ {part : Text}, part ∈ splitAny isSeparator rest →
          ∀ d ∈ part, isSeparator d = false ∧ d ∈ c :: rest :=
        fun hpart d hd => (ih hpart d hd).imp_right (List.mem_cons_of_mem c)
      unfold splitAny at hpart
      by_cases hc : isSeparator c = true
      · simp only [hc, if_true, List.mem_cons] at hpart
        rcases hpart with rfl | hpart
        · simp
        · exact hlater hpart
      · have hc' : isSeparator c = false := by simpa using hc
        rw [if_neg hc] at hpart
        cases hsplit : splitAny isSeparator rest with
        | nil =>
            simp only [hsplit, List.mem_singleton] at hpart
            simp [hpart, hc']
        | cons first more =>
            simp only [hsplit, List.mem_cons] at hpart
            rcases hpart with rfl | hpart
            · exact List.forall_mem_cons.2
                ⟨⟨hc', List.mem_cons_self⟩, hlater (by rw [hsplit]; exact List.mem_cons_self)⟩
            · exact hlater (by rw [hsplit]; exact List.mem_cons_of_mem _ hpart)

theorem splitAny_append (htext : ∀ c ∈ text, isSeparator c = false) {separator : Char}
    (hseparator : isSeparator separator = true) (rest : Text) :
    splitAny isSeparator (text ++ separator :: rest) = text :: splitAny isSeparator rest := by
  induction text with
  | nil => simp [splitAny, hseparator]
  | cons c text ih =>
      obtain ⟨hc, htext⟩ := List.forall_mem_cons.1 htext
      rw [List.cons_append, splitAny, if_neg (by simp [hc]), ih htext]

/-! ## Finding a mark -/

theorem not_isPrefixOf_of_head {first c : Char} (hne : first ≠ c) (mark rest : Text) :
    (first :: mark).isPrefixOf (c :: rest) = false := by
  simp [List.isPrefixOf, hne]

theorem find?_eq_none {first : Char} {mark : Text} (hfirst : first ∉ text) :
    find? text (first :: mark) = none := by
  induction text with
  | nil => rfl
  | cons c rest ih =>
      obtain ⟨hne, hrest⟩ := List.ne_and_not_mem_of_not_mem_cons hfirst
      rw [find?, not_isPrefixOf_of_head hne, if_neg Bool.false_ne_true, ih hrest]
      rfl

theorem find?_append {first : Char} {mark : Text} (hfirst : first ∉ text) (rest : Text) :
    find? (text ++ (first :: mark ++ rest)) (first :: mark) = some text.length := by
  induction text with
  | nil => simp [find?]
  | cons c text ih =>
      obtain ⟨hne, htext⟩ := List.ne_and_not_mem_of_not_mem_cons hfirst
      rw [List.cons_append, find?, not_isPrefixOf_of_head hne, if_neg Bool.false_ne_true, ih htext]
      rfl

/-! ## Lists with commas -/

/-- Whether a text can be an entry of a list with commas: it is not empty, holds no comma and has no blanks
around it. -/
structure IsEntry (entry : Text) : Prop where
  nonempty : entry ≠ []
  noComma : ',' ∉ entry
  first : ∀ c ∈ entry.head?, isBlank c = false
  last : ∀ c ∈ entry.getLast?, isBlank c = false

theorem skipBlanks_of_head {text : Text} (h : ∀ c ∈ text.head?, isBlank c = false) :
    skipBlanks text = text := by
  cases text with
  | nil => rfl
  | cons c rest => simp [skipBlanks, h c rfl]

theorem IsEntry.stripped {entry : Text} (h : IsEntry entry) : strip entry = entry := by
  have hleft : stripLeft entry = entry := skipBlanks_of_head h.first
  have hright : skipBlanks entry.reverse = entry.reverse := by
    apply skipBlanks_of_head
    rw [List.head?_reverse]
    exact h.last
  rw [strip, hleft, stripRight]
  exact (congrArg List.reverse hright).trans (List.reverse_reverse entry)

theorem isEntry_of_unblank {entry : Text} (hne : entry ≠ []) (hcomma : ',' ∉ entry)
    (h : ∀ c ∈ entry, isBlank c = false) : IsEntry entry :=
  ⟨hne, hcomma, fun c hc => h c (List.mem_of_mem_head? hc),
    fun c hc => h c (List.mem_of_mem_getLast? hc)⟩

theorem strip_blanks {left right : Text} (hleft : ∀ c ∈ left, isBlank c = true)
    (hright : ∀ c ∈ right, isBlank c = true) (text : Text) : strip (left ++ text ++ right) = strip text := by
  rw [strip_append_blank hright, strip, stripLeft, List.dropWhile_append_of_pos hleft]
  rfl

theorem strip_strip (text : Text) : strip (strip text) = strip text := by
  obtain ⟨left, right, htext, hleft, hright⟩ := exists_strip text
  calc strip (strip text) = strip (left ++ strip text ++ right) := (strip_blanks hleft hright _).symm
    _ = strip text := by rw [← htext]

theorem strip_of_isBlankText {text : Text} (h : isBlankText text = true) : strip text = [] := by
  rw [← List.nil_append text, strip_append_blank (List.all_eq_true.1 h)]
  rfl

theorem comma_not_blank {blanks : Text} (hblanks : ∀ c ∈ blanks, isBlank c = true) :
    ∀ c ∈ blanks, (c == ',') = false := by
  intro c hc
  apply beq_false_of_ne
  rintro rfl
  exact absurd (hblanks _ hc) (by decide)

theorem IsEntry.no_separator {entry : Text} (h : IsEntry entry) : ∀ c ∈ entry, (c == ',') = false := by
  intro c hc
  apply beq_false_of_ne
  rintro rfl
  exact h.noComma hc

/-- A list with commas, whatever blanks stand around it, is read as its entries. -/
theorem commaList_intercalate {entries : List Text} (hentries : ∀ entry ∈ entries, IsEntry entry)
    {left right : Text} (hleft : ∀ c ∈ left, isBlank c = true) (hright : ∀ c ∈ right, isBlank c = true) :
    commaList (left ++ [',', ' '].intercalate entries ++ right) = entries := by
  have hleftComma := comma_not_blank hleft
  have hrightComma := comma_not_blank hright
  induction entries generalizing left with
  | nil =>
      have hnone : ∀ c ∈ left ++ [] ++ right, (c == ',') = false := by
        rw [List.append_nil]
        exact List.forall_mem_append.2 ⟨hleftComma, hrightComma⟩
      rw [List.intercalate_nil, commaList, splitAny_of_forall_not hnone, List.map_singleton,
        strip_blanks hleft hright]
      rfl
  | cons entry entries ih =>
      obtain ⟨hentry, hentries⟩ := List.forall_mem_cons.1 hentries
      have hkept (rest : List Text) : (entry :: rest).filter (!·.isEmpty) =
          entry :: rest.filter (!·.isEmpty) :=
        List.filter_cons_of_pos (by simpa using hentry.nonempty)
      cases entries with
      | nil =>
          have hnone : ∀ c ∈ left ++ entry ++ right, (c == ',') = false :=
            List.forall_mem_append.2
              ⟨List.forall_mem_append.2 ⟨hleftComma, hentry.no_separator⟩, hrightComma⟩
          rw [List.intercalate_singleton, commaList, splitAny_of_forall_not hnone, List.map_singleton,
            strip_blanks hleft hright, hentry.stripped, hkept, List.filter_nil]
      | cons next entries =>
          have hnone : ∀ c ∈ left ++ entry, (c == ',') = false :=
            List.forall_mem_append.2 ⟨hleftComma, hentry.no_separator⟩
          have hstrip : strip (left ++ entry) = entry := by
            have hnil : ∀ c ∈ ([] : Text), isBlank c = true := by simp
            have hblanks := strip_blanks hleft hnil entry
            rw [List.append_nil] at hblanks
            rw [hblanks, hentry.stripped]
          have hspace : ∀ c ∈ [' '], isBlank c = true := by simp [isBlank]
          have hrest := ih hentries hspace (comma_not_blank hspace)
          have htext : left ++ [',', ' '].intercalate (entry :: next :: entries) ++ right =
              (left ++ entry) ++ ',' :: ([' '] ++ [',', ' '].intercalate (next :: entries) ++ right) := by
            rw [List.intercalate_cons_cons]
            simp
          rw [htext, commaList, splitAny_append hnone (by simp), List.map_cons, hstrip, hkept]
          exact congrArg (entry :: ·) hrest

end ScriptSplit.Text
