import ScriptSplit.CommonJs
import ScriptSplit.Proofs.Text.Identifiers
import ScriptSplit.Proofs.Text.Split

/-!
# Lists of names between braces

A list that is written between braces, with a comma and a blank between the entries, is read as these entries.
-/

namespace ScriptSplit

namespace Text

variable {entry name : Text}

theorem not_mem_of_isName (hname : isName name = true) {c : Char} (hc : isNamePart c = false) :
    c ∉ name := by
  intro hmem
  rw [isNamePart_of_isName hname c hmem] at hc
  cases hc

theorem isEntry_of_isName (hname : isName name = true) : IsEntry name :=
  isEntry_of_unblank (ne_nil_of_isName hname) (not_mem_of_isName hname (by decide))
    (not_isBlank_of_isName hname)

theorem isEntry_pair {other mark : Text} (hname : isName name = true) (hother : isName other = true)
    (hmark : ',' ∉ mark) : IsEntry (name ++ mark ++ other) := by
  have hfirst := isEntry_of_isName hname
  have hsecond := isEntry_of_isName hother
  refine ⟨by simp [hfirst.nonempty], ?_, ?_, ?_⟩
  · simp only [List.mem_append, not_or]
    exact ⟨⟨hfirst.noComma, hmark⟩, hsecond.noComma⟩
  · intro c hc
    rw [List.append_assoc, List.head?_append_of_ne_nil _ hfirst.nonempty] at hc
    exact hfirst.first c hc
  · intro c hc
    rw [List.getLast?_append_of_ne_nil _ hsecond.nonempty] at hc
    exact hsecond.last c hc

theorem splitAlias?_name (hname : isName name = true) : splitAlias? name = none := by
  rw [splitAlias?, show " as ".toList = ' ' :: "as ".toList from rfl,
    find?_eq_none (not_mem_of_isName hname (by decide)), Option.map_none]

theorem exists_intercalate_cons (entry : Text) (entries : List Text) :
    ∃ more, [',', ' '].intercalate (entry :: entries) = entry ++ more := by
  cases entries with
  | nil => exact ⟨[], by rw [List.intercalate_singleton, List.append_nil]⟩
  | cons next entries => exact ⟨_, by rw [List.intercalate_cons_cons, List.append_assoc]⟩

theorem mem_intercalate_comma {entries : List Text} {c : Char}
    (hc : c ∈ [',', ' '].intercalate entries) : c = ',' ∨ c = ' ' ∨ ∃ entry ∈ entries, c ∈ entry := by
  induction entries with
  | nil => simp at hc
  | cons entry entries ih =>
      cases entries with
      | nil => exact .inr (.inr ⟨entry, List.mem_singleton_self entry, by simpa using hc⟩)
      | cons next entries =>
          rw [List.intercalate_cons_cons] at hc
          simp only [List.mem_append, List.mem_cons, List.not_mem_nil, or_false] at hc
          rcases hc with (hc | rfl | rfl) | hc
          · exact .inr (.inr ⟨entry, List.mem_cons_self, hc⟩)
          · exact .inl rfl
          · exact .inr (.inl rfl)
          · exact (ih hc).imp_right (Or.imp_right fun ⟨other, hother, hc⟩ =>
              ⟨other, List.mem_cons_of_mem _ hother, hc⟩)

end Text

namespace CommonJs

open Text

def braces (entries : List Text) : Text :=
  '\x7b' :: ' ' :: ([',', ' '].intercalate entries ++ [' ', '\x7d'])

theorem braces_toList (items : List String) :
    ("\x7b " ++ ", ".intercalate items ++ " \x7d").toList = braces (items.map String.toList) := by
  simp [String.toList_append, String.toList_intercalate, braces]

theorem bracedList?_braces {entries : List Text}
    (hentries : ∀ entry ∈ entries, IsEntry entry ∧ '\x7d' ∉ entry) : ∃ clause,
      (∀ rest, bracedList? (braces entries ++ rest) = some (clause, rest)) ∧ commaList clause = entries := by
  have hblank : ∀ c ∈ [' '], isBlank c = true := by simp [isBlank]
  have hclose : ∀ c ∈ [',', ' '].intercalate entries ++ [' '], (c != '\x7d') = true := by
    intro c hc
    rw [bne_iff_ne]
    rintro rfl
    rcases List.mem_append.1 hc with hc | hc
    · obtain heq | heq | ⟨entry, hentry, hc⟩ := mem_intercalate_comma hc
      · exact absurd heq (by decide)
      · exact absurd heq (by decide)
      · exact (hentries entry hentry).2 hc
    · exact absurd (List.mem_singleton.1 hc) (by decide)
  -- what is left of the list once the blanks at its head are skipped
  obtain ⟨clause, hskip, hclause, hentriesOf⟩ : ∃ clause,
      (∀ rest, skipBlanks (' ' :: ([',', ' '].intercalate entries ++ ' ' :: '\x7d' :: rest)) =
        clause ++ '\x7d' :: rest) ∧ (∀ c ∈ clause, (c != '\x7d') = true) ∧ commaList clause = entries := by
    simp only [skipBlanks_space]
    cases entries with
    | nil => exact ⟨[], by simp [skipBlanks, isBlank], by simp, by decide⟩
    | cons entry entries =>
        have hentry := (hentries entry List.mem_cons_self).1
        refine ⟨[',', ' '].intercalate (entry :: entries) ++ [' '], fun rest => ?_, hclose, ?_⟩
        · rw [skipBlanks_of_head, List.append_assoc]
          · rfl
          · intro c hc
            obtain ⟨more, hmore⟩ := exists_intercalate_cons entry entries
            rw [hmore, List.append_assoc, List.head?_append_of_ne_nil _ hentry.nonempty] at hc
            exact hentry.first c hc
        · have hleft : ∀ c ∈ ([] : Text), isBlank c = true := by simp
          have hnone := commaList_intercalate (fun entry hentry => (hentries entry hentry).1) hleft
            hblank
          rwa [List.nil_append] at hnone
  have hopen : isBlank '\x7b' = false := by decide
  refine ⟨clause, fun rest => ?_, hentriesOf⟩
  have htext : braces entries ++ rest =
      '\x7b' :: (' ' :: ([',', ' '].intercalate entries ++ ' ' :: '\x7d' :: rest)) := by
    simp [braces]
  rw [htext, bracedList?, skipBlanks_cons hopen]
  simp only [hskip]
  rw [List.dropWhile_append_of_pos hclause, List.takeWhile_append_of_pos hclause]
  simp

end CommonJs

end ScriptSplit
