import Mathlib.Data.List.TakeWhile
import ScriptSplit.Emit.Exports
import ScriptSplit.Proofs.Text.Lines

/-!
# Names in a text

A name starts with a letter of ASCII and goes on with word characters, none of which is a blank. It is read up to
the first character that cannot go on with it.
-/

namespace ScriptSplit.Text

variable {name : Text}

theorem toNat_of_isNameStart {c : Char} (hc : isNameStart c = true) : 36 ≤ c.toNat ∧ c.toNat ≤ 122 := by
  simp only [isNameStart, isAsciiLetter, isAsciiLower, isAsciiUpper, Bool.or_eq_true,
    Bool.and_eq_true, decide_eq_true_eq, beq_iff_eq, Char.le_def, UInt32.le_iff_toNat_le] at hc
  rcases hc with ((⟨hlow, hhigh⟩ | ⟨hlow, hhigh⟩) | rfl) | rfl
  · exact ⟨Nat.le_trans (by decide) hlow, hhigh⟩
  · exact ⟨Nat.le_trans (by decide) hlow, Nat.le_trans hhigh (by decide)⟩
  · decide
  · decide

theorem isNamePart_of_isNameStart {c : Char} (hc : isNameStart c = true) : isNamePart c = true := by
  obtain ⟨-, hascii⟩ := toNat_of_isNameStart hc
  simp only [isNameStart, Bool.or_eq_true] at hc
  unfold isNamePart isWord
  rw [if_pos (by omega)]
  rcases hc with (hletter | hlow) | hdollar
  · simp [hletter]
  · simp [hlow]
  · simp [hdollar]

theorem isNamePart_of_isName (hname : isName name = true) : ∀ c ∈ name, isNamePart c = true := by
  cases name with
  | nil => simp
  | cons c rest =>
      simp only [isName, Bool.and_eq_true, List.all_eq_true] at hname
      exact List.forall_mem_cons.2 ⟨isNamePart_of_isNameStart hname.1, hname.2⟩

theorem ne_nil_of_isName (hname : isName name = true) : name ≠ [] := by
  rintro rfl
  cases hname

theorem isNamePart_of_isBlank {c : Char} (hc : isBlank c = true) : isNamePart c = false := by
  have hcode : c.toNat ∈ List.range' 9 5 ++ List.range' 0x1C 5 ++ List.range' 0x2000 11 ++
      [0x85, 0xA0, 0x1680, 0x2028, 0x2029, 0x202F, 0x205F, 0x3000] := by
    unfold isBlank at hc
    simp only [Bool.or_eq_true, Bool.and_eq_true, decide_eq_true_eq, beq_iff_eq] at hc
    simp only [List.mem_append, List.mem_range'_1, List.mem_cons, List.not_mem_nil, or_false]
    omega
  have hall : ∀ n ∈ List.range' 9 5 ++ List.range' 0x1C 5 ++ List.range' 0x2000 11 ++
      [0x85, 0xA0, 0x1680, 0x2028, 0x2029, 0x202F, 0x205F, 0x3000],
      isNamePart (Char.ofNat n) = false := by decide +kernel
  rw [← Char.ofNat_toNat c]
  exact hall _ hcode

theorem isNamePart_of_isLineBoundary {c : Char} (hc : isLineBoundary c = true) :
    isNamePart c = false :=
  isNamePart_of_isBlank (isBlank_of_isLineBoundary hc)

theorem not_isBlank_of_isName (hname : isName name = true) : ∀ c ∈ name, isBlank c = false := by
  intro c hc
  by_contra hblank
  have hpart := isNamePart_of_isName hname c hc
  rw [isNamePart_of_isBlank (by simpa using hblank)] at hpart
  cases hpart

theorem unbroken_of_isName {name : Text} (hname : isName name = true) : Unbroken name := by
  intro c hc
  by_contra hboundary
  have hpart := isNamePart_of_isName hname c hc
  rw [isNamePart_of_isLineBoundary (by simpa using hboundary)] at hpart
  cases hpart

theorem isBlank_of_isNameStart {c : Char} (hc : isNameStart c = true) : isBlank c = false := by
  obtain ⟨hlow, hhigh⟩ := toNat_of_isNameStart hc
  unfold isBlank
  simp
  omega

theorem skipBlanks_cons {c : Char} (hc : isBlank c = false) (rest : Text) :
    skipBlanks (c :: rest) = c :: rest := by
  simp [skipBlanks, hc]

theorem skipBlanks_space (rest : Text) : skipBlanks (' ' :: rest) = skipBlanks rest := by
  have hspace : isBlank ' ' = true := by decide
  simp [skipBlanks, hspace]

theorem spanName?_append {name : Text} (hname : isName name = true) {c : Char}
    (hc : isNamePart c = false) (rest : Text) :
    spanName? (name ++ c :: rest) = some (name, c :: rest) := by
  cases name with
  | nil => simp [isName] at hname
  | cons first name =>
      simp only [isName, Bool.and_eq_true, List.all_eq_true] at hname
      obtain ⟨hfirst, hparts⟩ := hname
      rw [List.cons_append, spanName?, if_pos hfirst, List.takeWhile_append_of_pos hparts,
        List.dropWhile_append_of_pos hparts]
      simp [hc]

theorem isName_of_isExportable {name : String} (hexportable : isExportable name = true)
    (hline : '\n' ∉ name.toList) : isName name.toList = true := by
  unfold isExportable at hexportable
  rw [Bool.and_eq_true] at hexportable
  have hlast : name.toList.getLast? ≠ some '\n' := fun heq => hline (List.mem_of_getLast? heq)
  have hsame : dropFinalNewline name.toList = name.toList := by
    unfold dropFinalNewline
    simp [hlast]
  rw [hsame] at hexportable
  exact hexportable.1

theorem afterWord?_append (word : String) (rest : Text) :
    afterWord? word (word.toList ++ rest) = some rest := by
  have hprefix : word.toList.isPrefixOf (word.toList ++ rest) = true := by simp
  rw [afterWord?, if_pos hprefix, ← String.length_toList, List.drop_left]

end ScriptSplit.Text
