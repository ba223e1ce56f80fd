import Mathlib
import ScriptSplit.Plan.Balance
import ScriptSplit.Proofs.Text.Names

/-!
# Slugs that are made

Slugs made from names or numbers hold lower case letters, digits and hyphens and start with no hyphen. They
can be file names and are their own lower case. Among the slugs that are counted up one is always free.
-/

namespace ScriptSplit

def isSlugMade (c : Char) : Bool :=
  Text.isAsciiLower c || Text.isAsciiDigit c || c == '-'

/-- A slug as it is made: lower case letters, digits and hyphens, of which none stands first. -/
def MadeSlug (slug : String) : Prop :=
  (∃ c ∈ slug.toList.head?, c ≠ '-') ∧ ∀ c ∈ slug.toList, isSlugMade c = true

/-! ## Lower case -/

theorem isSlugMade_ne {c other : Char} (hc : isSlugMade c = true) (hother : isSlugMade other = false) :
    c ≠ other := by
  rintro rfl
  rw [hother] at hc
  cases hc

theorem lowerChar_of_isSlugMade {c : Char} (hc : isSlugMade c = true) : Text.lowerChar c = [c] := by
  have hascii : c.toNat < 128 ∧ ¬ (65 ≤ c.toNat ∧ c.toNat ≤ 90) := by
    simp only [isSlugMade, Text.isAsciiLower, Text.isAsciiDigit, Bool.or_eq_true, Bool.and_eq_true,
      decide_eq_true_eq, beq_iff_eq] at hc
    rcases hc with (⟨hlow, hhigh⟩ | ⟨hlow, hhigh⟩) | rfl
    · have hlow' : 97 ≤ c.toNat := hlow
      have hhigh' : c.toNat ≤ 122 := hhigh
      omega
    · have hlow' : 48 ≤ c.toNat := hlow
      have hhigh' : c.toNat ≤ 57 := hhigh
      omega
    · decide
  rw [Text.lowerChar, if_pos hascii.1]
  have hupper : ¬ (c.val ≥ 'A'.val ∧ c.val ≤ 'Z'.val) := fun h => hascii.2 h
  rw [Char.toLower, dif_neg hupper]

theorem lowerAfter_of_isSlugMade (before : List Char) {text : List Char}
    (htext : ∀ c ∈ text, isSlugMade c = true) : Text.lowerAfter before text = text := by
  induction text generalizing before with
  | nil => rfl
  | cons c text ih =>
      have hc := htext c (by simp)
      have hsigma : (c == 'Σ') = false := beq_false_of_ne (isSlugMade_ne hc (by decide))
      simp [Text.lowerAfter, hsigma, lowerChar_of_isSlugMade hc,
        ih (c :: before) fun other hother => htext other (by simp [hother])]

namespace MadeSlug

theorem lower_eq {slug : String} (h : MadeSlug slug) : Text.lower slug = slug := by
  rw [Text.lower, lowerAfter_of_isSlugMade [] h.2, String.ofList_toList]

theorem isSlug {slug : String} (h : MadeSlug slug) : isSlug slug = true := by
  obtain ⟨⟨first, hfirst, hhyphen⟩, hmade⟩ := h
  obtain ⟨rest, htext⟩ : ∃ rest, slug.toList = first :: rest := by
    cases hlist : slug.toList with
    | nil => simp [hlist] at hfirst
    | cons c rest => exact ⟨rest, by simp_all⟩
  have hpart : ∀ c, isSlugMade c = true → isSlugPart c = true := by
    intro c hc
    simp only [isSlugMade, isSlugPart, isSlugStart, Text.isAsciiLetter, Bool.or_eq_true] at hc ⊢
    tauto
  have hkept : Text.dropFinalNewline slug.toList = slug.toList := by
    unfold Text.dropFinalNewline
    split
    · next hlast =>
        have hmem : '\n' ∈ slug.toList := List.mem_of_getLast? (by simpa using hlast)
        exact absurd (hmade _ hmem) (by decide)
    · rfl
  rw [htext] at hmade
  unfold ScriptSplit.isSlug
  rw [hkept, htext]
  simp only [Bool.and_eq_true, List.all_eq_true]
  refine ⟨?_, fun c hc => hpart c (hmade c (by simp [hc]))⟩
  have hstart := hmade first (by simp)
  simp only [isSlugMade, isSlugStart, Text.isAsciiLetter, Bool.or_eq_true, beq_iff_eq] at hstart ⊢
  obtain (hlower | hdigit) | hline := hstart
  · exact .inl (.inl (.inl (.inl hlower)))
  · exact .inl (.inl (.inr hdigit))
  · exact absurd hline hhyphen

theorem ne_empty {slug : String} (h : MadeSlug slug) : slug ≠ "" := by
  rintro rfl
  obtain ⟨⟨first, hfirst, -⟩, -⟩ := h
  simp at hfirst

theorem append {slug : String} (h : MadeSlug slug) {ending : String}
    (hending : ∀ c ∈ ending.toList, isSlugMade c = true) : MadeSlug (slug ++ ending) := by
  obtain ⟨⟨first, hfirst, hhyphen⟩, hmade⟩ := h
  refine ⟨⟨first, ?_, hhyphen⟩, ?_⟩
  · rw [String.toList_append]
    cases hlist : slug.toList with
    | nil => simp [hlist] at hfirst
    | cons c rest => simpa [hlist] using hfirst
  · intro c hc
    rw [String.toList_append, List.mem_append] at hc
    rcases hc with hc | hc
    · exact hmade c hc
    · exact hending c hc

end MadeSlug

/-! ## Slugs from names and numbers -/

theorem isSlugMade_of_mem_collapse {afterHyphen : Bool} {text : List Char} {c : Char}
    (hc : c ∈ slugify.collapse afterHyphen text) : isSlugMade c = true := by
  induction text generalizing afterHyphen with
  | nil => simp [slugify.collapse] at hc
  | cons first text ih =>
      unfold slugify.collapse at hc
      split at hc
      · next hkept =>
          rcases List.mem_cons.1 hc with rfl | hc
          · simpa [isSlugMade] using Or.inl (by simpa using hkept)
          · exact ih hc
      · split at hc
        · exact ih hc
        · rcases List.mem_cons.1 hc with rfl | hc
          · rfl
          · exact ih hc

theorem mem_of_mem_trimHyphens {text : List Char} {c : Char} (hc : c ∈ slugify.trimHyphens text) :
    c ∈ text := by
  unfold slugify.trimHyphens at hc
  have hfront := (List.dropWhile_sublist _).mem (List.mem_reverse.1 hc)
  exact (List.dropWhile_sublist _).mem (List.mem_reverse.1 hfront)

theorem head_trimHyphens_ne {text : List Char} {c : Char}
    (hc : c ∈ (slugify.trimHyphens text).head?) : c ≠ '-' := by
  have hfront : slugify.trimHyphens text <+: text.dropWhile (· == '-') := by
    rw [slugify.trimHyphens, ← List.reverse_suffix, List.reverse_reverse]
    exact List.dropWhile_suffix _
  obtain ⟨ending, hending⟩ := hfront
  have hhead : (text.dropWhile (· == '-')).head? = some c := by
    rw [← hending, List.head?_append, Option.mem_def.1 hc]
    rfl
  have hnot := List.head?_dropWhile_not (· == '-') text
  rw [hhead] at hnot
  simpa using hnot

theorem madeSlug_slugify {name : String} (hname : slugify name ≠ "") : MadeSlug (slugify name) := by
  constructor
  · cases hlist : (slugify name).toList with
    | nil => exact absurd (String.toList_eq_nil_iff.1 hlist) hname
    | cons c rest =>
        refine ⟨c, rfl, ?_⟩
        have hhead : c ∈ (slugify name).toList.head? := by simp [hlist]
        rw [slugify, String.toList_ofList] at hhead
        exact head_trimHyphens_ne hhead
  · intro c hc
    rw [slugify, String.toList_ofList] at hc
    exact isSlugMade_of_mem_collapse (mem_of_mem_trimHyphens hc)

theorem isSlugMade_of_mem_toString {n : Nat} {c : Char} (hc : c ∈ (toString n).toList) :
    isSlugMade c = true := by
  rw [Nat.toString_eq_repr, Nat.toList_repr] at hc
  have hdigit : c.isDigit = true := Nat.isDigit_of_mem_toDigits (by decide) (by decide) hc
  have hascii : Text.isAsciiDigit c = true := hdigit
  simp [isSlugMade, hascii]

theorem madeSlug_mod (n : Nat) : MadeSlug ("mod" ++ toString n) := by
  have hmod : MadeSlug "mod" := ⟨⟨'m', by decide, by decide⟩, List.all_eq_true.1 (by decide)⟩
  exact hmod.append fun c hc => isSlugMade_of_mem_toString hc

theorem madeSlug_original : MadeSlug originalSlug :=
  ⟨⟨'o', by decide, by decide⟩, List.all_eq_true.1 (by decide)⟩

theorem MadeSlug.numbered {base : String} (h : MadeSlug base) (n : Nat) :
    MadeSlug (base ++ "-" ++ toString n) :=
  (h.append (List.all_eq_true.1 (by decide))).append fun c hc => isSlugMade_of_mem_toString hc

namespace Plan

/-! ## Slugs that are free -/

theorem numbered_injective (base : String) :
    Function.Injective fun n : Nat => base ++ "-" ++ toString n := by
  intro m n heq
  exact Names.toString_injective ((String.append_right_inj _).1 heq)

theorem numberedSlug_succ (base : String) (taken : List String) (n fuel : Nat) :
    numberedSlug base taken n (fuel + 1) =
      if base ++ "-" ++ toString n ∈ taken then numberedSlug base taken (n + 1) fuel
      else base ++ "-" ++ toString n := by
  simp [numberedSlug]

/-- If the slug that counting ends at is taken, so are all that it went past. -/
theorem mem_of_numberedSlug_mem {base : String} {taken : List String} {n fuel : Nat}
    (hend : numberedSlug base taken n fuel ∈ taken) {k : Nat} (hk : k ≤ fuel) :
    base ++ "-" ++ toString (n + k) ∈ taken := by
  induction fuel generalizing n k with
  | zero =>
      obtain rfl : k = 0 := by omega
      exact hend
  | succ fuel ih =>
      rw [numberedSlug_succ] at hend
      split at hend
      · next htaken =>
          cases k with
          | zero => exact htaken
          | succ k =>
              rw [show n + (k + 1) = n + 1 + k by omega]
              exact ih hend (by omega)
      · next hfree => exact absurd hend hfree

/-- There are more numbered slugs than taken ones. -/
theorem numberedSlug_not_mem (base : String) (taken : List String) (n : Nat) :
    numberedSlug base taken n taken.length ∉ taken := by
  intro hend
  have hnodup : ((List.range (taken.length + 1)).map
      fun k => base ++ "-" ++ toString (n + k)).Nodup := by
    apply List.Nodup.map _ List.nodup_range
    intro i j heq
    have hsame := numbered_injective base heq
    omega
  have hsubset : (List.range (taken.length + 1)).map
      (fun k => base ++ "-" ++ toString (n + k)) ⊆ taken := by
    intro slug hslug
    obtain ⟨k, hk, rfl⟩ := List.mem_map.1 hslug
    exact mem_of_numberedSlug_mem hend (by simpa [Nat.lt_succ_iff] using hk)
  have hlength := hnodup.length_le_of_subset hsubset
  rw [List.length_map, List.length_range] at hlength
  omega

theorem uniqueSlug_not_mem (base : String) (taken : List String) : uniqueSlug base taken ∉ taken := by
  unfold uniqueSlug
  split
  · exact numberedSlug_not_mem base taken 2
  · next hfree => simpa using hfree

theorem madeSlug_numberedSlug {base : String} (h : MadeSlug base) (taken : List String)
    (n fuel : Nat) : MadeSlug (numberedSlug base taken n fuel) := by
  induction fuel generalizing n with
  | zero => exact h.numbered n
  | succ fuel ih =>
      rw [numberedSlug_succ]
      split
      · exact ih (n + 1)
      · exact h.numbered n

theorem madeSlug_uniqueSlug {base : String} (h : MadeSlug base) (taken : List String) :
    MadeSlug (uniqueSlug base taken) := by
  unfold uniqueSlug
  split
  · exact madeSlug_numberedSlug h taken _ _
  · exact h

end Plan

end ScriptSplit
