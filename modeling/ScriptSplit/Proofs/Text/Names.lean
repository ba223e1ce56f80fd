import Mathlib.Data.List.Nodup
import Mathlib.Data.String.Basic
import ScriptSplit.Text.Names

/-!
# Sets of names

A set of names is in rising order, so that two sets with the same names are equal.
-/

namespace ScriptSplit.Names

theorem mem_insert {name other : String} {names : List String} :
    other ∈ insert name names ↔ other = name ∨ other ∈ names := by
  induction names with
  | nil => simp [insert]
  | cons first names ih =>
      unfold insert
      split
      · simp
      · split
        · next heq =>
            subst heq
            simp
        · simp only [List.mem_cons, ih]
          tauto

theorem mem_ofList {name : String} {names : List String} : name ∈ ofList names ↔ name ∈ names := by
  induction names with
  | nil => simp [ofList]
  | cons first names ih =>
      show name ∈ insert first (ofList names) ↔ _
      rw [mem_insert, ih, List.mem_cons]

theorem insert_pairwise {name : String} {names : List String} (h : names.Pairwise (· < ·)) :
    (insert name names).Pairwise (· < ·) := by
  induction names with
  | nil => simp [insert]
  | cons first names ih =>
      obtain ⟨hfirst, hnames⟩ := List.pairwise_cons.1 h
      unfold insert
      split
      · next hlt =>
          refine List.pairwise_cons.2 ⟨?_, h⟩
          intro other hother
          rcases List.mem_cons.1 hother with rfl | hother
          · exact hlt
          · exact hlt.trans (hfirst other hother)
      · next hnotlt =>
          split
          · exact h
          · next hne =>
              refine List.pairwise_cons.2 ⟨?_, ih hnames⟩
              intro other hother
              rcases mem_insert.1 hother with rfl | hother
              · exact lt_of_le_of_ne (not_lt.1 hnotlt) (Ne.symm hne)
              · exact hfirst other hother

theorem ofList_pairwise (names : List String) : (ofList names).Pairwise (· < ·) := by
  induction names with
  | nil => exact List.Pairwise.nil
  | cons first names ih => exact insert_pairwise ih

theorem ofList_eq_iff {names others : List String} :
    ofList names = ofList others ↔ ∀ name, name ∈ names ↔ name ∈ others := by
  constructor
  · intro heq name
    rw [← mem_ofList, heq, mem_ofList]
  · intro h
    have hnodup := fun l => (ofList_pairwise l).imp (fun hlt => ne_of_lt hlt)
    have hperm : (ofList names).Perm (ofList others) := by
      refine (List.perm_ext_iff_of_nodup (hnodup names) (hnodup others)).2 ?_
      intro name
      rw [mem_ofList, mem_ofList, h]
    exact hperm.eq_of_pairwise (fun a b _ _ hab hba => absurd hba (lt_asymm hab))
      (ofList_pairwise names) (ofList_pairwise others)

theorem diff_isEmpty {names others : List String} :
    (diff names others).isEmpty = true ↔ ∀ name ∈ names, name ∈ others := by
  simp [diff, List.filter_eq_nil_iff]

/-! ## Names in falling order -/

/-- Two descending lists with the same elements of a kind begin with the same one. -/
theorem find?_eq_of_descending {p : String → Bool} {first again : List String}
    (hfirst : first.Pairwise fun a b => b ≤ a) (hagain : again.Pairwise fun a b => b ≤ a)
    (hmem : ∀ a, p a = true → (a ∈ again ↔ a ∈ first)) : again.find? p = first.find? p := by
  have hfiltered : ∀ a, a ∈ again.filter p ↔ a ∈ first.filter p := by
    intro a
    simp only [List.mem_filter]
    exact and_congr_left fun ha => hmem a ha
  have hfirst' := hfirst.filter p
  have hagain' := hagain.filter p
  rw [← List.head?_filter, ← List.head?_filter]
  cases hlist : first.filter p with
  | nil =>
      rw [hlist] at hfiltered
      have hempty : again.filter p = [] :=
        List.eq_nil_iff_forall_not_mem.2 fun a ha => by simpa using (hfiltered a).1 ha
      rw [hempty]
  | cons a rest =>
      cases hlist' : again.filter p with
      | nil =>
          rw [hlist, hlist'] at hfiltered
          simpa using (hfiltered a).2 (by simp)
      | cons b rest' =>
          rw [hlist, hlist'] at hfiltered
          rw [hlist, List.pairwise_cons] at hfirst'
          rw [hlist', List.pairwise_cons] at hagain'
          -- each of the two is an element of the other list
          have hb : b = a ∨ b ≤ a :=
            (List.mem_cons.1 ((hfiltered b).1 (by simp))).imp_right (hfirst'.1 b)
          have ha : a = b ∨ a ≤ b :=
            (List.mem_cons.1 ((hfiltered a).2 (by simp))).imp_right (hagain'.1 a)
          rcases hb with rfl | hba
          · rfl
          · rcases ha with rfl | hab
            · rfl
            · rw [String.le_antisymm hab hba]
              rfl

theorem sort_pairwise (names : List String) :
    (Names.sort names).Pairwise fun a b => (!decide (b < a)) = true := by
  have htrans : ∀ a b c : String, (!decide (b < a)) = true → (!decide (c < b)) = true →
      (!decide (c < a)) = true := by
    intro a b c hab hbc
    simp only [Bool.not_eq_true', decide_eq_false_iff_not, String.not_lt] at hab hbc ⊢
    exact String.le_trans hab hbc
  have htotal : ∀ a b : String, (!decide (b < a) || !decide (a < b)) = true := by
    intro a b
    simp only [Bool.or_eq_true, Bool.not_eq_true', decide_eq_false_iff_not, String.not_lt]
    exact String.le_total a b
  exact List.pairwise_mergeSort htrans htotal names

theorem sort_sort (names : List String) : Names.sort (Names.sort names) = Names.sort names :=
  List.mergeSort_of_pairwise (sort_pairwise names)

theorem sort_reverse_pairwise (names : List String) :
    (Names.sort names).reverse.Pairwise fun a b => b ≤ a := by
  rw [List.pairwise_reverse]
  refine (sort_pairwise names).imp ?_
  intro a b hab
  simpa only [Bool.not_eq_true', decide_eq_false_iff_not, String.not_lt] using hab

/-! ## Numbers in names -/

theorem toString_injective : Function.Injective (toString : Nat → String) := by
  intro m n heq
  have htext := congrArg String.toList heq
  rw [Nat.toString_eq_repr, Nat.toString_eq_repr, Nat.toList_repr, Nat.toList_repr] at htext
  have hvalue := congrArg (Nat.ofDigitChars 10 · 0) htext
  simpa only [Nat.ofDigitChars_toDigits (by decide : 1 < 10) (Nat.le_refl 10)] using hvalue

end ScriptSplit.Names
