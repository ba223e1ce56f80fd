import ScriptSplit.Proofs.Source.Grammar
import ScriptSplit.Proofs.Source.Repair

/-!
# Where balanced spans end

A lexer that goes on from where it stopped comes to the same point as one that starts again. A single pass over
the offsets therefore finds the first end at which a span is balanced, and it may stop at a brace that was closed
too often, because no later end is balanced.
-/

namespace ScriptSplit

namespace Lexer

/-! ## Targets in any order -/

theorem advanceTo_done (lexer : Lexer) (target : Nat) :
    target ≤ (lexer.advanceTo target).pos ∨ (lexer.advanceTo target).rest = [] := by
  fun_induction advanceTo lexer target with
  | case1 lexer hon hshorter ih => exact ih
  | case2 lexer hdone =>
      by_cases hrest : lexer.rest = []
      · exact Or.inr hrest
      · exact Or.inl (Nat.not_lt.1 fun hpos => hdone ⟨hpos, hrest⟩)

theorem advanceTo_advanceTo_max (lexer : Lexer) (first second : Nat) :
    (lexer.advanceTo first).advanceTo second = lexer.advanceTo (max first second) := by
  rcases Nat.le_total first second with hle | hle
  · rw [advanceTo_advanceTo lexer hle, Nat.max_eq_right hle]
  · rw [Nat.max_eq_left hle]
    rcases lexer.advanceTo_done first with hpos | hrest
    · exact advanceTo_of_le (hle.trans hpos)
    · exact advanceTo_of_rest hrest second

theorem foldl_advanceTo (lexer : Lexer) (first : Nat) (targets : List Nat) :
    targets.foldl advanceTo (lexer.advanceTo first) = lexer.advanceTo (targets.foldl max first) := by
  induction targets generalizing first with
  | nil => rfl
  | cons target targets ih => rw [List.foldl_cons, List.foldl_cons, advanceTo_advanceTo_max, ih]

/-! ## Braces that were closed too often -/

/-- One or two characters are taken, but what is remembered of them is the same function of the first two. -/
theorem step_cons (state : State) (pos : Nat) (c : Char) (rest : Text) :
    step ⟨state, pos, c :: rest⟩ =
      { toState := state.after c rest.head?
        pos := pos + if state.takesPair c rest.head? then 2 else 1
        rest := if state.takesPair c rest.head? then rest.drop 1 else rest } := by
  simp only [step]
  split <;> rfl

theorem wentNegative_step {lexer : Lexer} (h : lexer.wentNegative = true) :
    lexer.step.wentNegative = true := by
  obtain ⟨state, pos, rest⟩ := lexer
  cases rest with
  | nil => exact h
  | cons c rest =>
      rw [step_cons]
      exact Source.wentNegative_after h c rest.head?

/-- A brace that was closed too often is not forgotten on the way. -/
theorem wentNegative_advanceTo {lexer : Lexer} (h : lexer.wentNegative = true) (target : Nat) :
    (lexer.advanceTo target).wentNegative = true := by
  fun_induction advanceTo lexer target with
  | case1 lexer hon hshorter ih => exact ih (wentNegative_step h)
  | case2 lexer hdone => exact h

theorem not_balanced_of_wentNegative {s : State} (h : s.wentNegative = true) : s.balanced = false := by
  simp [State.balanced, h]

/-! ## The first end -/

variable {text : Text} {start stop : Nat} {lexer : Lexer}

theorem firstBalanced_eq_find? (h : Repair.Scans text start stop lexer) (count : Nat) :
    lexer.firstBalanced stop count = (List.range' stop count).find? (isBalanced text start) := by
  induction count generalizing lexer stop with
  | zero => rfl
  | succ count ih =>
      unfold firstBalanced
      simp only [h.isBalanced]
      split
      · next hnegative =>
          -- the search ends here, and no end behind this one would do
          symm
          rw [List.find?_range'_eq_none]
          intro e hle hlt
          have hopen := wentNegative_advanceTo hnegative e
          rw [advanceTo_advanceTo lexer hle, h e hle] at hopen
          simp [isBalanced, not_balanced_of_wentNegative hopen]
      · rw [List.range'_succ, List.find?_cons, ih h.next]
        cases isBalanced text start stop <;> rfl

end Lexer

/-- The ends from `stop` up to `limit`, within the text, at which a span from `start` is balanced. -/
def balancedEnds (text : Text) (start stop limit : Nat) : Set Nat :=
  {e | stop ≤ e ∧ e ≤ min limit text.length ∧ isBalanced text start e = true}

section Ends

variable {text : Text} {start stop limit found : Nat}

theorem findBalancedEnd_eq_find? (text : Text) (start stop limit : Nat) :
    findBalancedEnd text start stop limit =
      (List.range' stop (min limit text.length + 1 - stop)).find? (isBalanced text start) :=
  Lexer.firstBalanced_eq_find? (fun _ _ => rfl) _

theorem findBalancedEnd_eq_some_iff :
    findBalancedEnd text start stop limit = some found ↔
      IsLeast (balancedEnds text start stop limit) found := by
  rw [findBalancedEnd_eq_find?, List.find?_range'_eq_some, List.mem_range'_1]
  constructor
  · rintro ⟨hbalanced, ⟨hle, hlt⟩, hfirst⟩
    refine ⟨⟨hle, by omega, hbalanced⟩, ?_⟩
    rintro e ⟨hstop, -, he⟩
    refine Nat.not_lt.1 fun hbefore => ?_
    have hopen := hfirst e hstop hbefore
    simp [he] at hopen
  · rintro ⟨⟨hle, hlimit, hbalanced⟩, hleast⟩
    refine ⟨hbalanced, ⟨hle, by omega⟩, fun e hstop hbefore => ?_⟩
    rw [Bool.not_eq_true', Bool.eq_false_iff]
    intro he
    have hnot := hleast ⟨hstop, by omega, he⟩
    omega

theorem findBalancedEnd_eq_none_iff :
    findBalancedEnd text start stop limit = none ↔ balancedEnds text start stop limit = ∅ := by
  rw [findBalancedEnd_eq_find?, List.find?_range'_eq_none, Set.eq_empty_iff_forall_notMem]
  constructor
  · rintro hnone e ⟨hle, hlimit, hbalanced⟩
    have hopen := hnone e hle (by omega)
    simp [hbalanced] at hopen
  · intro hempty e hle hlt
    rw [Bool.not_eq_true', Bool.eq_false_iff]
    exact fun hbalanced => hempty e ⟨hle, by omega, hbalanced⟩

end Ends

namespace Repair

/-- Without a check of the caller's, the search for a good end is the search for a balanced one. -/
theorem firstGoodEndFrom_eq_find? {text : Text} {start stop : Nat} {lexer : Lexer}
    (h : Scans text start stop lexer) (reported attempts count : Nat) :
    firstGoodEndFrom text start reported none lexer attempts stop count =
      (List.range' stop count).find? (isBalanced text start) := by
  induction count generalizing lexer stop with
  | zero => rfl
  | succ count ih =>
      unfold firstGoodEndFrom
      simp only [h.isBalanced]
      rw [List.range'_succ, List.find?_cons, ih h.next]
      cases isBalanced text start stop <;> rfl

end Repair

/-- Whatever targets a lexer was advanced to, it stands where one that goes to the farthest of them at once does.
So both searches, each in one pass, find exactly the least end at which the span is balanced: the one that ends at a
brace closed too often, and the one that does not. -/
theorem one_pass_finds_least (text : Text) (start : Nat) :
    (∀ targets : List Nat, targets.foldl Lexer.advanceTo (Lexer.start text start) =
      (Lexer.start text start).advanceTo (targets.max?.getD 0)) ∧
    ∀ stop limit,
      (∀ found, findBalancedEnd text start stop limit = some found ↔
        IsLeast (balancedEnds text start stop limit) found) ∧
      (findBalancedEnd text start stop limit = none ↔ balancedEnds text start stop limit = ∅) ∧
      Repair.firstGoodEnd text start stop (min limit text.length) none =
        findBalancedEnd text start stop limit := by
  refine ⟨fun targets => ?_, fun stop limit =>
    ⟨fun found => findBalancedEnd_eq_some_iff, findBalancedEnd_eq_none_iff, ?_⟩⟩
  · cases targets with
    | nil => exact (Lexer.advanceTo_of_le (Nat.zero_le _)).symm
    | cons first targets =>
        rw [List.max?_cons', Option.getD_some, List.foldl_cons, Lexer.foldl_advanceTo]
  · rw [findBalancedEnd_eq_find?]
    exact Repair.firstGoodEndFrom_eq_find? (fun _ _ => rfl) _ _ _

end ScriptSplit
