import Mathlib
import ScriptSplit.Source.Balance

/-!
# How the lexer reads a text

What the lexer remembers at the end of a text depends on its state at the start and on the text alone. A
lexer that is stopped on the way and goes on comes to the same point as one that is not.
-/

namespace ScriptSplit

namespace Lexer

/-- What is remembered after a whole text; nothing if an escape at its end takes one character too many. -/
def State.read (s : State) : Text → Option State
  | [] => some s
  | [c] => if s.takesPair c none then none else some (s.after c none)
  | c :: next :: rest =>
    if s.takesPair c (some next) then (s.after c (some next)).read rest
    else (s.after c (some next)).read (next :: rest)

theorem State.read_single {s : State} {c : Char} {rest : Text}
    (h : s.takesPair c rest.head? = false) : s.read (c :: rest) = (s.after c rest.head?).read rest := by
  cases rest with
  | nil =>
      rw [List.head?_nil] at h
      simp [State.read, h]
  | cons next rest =>
      rw [List.head?_cons] at h
      simp [State.read, h]

theorem State.read_pair {s : State} {c next : Char} (rest : Text)
    (h : s.takesPair c (some next) = true) :
    s.read (c :: next :: rest) = (s.after c (some next)).read rest := by
  simp [State.read, h]

/-! ## Stopping on the way -/

theorem advanceTo_of_le {lexer : Lexer} {target : Nat} (h : target ≤ lexer.pos) :
    lexer.advanceTo target = lexer := by
  unfold advanceTo
  rw [dif_neg (by omega)]

theorem advanceTo_of_rest {lexer : Lexer} (h : lexer.rest = []) (target : Nat) :
    lexer.advanceTo target = lexer := by
  unfold advanceTo
  rw [dif_neg (by simp [h])]

theorem advanceTo_step {lexer : Lexer} {target : Nat} (hpos : lexer.pos < target)
    (hrest : lexer.rest ≠ []) : lexer.advanceTo target = lexer.step.advanceTo target := by
  rw [advanceTo, dif_pos ⟨hpos, hrest⟩]

theorem step_single {lexer : Lexer} {c : Char} {rest : Text} (h : lexer.rest = c :: rest)
    (hpair : lexer.toState.takesPair c rest.head? = false) :
    lexer.step = { toState := lexer.toState.after c rest.head?, pos := lexer.pos + 1, rest } := by
  rw [step, h]
  simp [hpair]

theorem step_pair {lexer : Lexer} {c next : Char} {rest : Text} (h : lexer.rest = c :: next :: rest)
    (hpair : lexer.toState.takesPair c (some next) = true) :
    lexer.step = { toState := lexer.toState.after c (some next), pos := lexer.pos + 2, rest } := by
  rw [step, h]
  simp [hpair]

/-- A stop on the way makes no difference. -/
theorem advanceTo_advanceTo (lexer : Lexer) {first second : Nat} (h : first ≤ second) :
    (lexer.advanceTo first).advanceTo second = lexer.advanceTo second := by
  fun_induction advanceTo lexer first with
  | case1 lexer hon hshorter ih =>
      rw [ih, advanceTo_step (hon.1.trans_le h) hon.2]
  | case2 lexer hdone => rfl

/-! ## The end of the text -/

/-- The lexer stops at the end of its text exactly if the text can be read. -/
theorem advanceTo_end (lexer : Lexer) {stop : Nat} (hstop : lexer.pos + lexer.rest.length = stop)
    (s : State) :
    ((lexer.advanceTo stop).pos = stop ∧ (lexer.advanceTo stop).toState = s) ↔
      lexer.toState.read lexer.rest = some s := by
  fun_induction advanceTo lexer stop with
  | case2 lexer hdone =>
      have hrest : lexer.rest = [] := by
        by_contra hne
        have hlength := List.length_pos_iff.2 hne
        exact hdone ⟨by omega, hne⟩
      rw [hrest, List.length_nil, Nat.add_zero] at hstop
      simp [hrest, hstop, State.read]
  | case1 lexer hon hshorter ih =>
      obtain ⟨state, pos, rest⟩ := lexer
      obtain ⟨c, rest, rfl⟩ := List.exists_cons_of_ne_nil hon.2
      have hlength : pos + (rest.length + 1) = stop := hstop
      by_cases hpair : state.takesPair c rest.head? = true
      · cases rest with
        | nil =>
            -- The escape takes the lexer past the end.
            have hstep : step ⟨state, pos, [c]⟩ = ⟨state.after c none, pos + 2, []⟩ := by
              simp_all [step]
            have hnone : state.read [c] = none := by
              simp_all [State.read]
            rw [hstep, advanceTo_of_rest rfl, hnone]
            simp only [reduceCtorEq, iff_false, not_and]
            rw [List.length_nil] at hlength
            omega
        | cons next rest =>
            have hstep : step ⟨state, pos, c :: next :: rest⟩ =
                ⟨state.after c (some next), pos + 2, rest⟩ := by
              simp_all [step]
            rw [hstep] at ih ⊢
            rw [State.read_pair rest hpair]
            exact ih (by rw [List.length_cons] at hlength; simp only; omega)
      · have hstep : step ⟨state, pos, c :: rest⟩ =
            ⟨state.after c rest.head?, pos + 1, rest⟩ := by
          simp_all [step]
        rw [hstep] at ih ⊢
        rw [State.read_single (Bool.eq_false_of_not_eq_true hpair)]
        exact ih (by simp only; omega)

theorem isBalanced_iff_read (text : Text) :
    isBalanced text 0 text.length = true ↔
      ∃ s, State.initial.read text = some s ∧ s.balanced = true := by
  have hend := advanceTo_end (start text 0) (by simp [start] : 0 + _ = text.length)
  simp only [isBalanced, Bool.and_eq_true, beq_iff_eq]
  constructor
  · rintro ⟨hpos, hbalanced⟩
    exact ⟨_, (hend _).1 ⟨hpos, rfl⟩, hbalanced⟩
  · rintro ⟨s, hread, hbalanced⟩
    obtain ⟨hpos, rfl⟩ := (hend s).2 hread
    exact ⟨hpos, hbalanced⟩

end Lexer

end ScriptSplit
