import ScriptSplit.Proofs.Source.Brace
import ScriptSplit.Proofs.Text.Lines

/-!
# Balanced pieces

At the end of a balanced span the lexer remembers nothing but the quote of the last string, which only counts within a
string. So it goes on as one that starts there, and balanced spans can be put together and taken apart. What follows a
balanced span does not count either, because its last character is not read together with the next one.
-/

namespace ScriptSplit

namespace Lexer

/-! ## States that cannot be told apart -/

/-- Two states that differ at most in the quote of a string that has ended. -/
structure State.Agrees (s t : State) : Prop where
  mode : s.mode = t.mode
  depth : s.depth = t.depth
  wentNegative : s.wentNegative = t.wentNegative
  saved : s.saved = t.saved
  quote : s.mode = .string → s.quote = t.quote

namespace State.Agrees

variable {s t : State}

theorem takesPair (h : Agrees s t) (c : Char) (next : Option Char) : s.takesPair c next = t.takesPair c next := by
  unfold State.takesPair
  rw [h.mode]

theorem balanced (h : Agrees s t) : s.balanced = t.balanced := by
  unfold State.balanced
  rw [h.mode, h.depth, h.wentNegative, h.saved]

theorem close (h : Agrees s t) (hmode : s.mode ≠ .string) : Agrees s.close t.close := by
  obtain ⟨mode, depth, negative, quote, saved⟩ := s
  obtain ⟨_, _, _, quote', _⟩ := t
  obtain ⟨rfl, rfl, rfl, rfl, -⟩ := h
  cases saved with
  | nil => exact ⟨rfl, rfl, rfl, rfl, fun hstring => absurd hstring hmode⟩
  | cons outer saved =>
      unfold State.close
      by_cases hdepth : depth = 0
      · simp only [hdepth, if_true]
        exact ⟨rfl, rfl, rfl, rfl, nofun⟩
      · simp only [hdepth, if_false]
        exact ⟨rfl, rfl, rfl, rfl, fun hstring => absurd hstring hmode⟩

theorem after (h : Agrees s t) (c : Char) (next : Option Char) : Agrees (s.after c next) (t.after c next) := by
  have hclose := h.close
  obtain ⟨mode, depth, negative, quote, saved⟩ := s
  obtain ⟨_, _, _, quote', _⟩ := t
  obtain ⟨rfl, rfl, rfl, rfl, hquote⟩ := h
  cases mode with
  | string =>
      obtain rfl : quote = quote' := hquote rfl
      simp only [State.after]
      split_ifs <;> exact ⟨rfl, rfl, rfl, rfl, fun _ => rfl⟩
  | code =>
      by_cases hbrace : c = '}'
      · subst hbrace
        exact hclose nofun
      · simp only [State.after, beq_iff_eq, hbrace, if_false]
        split_ifs <;> exact ⟨rfl, rfl, rfl, rfl, by simp⟩
  | lineComment | blockComment | template =>
      simp only [State.after]
      split_ifs <;> exact ⟨rfl, rfl, rfl, rfl, nofun⟩

/-- Where nothing is open, a state cannot be told from the one before anything is read. -/
theorem of_balanced (h : s.balanced = true) : Agrees s .initial := by
  obtain ⟨mode, depth, negative, quote, saved⟩ := s
  simp only [State.balanced, Bool.and_eq_true, beq_iff_eq, List.isEmpty_iff, Bool.not_eq_true'] at h
  obtain ⟨⟨⟨rfl, rfl⟩, rfl⟩, rfl⟩ := h
  exact ⟨rfl, rfl, rfl, rfl, fun hstring => by cases hstring⟩

end State.Agrees

structure Agrees (lexer other : Lexer) : Prop where
  state : lexer.toState.Agrees other.toState
  pos : lexer.pos = other.pos
  rest : lexer.rest = other.rest

variable {lexer other : Lexer} {target : Nat}

theorem Agrees.step (h : Agrees lexer other) : Agrees lexer.step other.step := by
  obtain ⟨state, pos, rest⟩ := lexer
  obtain ⟨state', _, _⟩ := other
  obtain ⟨hstate, rfl, rfl⟩ := h
  cases rest with
  | nil => exact ⟨hstate, rfl, rfl⟩
  | cons c rest =>
      rw [step_cons, step_cons]
      exact ⟨hstate.after c _, by rw [hstate.takesPair], by rw [hstate.takesPair]⟩

theorem Agrees.advanceTo (h : Agrees lexer other) (target : Nat) :
    Agrees (lexer.advanceTo target) (other.advanceTo target) := by
  fun_induction Lexer.advanceTo lexer target generalizing other with
  | case1 lexer hon hshorter ih =>
      have hother : other.advanceTo target = other.step.advanceTo target :=
        advanceTo_step (h.pos ▸ hon.1) (h.rest ▸ hon.2)
      rw [hother]
      exact ih h.step
  | case2 lexer hdone =>
      rw [h.pos, h.rest] at hdone
      unfold Lexer.advanceTo
      rwa [dif_neg hdone]

/-! ## The end of a piece -/

theorem State.after_of_single {s : State} {c : Char} {next : Option Char} (h : s.takesPair c next = false) :
    s.takesPair c none = false ∧ s.after c next = s.after c none := by
  obtain ⟨mode, depth, negative, quote, saved⟩ := s
  cases mode <;> simp only [takesPair, after] at h ⊢ <;> grind

def cut (lexer : Lexer) (stop : Nat) : Lexer :=
  { lexer with rest := lexer.rest.take (stop - lexer.pos) }

/-- A step that stays within the text does not see where the text ends. -/
theorem step_cut (hon : lexer.pos < target) (hstep : lexer.step.pos ≤ target) :
    (lexer.cut target).step = lexer.step.cut target := by
  obtain ⟨state, pos, rest⟩ := lexer
  cases rest with
  | nil => simp [cut, step]
  | cons c rest =>
      obtain ⟨n, rfl⟩ : ∃ n, target = pos + n + 1 := Nat.exists_eq_add_of_lt hon
      have hcut : cut ⟨state, pos, c :: rest⟩ (pos + n + 1) = ⟨state, pos, c :: rest.take n⟩ := by
        rw [cut, Nat.add_assoc, Nat.add_sub_cancel_left, List.take_succ_cons]
      have hsame : state.takesPair c (rest.take n).head? = state.takesPair c rest.head? ∧
          state.after c (rest.take n).head? = state.after c rest.head? := by
        cases n with
        | zero =>
            have hsingle : state.takesPair c rest.head? = false := by
              by_contra hpair
              rw [step_cons, if_pos (Bool.eq_true_of_not_eq_false hpair)] at hstep
              simp only at hstep
              omega
            obtain ⟨hend, hlast⟩ := State.after_of_single hsingle
            exact ⟨hend.trans hsingle.symm, hlast.symm⟩
        | succ n => cases rest <;> exact ⟨rfl, rfl⟩
      rw [hcut, step_cons, step_cons, hsame.1, hsame.2, cut]
      split
      · have hleft : pos + n + 1 - (pos + 2) = n - 1 := by omega
        simp only [hleft, List.drop_take]
      · have hleft : pos + n + 1 - (pos + 1) = n := by omega
        simp only [hleft]

theorem pos_le_pos_advanceTo (lexer : Lexer) (target : Nat) : lexer.pos ≤ (lexer.advanceTo target).pos := by
  fun_induction Lexer.advanceTo lexer target with
  | case1 lexer hon hshorter ih => exact (pos_lt_pos_step hon.2).le.trans ih
  | case2 lexer hdone => exact le_refl _

/-- A lexer that stops where the text ends does not see that it ends there. -/
theorem advanceTo_cut (hstop : (lexer.advanceTo target).pos = target) :
    (lexer.cut target).advanceTo target = (lexer.advanceTo target).cut target := by
  fun_induction Lexer.advanceTo lexer target with
  | case1 lexer hon hshorter ih =>
      have hrest : (lexer.cut target).rest ≠ [] := by
        simpa [cut, hon.2, Nat.sub_eq_zero_iff_le] using hon.1
      have hstep : lexer.step.pos ≤ target := (pos_le_pos_advanceTo _ _).trans hstop.le
      rw [advanceTo_step (show (lexer.cut target).pos < target from hon.1) hrest, step_cut hon.1 hstep, ih hstop]
  | case2 lexer hdone => exact advanceTo_of_le hstop.ge

end Lexer

open Lexer

variable {text : Text} {a b c : Nat}

theorem start_le_of_isBalanced (h : isBalanced text a b = true) : a ≤ b :=
  (pos_le_pos_advanceTo (start text a) b).trans (stop_of_isBalanced h).1.le

/-- Behind a balanced span everything is as at the start of a text. -/
theorem isBalanced_behind (h : isBalanced text a b = true) (hbehind : b ≤ c) :
    isBalanced text a c = isBalanced text b c := by
  obtain ⟨hpos, hbalanced⟩ := stop_of_isBalanced h
  have hagrees : ((start text a).advanceTo b).Agrees (start text b) := {
    state := .of_balanced hbalanced
    pos := hpos
    rest := by rw [rest_advanceTo rfl, hpos]; rfl }
  have hon := hagrees.advanceTo c
  rw [advanceTo_advanceTo _ hbehind] at hon
  unfold isBalanced
  simp only [hon.pos, hon.state.balanced]

theorem isBalanced_slice (hstop : b ≤ text.length) (h : isBalanced text a b = true) :
    isBalanced (text.slice a b) 0 (b - a) = true := by
  obtain ⟨hpos, hbalanced⟩ := stop_of_isBalanced h
  have hstart : a ≤ b := start_le_of_isBalanced h
  have hlength : (text.slice a b).length = b - a := Text.length_slice hstop
  have hpiece : (start text a).cut b = ⟨.initial, a, text.slice a b⟩ := by
    rw [Text.slice, List.drop_take]
    rfl
  have hcut := advanceTo_cut hpos
  rw [hpiece] at hcut
  have hend : a + (text.slice a b).length = b := by omega
  rw [← hlength, isBalanced_iff_read]
  refine ⟨_, (advanceTo_end ⟨.initial, a, text.slice a b⟩ hend _).1 ⟨?_, rfl⟩, ?_⟩
  · rwa [hcut]
  · rwa [hcut]

/-- Balanced spans can be put together and taken apart, and each of them is balanced by itself as well. -/
theorem balanced_spans_compose (text : Text) {a b : Nat} (hstop : b ≤ text.length)
    (hbalanced : isBalanced text a b = true) :
    (∀ c, b ≤ c → (isBalanced text a c = true ↔ isBalanced text b c = true)) ∧
      isBalanced (text.slice a b) 0 (b - a) = true :=
  ⟨fun c hbehind => by rw [isBalanced_behind hbalanced hbehind], isBalanced_slice hstop hbalanced⟩

/-- A statement with a brace in a string, one with a brace in a template, and a comment that never ends. -/
def threePieces : Text :=
  "f('\x7b');g(\x60$\x7bh\x7d\x60)//".toList

theorem balanced_spans_compose_pieces :
    7 ≤ threePieces.length ∧ isBalanced threePieces 0 7 = true ∧
      (isBalanced threePieces 0 16 = true ∧ isBalanced threePieces 7 16 = true) ∧
      (isBalanced threePieces 0 17 = false ∧ isBalanced threePieces 7 17 = false) ∧
      isBalanced (threePieces.slice 0 7) 0 7 = true := by
  have hlength : 7 ≤ threePieces.length := by decide
  have hfirst : isBalanced threePieces 0 7 = true := by decide +kernel
  obtain ⟨hcompose, halone⟩ := balanced_spans_compose threePieces hlength hfirst
  have hboth : isBalanced threePieces 0 16 = true := by decide +kernel
  have hhalf : isBalanced threePieces 0 17 = false := by decide +kernel
  have hopen := mt (hcompose 17 (by decide)).2 (Bool.eq_false_iff.1 hhalf)
  exact ⟨hlength, hfirst, ⟨hboth, (hcompose 16 (by decide)).1 hboth⟩,
    ⟨hhalf, Bool.eq_false_iff.2 hopen⟩, halone⟩

end ScriptSplit
