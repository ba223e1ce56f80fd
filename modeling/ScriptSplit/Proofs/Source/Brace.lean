import ScriptSplit.Proofs.Source.Ends

/-!
# Braces that match

A lexer that starts on an opening brace reads what follows as one that starts behind the brace does, one level
deeper, until the second one meets a closing brace that nothing has opened. There the first one is balanced for
the first time. So the first balanced end behind an opening brace is the one of the brace that closes it.
-/

namespace ScriptSplit

namespace Lexer

open Source (Sound)

/-! ## One level deeper -/

/-- A depth within interpolations that were entered at the depths `saved`, where one more brace was opened before
everything else: only the outermost depth tells. -/
def deeper (depth : Int) (saved : List Int) : Int :=
  if saved.isEmpty then depth + 1 else depth

def allDeeper : List Int → List Int
  | [] => []
  | depth :: saved => deeper depth saved :: allDeeper saved

def State.braced (s : State) : State :=
  { s with depth := deeper s.depth s.saved, saved := allDeeper s.saved }

theorem deeper_succ (depth : Int) (saved : List Int) : deeper (depth + 1) saved = deeper depth saved + 1 := by
  unfold deeper
  split <;> rfl

theorem State.close_braced {s : State} (h : s.close.wentNegative = false) :
    s.braced.close = s.close.braced := by
  obtain ⟨mode, depth, negative, quote, saved⟩ := s
  cases saved with
  | nil =>
      simp only [close, Bool.or_eq_false_iff, decide_eq_false_iff_not] at h
      have hdepth : 0 ≤ depth := by omega
      simp [braced, close, allDeeper, deeper, h, hdepth]
  | cons outer saved =>
      by_cases hzero : depth = 0 <;> simp [braced, close, allDeeper, deeper, hzero]

/-- Within one more brace the same characters are read in the same way, unless one closes that brace. -/
theorem State.after_braced {s : State} {c : Char} {next : Option Char}
    (h : (s.after c next).wentNegative = false) : s.braced.after c next = (s.after c next).braced := by
  unfold after at h ⊢
  rw [show s.braced.mode = s.mode from rfl, show s.braced.quote = s.quote from rfl]
  cases hmode : s.mode with
  | lineComment => simp only; split <;> rfl
  | blockComment => simp only; split <;> rfl
  | string => simp only; split_ifs <;> rfl
  | template => simp only; split_ifs <;> rfl
  | code =>
      rw [hmode] at h
      by_cases hclose : c = '}'
      · subst hclose
        exact close_braced h
      by_cases hopen : c = '{'
      · subst hopen
        have hdepth := deeper_succ s.depth s.saved
        simp [braced, hdepth]
      · simp only [beq_iff_eq, hclose, hopen, if_false]
        split_ifs <;> rfl

/-- What was opened before everything else is still open. -/
theorem State.not_balanced_braced {s : State} (h : Sound s) : s.braced.balanced = false := by
  obtain ⟨mode, depth, negative, quote, saved⟩ := s
  have hdepth : 0 ≤ depth := h.1
  cases saved with
  | nil =>
      have hopen : depth + 1 ≠ 0 := by omega
      simp [braced, balanced, deeper, hopen]
  | cons outer saved => simp [braced, balanced, allDeeper]

theorem State.after_brace {s : State} (h : s.balanced = true) (next : Option Char) :
    s.braced.takesPair '}' next = false ∧ (s.braced.after '}' next).balanced = true := by
  obtain ⟨mode, depth, negative, quote, saved⟩ := s
  simp only [balanced, Bool.and_eq_true, beq_iff_eq, List.isEmpty_iff, Bool.not_eq_true'] at h
  obtain ⟨⟨⟨rfl, rfl⟩, rfl⟩, rfl⟩ := h
  exact ⟨rfl, rfl⟩

/-- Only a closing brace takes the depth below zero, and only where nothing is open. -/
theorem State.balanced_of_closed {s : State} {c : Char} {next : Option Char} (hsound : Sound s)
    (h : s.wentNegative = false) (hafter : (s.after c next).wentNegative = true) :
    s.balanced = true ∧ c = '}' := by
  obtain ⟨mode, depth, negative, quote, saved⟩ := s
  obtain rfl : negative = false := h
  have hdepth : 0 ≤ depth := hsound.1
  cases mode <;> simp only [after] at hafter <;> split_ifs at hafter
  next hbrace =>
    cases saved with
    | nil =>
        simp only [close, Bool.false_or, decide_eq_true_eq] at hafter
        have hzero : depth = 0 := by omega
        exact ⟨by simp [balanced, hzero], by simpa using hbrace⟩
    | cons outer saved =>
        by_cases hzero : depth = 0
        · simp [close, hzero] at hafter
        · simp only [close, hzero, if_false, Bool.false_or, decide_eq_true_eq] at hafter
          omega

/-! ## Two lexers -/

variable {text : Text} {lexer : Lexer} {target : Nat}

def braced (lexer : Lexer) : Lexer :=
  { lexer with toState := lexer.toState.braced }

theorem step_braced (h : lexer.step.wentNegative = false) : lexer.braced.step = lexer.step.braced := by
  obtain ⟨state, pos, rest⟩ := lexer
  cases rest with
  | nil => rfl
  | cons c rest =>
      rw [step_cons] at h
      rw [braced, step_cons, step_cons, State.after_braced h]
      rfl

theorem wentNegative_eq_false_of_advanceTo (h : (lexer.advanceTo target).wentNegative = false) :
    lexer.wentNegative = false := by
  rw [← Bool.not_eq_true]
  intro hnegative
  rw [wentNegative_advanceTo hnegative] at h
  cases h

/-- The two lexers go on together until the brace is closed. -/
theorem advanceTo_braced (h : (lexer.advanceTo target).wentNegative = false) :
    lexer.braced.advanceTo target = (lexer.advanceTo target).braced := by
  fun_induction advanceTo lexer target with
  | case1 lexer hon hshorter ih =>
      rw [advanceTo_step (show lexer.braced.pos < target from hon.1) hon.2,
        step_braced (wentNegative_eq_false_of_advanceTo h), ih h]
  | case2 lexer hdone =>
      unfold advanceTo
      exact dif_neg hdone

theorem sound_step (hsound : Sound lexer.toState) (h : lexer.step.wentNegative = false) :
    Sound lexer.step.toState := by
  obtain ⟨state, pos, rest⟩ := lexer
  cases rest with
  | nil => exact hsound
  | cons c rest =>
      rw [step_cons] at h ⊢
      exact hsound.after c _ h

theorem sound_advanceTo (hsound : Sound lexer.toState) (h : (lexer.advanceTo target).wentNegative = false) :
    Sound (lexer.advanceTo target).toState := by
  fun_induction advanceTo lexer target with
  | case1 lexer hon hshorter ih =>
      exact ih (sound_step hsound (wentNegative_eq_false_of_advanceTo h)) h
  | case2 lexer hdone => exact hsound

theorem pos_lt_pos_step (h : lexer.rest ≠ []) : lexer.pos < lexer.step.pos := by
  obtain ⟨state, pos, rest⟩ := lexer
  obtain ⟨c, rest, rfl⟩ := List.exists_cons_of_ne_nil h
  rw [step_cons]
  simp only
  split <;> omega

theorem exists_close (hsound : Sound lexer.toState) (h : lexer.wentNegative = false)
    (hnegative : (lexer.advanceTo target).wentNegative = true) :
    ∃ close, lexer.pos ≤ close ∧ close < target ∧ (lexer.advanceTo close).pos = close ∧
      (lexer.advanceTo close).balanced = true ∧ (lexer.advanceTo close).rest.head? = some '}' := by
  fun_induction advanceTo lexer target with
  | case1 lexer hon hshorter ih =>
      cases hstep : lexer.step.wentNegative with
      | true =>
          obtain ⟨state, pos, rest⟩ := lexer
          obtain ⟨c, rest, rfl⟩ := List.exists_cons_of_ne_nil hon.2
          rw [step_cons] at hstep
          obtain ⟨hbalanced, rfl⟩ := State.balanced_of_closed hsound h hstep
          refine ⟨pos, le_refl _, hon.1, ?_⟩
          rw [advanceTo_of_le (le_refl _)]
          exact ⟨rfl, hbalanced, rfl⟩
      | false =>
          obtain ⟨close, hpos, hclose, hends⟩ := ih (sound_step hsound hstep) hstep hnegative
          have hlater := (pos_lt_pos_step hon.2).trans_le hpos
          refine ⟨close, hlater.le, hclose, ?_⟩
          rwa [advanceTo_step hlater hon.2]
  | case2 lexer hdone =>
      rw [h] at hnegative
      cases hnegative

theorem rest_step (h : lexer.rest = text.drop lexer.pos) : lexer.step.rest = text.drop lexer.step.pos := by
  obtain ⟨state, pos, rest⟩ := lexer
  cases rest with
  | nil => exact h
  | cons c rest =>
      have hnext : rest = text.drop (pos + 1) := by
        rw [← List.drop_drop, ← h]
        rfl
      rw [step_cons]
      simp only
      split
      · rw [hnext, List.drop_drop]
      · exact hnext

theorem rest_advanceTo (h : lexer.rest = text.drop lexer.pos) (target : Nat) :
    (lexer.advanceTo target).rest = text.drop (lexer.advanceTo target).pos := by
  fun_induction advanceTo lexer target with
  | case1 lexer hon hshorter ih => exact ih (rest_step h)
  | case2 lexer hdone => exact h

theorem step_start {brace : Nat} (h : text[brace]? = some '{') :
    (start text brace).step = (start text (brace + 1)).braced := by
  have hrest : text.drop brace = '{' :: text.drop (brace + 1) := by
    obtain ⟨hlt, hget⟩ := List.getElem?_eq_some_iff.1 h
    rw [List.drop_eq_getElem_cons hlt, hget]
  rw [step_single hrest rfl]
  rfl

/-- A lexer with one brace open and nothing else is balanced just past the one that closes it. -/
theorem past_brace {rest : Text} (hrest : lexer.rest = '}' :: rest) (h : lexer.balanced = true) :
    (lexer.braced.advanceTo (lexer.pos + 1)).pos = lexer.pos + 1 ∧
      (lexer.braced.advanceTo (lexer.pos + 1)).balanced = true := by
  obtain ⟨hsingle, hclosed⟩ := State.after_brace h rest.head?
  have hstep : lexer.braced.step = _ := step_single hrest hsingle
  have hmore : lexer.braced.rest ≠ [] := hrest ▸ List.cons_ne_nil _ _
  have hbefore : lexer.braced.pos < lexer.pos + 1 := Nat.lt_succ_self lexer.pos
  have hdone : lexer.braced.step.advanceTo (lexer.pos + 1) = lexer.braced.step :=
    advanceTo_of_le (by rw [hstep]; exact le_refl _)
  rw [advanceTo_step hbefore hmore, hdone, hstep]
  exact ⟨rfl, hclosed⟩

end Lexer

/-! ## The first occurrence of a character -/

namespace Text

variable {text : Text} {c : Char} {pos found : Nat}

theorem find?_char (text : Text) (c : Char) : find? text [c] = text.findIdx? (· == c) := by
  induction text with
  | nil => rfl
  | cons d rest ih =>
      rw [find?, List.findIdx?_cons, ih]
      by_cases hd : d = c
      · simp [hd]
      · simp [hd, Ne.symm hd]

theorem findFrom?_char (text : Text) (c : Char) (pos : Nat) :
    findFrom? text [c] pos = ((text.drop pos).findIdx? (· == c)).map (· + pos) := by
  unfold findFrom?
  split
  · next hlength =>
      rw [List.drop_eq_nil_of_le hlength.le]
      rfl
  · rw [find?_char]

theorem findIdx?_char_eq_some_iff :
    text.findIdx? (· == c) = some found ↔ IsLeast {p | text[p]? = some c} found := by
  rw [List.findIdx?_eq_some_iff_getElem]
  constructor
  · rintro ⟨hlength, hchar, hbefore⟩
    refine ⟨?_, fun p hp => Nat.not_lt.1 fun hlt => hbefore p hlt ?_⟩
    · rw [Set.mem_ofPred_eq, List.getElem?_eq_getElem hlength, beq_iff_eq.1 hchar]
    · rw [(List.getElem?_eq_some_iff.1 hp).2, beq_iff_eq]
  · rintro ⟨hfound, hleast⟩
    obtain ⟨hlength, hchar⟩ := List.getElem?_eq_some_iff.1 hfound
    refine ⟨hlength, beq_iff_eq.2 hchar, fun p hlt hp => Nat.not_le.2 hlt (hleast ?_)⟩
    rw [Set.mem_ofPred_eq, List.getElem?_eq_getElem (hlt.trans hlength), beq_iff_eq.1 hp]

theorem findFrom?_char_eq_some_iff :
    findFrom? text [c] pos = some found ↔ IsLeast {p | pos ≤ p ∧ text[p]? = some c} found := by
  rw [findFrom?_char, Option.map_eq_some_iff]
  constructor
  · rintro ⟨n, hn, rfl⟩
    obtain ⟨hchar, hleast⟩ := findIdx?_char_eq_some_iff.1 hn
    rw [Set.mem_ofPred_eq, List.getElem?_drop] at hchar
    refine ⟨⟨Nat.le_add_left _ _, Nat.add_comm pos n ▸ hchar⟩, ?_⟩
    rintro p ⟨hpos, hp⟩
    obtain ⟨k, rfl⟩ := Nat.exists_eq_add_of_le hpos
    have hle : n ≤ k := hleast (by rwa [Set.mem_ofPred_eq, List.getElem?_drop])
    omega
  · rintro ⟨⟨hpos, hchar⟩, hleast⟩
    obtain ⟨n, rfl⟩ := Nat.exists_eq_add_of_le hpos
    refine ⟨n, findIdx?_char_eq_some_iff.2 ⟨?_, fun k hk => ?_⟩, Nat.add_comm n pos⟩
    · rwa [Set.mem_ofPred_eq, List.getElem?_drop]
    · rw [Set.mem_ofPred_eq, List.getElem?_drop] at hk
      have hle : pos + n ≤ pos + k := hleast ⟨Nat.le_add_right _ _, hk⟩
      omega

theorem findFrom?_char_eq_none (h : findFrom? text [c] pos = none) (p : Nat) :
    ¬ IsLeast {p | pos ≤ p ∧ text[p]? = some c} p := by
  rw [← findFrom?_char_eq_some_iff, h]
  exact nofun

end Text

/-! ## The matching brace -/

def IsFirstBrace (text : Text) (pos brace : Nat) : Prop :=
  IsLeast {p | pos ≤ p ∧ text[p]? = some '{'} brace

/-- The brace at `close` closes one at `brace`: what stands between them is balanced. -/
structure Closes (text : Text) (brace close : Nat) : Prop where
  lt : brace < close
  char : text[close]? = some '}'
  inside : isBalanced text (brace + 1) close = true

section Matching

variable {text : Text} {brace close stop pos : Nat}

open Lexer in
theorem advanceTo_brace (hbrace : text[brace]? = some '{') (hstop : brace < stop) :
    (start text brace).advanceTo stop = (start text (brace + 1)).braced.advanceTo stop := by
  have hrest : (start text brace).rest ≠ [] := by
    obtain ⟨hlt, -⟩ := List.getElem?_eq_some_iff.1 hbrace
    simpa [start] using hlt
  rw [advanceTo_step hstop hrest, step_start hbrace]

theorem sound_initial : Source.Sound (Lexer.start text pos).toState :=
  ⟨le_refl 0, by simp [Lexer.start, Lexer.State.initial]⟩

theorem stop_of_isBalanced (h : isBalanced text pos stop = true) :
    ((Lexer.start text pos).advanceTo stop).pos = stop ∧
      ((Lexer.start text pos).advanceTo stop).balanced = true := by
  simpa only [isBalanced, Bool.and_eq_true, beq_iff_eq] using h

theorem Closes.inner (h : Closes text brace close) :
    ((Lexer.start text (brace + 1)).advanceTo close).pos = close ∧
      ((Lexer.start text (brace + 1)).advanceTo close).balanced = true :=
  stop_of_isBalanced h.inside

theorem Closes.kept (h : Closes text brace close) :
    ((Lexer.start text (brace + 1)).advanceTo close).wentNegative = false := by
  rw [← Bool.not_eq_true]
  intro hnegative
  have hopen := Lexer.not_balanced_of_wentNegative hnegative
  rw [h.inner.2] at hopen
  cases hopen

/-- Up to the brace that closes it, an opening brace leaves the text open. -/
theorem Closes.not_balanced (h : Closes text brace close) (hbrace : text[brace]? = some '{')
    (hstart : brace < stop) (hstop : stop ≤ close) : isBalanced text brace stop = false := by
  have hkept : ((Lexer.start text (brace + 1)).advanceTo stop).wentNegative = false := by
    refine @Lexer.wentNegative_eq_false_of_advanceTo _ close ?_
    rw [Lexer.advanceTo_advanceTo _ hstop]
    exact h.kept
  have hsound := Lexer.sound_advanceTo sound_initial hkept
  rw [isBalanced, advanceTo_brace hbrace hstart, Lexer.advanceTo_braced hkept]
  simp [Lexer.braced, Lexer.State.not_balanced_braced hsound]

/-- Just past the brace that closes it, nothing of an opening brace is open. -/
theorem Closes.balanced (h : Closes text brace close) (hbrace : text[brace]? = some '{') :
    isBalanced text brace (close + 1) = true := by
  obtain ⟨hpos, hbalanced⟩ := h.inner
  have hrest : ((Lexer.start text (brace + 1)).advanceTo close).rest = '}' :: text.drop (close + 1) := by
    obtain ⟨hlt, hget⟩ := List.getElem?_eq_some_iff.1 h.char
    rw [Lexer.rest_advanceTo rfl, hpos, List.drop_eq_getElem_cons hlt, hget]
  have hlt := h.lt
  rw [isBalanced, advanceTo_brace hbrace (by omega), ← Lexer.advanceTo_advanceTo _ (Nat.le_add_right close 1),
    Lexer.advanceTo_braced h.kept]
  obtain ⟨hend, hclosed⟩ := Lexer.past_brace hrest hbalanced
  rw [hpos] at hend hclosed
  rw [hend, hclosed, beq_self_eq_true, Bool.and_true]

/-- The first balanced end behind an opening brace is the one of the brace that closes it. -/
theorem isLeast_balancedEnds_iff (hbrace : text[brace]? = some '{') :
    IsLeast (balancedEnds text brace (brace + 1) text.length) stop ↔
      ∃ close, Closes text brace close ∧ stop = close + 1 := by
  have hends {close : Nat} (h : Closes text brace close) :
      close + 1 ∈ balancedEnds text brace (brace + 1) text.length := by
    obtain ⟨hlt, -⟩ := List.getElem?_eq_some_iff.1 h.char
    exact ⟨Nat.succ_le_succ h.lt.le, by omega, h.balanced hbrace⟩
  constructor
  · rintro ⟨⟨hstart, hlimit, hbalanced⟩, hleast⟩
    have hnegative : ((Lexer.start text (brace + 1)).advanceTo stop).wentNegative = true := by
      rw [← Bool.not_eq_false]
      intro hkept
      have hsound := Lexer.sound_advanceTo sound_initial hkept
      rw [isBalanced, advanceTo_brace hbrace hstart, Lexer.advanceTo_braced hkept] at hbalanced
      simp [Lexer.braced, Lexer.State.not_balanced_braced hsound] at hbalanced
    obtain ⟨close, hpos, hclose, hat, hinside, hnext⟩ := Lexer.exists_close sound_initial rfl hnegative
    have hcloses : Closes text brace close :=
      { lt := hpos
        char := by rwa [Lexer.rest_advanceTo rfl, hat, List.head?_drop] at hnext
        inside := by simp [isBalanced, hat, hinside] }
    have hle : stop ≤ close + 1 := hleast (hends hcloses)
    exact ⟨close, hcloses, by omega⟩
  · rintro ⟨close, hcloses, rfl⟩
    refine ⟨hends hcloses, ?_⟩
    rintro e ⟨hstart, -, he⟩
    refine Nat.not_lt.1 fun hlt => ?_
    rw [hcloses.not_balanced hbrace hstart (Nat.le_of_lt_succ hlt)] at he
    cases he

def matchingEnds (text : Text) (pos : Nat) : Set Nat :=
  {stop | ∃ brace close, IsFirstBrace text pos brace ∧ Closes text brace close ∧ stop = close + 1}

theorem matchingBraceEnd_eq_some_iff :
    matchingBraceEnd text pos = some stop ↔ stop ∈ matchingEnds text pos := by
  cases hfind : text.findFrom? ['{'] pos with
  | none =>
      rw [matchingBraceEnd, hfind]
      constructor
      · exact nofun
      · rintro ⟨brace, -, hfirst, -⟩
        exact absurd hfirst (Text.findFrom?_char_eq_none hfind brace)
  | some brace =>
      have hfirst : IsFirstBrace text pos brace := Text.findFrom?_char_eq_some_iff.1 hfind
      rw [matchingBraceEnd, hfind]
      simp only
      rw [findBalancedEnd_eq_some_iff, isLeast_balancedEnds_iff hfirst.1.2]
      constructor
      · rintro ⟨close, hcloses, rfl⟩
        exact ⟨brace, close, hfirst, hcloses, rfl⟩
      · rintro ⟨other, close, hother, hcloses, rfl⟩
        obtain rfl := hother.unique hfirst
        exact ⟨close, hcloses, rfl⟩

theorem matchingBraceEnd_eq_none_iff :
    matchingBraceEnd text pos = none ↔ (∀ brace, ¬ IsFirstBrace text pos brace) ∨
      ∃ brace, IsFirstBrace text pos brace ∧ ∀ close, ¬ Closes text brace close := by
  rw [Option.eq_none_iff_forall_ne_some]
  constructor
  · intro hnone
    by_cases hbraces : ∃ brace, IsFirstBrace text pos brace
    · obtain ⟨brace, hfirst⟩ := hbraces
      exact Or.inr ⟨brace, hfirst, fun close hcloses =>
        hnone _ (matchingBraceEnd_eq_some_iff.2 ⟨brace, close, hfirst, hcloses, rfl⟩)⟩
    · exact Or.inl (not_exists.1 hbraces)
  · intro hcases stop hstop
    obtain ⟨brace, close, hfirst, hcloses, -⟩ := matchingBraceEnd_eq_some_iff.1 hstop
    rcases hcases with hnone | ⟨other, hother, hopen⟩
    · exact hnone brace hfirst
    · obtain rfl := hother.unique hfirst
      exact hopen close hcloses

end Matching

/-- The search for a matching brace finds exactly the end of the brace that closes the first opening one. It fails
only where there is no opening brace or none that closes it, and no two braces do. -/
theorem matchingBraceEnd_exact (text : Text) (pos : Nat) :
    (∀ stop, matchingBraceEnd text pos = some stop ↔
      ∃ brace close, IsFirstBrace text pos brace ∧ Closes text brace close ∧ stop = close + 1) ∧
    (matchingBraceEnd text pos = none ↔
      (∀ brace, ¬ IsFirstBrace text pos brace) ∨
        ∃ brace, IsFirstBrace text pos brace ∧ ∀ close, ¬ Closes text brace close) ∧
    (matchingEnds text pos).Subsingleton := by
  refine ⟨fun stop => matchingBraceEnd_eq_some_iff, matchingBraceEnd_eq_none_iff, ?_⟩
  intro stop hstop other hother
  rw [← matchingBraceEnd_eq_some_iff] at hstop hother
  exact Option.some.inj (hstop.symm.trans hother)

end ScriptSplit
