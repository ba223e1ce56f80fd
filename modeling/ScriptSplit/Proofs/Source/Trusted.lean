import ScriptSplit.Proofs.Source.Pieces

/-!
# Spans that are trusted

The end of a span that is good stays where it is, unless the span closes more braces than it opens, those in strings
and comments included. Then its start is pulled back, and the end is looked for from there. So it can happen that the end
of a balanced span is moved: where a brace was pulled in that is still open at the end of the span, and some later end
closes it or passes a check.
-/

namespace ScriptSplit

namespace Repair

variable {text : Text} {start stop limit : Nat} {check : Option Check}

/-! ## Spans that are kept -/

theorem firstGoodEnd_of_accepted (haccepted : accepted text check start stop = true) (hlimit : stop ≤ limit) :
    firstGoodEnd text start stop limit check = some stop := by
  obtain ⟨count, hcount⟩ : ∃ count, limit + 1 - stop = count + 1 := ⟨limit - stop, by omega⟩
  have hscans : Scans text start stop (Lexer.start text start) := fun _ _ => rfl
  unfold firstGoodEnd
  rw [hcount, firstGoodEndFrom.eq_def]
  simp only [hscans.isBalanced]
  rcases accepted_iff.1 haccepted with hbalanced | ⟨accepts, hcheck, hpasses⟩
  · rw [if_pos hbalanced]
  · obtain rfl : check = some accepts := hcheck
    simp [maxAttempts, atStatementEnd, hpasses]

/-- A start is pulled back only where the span closes more braces than it opens. -/
theorem pullBackStart_of_count_le
    (h : (text.slice start stop).count '\x7d' ≤ (text.slice start stop).count '\x7b') :
    pullBackStart text start stop = start := by
  unfold pullBackStart
  simp [Nat.sub_eq_zero_of_le h]

/-! ## Starts that are pulled back -/

/-- The start is pulled back to the opening brace at `p`: with it and those behind it the span opens as many braces as
it closes. -/
structure PullsBackTo (text : Text) (start stop p : Nat) : Prop where
  lt : p < start
  near : start ≤ p + lookbehind
  brace : text[p]? = some '\x7b'
  covered : (text.slice start stop).count '\x7d' =
    (text.slice start stop).count '\x7b' + (text.slice p start).count '\x7b'

theorem count_pos_of_brace {p : Nat} (hp : p < start) (hbrace : text[p]? = some '\x7b') :
    0 < (text.slice p start).count '\x7b' := by
  rw [List.count_pos_iff, Text.slice, List.drop_take, List.mem_iff_getElem?]
  refine ⟨0, ?_⟩
  rw [List.getElem?_take, if_pos (by omega), List.getElem?_drop, Nat.add_zero, hbrace]

def IsBraceBefore (text : Text) (low start need p : Nat) : Prop :=
  low ≤ p ∧ p < start ∧ text[p]? = some '\x7b' ∧ (text.slice p start).count '\x7b' = need

theorem isBraceBefore_succ {low need p : Nat} {c : Char} (hlow : low ≤ start) (hc : text[start]? = some c) :
    IsBraceBefore text low (start + 1) need p ↔ p = start ∧ c = '\x7b' ∧ need = 1 ∨
      IsBraceBefore text low start (need - [c].count '\x7b') p ∧ [c].count '\x7b' ≤ need := by
  have hcount {p : Nat} (hp : p ≤ start) :
      (text.slice p (start + 1)).count '\x7b' = (text.slice p start).count '\x7b' + [c].count '\x7b' := by
    rw [Text.slice_succ hp hc, List.count_append]
  constructor
  · rintro ⟨hle, hlt, hbrace, hneed⟩
    rw [hcount (Nat.le_of_lt_succ hlt)] at hneed
    rcases Nat.eq_or_lt_of_le (Nat.le_of_lt_succ hlt) with rfl | hearlier
    · obtain rfl := Option.some.inj (hc.symm.trans hbrace)
      rw [Text.slice_self] at hneed
      exact Or.inl ⟨rfl, rfl, hneed.symm⟩
    · exact Or.inr ⟨⟨hle, hearlier, hbrace, by omega⟩, by omega⟩
  · rintro (⟨rfl, rfl, rfl⟩ | ⟨⟨hle, hlt, hbrace, hneed⟩, hmore⟩)
    · exact ⟨hlow, Nat.lt_succ_self _, hc, by rw [hcount (le_refl _), Text.slice_self]; rfl⟩
    · exact ⟨hle, Nat.lt_succ_of_lt hlt, hbrace, by rw [hcount hlt.le]; omega⟩

theorem openBraceBefore_eq_some_iff {low need p : Nat} (hlow : low ≤ start) (hstart : start ≤ text.length)
    (hneed : 0 < need) :
    openBraceBefore (text.slice low start).reverse start need = some p ↔ IsBraceBefore text low start need p := by
  induction start, hlow using Nat.le_induction generalizing need with
  | base =>
      rw [Text.slice_self]
      simp only [List.reverse_nil, openBraceBefore, reduceCtorEq, false_iff, IsBraceBefore]
      omega
  | succ start hlow ih =>
      have hc : text[start]? = some text[start] := List.getElem?_eq_getElem hstart
      generalize text[start] = c at hc
      have hbefore : (text.slice low (start + 1)).reverse = c :: (text.slice low start).reverse := by
        rw [Text.slice_succ hlow hc, List.reverse_append]
        rfl
      rw [hbefore, openBraceBefore, Nat.add_sub_cancel, isBraceBefore_succ hlow hc]
      by_cases hbrace : c = '\x7b'
      · subst hbrace
        rw [List.count_singleton_self, if_pos (beq_self_eq_true _)]
        by_cases hone : need ≤ 1
        · -- any brace before this one would be one too many
          have hnone : ¬ IsBraceBefore text low start (need - 1) p := fun ⟨_, hlt, hbrace, hcount⟩ => by
            have hpos := count_pos_of_brace hlt hbrace
            omega
          rw [if_pos hone, Option.some_inj, eq_comm]
          simp only [hnone, false_and, or_false, true_and]
          omega
        · rw [if_neg hone, ih (Nat.le_of_succ_le hstart) (by omega)]
          have hmore : need ≠ 1 ∧ 1 ≤ need := by omega
          simp only [hmore, and_false, false_or, and_true]
      · rw [List.count_eq_zero.2 (by simpa using Ne.symm hbrace)]
        simp only [beq_iff_eq, hbrace, if_false, false_and, and_false, false_or, Nat.sub_zero, Nat.zero_le, and_true]
        exact ih (Nat.le_of_succ_le hstart) hneed

theorem pullsBackTo_iff {p : Nat} (hstart : start ≤ text.length) :
    PullsBackTo text start stop p ↔ pullBackStart text start stop = p ∧ p < start := by
  unfold pullBackStart
  simp only
  constructor
  · rintro ⟨hlt, hnear, hbrace, hcovered⟩
    have hpos := count_pos_of_brace hlt hbrace
    rw [if_neg (by omega), (openBraceBefore_eq_some_iff (Nat.sub_le _ _) hstart (by omega)).2
      ⟨by omega, hlt, hbrace, by omega⟩]
    exact ⟨rfl, hlt⟩
  · rintro ⟨hpulled, hlt⟩
    split at hpulled
    · omega
    · next hneed =>
        cases hfound : openBraceBefore (text.slice (start - lookbehind) start).reverse start
            ((text.slice start stop).count '\x7d' - (text.slice start stop).count '\x7b') with
        | none =>
            rw [hfound, Option.getD_none] at hpulled
            omega
        | some found =>
            rw [hfound, Option.getD_some] at hpulled
            subst hpulled
            obtain ⟨hlow, -, hbrace, hcount⟩ :=
              (openBraceBefore_eq_some_iff (Nat.sub_le _ _) hstart (Nat.pos_of_ne_zero hneed)).1 hfound
            exact ⟨hlt, by omega, hbrace, by omega⟩

/-! ## Searches that go on -/

/-- Only an end that is balanced or behind the end of a statement is found. -/
theorem firstGoodEndFrom_reason {reported attempts count good : Nat} {lexer : Lexer}
    (h : Scans text start stop lexer)
    (hgood : firstGoodEndFrom text start reported check lexer attempts stop count = some good) :
    isBalanced text start good = true ∨ atStatementEnd text reported good = true := by
  induction count generalizing lexer attempts stop with
  | zero => cases hgood
  | succ count ih =>
      rw [firstGoodEndFrom.eq_def] at hgood
      simp only [h.isBalanced] at hgood
      split at hgood
      · next hbalanced =>
          obtain rfl := Option.some.inj hgood
          exact Or.inl hbalanced
      · split at hgood
        · split at hgood
          · next hend =>
              split at hgood
              · obtain rfl := Option.some.inj hgood
                exact Or.inr hend
              · exact ih h.next hgood
          · exact ih h.next hgood
        · exact ih h.next hgood

theorem not_atStatementEnd_of_none {reported attempts count : Nat} {lexer : Lexer} {accepts : Check}
    (haccepts : ∀ x, stop ≤ x → x < stop + count → accepts (text.slice start x) = true)
    (hnone : firstGoodEndFrom text start reported (some accepts) lexer (attempts + 1) stop count = none) {x : Nat}
    (hx : stop ≤ x) (hlimit : x < stop + count) : atStatementEnd text reported x = false := by
  induction count generalizing lexer stop with
  | zero => omega
  | succ count ih =>
      rw [firstGoodEndFrom.eq_def] at hnone
      simp only [haccepts stop (le_refl _) (by omega), if_true] at hnone
      split at hnone
      · cases hnone
      · split at hnone
        · cases hnone
        · next hopen =>
            rcases Nat.eq_or_lt_of_le hx with rfl | hlater
            · exact Bool.eq_false_iff.2 hopen
            · exact ih (fun x hx hlimit => haccepts x (by omega) (by omega)) hnone hlater (by omega)

/-- A span whose reported end is not good is looked at further on, with one attempt less. -/
theorem firstGoodEnd_of_rejected {accepts : Check} (hlimit : stop ≤ limit)
    (hrejected : accepted text (some accepts) start stop = false) :
    firstGoodEnd text start stop limit (some accepts) =
      firstGoodEndFrom text start stop (some accepts) ((Lexer.start text start).advanceTo stop) (maxAttempts - 1)
        (stop + 1) (limit - stop) := by
  have hscans : Scans text start stop (Lexer.start text start) := fun _ _ => rfl
  simp only [accepted, Bool.or_eq_false_iff] at hrejected
  rw [firstGoodEnd, Nat.succ_sub hlimit, firstGoodEndFrom.eq_def]
  simp [hscans.isBalanced, hrejected, maxAttempts, atStatementEnd]

end Repair

section Kept

variable {text : Text} {start stop : Nat} {check : Option Repair.Check}

open Repair

theorem validateEnd_of_accepted (hstop : stop ≤ text.length)
    (hcount : (text.slice start stop).count '\x7d' ≤ (text.slice start stop).count '\x7b')
    (haccepted : accepted text check start stop = true) : validateEnd text start stop check = stop := by
  have hlimit : stop ≤ min text.length (stop + lookahead) := by omega
  simp only [validateEnd, Nat.min_eq_left hstop, pullBackStart_of_count_le hcount,
    firstGoodEnd_of_accepted haccepted hlimit, Option.getD_some]

theorem repairSpan_of_accepted (hstart : start ≤ stop) (hstop : stop ≤ text.length)
    (haccepted : accepted text check start stop = true) :
    repairSpan text start stop check = { start, stop, method := .ok } := by
  unfold repairSpan
  rw [Nat.max_eq_right hstart, Nat.min_eq_left hstop, if_pos haccepted]

end Kept

/-! ## Balanced spans -/

def MayEndStatement (text : Text) (offset : Nat) : Prop :=
  ∃ c ∈ ['\x7d', ';', '\n'], text[offset - 1]? = some c

/-- Whether no end of a span from `start` behind `stop` is balanced or will ever be checked. -/
def EndsNowhere (text : Text) (start stop limit : Nat) : Prop :=
  ∀ x, stop < x → x ≤ limit → isBalanced text start x = false ∧ ¬ MayEndStatement text x

section Trusted

variable {text : Text} {start stop limit : Nat}

open Repair

theorem atStatementEnd_iff {reported offset : Nat} (h : reported < offset) :
    atStatementEnd text reported offset = true ↔ MayEndStatement text offset := by
  unfold atStatementEnd MayEndStatement
  rw [beq_false_of_ne h.ne', Bool.false_or]
  cases text[offset - 1]? <;> simp [or_assoc]

theorem getD_of_endsNowhere (h : EndsNowhere text start stop limit) (check : Option Check) :
    (firstGoodEnd text start stop limit check).getD stop = stop := by
  cases hgood : firstGoodEnd text start stop limit check with
  | none => rfl
  | some good =>
      obtain ⟨hle, hlimit, -⟩ := firstGoodEnd_eq_some hgood
      refine Nat.le_antisymm (Nat.not_lt.1 fun hlater => ?_) hle
      obtain ⟨hopen, hnone⟩ := h good hlater hlimit
      rcases firstGoodEndFrom_reason (fun _ _ => rfl) hgood with hbalanced | hend
      · rw [hopen] at hbalanced
        cases hbalanced
      · exact hnone ((atStatementEnd_iff hlater).1 hend)

/-- The check that refuses nothing but the span itself moves its end, if any check does. -/
theorem endsNowhere_of_getD (hstart : start < stop) (hstop : stop ≤ limit) (hlimit : limit ≤ text.length)
    (hopen : isBalanced text start stop = false)
    (hkept : (firstGoodEnd text start stop limit (some fun piece => piece != text.slice start stop)).getD stop = stop) :
    EndsNowhere text start stop limit := by
  have hrejected : accepted text (some fun piece => piece != text.slice start stop) start stop = false := by
    simp [accepted, hopen]
  have haccepts (x : Nat) (hx : stop + 1 ≤ x) (hnear : x < stop + 1 + (limit - stop)) :
      (text.slice start x != text.slice start stop) = true := by
    refine bne_iff_ne.2 fun hsame => ?_
    have hlengths := congrArg List.length hsame
    rw [Text.length_slice (show x ≤ text.length by omega), Text.length_slice (hstop.trans hlimit)] at hlengths
    omega
  cases hgood : firstGoodEnd text start stop limit (some fun piece => piece != text.slice start stop) with
  | some good =>
      rw [hgood, Option.getD_some] at hkept
      have haccepted := (firstGoodEnd_eq_some hgood).2.2
      rw [hkept, hrejected] at haccepted
      cases haccepted
  | none =>
      intro x hx hnear
      refine ⟨firstGoodEnd_eq_none hgood hx.le hnear, fun hmay => ?_⟩
      rw [firstGoodEnd_of_rejected hstop hrejected] at hgood
      have hnever := not_atStatementEnd_of_none haccepts hgood hx (by omega)
      rw [(atStatementEnd_iff hx).2 hmay] at hnever
      cases hnever

/-- The end of a balanced span is kept, whatever check is given, exactly if the span does not close a brace that is
missing in it, or if none is open any more where the missing ones are pulled in, or if there is no later end for those. -/
theorem balanced_span_trusted_iff (text : Text) {start stop : Nat} (hstop : stop ≤ text.length)
    (hbalanced : isBalanced text start stop = true) :
    (∀ check, validateEnd text start stop check = stop) ↔
      ∀ p, PullsBackTo text start stop p → isBalanced text p stop = true ∨
        EndsNowhere text p stop (min text.length (stop + lookahead)) := by
  have hspan : start ≤ stop := start_le_of_isBalanced hbalanced
  have hlimit : stop ≤ min text.length (stop + lookahead) := by omega
  simp only [validateEnd, Nat.min_eq_left hstop, pullsBackTo_iff (hspan.trans hstop), and_imp, forall_eq']
  constructor
  · intro hkept hpulled
    refine or_iff_not_imp_left.2 fun hopen => ?_
    exact endsNowhere_of_getD (hpulled.trans_le hspan) hlimit (Nat.min_le_left _ _)
      (Bool.eq_false_iff.2 hopen) (hkept _)
  · intro htrusted check
    have hgood {from_ : Nat} (h : isBalanced text from_ stop = true) :
        (firstGoodEnd text from_ stop (min text.length (stop + lookahead)) check).getD stop = stop := by
      rw [firstGoodEnd_of_accepted (accepted_iff.2 (Or.inl h)) hlimit, Option.getD_some]
    rcases Nat.eq_or_lt_of_le (pullBackStart_le text start stop) with hsame | hpulled
    · rw [hsame]
      exact hgood hbalanced
    · rcases htrusted hpulled with hclosed | hnowhere
      · exact hgood hclosed
      · exact getD_of_endsNowhere hnowhere check

end Trusted

/-- A function with a closing brace in a string, behind a template with an opening one and before one with a closing
one. -/
def bracesQuoted : Text :=
  "s = \x60\x7b\x60;\nf = () => '\x7d';\nt = \x60\x7d\x60;\n".toList

def objectBefore : Text :=
  "f(\x7b\x7d, '\x7d')".toList

/-- The function is balanced, but its end is moved into the second template, because a brace of the first one is pulled
in. The string is balanced and keeps its end, because the object that is pulled in is closed. -/
theorem balanced_span_trusted_quoted :
    (23 ≤ bracesQuoted.length ∧ isBalanced bracesQuoted 9 23 = true ∧ validateEnd bracesQuoted 9 23 none = 30 ∧
      ∃ p, Repair.PullsBackTo bracesQuoted 9 23 p ∧ isBalanced bracesQuoted p 23 = false) ∧
    (9 ≤ objectBefore.length ∧ isBalanced objectBefore 6 9 = true ∧
      ∀ check, validateEnd objectBefore 6 9 check = 9) := by
  have hquoted : isBalanced bracesQuoted 9 23 = true := by decide +kernel
  have hmoved : validateEnd bracesQuoted 9 23 none = 30 := by decide +kernel
  have hstring : isBalanced objectBefore 6 9 = true := by decide +kernel
  refine ⟨⟨by decide, hquoted, hmoved, ?_⟩, by decide, hstring, ?_⟩
  · by_contra hnot
    simp only [not_exists, not_and, Bool.not_eq_false] at hnot
    have hkept := (balanced_span_trusted_iff bracesQuoted (by decide) hquoted).2 fun p hpulls => Or.inl (hnot p hpulls)
    rw [hkept none] at hmoved
    cases hmoved
  · refine (balanced_span_trusted_iff objectBefore (by decide) hstring).2 fun p hpulls => Or.inl ?_
    have hpulled : Repair.pullBackStart objectBefore 6 9 = 2 := by decide +kernel
    obtain rfl := ((Repair.pullsBackTo_iff (by decide)).1 hpulls).1
    rw [hpulled]
    decide +kernel

end ScriptSplit
