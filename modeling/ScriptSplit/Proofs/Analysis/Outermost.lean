import ScriptSplit.Proofs.Analysis.Candidate

/-!
# The outermost candidates

Of any candidates exactly those spans are kept that lie in no other one. Every candidate lies in a kept span, and of the
kept ones none lies in another. So which spans are kept does not depend on the order in which the candidates were found,
and keeping the outermost ones of those that are kept changes nothing.
-/

namespace ScriptSplit

namespace Candidate

def span (c : Candidate) : Nat × Nat :=
  (c.start, c.stop)

/-- The spans of candidates that lie in no other one of them. -/
def outermostSpans (candidates : List Candidate) : Set (Nat × Nat) :=
  {s | s ∈ candidates.map span ∧ ∀ t ∈ candidates.map span, t.1 ≤ s.1 → s.2 ≤ t.2 → t = s}

def Apart (a b : Candidate) : Prop :=
  a.covers b = false ∧ b.covers a = false

instance : Std.Symm Apart :=
  ⟨fun _ _ h => ⟨h.2, h.1⟩⟩

variable {a b c : Candidate} {candidates others : List Candidate}

/-! ## Spans that cover others -/

@[simp] theorem covers_iff : a.covers b = true ↔ a.start ≤ b.start ∧ b.stop ≤ a.stop := by
  simp [covers]

theorem covers_trans (hab : a.covers b = true) (hbc : b.covers c = true) : a.covers c = true := by
  rw [covers_iff] at *
  omega

theorem span_eq_of_covers (hab : a.covers b = true) (hba : b.covers a = true) : a.span = b.span := by
  rw [covers_iff] at *
  exact Prod.ext (by simp only [span]; omega) (by simp only [span]; omega)

theorem Rises.apart (h : a.Rises b) : a.Apart b := by
  obtain ⟨hstart, hstop⟩ := h
  simp only [Apart, ← Bool.not_eq_true, covers_iff]
  omega

theorem Rises.before (h : a.Rises b) : a.before b = true := by
  obtain ⟨hstart, -⟩ := h
  simp [Candidate.before, hstart, hstart.ne]

/-! ## What is kept -/

theorem keepOuter_covers (kept : List Candidate) (hc : c ∈ candidates) :
    ∃ k ∈ kept ++ keepOuter kept candidates, k.covers c = true := by
  induction candidates generalizing kept with
  | nil => cases hc
  | cons first rest ih =>
      unfold keepOuter
      rcases List.mem_cons.1 hc with rfl | hc
      · split
        · next hcovered =>
            obtain ⟨k, hk, hcovers⟩ := List.any_eq_true.1 hcovered
            exact ⟨k, List.mem_append_left _ hk, hcovers⟩
        · exact ⟨c, by simp, by simp⟩
      · split
        · exact ih kept hc
        · obtain ⟨k, hk, hcovers⟩ := ih (first :: kept) hc
          refine ⟨k, ?_, hcovers⟩
          simp only [List.mem_append, List.mem_cons] at hk ⊢
          tauto

/-- Every candidate lies in one that is kept. -/
theorem exists_dedupe_covers (hc : c ∈ candidates) : ∃ k ∈ dedupe candidates, k.covers c = true :=
  keepOuter_covers [] ((List.mergeSort_perm candidates before).mem_iff.2 hc)

theorem dedupe_apart (candidates : List Candidate) : (dedupe candidates).Pairwise Apart :=
  (dedupe_rises candidates).imp Rises.apart

theorem keepOuter_of_apart {kept : List Candidate} (hapart : candidates.Pairwise Apart)
    (hkept : ∀ k ∈ kept, ∀ c ∈ candidates, k.covers c = false) : keepOuter kept candidates = candidates := by
  induction candidates generalizing kept with
  | nil => rfl
  | cons c rest ih =>
      obtain ⟨hfirst, hrest⟩ := List.pairwise_cons.1 hapart
      have huncovered : kept.any (·.covers c) = false :=
        List.any_eq_false.2 fun k hk => by simp [hkept k hk c List.mem_cons_self]
      have hlater : ∀ k ∈ c :: kept, ∀ other ∈ rest, k.covers other = false :=
        List.forall_mem_cons.2 ⟨fun other hother => (hfirst other hother).1,
          fun k hk other hother => hkept k hk other (List.mem_cons_of_mem c hother)⟩
      rw [keepOuter, huncovered, ih hrest hlater]
      rfl

theorem dedupe_of_rises (h : candidates.Pairwise Rises) : dedupe candidates = candidates := by
  rw [dedupe, List.mergeSort_of_pairwise (h.imp Rises.before)]
  exact keepOuter_of_apart (h.imp Rises.apart) (by simp)

/-! ## Which spans are kept -/

theorem span_mem_outermostSpans (hc : c ∈ candidates) :
    c.span ∈ outermostSpans candidates ↔ ∀ d ∈ candidates, d.covers c = true → d.span = c.span := by
  simp only [outermostSpans, Set.mem_ofPred_eq, List.mem_map_of_mem hc, true_and, List.forall_mem_map, covers_iff,
    and_imp]
  rfl

/-- A kept candidate lies in no other one: what covers it lies in a kept one, and of those none lies in another. -/
theorem outermost_of_mem_dedupe (hc : c ∈ dedupe candidates) : c.span ∈ outermostSpans candidates := by
  refine (span_mem_outermostSpans (mem_of_mem_dedupe hc)).2 fun d hd hcovers => ?_
  obtain ⟨k, hk, hkd⟩ := exists_dedupe_covers hd
  have hkc := covers_trans hkd hcovers
  obtain rfl : k = c := by
    by_contra hne
    have hapart := (dedupe_apart candidates).forall hk hc hne
    rw [hapart.1] at hkc
    cases hkc
  exact span_eq_of_covers hcovers hkd

theorem mem_map_span_dedupe (s : Nat × Nat) : s ∈ (dedupe candidates).map span ↔ s ∈ outermostSpans candidates := by
  constructor
  · intro hs
    obtain ⟨c, hc, rfl⟩ := List.mem_map.1 hs
    exact outermost_of_mem_dedupe hc
  · intro hs
    obtain ⟨c, hc, rfl⟩ := List.mem_map.1 hs.1
    obtain ⟨k, hk, hcovers⟩ := exists_dedupe_covers hc
    rw [← (span_mem_outermostSpans hc).1 hs k (mem_of_mem_dedupe hk) hcovers]
    exact List.mem_map_of_mem hk

theorem spans_dedupe_rise (candidates : List Candidate) :
    ((dedupe candidates).map span).Pairwise fun s t => s.1 < t.1 ∧ s.2 < t.2 :=
  List.pairwise_map.2 (dedupe_rises candidates)

theorem spans_dedupe_eq (h : ∀ s, s ∈ others.map span ↔ s ∈ candidates.map span) :
    (dedupe others).map span = (dedupe candidates).map span := by
  have hirrefl : Std.Irrefl fun s t : Nat × Nat => s.1 < t.1 ∧ s.2 < t.2 := ⟨fun s => by omega⟩
  have hantisymm : Std.Antisymm fun s t : Nat × Nat => s.1 < t.1 ∧ s.2 < t.2 := ⟨fun s t => by omega⟩
  refine (spans_dedupe_rise others).eq_of_mem_iff (spans_dedupe_rise candidates) fun s => ?_
  rw [mem_map_span_dedupe, mem_map_span_dedupe]
  simp only [outermostSpans, Set.mem_ofPred_eq, h]

/-- What is kept rises with both ends, and none of it lies in another. It covers every candidate, and its spans are those
that lie in no other one. Those depend on the spans of the candidates alone, in whatever order they come, and keeping
them again changes nothing. -/
theorem dedupe_outermost (candidates : List Candidate) :
    let kept := dedupe candidates
    kept.Pairwise Rises ∧ kept.Pairwise Apart ∧ (∀ c ∈ candidates, ∃ k ∈ kept, k.covers c = true) ∧
      {s | s ∈ kept.map span} = outermostSpans candidates ∧
      (∀ others : List Candidate, (∀ s, s ∈ others.map span ↔ s ∈ candidates.map span) →
        (dedupe others).map span = kept.map span) ∧
      dedupe kept = kept :=
  ⟨dedupe_rises candidates, dedupe_apart candidates, fun _ hc => exists_dedupe_covers hc,
    Set.ext mem_map_span_dedupe, fun _ h => spans_dedupe_eq h, dedupe_of_rises (dedupe_rises candidates)⟩

end Candidate

end ScriptSplit
