import ScriptSplit.Proofs.Analysis.Candidate
import ScriptSplit.Proofs.Analysis.Scope

/-!
# What an analysis promises

Everything after the analysis relies on its records: that their ids are different, that they stand in the
order of the text and none inside another, and that what counts as moveable uses nothing unknown.
-/

namespace ScriptSplit

open Script

/-! ## Ids -/

theorem functionId_injective : Function.Injective functionId := by
  have hvalue (n : Nat) : Nat.ofDigitChars 10 ((functionId n).toList.drop 1) 0 = n := by
    have hdigits : (toString n).toList = Nat.toDigits 10 n := by
      rw [Nat.toString_eq_repr, Nat.toList_repr]
    have htext : (functionId n).toList.drop 1 =
        List.replicate (4 - (toString n).length) '0' ++ Nat.toDigits 10 n := by
      simp [functionId, String.toList_append]
    rw [htext, Nat.ofDigitChars_append, Nat.ofDigitChars_replicate_zero, Nat.mul_zero,
      Nat.ofDigitChars_toDigits (by decide) (by decide)]
  intro m n heq
  rw [← hvalue m, heq, hvalue n]

theorem ids_mapIdx (kept : List Candidate) :
    (kept.mapIdx Candidate.record).map (·.id) = (List.range kept.length).map functionId := by
  apply List.ext_getElem
  · simp
  · intro n hn hn'
    simp [Candidate.record]

/-! ## Free names -/

namespace Candidate

variable {reader : Reader} {text : Text} {program : Tree} {closureCalls : Bool} {c : Candidate}

theorem free_ofProgram (hc : c ∈ ofProgram reader text program closureCalls) {name : String}
    (hname : name ∈ c.free) :
    name ∈ c.used ∧ name ∉ c.params ∧ name ∉ c.locals ∧ name ∉ builtins ∧
      name ∉ (SymbolTable.ofProgram program).topLevel ∧ name ≠ c.name := by
  obtain ⟨d, -, rfl⟩ := List.mem_map.1 hc
  obtain ⟨hused, hparams, hlocals, hbuiltins, hexempt⟩ := Scope.mem_free.1 hname
  rw [List.mem_cons, not_or] at hexempt
  exact ⟨hused, hparams, hlocals, hbuiltins, hexempt.2, hexempt.1⟩

theorem moveable_ofProgram (hc : c ∈ ofProgram reader text program closureCalls) :
    c.moveable = true ↔ c.free = [] := by
  obtain ⟨d, -, rfl⟩ := List.mem_map.1 hc
  exact List.isEmpty_iff

theorem fixed_ofPatterns (hc : c ∈ PatternScan.candidates text) :
    c.moveable = false ∧ c.callees = [] := by
  unfold PatternScan.candidates at hc
  rw [List.mem_append, List.mem_map, List.mem_map] at hc
  rcases hc with ⟨found, -, rfl⟩ | ⟨found, -, rfl⟩ <;> exact ⟨rfl, rfl⟩

end Candidate

/-! ## The records -/

theorem records_rising {kept : List Candidate} (h : kept.Pairwise Candidate.Rises) :
    (kept.mapIdx Candidate.record).Pairwise fun f g => f.start < g.start ∧ f.stop < g.stop := by
  rw [List.pairwise_iff_getElem] at h ⊢
  intro i j hi hj hij
  rw [List.length_mapIdx] at hi hj
  obtain ⟨hstart, hstop⟩ := h i j hi hj hij
  rw [List.getElem_mapIdx, List.getElem_mapIdx]
  exact ⟨Int.ofNat_lt.2 hstart, Int.ofNat_lt.2 hstop⟩

theorem caller_mem_ids {kept : List Candidate} {call : CallEdge}
    (hcall : call ∈ (kept.mapIdx Candidate.calls).flatten) :
    ∃ n, ∃ hn : n < kept.length, call.caller = functionId n ∧ call.callee ∈ kept[n].callees := by
  obtain ⟨calls, hcalls, hcall⟩ := List.mem_flatten.1 hcall
  obtain ⟨n, hn, rfl⟩ := List.mem_mapIdx.1 hcalls
  obtain ⟨callee, hcallee, rfl⟩ := List.mem_map.1 hcall
  exact ⟨n, hn, rfl, hcallee⟩

/-- What an analysis says about its functions and their calls. -/
structure Analysis.Sound (analysis : Analysis) (program : Option Tree) (text : Text) : Prop where
  nonempty : analysis.facts.functions ≠ []
  ids : analysis.facts.functions.map (·.id) =
    (List.range analysis.facts.functions.length).map functionId
  distinct : (analysis.facts.functions.map (·.id)).Nodup
  rising : analysis.facts.functions.Pairwise fun f g => f.start < g.start ∧ f.stop < g.stop
  apart : analysis.facts.functions.Pairwise fun f g => f.contains g = false ∧ g.contains f = false
  placed : ∀ f ∈ analysis.facts.functions, 0 ≤ f.start ∧ f.start ≤ f.stop ∧ f.stop ≤ text.length
  callers : ∀ call ∈ analysis.facts.calls, call.caller ∈ analysis.facts.functions.map (·.id)
  fallback : analysis.usedFallback = program.isNone
  /-- The records of a tree tell the names that a function needs from elsewhere. -/
  ofTree : analysis.usedFallback = false → ∀ f ∈ analysis.facts.functions,
    (∀ name ∈ f.free, name ∈ f.used ∧ name ∉ f.params ∧ name ∉ f.locals ∧ name ∉ builtins ∧
      name ∉ analysis.facts.topLevel ∧ name ≠ f.name) ∧ (f.moveable = true ↔ f.free = [])
  /-- Nothing that patterns find is moved or known to call anything. -/
  ofPatterns : analysis.usedFallback = true →
    (∀ f ∈ analysis.facts.functions, f.moveable = false) ∧ analysis.facts.calls = []

theorem sound_of_analyzeTree {reader : Reader} {program : Option Tree} {text : Text} {path : String}
    {closureCalls : Bool} {analysis : Analysis} (hplaced : ∀ tree ∈ program, tree.Placed text)
    (hrun : analyzeTree reader program text path closureCalls = .ok analysis) : analysis.Sound program text := by
  have hrises := Candidate.dedupe_rises (Candidate.ofText reader text program closureCalls)
  have hmem {c : Candidate} (hc : c ∈ Candidate.dedupe (Candidate.ofText reader text program closureCalls)) :
      c ∈ Candidate.ofText reader text program closureCalls := Candidate.mem_of_mem_dedupe hc
  unfold analyzeTree at hrun
  simp only at hrun
  split at hrun
  · cases hrun
  · next kept hsome =>
      have hrising := records_rising hrises
      cases hrun
      exact {
        nonempty := by simpa [List.mapIdx_eq_nil_iff] using hsome
        ids := by rw [ids_mapIdx, List.length_mapIdx]
        distinct := by
          rw [ids_mapIdx]
          exact List.nodup_range.map functionId_injective
        rising := hrising
        apart := hrising.imp fun ⟨hstart, hstop⟩ => by
          simp only [FunctionRecord.contains, Bool.and_eq_false_iff, decide_eq_false_iff_not]
          omega
        placed := fun f hf => by
          obtain ⟨n, hn, rfl⟩ := List.mem_mapIdx.1 hf
          obtain ⟨hspan, hlimit⟩ := Candidate.ofText_placed hplaced (hmem (List.getElem_mem hn))
          exact ⟨Int.natCast_nonneg _, Int.ofNat_le.2 hspan, Int.ofNat_le.2 hlimit⟩
        callers := fun call hcall => by
          obtain ⟨n, hn, hcaller, -⟩ := caller_mem_ids hcall
          rw [ids_mapIdx, hcaller]
          exact List.mem_map_of_mem (List.mem_range.2 hn)
        fallback := rfl
        ofTree := by
          cases program with
          | none => exact fun hfallback => by cases hfallback
          | some tree =>
              intro _ f hf
              obtain ⟨n, hn, rfl⟩ := List.mem_mapIdx.1 hf
              have hc := hmem (List.getElem_mem hn)
              exact ⟨fun name hname => Candidate.free_ofProgram hc hname,
                Candidate.moveable_ofProgram hc⟩
        ofPatterns := by
          cases program with
          | some tree => exact fun hfallback => by cases hfallback
          | none =>
              intro _
              constructor
              · intro f hf
                obtain ⟨n, hn, rfl⟩ := List.mem_mapIdx.1 hf
                exact (Candidate.fixed_ofPatterns (hmem (List.getElem_mem hn))).1
              · refine List.eq_nil_iff_forall_not_mem.2 fun call hcall => ?_
                obtain ⟨n, hn, -, hcallee⟩ := caller_mem_ids hcall
                rw [(Candidate.fixed_ofPatterns (hmem (List.getElem_mem hn))).2] at hcallee
                cases hcallee }

/-- An analysis fails only where nothing is found; otherwise it keeps its promises. -/
theorem analyzeTree_sound (reader : Reader) (program : Option Tree) (text : Text) (path : String)
    (closureCalls : Bool) (hplaced : ∀ tree ∈ program, tree.Placed text) :
    (Candidate.ofText reader text program closureCalls = [] ∧
        analyzeTree reader program text path closureCalls = .error (.noFunctions path)) ∨
      ∃ analysis, analyzeTree reader program text path closureCalls = .ok analysis ∧
        analysis.Sound program text := by
  cases hrun : analyzeTree reader program text path closureCalls with
  | error cause =>
      unfold analyzeTree at hrun
      simp only at hrun
      split at hrun
      · next hnone =>
          cases hrun
          exact Or.inl ⟨Candidate.dedupe_eq_nil.1 hnone, rfl⟩
      · cases hrun
  | ok analysis => exact Or.inr ⟨analysis, rfl, sound_of_analyzeTree hplaced hrun⟩

/-! ## A script with a tree -/

namespace Script.Tree

mutual

def liesWithin (low high : Nat) : Tree → Bool
  | .node label children =>
    low ≤ label.start && label.start ≤ label.stop && label.stop ≤ high &&
      allLieWithin label.start label.stop children

def allLieWithin (low high : Nat) : List Tree → Bool
  | [] => true
  | t :: rest => liesWithin low high t && allLieWithin low high rest

end

mutual

theorem within_of_liesWithin {low high : Nat} {t : Tree} (h : t.liesWithin low high = true) :
    t.Within low high := by
  cases t with
  | node label children =>
      simp only [liesWithin, Bool.and_eq_true, decide_eq_true_eq] at h
      exact .node h.1.1.1 h.1.1.2 h.1.2 (within_of_allLieWithin h.2)

theorem within_of_allLieWithin {low high : Nat} {trees : List Tree}
    (h : allLieWithin low high trees = true) : ∀ t ∈ trees, t.Within low high := by
  cases trees with
  | nil => exact fun _ ht => by cases ht
  | cons t rest =>
      simp only [allLieWithin, Bool.and_eq_true] at h
      exact List.forall_mem_cons.2 ⟨within_of_liesWithin h.1, within_of_allLieWithin h.2⟩

end

end Script.Tree

/-- An arrow function with a doc comment that calls a function below it. -/
def pair : Text :=
  "/** a */ const a = x => b(x);\nfunction b() \x7b\x7d\n".toList

def pairTree : Tree :=
  let leaf (kind : Kind) (role : Option Role) (start stop : Nat) (text : String) : Tree :=
    .node { kind, role, start, stop, text } []
  .node { kind := .program, role := none, start := 0, stop := 46, text := "" }
    [.node { kind := .lexicalDeclaration, role := none, start := 9, stop := 29, text := "" }
      [.node { kind := .variableDeclarator, role := none, start := 15, stop := 28, text := "" }
        [leaf .identifier (some .name) 15 16 "a",
          .node { kind := .arrowFunction, role := some .value, start := 19, stop := 28, text := "" }
            [leaf .identifier (some .parameter) 19 20 "x",
              .node { kind := .call, role := some .body, start := 24, stop := 28, text := "" }
                [leaf .identifier (some .function) 24 25 "b",
                  .node { kind := .arguments, role := none, start := 25, stop := 28, text := "" }
                    [leaf .identifier none 26 27 "x"]]]]],
      .node { kind := .functionDeclaration, role := none, start := 30, stop := 45, text := "" }
        [leaf .identifier (some .name) 39 40 "b", leaf .parameters (some .parameters) 40 42 "",
          leaf .block (some .body) 43 45 ""]]

theorem analyzeTree_sound_pair :
    (∀ tree ∈ some pairTree, tree.Placed pair) ∧
      ∃ analysis, analyzeTree .ofGrammar (some pairTree) pair "pair.js" false = .ok analysis ∧
        analysis.Sound (some pairTree) pair := by
  have hplaced : ∀ tree ∈ some pairTree, tree.Placed pair := by
    intro tree htree
    obtain rfl := Option.some.inj htree
    exact Tree.within_of_liesWithin (by decide)
  have hfound : (Candidate.ofText .ofGrammar pair (some pairTree) false).length = 2 := by decide +kernel
  refine ⟨hplaced, ?_⟩
  rcases analyzeTree_sound .ofGrammar (some pairTree) pair "pair.js" false hplaced with ⟨hnone, -⟩ | hsound
  · rw [hnone] at hfound
    cases hfound
  · exact hsound

end ScriptSplit
