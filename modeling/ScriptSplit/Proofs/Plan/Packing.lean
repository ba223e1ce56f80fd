import Mathlib
import ScriptSplit.Proofs.Plan.Spread

/-!
# Packing by size

Functions are placed from the largest to the smallest, each into a bucket that is lightest so far. What came last into
a bucket is therefore the smallest there, and the bucket weighed no more than any other one before it came: buckets
differ by no more than one of their functions. The order of placing depends on the functions alone and not on the order
in which they are known, and so does the whole plan.
-/

namespace ScriptSplit.Plan

/-! ## The order of placing -/

theorem placedBefore_iff {f g : FunctionRecord} : placedBefore f g = true ↔
    g.size < f.size ∨ g.size = f.size ∧ (f.start < g.start ∨ f.start = g.start ∧ f.id ≤ g.id) := by
  unfold placedBefore
  split
  · next hsize =>
      rw [decide_eq_true_eq]
      omega
  · next hsize =>
      split
      · next hstart =>
          rw [decide_eq_true_eq]
          omega
      · next hstart =>
          rw [Bool.not_eq_true', decide_eq_false_iff_not, String.not_lt]
          rw [ne_eq, not_not] at hsize hstart
          simp [hsize, hstart]

theorem placedBefore_trans (f g k : FunctionRecord) (hfg : placedBefore f g = true)
    (hgk : placedBefore g k = true) : placedBefore f k = true := by
  rw [placedBefore_iff] at hfg hgk ⊢
  rcases hfg with hsize | ⟨hsize, hstart | ⟨hstart, hid⟩⟩
  · omega
  · omega
  · rcases hgk with hsize' | ⟨hsize', hstart' | ⟨hstart', hid'⟩⟩
    · omega
    · omega
    · exact Or.inr ⟨hsize'.trans hsize, Or.inr ⟨hstart.trans hstart', String.le_trans hid hid'⟩⟩

theorem placedBefore_total (f g : FunctionRecord) : (placedBefore f g || placedBefore g f) = true := by
  rw [Bool.or_eq_true, placedBefore_iff, placedBefore_iff]
  rcases lt_trichotomy f.size g.size with hsize | hsize | hsize
  · exact Or.inr (Or.inl hsize)
  · rcases lt_trichotomy f.start g.start with hstart | hstart | hstart
    · exact Or.inl (Or.inr ⟨hsize.symm, Or.inl hstart⟩)
    · exact (String.le_total f.id g.id).imp (fun hid => Or.inr ⟨hsize.symm, Or.inr ⟨hstart, hid⟩⟩)
        fun hid => Or.inr ⟨hsize, Or.inr ⟨hstart.symm, hid⟩⟩
    · exact Or.inr (Or.inr ⟨hsize, Or.inl hstart⟩)
  · exact Or.inl (Or.inl hsize)

/-- Functions are placed from the largest to the smallest. -/
theorem sizes_fall (functions : List FunctionRecord) :
    (functions.mergeSort placedBefore).Pairwise fun f g => g.size ≤ f.size := by
  refine (List.pairwise_mergeSort placedBefore_trans placedBefore_total functions).imp ?_
  intro f g hbefore
  rw [placedBefore_iff] at hbefore
  omega

/-! ## Loads -/

def load (functions : List FunctionRecord) : Int :=
  (functions.map (·.size)).sum

/-- Buckets of about one weight: whichever function is taken out of a bucket, the rest is no heavier than any other
bucket. -/
structure Level (buckets : List Bucket) : Prop where
  weighed : ∀ bucket ∈ buckets, bucket.load = load bucket.functions
  even : ∀ heavy ∈ buckets, ∀ light ∈ buckets, ∀ f ∈ heavy.functions, heavy.load ≤ light.load + f.size

theorem level_replicate (groups : Nat) : Level (List.replicate groups {}) where
  weighed bucket hbucket := by
    obtain rfl := List.eq_of_mem_replicate hbucket
    rfl
  even heavy hheavy light _ f hf := by
    obtain rfl := List.eq_of_mem_replicate hheavy
    cases hf

theorem mem_functions_add {bucket : Bucket} {f g : FunctionRecord} :
    g ∈ (bucket.add f).functions ↔ g ∈ bucket.functions ∨ g = f := by
  simp [Bucket.add]

/-- The step lemma of `balance`: what comes next is no larger than anything placed, and goes where it is lightest. -/
theorem Level.place {f : FunctionRecord} {buckets : List Bucket} (h : Level buckets)
    (hsmall : ∀ bucket ∈ buckets, ∀ g ∈ bucket.functions, f.size ≤ g.size) : Level (place f buckets) where
  weighed bucket hbucket := by
    rcases mem_place hbucket with hold | ⟨lightest, hmem, -, rfl⟩
    · exact h.weighed bucket hold
    · simp [Bucket.add, load, h.weighed lightest hmem]
  even heavy hheavy light hlight g hg := by
    have hpos := f.size_pos
    rcases mem_place hheavy with hheavy | ⟨lightest, hmem, hleast, rfl⟩ <;>
      rcases mem_place hlight with hlight | ⟨lightest', hmem', hleast', rfl⟩
    · exact h.even heavy hheavy light hlight g hg
    · have heven := h.even heavy hheavy lightest' hmem' g hg
      simp only [Bucket.add]
      omega
    · -- without `f` the bucket was the lightest, and `f` is its smallest function
      have hle := hleast light hlight
      have hsize : f.size ≤ g.size := by
        rcases mem_functions_add.1 hg with hg | rfl
        · exact hsmall lightest hmem g hg
        · exact le_refl _
      simp only [Bucket.add]
      omega
    · have hle := hleast lightest' hmem'
      have hgpos := g.size_pos
      simp only [Bucket.add]
      omega

/-- The run lemma of `balance`. -/
theorem Level.foldl_place {sorted : List FunctionRecord} (hsorted : sorted.Pairwise fun f g => g.size ≤ f.size)
    {buckets : List Bucket} (h : Level buckets)
    (hsmall : ∀ f ∈ sorted, ∀ bucket ∈ buckets, ∀ g ∈ bucket.functions, f.size ≤ g.size) :
    Level (sorted.foldl (fun buckets f => Plan.place f buckets) buckets) := by
  induction sorted generalizing buckets with
  | nil => exact h
  | cons f rest ih =>
      obtain ⟨hfirst, hrest⟩ := List.pairwise_cons.1 hsorted
      refine ih hrest (h.place (hsmall f List.mem_cons_self)) ?_
      intro next hnext bucket hbucket g hg
      have hold := hsmall next (List.mem_cons_of_mem _ hnext)
      rcases mem_place hbucket with hbucket | ⟨lightest, hmem, -, rfl⟩
      · exact hold bucket hbucket g hg
      · rcases mem_functions_add.1 hg with hg | rfl
        · exact hold lightest hmem g hg
        · exact hfirst next hnext

theorem load_le_of_mem_balance {functions heavy light : List FunctionRecord} {groups : Nat}
    (hheavy : heavy ∈ balance functions groups) (hlight : light ∈ balance functions groups) {f : FunctionRecord}
    (hf : f ∈ heavy) : load heavy ≤ load light + f.size := by
  have hlevel : Level ((functions.mergeSort placedBefore).foldl (fun buckets f => place f buckets)
      (List.replicate groups {})) := by
    refine (level_replicate groups).foldl_place (sizes_fall functions) ?_
    intro _ _ bucket hbucket g hg
    obtain rfl := List.eq_of_mem_replicate hbucket
    cases hg
  obtain ⟨first, hfirst, rfl⟩ := List.mem_map.1 hheavy
  obtain ⟨second, hsecond, rfl⟩ := List.mem_map.1 hlight
  rw [← hlevel.weighed first hfirst, ← hlevel.weighed second hsecond]
  exact hlevel.even first hfirst second hsecond f hf

/-- Functions are spread over any positive number of buckets: each is in exactly one of them, none is empty where there
are functions enough, and no bucket outweighs another one by more than its smallest function. -/
theorem balance_level (functions : List FunctionRecord) {groups : Int} (hgroups : 1 ≤ groups) :
    ∃ buckets, balance? functions groups = some buckets ∧ (buckets.length : Int) = groups ∧
      buckets.flatten.Perm functions ∧
      (groups ≤ functions.length → ∀ bucket ∈ buckets, bucket ≠ []) ∧
      ∀ heavy ∈ buckets, ∀ light ∈ buckets, ∀ f ∈ heavy, load heavy - load light ≤ f.size := by
  refine ⟨balance functions groups.toNat, if_neg (by omega), ?_, balance_perm functions (by omega), ?_, ?_⟩
  · rw [length_balance]
    omega
  · intro hfew
    exact balance_ne_nil (by omega)
  · intro heavy hheavy light hlight f hf
    have hle := load_le_of_mem_balance hheavy hlight hf
    omega

theorem balance_level_crowded : (1 : Int) ≤ 2 ∧ ∃ buckets, balance? crowded 2 = some buckets ∧
    (buckets.length : Int) = 2 ∧ buckets.flatten.Perm crowded ∧ (∀ bucket ∈ buckets, bucket ≠ []) ∧
    ∀ heavy ∈ buckets, ∀ light ∈ buckets, ∀ f ∈ heavy, load heavy - load light ≤ f.size := by
  refine ⟨by decide, ?_⟩
  obtain ⟨buckets, hbuckets, hlength, hperm, hfilled, hlevel⟩ := balance_level crowded (by decide : (1 : Int) ≤ 2)
  exact ⟨buckets, hbuckets, hlength, hperm, hfilled (by decide), hlevel⟩

/-! ## The order in which functions are known -/

/-- Where nothing but an element itself stands before and behind it, the order of a list is lost in sorting. -/
theorem mergeSort_eq_of_perm {α : Type} {le : α → α → Bool}
    (htrans : ∀ a b c, le a b = true → le b c = true → le a c = true) (htotal : ∀ a b, (le a b || le b a) = true)
    {first again : List α} (hperm : again.Perm first)
    (hanti : ∀ a ∈ first, ∀ b ∈ first, le a b = true → le b a = true → a = b) :
    again.mergeSort le = first.mergeSort le := by
  have hsorted := hperm.trans (List.mergeSort_perm first le).symm
  refine ((List.mergeSort_perm again le).trans hsorted).eq_of_pairwise ?_
    (List.pairwise_mergeSort htrans htotal again) (List.pairwise_mergeSort htrans htotal first)
  intro a b ha hb hab hba
  exact hanti a (hperm.mem_iff.1 ((List.mergeSort_perm again le).mem_iff.1 ha)) b
    ((List.mergeSort_perm first le).mem_iff.1 hb) hab hba

variable {first again : List FunctionRecord}

theorem eq_of_start_eq (hstarts : (first.map (·.start)).Nodup) {f g : FunctionRecord} (hf : f ∈ first)
    (hg : g ∈ first) (heq : f.start = g.start) : f = g :=
  List.inj_on_of_nodup_map hstarts hf hg heq

theorem balance_eq_of_perm (hperm : again.Perm first) (hstarts : (first.map (·.start)).Nodup) (groups : Nat) :
    balance again groups = balance first groups := by
  have hsort : again.mergeSort placedBefore = first.mergeSort placedBefore := by
    refine mergeSort_eq_of_perm placedBefore_trans placedBefore_total hperm ?_
    intro f hf g hg hfg hgf
    rw [placedBefore_iff] at hfg hgf
    exact eq_of_start_eq hstarts hf hg (by omega)
  rw [balance, balance, hsort]

theorem sourceOrder_eq_of_perm (hperm : again.Perm first) (hstarts : (first.map (·.start)).Nodup) :
    sourceOrder again = sourceOrder first := by
  refine mergeSort_eq_of_perm ?_ ?_ hperm ?_
  · intro f g k hfg hgk
    rw [decide_eq_true_eq] at hfg hgk ⊢
    omega
  · intro f g
    rw [Bool.or_eq_true, decide_eq_true_eq, decide_eq_true_eq]
    omega
  · intro f hf g hg hfg hgf
    rw [decide_eq_true_eq] at hfg hgf
    exact eq_of_start_eq hstarts hf hg (by omega)

/-- A balanced plan is the same for the functions in any order, as long as no two of them start at one place. -/
theorem balanced_eq_of_perm (hperm : again.Perm first) (hstarts : (first.map (·.start)).Nodup)
    (maxFiles minClusterSize : Int) (basename : Option String) :
    balanced again maxFiles minClusterSize basename = balanced first maxFiles minClusterSize basename := by
  have hkept (p : FunctionRecord → Bool) : ((first.filter p).map (·.start)).Nodup :=
    hstarts.sublist (List.filter_sublist.map _)
  have hfixed := hperm.filter (!·.moveable)
  have hmoveable := hperm.filter (·.moveable)
  have hnone : (again.filter (!·.moveable)).isEmpty = (first.filter (!·.moveable)).isEmpty := by
    rw [Bool.eq_iff_iff, List.isEmpty_iff_length_eq_zero, List.isEmpty_iff_length_eq_zero, hfixed.length_eq]
  unfold balanced
  simp only [hnone, hmoveable.length_eq, sourceOrder_eq_of_perm hfixed (hkept _),
    balance_eq_of_perm hmoveable (hkept _)]

theorem balanced_eq_of_perm_crowded : crowded.reverse.Perm crowded ∧ (crowded.map (·.start)).Nodup ∧
    balanced crowded.reverse 3 1 (some "app") = balanced crowded 3 1 (some "app") := by
  have hperm : crowded.reverse.Perm crowded := List.reverse_perm crowded
  have hstarts : (crowded.map (·.start)).Nodup := by decide
  exact ⟨hperm, hstarts, balanced_eq_of_perm hperm hstarts 3 1 (some "app")⟩

end ScriptSplit.Plan
