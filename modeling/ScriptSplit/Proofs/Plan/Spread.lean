import Mathlib
import ScriptSplit.Proofs.Plan.Balance

/-!
# Balanced plans waste no module

A bucket weighs as much as the functions in it, and every function weighs something. While there is an empty
bucket, an empty one is the lightest, so that as many functions as there are buckets fill them all; and there
are never more buckets than functions to put into them.
-/

namespace ScriptSplit

theorem FunctionRecord.size_pos (f : FunctionRecord) : 0 < f.size := by
  unfold FunctionRecord.size
  omega

namespace Plan

/-! ## Buckets fill -/

/-- The load of a bucket tells whether there is something in it. -/
def Bucket.Weighed (bucket : Bucket) : Prop :=
  0 ≤ bucket.load ∧ (bucket.load = 0 ↔ bucket.functions = [])

theorem Bucket.weighed_empty : ({} : Bucket).Weighed :=
  ⟨le_refl _, by simp⟩

theorem Bucket.Weighed.add {bucket : Bucket} (h : bucket.Weighed) (f : FunctionRecord) :
    (bucket.add f).Weighed := by
  have hsize := f.size_pos
  have hload := h.1
  refine ⟨?_, ?_⟩ <;> simp only [Bucket.add]
  · omega
  · simp only [List.append_eq_nil_iff, List.cons_ne_nil, and_false, iff_false]
    omega

def vacant (buckets : List Bucket) : Nat :=
  buckets.countP (·.functions.isEmpty)

theorem vacant_cons (bucket : Bucket) (buckets : List Bucket) :
    vacant (bucket :: buckets) = vacant buckets + if bucket.functions = [] then 1 else 0 := by
  simp [vacant, List.countP_cons]

theorem vacant_add_cons (bucket : Bucket) (f : FunctionRecord) (buckets : List Bucket) :
    vacant (bucket.add f :: buckets) = vacant buckets := by
  simp [vacant_cons, Bucket.add]

theorem mem_place_into {f : FunctionRecord} {least : Int} {buckets : List Bucket} {bucket : Bucket}
    (h : bucket ∈ place.into f least buckets) :
    bucket ∈ buckets ∨ ∃ lightest ∈ buckets, lightest.load = least ∧ bucket = lightest.add f := by
  induction buckets with
  | nil => cases h
  | cons first rest ih =>
      unfold place.into at h
      split at h
      · next hload =>
          rcases List.mem_cons.1 h with rfl | h
          · exact Or.inr ⟨first, List.mem_cons_self, hload, rfl⟩
          · exact Or.inl (List.mem_cons_of_mem _ h)
      · rcases List.mem_cons.1 h with rfl | h
        · exact Or.inl List.mem_cons_self
        · rcases ih h with h | ⟨lightest, hmem, hload, rfl⟩
          · exact Or.inl (List.mem_cons_of_mem _ h)
          · exact Or.inr ⟨lightest, List.mem_cons_of_mem _ hmem, hload, rfl⟩

/-- Placing a function changes one bucket only, and none was lighter than that one. -/
theorem mem_place {f : FunctionRecord} {buckets : List Bucket} {bucket : Bucket} (h : bucket ∈ place f buckets) :
    bucket ∈ buckets ∨ ∃ lightest ∈ buckets, (∀ other ∈ buckets, lightest.load ≤ other.load) ∧
      bucket = lightest.add f := by
  unfold place at h
  cases hmin : (buckets.map (·.load)).min? with
  | none => simp [hmin] at h
  | some least =>
      rw [hmin] at h
      refine (mem_place_into h).imp_right ?_
      rintro ⟨lightest, hmem, rfl, rfl⟩
      exact ⟨lightest, hmem, fun other hother =>
        (List.min?_eq_some_iff.1 hmin).2 _ (List.mem_map_of_mem hother), rfl⟩

theorem weighed_place_into (f : FunctionRecord) (lightest : Int) {buckets : List Bucket}
    (h : ∀ bucket ∈ buckets, bucket.Weighed) :
    ∀ bucket ∈ place.into f lightest buckets, bucket.Weighed := by
  intro bucket hbucket
  rcases mem_place_into hbucket with hold | ⟨first, hfirst, -, rfl⟩
  · exact h bucket hold
  · exact (h first hfirst).add f

theorem vacant_place_into_le (f : FunctionRecord) (lightest : Int) (buckets : List Bucket) :
    vacant (place.into f lightest buckets) ≤ vacant buckets := by
  induction buckets with
  | nil => exact le_refl _
  | cons bucket buckets ih =>
      unfold place.into
      split
      · rw [vacant_add_cons, vacant_cons]
        omega
      · rw [vacant_cons, vacant_cons]
        omega

theorem vacant_place_into_zero (f : FunctionRecord) {buckets : List Bucket}
    (h : ∀ bucket ∈ buckets, bucket.Weighed) :
    vacant (place.into f 0 buckets) = vacant buckets - 1 := by
  induction buckets with
  | nil => rfl
  | cons bucket buckets ih =>
      rw [List.forall_mem_cons] at h
      unfold place.into
      split
      · next hload =>
          rw [vacant_add_cons, vacant_cons, if_pos (h.1.2.1 hload)]
          omega
      · next hload =>
          rw [vacant_cons, vacant_cons, if_neg (mt h.1.2.2 hload), ih h.2]
          omega

/-- Placing a function fills an empty bucket if there is one. -/
theorem place_vacant (f : FunctionRecord) {buckets : List Bucket}
    (h : ∀ bucket ∈ buckets, bucket.Weighed) :
    (∀ bucket ∈ place f buckets, bucket.Weighed) ∧
      vacant (place f buckets) ≤ vacant buckets - 1 := by
  unfold place
  cases hmin : (buckets.map (·.load)).min? with
  | none => simp [vacant]
  | some lightest =>
      refine ⟨weighed_place_into f lightest h, ?_⟩
      obtain ⟨hmem, hleast⟩ := List.min?_eq_some_iff.1 hmin
      by_cases hnone : vacant buckets = 0
      · exact (vacant_place_into_le f lightest buckets).trans (by omega)
      · obtain ⟨empty, hempty, hfunctions⟩ := List.countP_pos_iff.1 (Nat.pos_of_ne_zero hnone)
        have hload := (h empty hempty).2.2 (List.isEmpty_iff.1 hfunctions)
        have hle := hleast 0 (List.mem_map.2 ⟨empty, hempty, hload⟩)
        obtain ⟨bucket, hbucket, rfl⟩ := List.mem_map.1 hmem
        have hzero : bucket.load = 0 := le_antisymm hle (h bucket hbucket).1
        rw [hzero]
        exact (vacant_place_into_zero f h).le

theorem foldl_place_vacant (functions : List FunctionRecord) {buckets : List Bucket}
    (h : ∀ bucket ∈ buckets, bucket.Weighed) :
    vacant (functions.foldl (fun buckets f => place f buckets) buckets) ≤
      vacant buckets - functions.length := by
  induction functions generalizing buckets with
  | nil => exact le_refl _
  | cons f functions ih =>
      obtain ⟨hweighed, hvacant⟩ := place_vacant f h
      have hrest := ih hweighed
      rw [List.foldl_cons, List.length_cons]
      omega

/-- Where there are at least as many functions as buckets, every bucket gets one. -/
theorem balance_ne_nil {functions : List FunctionRecord} {groups : Nat}
    (hgroups : groups ≤ functions.length) :
    ∀ bucket ∈ balance functions groups, bucket ≠ [] := by
  have hweighed : ∀ bucket ∈ List.replicate groups ({} : Bucket), bucket.Weighed := fun _ hbucket =>
    List.eq_of_mem_replicate hbucket ▸ Bucket.weighed_empty
  have hvacant := foldl_place_vacant (functions.mergeSort placedBefore) hweighed
  have hstart : vacant (List.replicate groups ({} : Bucket)) ≤ groups := by
    simpa [vacant] using List.countP_le_length (p := (·.functions.isEmpty))
      (l := List.replicate groups ({} : Bucket))
  rw [List.length_mergeSort] at hvacant
  intro functions' hmem hnil
  obtain ⟨bucket, hbucket, rfl⟩ := List.mem_map.1 hmem
  have hpos : 0 < vacant ((functions.mergeSort placedBefore).foldl
      (fun buckets f => place f buckets) (List.replicate groups {})) :=
    List.countP_pos_iff.2 ⟨bucket, hbucket, by simp [hnil]⟩
  omega

theorem length_place (f : FunctionRecord) (buckets : List Bucket) :
    (place f buckets).length = buckets.length := by
  by_cases hbuckets : buckets = []
  · rw [hbuckets]
    rfl
  · exact (place_perm f hbuckets).2

theorem length_balance (functions : List FunctionRecord) (groups : Nat) :
    (balance functions groups).length = groups := by
  have hfold (sorted : List FunctionRecord) (buckets : List Bucket) :
      (sorted.foldl (fun buckets f => place f buckets) buckets).length = buckets.length := by
    induction sorted generalizing buckets with
    | nil => rfl
    | cons f sorted ih => rw [List.foldl_cons, ih, length_place]
  rw [balance, List.length_map, hfold, List.length_replicate]

/-! ## The last bucket is joined -/

theorem mergeLast_ne_nil (minClusterSize : Int) {buckets : List (List FunctionRecord)}
    (h : ∀ bucket ∈ buckets, bucket ≠ []) :
    ∀ bucket ∈ mergeLast minClusterSize buckets, bucket ≠ [] := by
  fun_induction mergeLast minClusterSize buckets with
  | case1 => exact h
  | case2 => exact h
  | case3 before last hfew =>
      have hbefore := h before (by simp)
      simp [hbefore]
  | case4 => exact h
  | case5 first second third rest ih =>
      rw [List.forall_mem_cons] at h ⊢
      exact ⟨h.1, ih h.2⟩

theorem length_mergeLast_le (minClusterSize : Int) (buckets : List (List FunctionRecord)) :
    (mergeLast minClusterSize buckets).length ≤ buckets.length := by
  fun_induction mergeLast minClusterSize buckets with
  | case1 => exact le_refl _
  | case2 => exact le_refl _
  | case3 => simp
  | case4 => exact le_refl _
  | case5 first second third rest ih => simpa using ih

/-! ## How many buckets there are -/

/-- There are never more buckets than functions for them, nor than the limit leaves room for. -/
theorem bucketCount?_le {moveable : Nat} {minClusterSize maxFiles count : Int} {hasOriginal : Bool}
    (hlength : moveable < 2 ^ 53) (hsize : minClusterSize < 2 ^ 53)
    (hcount : bucketCount? moveable hasOriginal maxFiles minClusterSize = some count) :
    count ≤ moveable ∧ count ≤ max 1 (maxFiles - hasOriginal.toNat) := by
  unfold bucketCount? at hcount
  split at hcount
  · obtain rfl := Option.some.inj hcount
    omega
  · next hmoveable =>
      obtain ⟨ceiling, hceiling, rfl⟩ := Option.map_eq_some_iff.1 hcount
      have hnotneg : ¬ (moveable : Int) < 0 := by omega
      simp only [floatQuotient, hnotneg, decide_false, Int.natAbs_natCast] at hceiling
      have hle := Double.ceil?_ofQuotient_le (by omega) (by omega) hlength (by omega) hceiling
      cases hasOriginal <;> simp <;> omega

variable {functions : List FunctionRecord} (maxFiles : Int) {minClusterSize : Int}
  (basename : Option String)

theorem spread_ne_nil (hlength : functions.length < 2 ^ 53) (hsize : minClusterSize < 2 ^ 53) :
    ∀ bucket ∈ spread functions maxFiles minClusterSize, bucket ≠ [] := by
  have hmoveable : (functions.filter (·.moveable)).length ≤ functions.length :=
    List.length_filter_le _ _
  unfold spread
  simp only
  split
  · simp
  · next hgroups =>
      apply mergeLast_ne_nil
      apply balance_ne_nil
      cases hcount : bucketCount? (functions.filter (·.moveable)).length
          (!(functions.filter (!·.moveable)).isEmpty) maxFiles minClusterSize with
      | none => simp
      | some count =>
          have hle := (bucketCount?_le (by omega) hsize hcount).1
          simp only [Option.getD_some]
          omega

theorem length_bucketModules (n : Nat) (taken : List String) (buckets : List (List FunctionRecord)) :
    (bucketModules n taken buckets).length = buckets.length := by
  induction buckets generalizing n taken with
  | nil => rfl
  | cons bucket buckets ih => simp [bucketModules, ih]

theorem bucketModules_ne_nil (n : Nat) (taken : List String) {buckets : List (List FunctionRecord)}
    (h : ∀ bucket ∈ buckets, bucket ≠ []) :
    ∀ m ∈ bucketModules n taken buckets, m.functions ≠ [] := by
  induction buckets generalizing n taken with
  | nil => simp [bucketModules]
  | cons bucket buckets ih =>
      rw [List.forall_mem_cons] at h
      obtain ⟨m, hmodules, hfunctions, -⟩ := bucketModules_cons n taken bucket buckets
      rw [hmodules]
      refine List.forall_mem_cons.2 ⟨?_, ih _ _ h.2⟩
      rw [hfunctions, ← List.length_pos_iff, List.length_map, sourceOrder, List.length_mergeSort,
        List.length_pos_iff]
      exact h.1

/-- Each kind of function that there is, movable or not, is worth one module. -/
def neededModules (functions : List FunctionRecord) : Nat :=
  (functions.any (!·.moveable)).toNat + (functions.any (·.moveable)).toNat

theorem length_originalModules (functions : List FunctionRecord) :
    (originalModules functions).length = (functions.any (!·.moveable)).toNat := by
  unfold originalModules
  split
  · next hempty =>
      have hnone : functions.any (!·.moveable) = false := by
        simpa [List.filter_eq_nil_iff] using hempty
      rw [hnone]
      rfl
  · next hsome =>
      have hany : functions.any (!·.moveable) = true := by
        simpa [List.filter_eq_nil_iff] using hsome
      rw [hany]
      rfl

theorem originalModules_ne_nil_iff :
    originalModules functions ≠ [] ↔ ∃ f ∈ functions, f.moveable = false := by
  unfold originalModules
  split <;> simp_all [List.filter_eq_nil_iff]

theorem perm_of_mem_originalModules {m : ModuleSpec} (hm : m ∈ originalModules functions) :
    m.functions.Perm ((functions.filter (!·.moveable)).map (·.id)) ∧ m.functions ≠ [] := by
  unfold originalModules at hm
  split at hm
  · cases hm
  · next hsome =>
      obtain rfl := List.mem_singleton.1 hm
      have hperm := (List.mergeSort_perm (functions.filter (!·.moveable))
        fun f g => f.start ≤ g.start).map (·.id)
      refine ⟨hperm, fun hnil => hsome ?_⟩
      have hempty : (functions.filter (!·.moveable)).map (·.id) = [] := by
        simp only at hnil
        rw [sourceOrder] at hnil
        rw [hnil] at hperm
        exact hperm.nil_eq.symm
      rw [List.map_eq_nil_iff.1 hempty]
      rfl

theorem length_spread_le (hlength : functions.length < 2 ^ 53) (hsize : minClusterSize < 2 ^ 53) :
    ((spread functions maxFiles minClusterSize).length : Int) ≤
      max (maxFiles - (functions.any (!·.moveable)).toNat) (functions.any (·.moveable)).toNat := by
  have hmoveable : (functions.filter (·.moveable)).length ≤ functions.length :=
    List.length_filter_le _ _
  have hfixed : (!(functions.filter (!·.moveable)).isEmpty) = functions.any (!·.moveable) := by
    rw [Bool.eq_iff_iff]
    simp [List.filter_eq_nil_iff]
  unfold spread
  simp only [hfixed]
  split
  · simp
  · next hgroups =>
      cases hcount : bucketCount? (functions.filter (·.moveable)).length
          (functions.any (!·.moveable)) maxFiles minClusterSize with
      | none => simp [hcount] at hgroups
      | some count =>
          obtain ⟨hfew, hroom⟩ := bucketCount?_le (by omega) hsize hcount
          rw [hcount, Option.getD_some] at hgroups
          have hany : functions.any (·.moveable) = true := by
            by_contra hnone
            have hempty : functions.filter (·.moveable) = [] := by
              simpa [List.filter_eq_nil_iff] using hnone
            rw [hempty] at hcount
            exact hgroups (Option.some.inj hcount).symm
          have hmerged := length_mergeLast_le minClusterSize
            (balance (functions.filter (·.moveable)) count.toNat)
          rw [length_balance] at hmerged
          rw [Option.getD_some, hany, Bool.toNat_true]
          omega

/-! ## The partition -/

/-- A balanced plan is a partition of the functions into modules of which none is empty. The functions that
cannot be moved have a module to themselves, whose slug is reserved. The limit on modules is kept as far as it
leaves room for both kinds of functions, so the plan passes the check unless the limit does not. -/
theorem balanced_partitions (hids : (functions.map (·.id)).Nodup) (hlength : functions.length < 2 ^ 53)
    (hsize : minClusterSize < 2 ^ 53) :
    let plan := balanced functions maxFiles minClusterSize basename
    plan.assigned.Perm (functions.map (·.id)) ∧
      (∀ m ∈ plan.modules, m.functions ≠ []) ∧
      ((∃ m ∈ plan.modules, m.slug = originalSlug) ↔ ∃ f ∈ functions, f.moveable = false) ∧
      (∀ m ∈ plan.modules, m.slug = originalSlug →
        m.functions.Perm ((functions.filter (!·.moveable)).map (·.id))) ∧
      (plan.modules.map (·.slug)).Nodup ∧
      (∀ m ∈ plan.modules, m.slug ≠ originalSlug →
        ∀ name, basename = some name → m.slug ≠ Text.lower name) ∧
      (plan.modules.length : Int) ≤ max maxFiles (neededModules functions) ∧
      plan.validate functions (max maxFiles plan.modules.length) basename = .ok () := by
  intro plan
  have hlarge : functions.length < 2 ^ 63 := hlength.trans (by decide)
  obtain ⟨hslugs, hnodup⟩ := @balanced_slugs functions maxFiles minClusterSize basename
  have hfew : (plan.modules.length : Int) ≤ max maxFiles (neededModules functions) := by
    have hspread := length_spread_le maxFiles hlength hsize
    rw [modules_balanced, List.length_append, length_originalModules, length_bucketModules,
      neededModules]
    omega
  have horiginal (m : ModuleSpec) (hm : m ∈ plan.modules) (hslug : m.slug = originalSlug) :
      m ∈ originalModules functions :=
    (hslugs m hm).2.2.resolve_right fun hfree =>
      hfree (hslug ▸ originalSlug_mem_reserved basename)
  refine ⟨assigned_balanced maxFiles basename hlarge hsize, ?_, ?_, ?_, hnodup, ?_, hfew,
    validate_eq_ok.2 (balanced_fits maxFiles basename hids hlarge hsize (le_max_right _ _))⟩
  · intro m hm
    rw [modules_balanced, List.mem_append] at hm
    rcases hm with hm | hm
    · exact (perm_of_mem_originalModules hm).2
    · exact bucketModules_ne_nil _ _ (spread_ne_nil maxFiles hlength hsize) m hm
  · constructor
    · rintro ⟨m, hm, hslug⟩
      exact originalModules_ne_nil_iff.1 (List.ne_nil_of_mem (horiginal m hm hslug))
    · intro hfixed
      obtain ⟨m, hm⟩ := List.exists_mem_of_ne_nil _ (originalModules_ne_nil_iff.2 hfixed)
      exact ⟨m, modules_balanced maxFiles basename ▸ List.mem_append_left _ hm,
        (mem_originalModules hm).1⟩
  · intro m hm hslug
    exact (perm_of_mem_originalModules (horiginal m hm hslug)).1
  · rintro m hm hslug name rfl heq
    obtain ⟨hmade, -, hfirst | hfree⟩ := hslugs m hm
    · exact hslug (mem_originalModules hfirst).1
    · by_cases hname : name = ""
      · exact hmade.ne_empty (heq.trans (by rw [hname]; rfl))
      · exact hfree (heq ▸ lower_mem_reserved hname)

/-- Functions that want the same slugs: one is the name of the script, one is reserved, and one must stay. -/
def crowded : List FunctionRecord :=
  [{ id := "f0", name := "App", start := 0, stop := 9, moveable := true },
    { id := "f1", name := "state", start := 10, stop := 30 },
    { id := "f2", name := "original", start := 31, stop := 31, moveable := true },
    { id := "f3", name := "App", start := 40, stop := 70, moveable := true }]

theorem balanced_partitions_crowded :
    (crowded.map (·.id)).Nodup ∧ crowded.length < 2 ^ 53 ∧ (1 : Int) < 2 ^ 53 ∧
      (let plan := balanced crowded 0 1 (some "App")
      plan.assigned.Perm ["f0", "f1", "f2", "f3"] ∧ (∀ m ∈ plan.modules, m.functions ≠ []) ∧
        (∃ m ∈ plan.modules, m.slug = originalSlug ∧ m.functions.Perm ["f1"]) ∧
        plan.modules.length ≤ 2 ∧
        plan.validate crowded (max 0 plan.modules.length) (some "App") = .ok ()) := by
  have hids : (crowded.map (·.id)).Nodup := by decide
  have hlength : crowded.length < 2 ^ 53 := by decide
  have hsize : (1 : Int) < 2 ^ 53 := by decide
  obtain ⟨hassigned, hfilled, hsource, hfixed, -, -, hfew, hvalid⟩ :=
    balanced_partitions 0 (some "App") hids hlength hsize
  obtain ⟨m, hm, hslug⟩ := hsource.2 (by decide)
  refine ⟨hids, hlength, hsize, hassigned, hfilled, ⟨m, hm, hslug, hfixed m hm hslug⟩, ?_, hvalid⟩
  have hneeded : neededModules crowded = 2 := by decide
  rw [hneeded] at hfew
  exact Int.ofNat_le.1 hfew

end Plan

end ScriptSplit
