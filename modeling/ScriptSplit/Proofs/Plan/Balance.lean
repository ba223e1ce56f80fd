import Mathlib
import ScriptSplit.Proofs.Number.Quotient
import ScriptSplit.Proofs.Plan.Slug
import ScriptSplit.Proofs.Plan.Storing
import ScriptSplit.Proofs.Plan.Validity

/-!
# Balanced plans are valid

Every function that can be moved ends up in exactly one bucket, however the buckets fill. The buckets become
modules with free slugs, so the plan fits the functions and can be stored.
-/

namespace ScriptSplit.Plan

/-! ## Buckets -/

theorem place_into_perm (f : FunctionRecord) {lightest : Int} {buckets : List Bucket}
    (hlightest : lightest ∈ buckets.map (·.load)) :
    ((place.into f lightest buckets).flatMap (·.functions)).Perm
      (f :: buckets.flatMap (·.functions)) := by
  induction buckets with
  | nil => simp at hlightest
  | cons bucket buckets ih =>
      unfold place.into
      split
      · simp only [List.flatMap_cons, Bucket.add, List.append_assoc]
        exact List.perm_middle
      · next hload =>
          rw [List.map_cons, List.mem_cons] at hlightest
          have hrest := ih (hlightest.resolve_left fun heq => hload heq.symm)
          simp only [List.flatMap_cons]
          exact (hrest.append_left _).trans List.perm_middle

theorem length_place_into (f : FunctionRecord) (lightest : Int) (buckets : List Bucket) :
    (place.into f lightest buckets).length = buckets.length := by
  induction buckets with
  | nil => rfl
  | cons bucket buckets ih =>
      unfold place.into
      split <;> simp [ih]

theorem place_perm (f : FunctionRecord) {buckets : List Bucket} (hbuckets : buckets ≠ []) :
    ((place f buckets).flatMap (·.functions)).Perm (f :: buckets.flatMap (·.functions)) ∧
      (place f buckets).length = buckets.length := by
  unfold place
  cases hmin : (buckets.map (·.load)).min? with
  | none => exact absurd (List.map_eq_nil_iff.1 (List.min?_eq_none_iff.1 hmin)) hbuckets
  | some lightest =>
      exact ⟨place_into_perm f (List.min?_mem hmin), length_place_into f lightest buckets⟩

/-- The run lemma of `balance`: no function is lost and none is there twice. -/
theorem foldl_place_perm (functions : List FunctionRecord) {buckets : List Bucket}
    (hbuckets : buckets ≠ []) :
    ((functions.foldl (fun buckets f => place f buckets) buckets).flatMap (·.functions)).Perm
      (functions ++ buckets.flatMap (·.functions)) := by
  induction functions generalizing buckets with
  | nil => exact List.Perm.refl _
  | cons f functions ih =>
      obtain ⟨hperm, hlength⟩ := place_perm f hbuckets
      have hplaced : place f buckets ≠ [] := by
        rw [← List.length_pos_iff, hlength, List.length_pos_iff]
        exact hbuckets
      rw [List.foldl_cons]
      exact (ih hplaced).trans ((hperm.append_left functions).trans List.perm_middle)

theorem balance_perm (functions : List FunctionRecord) {groups : Nat} (hgroups : 0 < groups) :
    (balance functions groups).flatten.Perm functions := by
  have hbuckets : List.replicate groups ({} : Bucket) ≠ [] := by
    simpa using hgroups.ne'
  have hempty : (List.replicate groups ({} : Bucket)).flatMap (·.functions) = [] := by
    simp [List.flatMap_eq_nil_iff]
  have hplaced := foldl_place_perm (functions.mergeSort placedBefore) hbuckets
  rw [hempty, List.append_nil, List.flatMap_def] at hplaced
  exact hplaced.trans (List.mergeSort_perm _ _)

theorem balance_zero (functions : List FunctionRecord) : balance functions 0 = [] := by
  have hfold (sorted : List FunctionRecord) :
      sorted.foldl (fun buckets f => place f buckets) [] = [] := by
    induction sorted with
    | nil => rfl
    | cons f sorted ih => exact ih
  rw [balance, List.replicate_zero, hfold, List.map_nil]

theorem mergeLast_flatten (minClusterSize : Int) (buckets : List (List FunctionRecord)) :
    (mergeLast minClusterSize buckets).flatten = buckets.flatten := by
  fun_induction mergeLast minClusterSize buckets with
  | case1 => rfl
  | case2 => rfl
  | case3 => simp
  | case4 => rfl
  | case5 first second third rest ih => simp [ih]

/-! ## Modules of buckets -/

/-- The module of the first bucket takes a free slug, which the later ones leave alone. -/
theorem bucketModules_cons (n : Nat) (taken : List String) (bucket : List FunctionRecord)
    (rest : List (List FunctionRecord)) :
    ∃ m : ModuleSpec, bucketModules n taken (bucket :: rest) =
        m :: bucketModules (n + 1) (m.slug :: taken) rest ∧
      m.functions = (sourceOrder bucket).map (·.id) ∧
        MadeSlug m.slug ∧ m.slug ∉ taken ∧ m.name ≠ "" := by
  refine ⟨_, rfl, rfl, ?_, uniqueSlug_not_mem _ taken, ?_⟩
  · apply madeSlug_uniqueSlug
    split
    · exact madeSlug_mod n
    · next hne => exact madeSlug_slugify (by simpa using hne)
  · simp only
    split
    · exact (madeSlug_mod n).ne_empty
    · next hne =>
        intro hempty
        rw [hempty] at hne
        exact hne (by decide)

theorem bucketModules_functions (n : Nat) (taken : List String)
    (buckets : List (List FunctionRecord)) :
    ((bucketModules n taken buckets).flatMap (·.functions)).Perm
      (buckets.flatten.map (·.id)) := by
  induction buckets generalizing n taken with
  | nil => exact List.Perm.refl _
  | cons bucket buckets ih =>
      obtain ⟨m, hmodules, hfunctions, -⟩ := bucketModules_cons n taken bucket buckets
      rw [hmodules, List.flatMap_cons, List.flatten_cons, List.map_append, hfunctions]
      exact ((List.mergeSort_perm _ _).map _).append (ih _ _)

theorem bucketModules_slugs (n : Nat) (taken : List String)
    (buckets : List (List FunctionRecord)) :
    (∀ m ∈ bucketModules n taken buckets,
      MadeSlug m.slug ∧ m.slug ∉ taken ∧ m.name ≠ "") ∧
        ((bucketModules n taken buckets).map (·.slug)).Nodup := by
  induction buckets generalizing n taken with
  | nil => simp [bucketModules]
  | cons bucket buckets ih =>
      obtain ⟨m, hmodules, -, hmade, hfree, hname⟩ := bucketModules_cons n taken bucket buckets
      obtain ⟨hrest, hnodup⟩ := ih (n + 1) (m.slug :: taken)
      rw [hmodules]
      constructor
      · intro m' hm'
        rcases List.mem_cons.1 hm' with rfl | hm'
        · exact ⟨hmade, hfree, hname⟩
        · obtain ⟨hmade', hfree', hname'⟩ := hrest m' hm'
          exact ⟨hmade', fun htaken => hfree' (List.mem_cons_of_mem _ htaken), hname'⟩
      · rw [List.map_cons, List.nodup_cons]
        refine ⟨?_, hnodup⟩
        intro hmem
        obtain ⟨m', hm', heq⟩ := List.mem_map.1 hmem
        exact (hrest m' hm').2.1 (heq ▸ List.mem_cons_self)

/-! ## The plan -/

/-- Where there is something to place, there are buckets. The bounds keep the quotient of the sizes a number
that is neither infinite nor zero. -/
theorem bucketCount?_pos {moveable : Nat} {minClusterSize : Int} (hmoveable : 0 < moveable)
    (hlength : moveable < 2 ^ 63) (hsize : minClusterSize < 2 ^ 53) (hasOriginal : Bool)
    (maxFiles : Int) :
    ∃ count, bucketCount? moveable hasOriginal maxFiles minClusterSize = some count ∧
      0 < count := by
  have hnotneg : ¬ (moveable : Int) < 0 := by omega
  have hden : 0 < (max 1 minClusterSize).natAbs := by omega
  obtain ⟨ceiling, hceiling, hpos⟩ :=
    Double.ceil?_ofQuotient_pos hmoveable hden hlength (by omega)
  unfold bucketCount?
  rw [if_neg (by omega), floatQuotient]
  simp only [hnotneg, decide_false, Int.natAbs_natCast, hceiling, Option.map_some]
  exact ⟨_, rfl, by omega⟩

def originalModules (functions : List FunctionRecord) : List ModuleSpec :=
  if (functions.filter (!·.moveable)).isEmpty then []
  else [{ name := originalSlug, slug := originalSlug,
          functions := (sourceOrder (functions.filter (!·.moveable))).map (·.id) }]

/-- The buckets of a balanced plan. -/
def spread (functions : List FunctionRecord) (maxFiles minClusterSize : Int) :
    List (List FunctionRecord) :=
  let moveable := functions.filter (·.moveable)
  let groups := (bucketCount? moveable.length (!(functions.filter (!·.moveable)).isEmpty)
    maxFiles minClusterSize).getD 0
  if groups = 0 then [] else mergeLast minClusterSize (balance moveable groups.toNat)

variable {functions : List FunctionRecord} (maxFiles : Int) {minClusterSize : Int}
  (basename : Option String)

theorem modules_balanced : (balanced functions maxFiles minClusterSize basename).modules =
    originalModules functions ++
      bucketModules 1 (reservedSlugs basename) (spread functions maxFiles minClusterSize) := rfl

/-- The buckets hold exactly what can be moved. -/
theorem spread_perm (hlength : functions.length < 2 ^ 63) (hsize : minClusterSize < 2 ^ 53) :
    (spread functions maxFiles minClusterSize).flatten.Perm (functions.filter (·.moveable)) := by
  unfold spread
  simp only
  by_cases hnone : functions.filter (·.moveable) = []
  · rw [hnone]
    simp [bucketCount?]
  · have hpos : 0 < (functions.filter (·.moveable)).length := List.length_pos_iff.2 hnone
    have hle : (functions.filter (·.moveable)).length ≤ functions.length := List.length_filter_le _ _
    obtain ⟨count, hcount, hcountPos⟩ := bucketCount?_pos hpos (by omega) hsize
      (!(functions.filter (!·.moveable)).isEmpty) maxFiles
    rw [hcount, Option.getD_some, if_neg (by omega), mergeLast_flatten]
    exact balance_perm _ (by omega)

/-- However many buckets there are, nothing is in them twice: without one they hold nothing. -/
theorem spread_subperm (functions : List FunctionRecord) (maxFiles minClusterSize : Int) :
    (spread functions maxFiles minClusterSize).flatten.Subperm (functions.filter (·.moveable)) := by
  unfold spread
  simp only
  split
  · exact List.nil_subperm
  · rw [mergeLast_flatten]
    rcases Nat.eq_zero_or_pos (Option.getD (bucketCount? (functions.filter (·.moveable)).length
        (!(functions.filter (!·.moveable)).isEmpty) maxFiles minClusterSize) 0).toNat with hzero | hpos
    · rw [hzero, balance_zero]
      exact List.nil_subperm
    · exact (balance_perm _ hpos).subperm

theorem originalModules_functions (functions : List FunctionRecord) :
    ((originalModules functions).flatMap (·.functions)).Perm
      ((functions.filter (!·.moveable)).map (·.id)) := by
  unfold originalModules
  split
  · next hempty =>
      rw [List.isEmpty_iff.1 hempty]
      exact List.Perm.refl _
  · rw [List.flatMap_cons, List.flatMap_nil, List.append_nil]
    exact (List.mergeSort_perm _ _).map _

theorem assigned_balanced_perm (functions : List FunctionRecord) (maxFiles minClusterSize : Int)
    (basename : Option String) :
    (balanced functions maxFiles minClusterSize basename).assigned.Perm
      ((functions.filter (!·.moveable) ++
        (spread functions maxFiles minClusterSize).flatten).map (·.id)) := by
  rw [assigned, modules_balanced, List.flatMap_append, List.map_append]
  exact (originalModules_functions functions).append (bucketModules_functions _ _ _)

theorem assigned_balanced (hlength : functions.length < 2 ^ 63) (hsize : minClusterSize < 2 ^ 53) :
    (balanced functions maxFiles minClusterSize basename).assigned.Perm
      (functions.map (·.id)) := by
  refine (assigned_balanced_perm functions maxFiles minClusterSize basename).trans (List.Perm.map _ ?_)
  refine ((spread_perm maxFiles hlength hsize).append_left _).trans ?_
  exact List.perm_append_comm.trans (List.filter_append_perm _ _)

theorem nodup_assigned_balanced (hids : (functions.map (·.id)).Nodup) :
    (balanced functions maxFiles minClusterSize basename).assigned.Nodup := by
  rw [(assigned_balanced_perm functions maxFiles minClusterSize basename).nodup_iff]
  have hall : (functions.filter (!·.moveable) ++ functions.filter (·.moveable)).Perm functions :=
    List.perm_append_comm.trans (List.filter_append_perm _ _)
  have hsub := ((List.subperm_append_left (functions.filter (!·.moveable))).2
    (spread_subperm functions maxFiles minClusterSize)).trans hall.subperm
  obtain ⟨kept, hperm, hsublist⟩ := hsub
  exact (hperm.map _).nodup_iff.1 (hids.sublist (hsublist.map _))

theorem isOriginal_iff {m : ModuleSpec} (hslug : MadeSlug m.slug) :
    m.isOriginal = true ↔ m.slug = originalSlug := by
  rw [ModuleSpec.isOriginal, hslug.lower_eq, beq_iff_eq]

theorem mem_originalModules {m : ModuleSpec} (hm : m ∈ originalModules functions) :
    m.slug = originalSlug ∧ m.name ≠ "" ∧ ∀ id, id ∈ m.functions ↔
      id ∈ (functions.filter (!·.moveable)).map (·.id) := by
  unfold originalModules at hm
  split at hm
  · cases hm
  · obtain rfl := List.mem_singleton.1 hm
    have hname : originalSlug ≠ "" := by decide
    refine ⟨rfl, hname, fun id => ?_⟩
    exact ((List.mergeSort_perm _ _).map _).mem_iff

theorem originalSlug_mem_reserved : originalSlug ∈ reservedSlugs basename := by
  unfold reservedSlugs
  split
  · simp
  · split <;> simp

theorem lower_mem_reserved {name : String} (hname : name ≠ "") :
    Text.lower name ∈ reservedSlugs (some name) := by
  simp [reservedSlugs, hname]

theorem balanced_slugs :
    let plan := balanced functions maxFiles minClusterSize basename
    (∀ m ∈ plan.modules, MadeSlug m.slug ∧ m.name ≠ "" ∧
        (m ∈ originalModules functions ∨ m.slug ∉ reservedSlugs basename)) ∧
      (plan.modules.map (·.slug)).Nodup := by
  obtain ⟨hbuckets, hnodup⟩ := bucketModules_slugs 1 (reservedSlugs basename)
    (spread functions maxFiles minClusterSize)
  simp only [modules_balanced]
  constructor
  · intro m hm
    rcases List.mem_append.1 hm with hm | hm
    · obtain ⟨hslug, hname, -⟩ := mem_originalModules hm
      exact ⟨hslug ▸ madeSlug_original, hname, Or.inl hm⟩
    · obtain ⟨hmade, hfree, hname⟩ := hbuckets m hm
      exact ⟨hmade, hname, Or.inr hfree⟩
  · rw [List.map_append, List.nodup_append]
    refine ⟨?_, hnodup, ?_⟩
    · unfold originalModules
      split <;> simp
    · rintro slug hslug _ hother rfl
      obtain ⟨m, hm, rfl⟩ := List.mem_map.1 hslug
      obtain ⟨m', hm', heq⟩ := List.mem_map.1 hother
      refine (hbuckets m' hm').2.1 ?_
      rw [heq, (mem_originalModules hm).1]
      exact originalSlug_mem_reserved basename

theorem balanced_storable (hids : (functions.map (·.id)).Nodup) :
    (balanced functions maxFiles minClusterSize basename).Storable := by
  obtain ⟨hslugs, hnodup⟩ := @balanced_slugs functions maxFiles minClusterSize basename
  refine ⟨fun m hm => (hslugs m hm).2.1, fun m hm => (hslugs m hm).1.isSlug, ?_,
    nodup_assigned_balanced maxFiles basename hids⟩
  have hlower : (balanced functions maxFiles minClusterSize basename).modules.map
      (Text.lower ·.slug) = (balanced functions maxFiles minClusterSize basename).modules.map
        (·.slug) :=
    List.map_congr_left fun m hm => (hslugs m hm).1.lower_eq
  rw [hlower]
  exact hnodup

theorem original?_balanced :
    (balanced functions maxFiles minClusterSize basename).original? =
      (originalModules functions).head? := by
  obtain ⟨hbuckets, -⟩ := bucketModules_slugs 1 (reservedSlugs basename)
    (spread functions maxFiles minClusterSize)
  have hnone : (bucketModules 1 (reservedSlugs basename)
      (spread functions maxFiles minClusterSize)).find? (·.isOriginal) = none := by
    rw [List.find?_eq_none]
    intro m hm hmoriginal
    obtain ⟨hmade, hfree, -⟩ := hbuckets m hm
    rw [(isOriginal_iff hmade).1 hmoriginal] at hfree
    exact hfree (originalSlug_mem_reserved basename)
  rw [original?, modules_balanced, List.find?_append, hnone, Option.or_none]
  unfold originalModules
  split
  · rfl
  · have hfirst (ids : List String) :
        ModuleSpec.isOriginal ⟨originalSlug, originalSlug, ids⟩ = true :=
      (isOriginal_iff madeSlug_original).2 rfl
    rw [List.find?_cons, hfirst]
    rfl

theorem balanced_fits (hids : (functions.map (·.id)).Nodup)
    (hlength : functions.length < 2 ^ 63) (hsize : minClusterSize < 2 ^ 53) {limit : Int}
    (hlimit : ((balanced functions maxFiles minClusterSize basename).modules.length : Int) ≤ limit) :
    (balanced functions maxFiles minClusterSize basename).Fits functions limit basename := by
  have hassigned := assigned_balanced maxFiles basename hlength hsize
  have horiginal := @original?_balanced functions maxFiles minClusterSize basename
  obtain ⟨hslugs, -⟩ := @balanced_slugs functions maxFiles minClusterSize basename
  refine ⟨fun id hid => hassigned.mem_iff.1 hid, hassigned.nodup_iff.2 hids,
    fun id hid => hassigned.mem_iff.2 hid, hlimit, ?_, ?_, ?_⟩
  · intro hnone f hf
    rw [horiginal] at hnone
    unfold originalModules at hnone
    split at hnone
    · next hempty =>
        have hkept := List.filter_eq_nil_iff.1 (List.isEmpty_iff.1 hempty) f hf
        simpa using hkept
    · cases hnone
  · intro m hm
    rw [horiginal] at hm
    exact (mem_originalModules (List.mem_of_head? hm)).2.2
  · rintro name rfl hname - m hm hother heq
    obtain ⟨hmade, -, hfirst | hfree⟩ := hslugs m hm
    · rw [(isOriginal_iff hmade).2 (mem_originalModules hfirst).1] at hother
      cases hother
    · rw [hmade.lower_eq] at heq
      exact hfree (heq ▸ lower_mem_reserved hname)

end ScriptSplit.Plan
