import ScriptSplit.Proofs.Plan.Packing

/-!
# Modules of a minimum size

There are no more buckets than the minimum allows on average, but functions are spread over them by size and not by
number: a function that outweighs all others has its bucket to itself, and only a last bucket with too few functions
is ever joined to another. So it takes more than the settings to keep the minimum, unless they leave one bucket for
all functions or are content with one function in each. It is kept as well where no function is too large a part of
them all.
-/

namespace ScriptSplit.Plan

/-- Whether every module but the one that keeps the source has at least so many functions. -/
def KeepsMinimum (minClusterSize : Int) (plan : Plan) : Prop :=
  ∀ m ∈ plan.modules, m.slug ≠ originalSlug → minClusterSize ≤ m.functions.length

/-! ## How many buckets there are -/

/-- The number of buckets for some functions: no more than the limit leaves room for, and no more than have the
minimum on average, the last one aside. -/
def bucketLimit (moveable : Nat) (hasOriginal : Bool) (maxFiles minClusterSize : Int) : Int :=
  min (max 1 (maxFiles - hasOriginal.toNat)) ((moveable + (minClusterSize - 1)) / minClusterSize)

section Limit

variable {moveable : Nat} {hasOriginal : Bool} {maxFiles minClusterSize : Int}

/-- The quotient of two numbers that need no rounding is rounded, but its ceiling is exact. -/
theorem bucketCount?_eq (hmin : 1 ≤ minClusterSize) (henough : minClusterSize ≤ moveable)
    (hfew : moveable < 2 ^ 53) : bucketCount? moveable hasOriginal maxFiles minClusterSize =
      some (bucketLimit moveable hasOriginal maxFiles minClusterSize) := by
  obtain ⟨size, rfl⟩ := Int.eq_ofNat_of_zero_le (by omega : 0 ≤ minClusterSize)
  have hceiling : (Double.ofQuotient false moveable size).ceil? =
      some (((moveable + (size - 1)) / size : Nat) : Int) :=
    Double.ceil?_ofQuotient_eq (by omega) (by omega) hfew (by omega)
  have hnotneg : ¬ (moveable : Int) < 0 := by omega
  have hsize : max 1 (size : Int) = size := by omega
  have hroom : (if hasOriginal = true then 1 else 0 : Int) = hasOriginal.toNat := by cases hasOriginal <;> rfl
  rw [bucketCount?, if_neg (by omega)]
  simp only [floatQuotient, hnotneg, decide_false, Int.natAbs_natCast, hsize, hceiling, hroom, Option.map_some,
    bucketLimit]
  congr 2
  rw [Int.natCast_div, Nat.cast_add, Nat.cast_sub (by omega), Nat.cast_one]

theorem bucketLimit_pos (hmin : 1 ≤ minClusterSize) (henough : minClusterSize ≤ moveable) :
    1 ≤ bucketLimit moveable hasOriginal maxFiles minClusterSize := by
  have hceiling : 1 ≤ (moveable + (minClusterSize - 1)) / minClusterSize :=
    (Int.le_ediv_iff_mul_le (by omega)).2 (by omega)
  unfold bucketLimit
  omega

theorem bucketLimit_le (hmin : 1 ≤ minClusterSize) :
    bucketLimit moveable hasOriginal maxFiles minClusterSize ≤ moveable := by
  have hceiling : (moveable + (minClusterSize - 1)) / minClusterSize < moveable + 1 := by
    refine Int.ediv_lt_of_lt_mul (by omega) ?_
    have hmul : (moveable : Int) * 1 ≤ moveable * minClusterSize := Int.mul_le_mul_of_nonneg_left hmin (by omega)
    linarith
  unfold bucketLimit
  omega

theorem bucketLimit_eq_one (hmin : 1 ≤ minClusterSize) (henough : minClusterSize ≤ moveable) :
    bucketLimit moveable hasOriginal maxFiles minClusterSize = 1 ↔
      moveable = minClusterSize ∨ maxFiles - hasOriginal.toNat ≤ 1 := by
  have hpos : 1 ≤ bucketLimit moveable hasOriginal maxFiles minClusterSize := bucketLimit_pos hmin henough
  have htwo : 2 ≤ (moveable + (minClusterSize - 1)) / minClusterSize ↔ minClusterSize < moveable := by
    rw [Int.le_ediv_iff_mul_le (by omega)]
    omega
  unfold bucketLimit at hpos ⊢
  omega

end Limit

/-! ## Modules and buckets -/

theorem lengths_bucketModules (n : Nat) (taken : List String) (buckets : List (List FunctionRecord)) :
    (bucketModules n taken buckets).map (·.functions.length) = buckets.map (·.length) := by
  induction buckets generalizing n taken with
  | nil => rfl
  | cons bucket buckets ih =>
      obtain ⟨m, hmodules, hfunctions, -⟩ := bucketModules_cons n taken bucket buckets
      rw [hmodules, List.map_cons, List.map_cons, ih, hfunctions, List.length_map, sourceOrder, List.length_mergeSort]

section Buckets

theorem spread_eq {functions : List FunctionRecord} {minClusterSize : Int} (maxFiles : Int)
    (hmin : 1 ≤ minClusterSize) (henough : minClusterSize ≤ (functions.filter (·.moveable)).length)
    (hfew : (functions.filter (·.moveable)).length < 2 ^ 53) : spread functions maxFiles minClusterSize =
      mergeLast minClusterSize (balance (functions.filter (·.moveable))
        (bucketLimit (functions.filter (·.moveable)).length (!(functions.filter (!·.moveable)).isEmpty) maxFiles
          minClusterSize).toNat) := by
  have hlimit : 1 ≤ bucketLimit (functions.filter (·.moveable)).length (!(functions.filter (!·.moveable)).isEmpty)
      maxFiles minClusterSize :=
    bucketLimit_pos hmin henough
  unfold spread
  simp only [bucketCount?_eq hmin henough hfew, Option.getD_some]
  rw [if_neg (by omega)]

variable {functions : List FunctionRecord} {maxFiles minClusterSize : Int} {basename : Option String}
  {first : List FunctionRecord} {buckets : List (List FunctionRecord)}

theorem keepsMinimum_balanced_iff : KeepsMinimum minClusterSize (balanced functions maxFiles minClusterSize basename) ↔
    ∀ bucket ∈ spread functions maxFiles minClusterSize, minClusterSize ≤ bucket.length := by
  have hslugs := (bucketModules_slugs 1 (reservedSlugs basename) (spread functions maxFiles minClusterSize)).1
  have hlengths := lengths_bucketModules 1 (reservedSlugs basename) (spread functions maxFiles minClusterSize)
  have hcounts (n : Nat) : (∃ m ∈ bucketModules 1 (reservedSlugs basename) (spread functions maxFiles minClusterSize),
      m.functions.length = n) ↔ ∃ bucket ∈ spread functions maxFiles minClusterSize, bucket.length = n := by
    rw [← List.mem_map, ← List.mem_map, hlengths]
  unfold KeepsMinimum
  rw [modules_balanced]
  constructor
  · intro hkept bucket hbucket
    obtain ⟨m, hm, hlength⟩ := (hcounts bucket.length).2 ⟨bucket, hbucket, rfl⟩
    rw [← hlength]
    refine hkept m (List.mem_append_right _ hm) fun hslug => (hslugs m hm).2.1 ?_
    rw [hslug]
    exact originalSlug_mem_reserved basename
  · intro hkept m hm hslug
    rcases List.mem_append.1 hm with hm | hm
    · exact absurd (mem_originalModules hm).1 hslug
    · obtain ⟨bucket, hbucket, hlength⟩ := (hcounts m.functions.length).1 ⟨m, hm, rfl⟩
      rw [← hlength]
      exact hkept bucket hbucket

theorem mergeLast_eq_self (h : ∀ bucket ∈ buckets, minClusterSize ≤ (bucket.length : Int)) :
    mergeLast minClusterSize buckets = buckets := by
  fun_induction mergeLast minClusterSize buckets with
  | case1 => rfl
  | case2 => rfl
  | case3 before last hfew =>
      have hlast := h last (by simp)
      omega
  | case4 => rfl
  | case5 first second third rest ih => rw [ih fun bucket hbucket => h bucket (List.mem_cons_of_mem _ hbucket)]

/-- The first bucket stays as it is where the others together have the minimum. -/
theorem mem_mergeLast_of_flatten (h : minClusterSize ≤ (buckets.flatten.length : Int)) :
    first ∈ mergeLast minClusterSize (first :: buckets) := by
  cases buckets with
  | nil => exact List.mem_cons_self
  | cons second rest =>
      cases rest with
      | nil =>
          rw [List.flatten_singleton] at h
          rw [mergeLast, if_neg (by omega)]
          exact List.mem_cons_self
      | cons third rest => exact List.mem_cons_self

end Buckets

/-! ## Sizes of about one order -/

theorem load_cons (f : FunctionRecord) (functions : List FunctionRecord) :
    load (f :: functions) = f.size + load functions :=
  List.sum_cons

theorem load_nonneg (functions : List FunctionRecord) : 0 ≤ load functions :=
  List.sum_nonneg fun size hsize => by
    obtain ⟨f, -, rfl⟩ := List.mem_map.1 hsize
    exact f.size_pos.le

theorem size_le_load {functions : List FunctionRecord} {f : FunctionRecord} (hf : f ∈ functions) :
    f.size ≤ load functions := by
  induction functions with
  | nil => cases hf
  | cons g rest ih =>
      have hg := g.size_pos
      have hrest := load_nonneg rest
      rw [load_cons]
      rcases List.mem_cons.1 hf with rfl | hf
      · omega
      · have hle := ih hf
        omega

theorem load_perm {functions again : List FunctionRecord} (h : again.Perm functions) : load again = load functions :=
  (h.map _).sum_eq

theorem load_flatten (buckets : List (List FunctionRecord)) : load buckets.flatten = (buckets.map load).sum := by
  induction buckets with
  | nil => rfl
  | cons bucket buckets ih =>
      rw [List.flatten_cons, List.map_cons, List.sum_cons, ← ih, load, List.map_append, List.sum_append]
      rfl

theorem sum_le_length_mul {loads : List Int} {most : Int} (h : ∀ l ∈ loads, l ≤ most) :
    loads.sum ≤ loads.length * most := by
  have hsum := List.sum_le_card_nsmul loads most h
  rwa [nsmul_eq_mul] at hsum

theorem load_le_length_mul {functions : List FunctionRecord} {largest : Int}
    (h : ∀ f ∈ functions, f.size ≤ largest) : load functions ≤ functions.length * largest := by
  have hsum : load functions ≤ (functions.map (·.size)).length * largest := sum_le_length_mul (by simpa using h)
  rwa [List.length_map] at hsum

/-- Every bucket weighs as much as any other one, less the largest function: so it has its share of all functions,
and no function is too large for it to have the minimum. -/
theorem le_length_of_mem_balance {functions bucket : List FunctionRecord} {groups : Nat} {largest minimum : Int}
    (hlargest : ∀ f ∈ functions, f.size ≤ largest) (hnonneg : 0 ≤ largest) (hgroups : 0 < groups)
    (hlevel : largest * (groups * minimum - 1) < load functions) (hbucket : bucket ∈ balance functions groups) :
    minimum ≤ bucket.length := by
  have hperm := balance_perm functions hgroups
  have hmem {other : List FunctionRecord} (hother : other ∈ balance functions groups) {f : FunctionRecord}
      (hf : f ∈ other) : f ∈ functions :=
    hperm.mem_iff.1 (List.mem_flatten.2 ⟨other, hother, hf⟩)
  have hother : ∀ other ∈ balance functions groups, load other ≤ load bucket + largest := by
    intro other hother
    cases other with
    | nil =>
        have hzero := load_nonneg bucket
        exact hzero.trans (by omega)
    | cons f rest =>
        have hf := hlargest f (hmem hother List.mem_cons_self)
        have hle := load_le_of_mem_balance hother hbucket List.mem_cons_self
        omega
  have hshare (others : List (List FunctionRecord)) (hin : others ⊆ balance functions groups) :
      (others.map load).sum ≤ others.length * (load bucket + largest) := by
    have hsum : (others.map load).sum ≤ (others.map load).length * (load bucket + largest) :=
      sum_le_length_mul (by simpa using fun other h => hother other (hin h))
    rwa [List.length_map] at hsum
  obtain ⟨front, back, hsplit⟩ := List.append_of_mem hbucket
  have htotal : load functions = (front.map load).sum + load bucket + (back.map load).sum := by
    rw [← load_perm hperm, load_flatten, hsplit]
    simp [add_assoc]
  have hlength := congrArg List.length hsplit
  rw [length_balance, List.length_append, List.length_cons] at hlength
  have hfront := hshare front fun other h => by simp [hsplit, h]
  have hback := hshare back fun other h => by simp [hsplit, h]
  have hown := load_le_length_mul fun f hf => hlargest f (hmem hbucket hf)
  by_contra! hfew
  -- with one function less than the minimum the bucket leaves the others too little room
  have hshort : load bucket ≤ (minimum - 1) * largest :=
    hown.trans (Int.mul_le_mul_of_nonneg_right (by omega) hnonneg)
  have hothers : (front.length : Int) + back.length = groups - 1 := by omega
  refine absurd hlevel (not_lt.2 ?_)
  calc load functions
      ≤ front.length * (load bucket + largest) + load bucket + back.length * (load bucket + largest) := by linarith
    _ = (front.length + back.length) * (load bucket + largest) + load bucket := by ring
    _ = groups * load bucket + (groups - 1) * largest := by rw [hothers]; ring
    _ ≤ groups * ((minimum - 1) * largest) + (groups - 1) * largest := by gcongr
    _ = largest * (groups * minimum - 1) := by ring

/-! ## One function that outweighs all others -/

theorem exists_least_of_mem {bucket : Bucket} {buckets : List Bucket} (h : bucket ∈ buckets) :
    ∃ least, (buckets.map (·.load)).min? = some least :=
  Option.isSome_iff_exists.1 (List.isSome_min?_of_mem (List.mem_map_of_mem h))

theorem mem_place_into_of_mem {f : FunctionRecord} {least : Int} {bucket : Bucket} {buckets : List Bucket}
    (h : bucket ∈ buckets) : bucket ∈ place.into f least buckets ∨ bucket.add f ∈ place.into f least buckets := by
  induction buckets with
  | nil => cases h
  | cons first rest ih =>
      unfold place.into
      split
      · rcases List.mem_cons.1 h with rfl | h
        · exact Or.inr List.mem_cons_self
        · exact Or.inl (List.mem_cons_of_mem _ h)
      · rcases List.mem_cons.1 h with rfl | h
        · exact Or.inl List.mem_cons_self
        · exact (ih h).imp (List.mem_cons_of_mem _) (List.mem_cons_of_mem _)

theorem mem_place_of_mem (f : FunctionRecord) {bucket : Bucket} {buckets : List Bucket} (h : bucket ∈ buckets) :
    bucket ∈ place f buckets ∨ bucket.add f ∈ place f buckets := by
  obtain ⟨least, hmin⟩ := exists_least_of_mem h
  rw [place, hmin]
  exact mem_place_into_of_mem h

/-- What is placed goes past a bucket that is heavier than another one. -/
theorem place_cons_of_lt (f : FunctionRecord) {heavy : Bucket} {buckets : List Bucket}
    (h : ∃ light ∈ buckets, light.load < heavy.load) : place f (heavy :: buckets) = heavy :: place f buckets := by
  obtain ⟨light, hlight, hless⟩ := h
  obtain ⟨least, hmin⟩ := exists_least_of_mem hlight
  have hle := (List.min?_eq_some_iff.1 hmin).2 light.load (List.mem_map_of_mem hlight)
  have hboth : ((heavy :: buckets).map (·.load)).min? = some least := by
    rw [List.map_cons, List.min?_cons, hmin]
    simp
    omega
  unfold place
  rw [hmin, hboth]
  simp only [place.into]
  rw [if_neg (by omega)]

/-- The run lemma: as long as another bucket does not catch up, the first one gets nothing. -/
theorem foldl_place_cons {functions : List FunctionRecord} {heavy : Bucket} {buckets : List Bucket}
    (h : ∃ light ∈ buckets, light.load + load functions < heavy.load) :
    functions.foldl (fun buckets f => place f buckets) (heavy :: buckets) =
      heavy :: functions.foldl (fun buckets f => place f buckets) buckets := by
  induction functions generalizing buckets with
  | nil => rfl
  | cons f rest ih =>
      obtain ⟨light, hlight, hless⟩ := h
      have hsize := f.size_pos
      have hrest := load_nonneg rest
      rw [load_cons] at hless
      rw [List.foldl_cons, List.foldl_cons, place_cons_of_lt f ⟨light, hlight, by omega⟩]
      apply ih
      rcases mem_place_of_mem f hlight with hstays | hadded
      · exact ⟨light, hstays, by omega⟩
      · exact ⟨_, hadded, by simp only [Bucket.add]; omega⟩

theorem place_replicate (f : FunctionRecord) (n : Nat) :
    place f (List.replicate (n + 1) {}) = ({} : Bucket).add f :: List.replicate n {} := by
  have hmin : ((List.replicate (n + 1) ({} : Bucket)).map (·.load)).min? = some 0 := by
    rw [List.min?_eq_some_iff]
    simp
  unfold place
  rw [hmin, List.replicate_succ]
  rfl

/-- A function that outweighs all others together has the first bucket to itself. -/
theorem balance_of_outweighs {functions : List FunctionRecord} {f : FunctionRecord} (hf : f ∈ functions)
    (hheavy : load functions < 2 * f.size) {groups : Nat} (hgroups : 2 ≤ groups) :
    ∃ others, balance functions groups = [f] :: others := by
  have hperm := List.mergeSort_perm functions placedBefore
  have hfall := sizes_fall functions
  have hload := load_perm hperm
  have hmem := hperm.mem_iff.2 hf
  unfold balance
  dsimp only
  generalize functions.mergeSort placedBefore = sorted at hfall hload hmem ⊢
  cases sorted with
  | nil => cases hmem
  | cons g rest =>
      have hsizes := (List.pairwise_cons.1 hfall).1
      rw [load_cons] at hload
      obtain rfl : f = g := by
        rcases List.mem_cons.1 hmem with hsame | hrest
        · exact hsame
        · -- two functions of that size are too many
          have hle := hsizes f hrest
          have hin := size_le_load hrest
          omega
      obtain ⟨n, rfl⟩ : ∃ n, groups = n + 2 := ⟨groups - 2, by omega⟩
      have hrun : rest.foldl (fun buckets f => place f buckets) (({} : Bucket).add f :: List.replicate (n + 1) {}) =
          ({} : Bucket).add f :: rest.foldl (fun buckets f => place f buckets) (List.replicate (n + 1) {}) :=
        foldl_place_cons ⟨{}, by simp, by simp only [Bucket.add]; omega⟩
      rw [List.foldl_cons, place_replicate, hrun]
      exact ⟨_, rfl⟩

/-- Where there are two buckets or more, such a function is a module by itself. -/
theorem not_keepsMinimum_of_outweighs {functions : List FunctionRecord} {f : FunctionRecord} (hf : f ∈ functions)
    (hmoveable : f.moveable = true) (hheavy : load (functions.filter (·.moveable)) < 2 * f.size)
    {maxFiles minClusterSize : Int} (hmin : 2 ≤ minClusterSize)
    (henough : minClusterSize < (functions.filter (·.moveable)).length)
    (hfew : (functions.filter (·.moveable)).length < 2 ^ 53)
    (hroom : 2 ≤ maxFiles - (!(functions.filter (!·.moveable)).isEmpty).toNat) (basename : Option String) :
    ¬ KeepsMinimum minClusterSize (balanced functions maxFiles minClusterSize basename) := by
  rw [keepsMinimum_balanced_iff, spread_eq maxFiles (by omega) henough.le hfew]
  obtain ⟨groups, hgroups⟩ : ∃ groups, groups = bucketLimit (functions.filter (·.moveable)).length
      (!(functions.filter (!·.moveable)).isEmpty) maxFiles minClusterSize := ⟨_, rfl⟩
  rw [← hgroups]
  have hmore : 2 ≤ groups.toNat := by
    have hpos : 1 ≤ groups := hgroups ▸ bucketLimit_pos (by omega) henough.le
    have hone : groups ≠ 1 := by
      rw [hgroups, ne_eq, bucketLimit_eq_one (by omega) henough.le]
      omega
    omega
  obtain ⟨others, hbalance⟩ := balance_of_outweighs (List.mem_filter.2 ⟨hf, hmoveable⟩) hheavy hmore
  have hlength := (balance_perm (functions.filter (·.moveable)) (two_pos.trans_le hmore)).length_eq
  rw [hbalance, List.flatten_cons, List.length_append, List.length_singleton] at hlength
  rw [hbalance]
  intro hkept
  have hown := hkept [f] (mem_mergeLast_of_flatten (by omega))
  rw [List.length_singleton] at hown
  omega

/-- A function of one character behind the first one, which is longer than all others that can be moved together. -/
def inRow (moveable n : Nat) : FunctionRecord where
  id := toString n
  name := "f" ++ toString n
  start := if n = 0 then 0 else moveable + n
  stop := moveable + n + 1
  moveable := n < moveable

def lopsided (moveable fixed : Nat) : List FunctionRecord :=
  (List.range (moveable + fixed)).map (inRow moveable)

theorem size_inRow (moveable n : Nat) : (inRow moveable n).size = if n = 0 then moveable + 1 else 1 := by
  unfold FunctionRecord.size inRow
  split
  · next hfirst =>
      subst hfirst
      simp
  · simp

theorem nodup_lopsided (moveable fixed : Nat) : ((lopsided moveable fixed).map (·.id)).Nodup := by
  rw [lopsided, List.map_map]
  exact List.Nodup.map (f := fun n : Nat => toString n) Names.toString_injective List.nodup_range

theorem filter_lopsided (moveable fixed : Nat) :
    (lopsided moveable fixed).filter (·.moveable) = (List.range moveable).map (inRow moveable) ∧
      ((lopsided moveable fixed).filter (!·.moveable)).length = fixed := by
  rw [lopsided, List.range_add, List.map_append, List.filter_append, List.filter_append]
  have hfirst : ∀ f ∈ (List.range moveable).map (inRow moveable), f.moveable = true := by
    intro f hf
    obtain ⟨n, hn, rfl⟩ := List.mem_map.1 hf
    simpa [inRow] using hn
  have hlast : ∀ f ∈ ((List.range fixed).map (moveable + ·)).map (inRow moveable), f.moveable = false := by
    intro f hf
    simp only [List.mem_map] at hf
    obtain ⟨_, ⟨n, -, rfl⟩, rfl⟩ := hf
    simp [inRow]
  constructor
  · rw [List.filter_eq_self.2 hfirst, List.filter_eq_nil_iff.2 fun f hf => by simp [hlast f hf], List.append_nil]
  · rw [List.filter_eq_nil_iff.2 fun f hf => by simp [hfirst f hf],
      List.filter_eq_self.2 fun f hf => by simp [hlast f hf]]
    simp

theorem load_inRow (moveable : Nat) :
    load ((List.range (moveable + 1)).map (inRow (moveable + 1))) = 2 * moveable + 2 := by
  have hrest : ((List.range moveable).map fun n => (inRow (moveable + 1) (n + 1)).size).sum = moveable := by
    simp [size_inRow]
  rw [List.range_succ_eq_map, List.map_cons, load_cons, load, List.map_map, List.map_map]
  simp only [Function.comp_def, size_inRow] at hrest ⊢
  simp
  omega

/-! ## When the minimum is kept -/

theorem isEmpty_fixed {functions : List FunctionRecord} {fixed : Nat}
    (hfixed : (functions.filter (!·.moveable)).length = fixed) :
    (!(functions.filter (!·.moveable)).isEmpty) = decide (fixed ≠ 0) := by
  subst hfixed
  cases functions.filter (!·.moveable) <;> rfl

theorem toNat_fixed (fixed : Nat) : ((decide (fixed ≠ 0)).toNat : Int) = min 1 fixed := by
  by_cases hnone : fixed = 0
  · simp [hnone]
  · simp [hnone]
    omega

theorem keepsMinimum_of_balance {functions : List FunctionRecord} {minClusterSize : Int} {maxFiles : Int}
    (hmin : 1 ≤ minClusterSize) (henough : minClusterSize ≤ (functions.filter (·.moveable)).length)
    (hfew : (functions.filter (·.moveable)).length < 2 ^ 53) (basename : Option String)
    (h : ∀ bucket ∈ balance (functions.filter (·.moveable))
      (bucketLimit (functions.filter (·.moveable)).length (!(functions.filter (!·.moveable)).isEmpty) maxFiles
        minClusterSize).toNat, minClusterSize ≤ bucket.length) :
    KeepsMinimum minClusterSize (balanced functions maxFiles minClusterSize basename) := by
  rw [keepsMinimum_balanced_iff, spread_eq maxFiles hmin henough hfew, mergeLast_eq_self h]
  exact h

theorem length_of_mem_balance_one {functions bucket : List FunctionRecord} (h : bucket ∈ balance functions 1) :
    bucket.length = functions.length := by
  have hlength := length_balance functions 1
  have hperm := (balance_perm functions one_pos).length_eq
  obtain ⟨only, honly⟩ := List.length_eq_one_iff.1 hlength
  rw [honly] at h hperm
  rw [List.mem_singleton.1 h, ← hperm, List.flatten_singleton]

/-- Whatever the sizes of the functions are, their modules have the minimum exactly if there is room for one module
only, or the functions are just enough for one, or one function is enough. With more modules the minimum is kept
where the largest function is so small that each bucket has the minimum at its share of all functions. -/
theorem keepsMinimum_iff {moveable : Nat} {minClusterSize : Int} (hmin : 1 ≤ minClusterSize)
    (henough : minClusterSize ≤ moveable) (hfew : moveable < 2 ^ 53) (fixed : Nat) (maxFiles : Int)
    (basename : Option String) :
    ((∀ functions : List FunctionRecord, (functions.map (·.id)).Nodup →
        (functions.filter (·.moveable)).length = moveable → (functions.filter (!·.moveable)).length = fixed →
          KeepsMinimum minClusterSize (balanced functions maxFiles minClusterSize basename)) ↔
      minClusterSize = 1 ∨ minClusterSize = moveable ∨ maxFiles - min 1 fixed ≤ 1) ∧
    ∀ functions : List FunctionRecord, (functions.map (·.id)).Nodup →
      (functions.filter (·.moveable)).length = moveable → (functions.filter (!·.moveable)).length = fixed →
        ∀ largest : Int, (∀ f ∈ functions, f.moveable = true → f.size ≤ largest) →
          largest * (bucketLimit moveable (fixed ≠ 0) maxFiles minClusterSize * minClusterSize - 1) <
              load (functions.filter (·.moveable)) →
            KeepsMinimum minClusterSize (balanced functions maxFiles minClusterSize basename) := by
  have hpos : 1 ≤ bucketLimit moveable (fixed ≠ 0) maxFiles minClusterSize := bucketLimit_pos hmin henough
  have hle : bucketLimit moveable (fixed ≠ 0) maxFiles minClusterSize ≤ moveable := bucketLimit_le hmin
  have hone : bucketLimit moveable (fixed ≠ 0) maxFiles minClusterSize = 1 ↔
      moveable = minClusterSize ∨ maxFiles - min 1 fixed ≤ 1 := by
    rw [bucketLimit_eq_one hmin henough, toNat_fixed]
  refine ⟨⟨fun hkept => ?_, fun hsettings functions _ hmoveable hfixed => ?_⟩,
    fun functions _ hmoveable hfixed largest hlargest hlevel => ?_⟩
  · by_contra! hsettings
    obtain ⟨htwo, hmore, hroom⟩ := hsettings
    obtain ⟨n, rfl⟩ : ∃ n, moveable = n + 1 := ⟨moveable - 1, by omega⟩
    obtain ⟨hfilter, hfixed⟩ := filter_lopsided (n + 1) fixed
    have hlength : ((lopsided (n + 1) fixed).filter (·.moveable)).length = n + 1 := by simp [hfilter]
    refine not_keepsMinimum_of_outweighs (f := inRow (n + 1) 0) ?_ ?_ ?_ (by omega) (by omega) (by omega) ?_ basename
      (hkept (lopsided (n + 1) fixed) (nodup_lopsided _ _) hlength hfixed)
    · exact List.mem_map_of_mem (List.mem_range.2 (by omega))
    · simp [inRow]
    · rw [hfilter, load_inRow, size_inRow]
      simp
      omega
    · rw [isEmpty_fixed hfixed, toNat_fixed]
      omega
  · refine keepsMinimum_of_balance hmin (by omega) (by omega) basename fun bucket hbucket => ?_
    rw [isEmpty_fixed hfixed, hmoveable] at hbucket
    rcases hsettings with hsingle | hsettings
    · have hsome := balance_ne_nil (by omega) bucket hbucket
      have hlength := List.length_pos_of_ne_nil hsome
      omega
    · rw [hone.2 (by omega)] at hbucket
      rw [length_of_mem_balance_one hbucket, hmoveable]
      exact henough
  · refine keepsMinimum_of_balance hmin (by omega) (by omega) basename fun bucket hbucket => ?_
    rw [isEmpty_fixed hfixed, hmoveable] at hbucket
    have hsizes : ∀ f ∈ functions.filter (·.moveable), f.size ≤ largest := by
      intro f hf
      exact hlargest f (List.mem_of_mem_filter hf) (List.of_mem_filter hf)
    obtain ⟨f, hf⟩ : ∃ f, f ∈ functions.filter (·.moveable) := List.exists_mem_of_length_pos (by omega)
    have hnonneg := f.size_pos.le.trans (hsizes f hf)
    refine le_length_of_mem_balance hsizes hnonneg (by omega) ?_ hbucket
    rwa [Int.toNat_of_nonneg (by omega)]

/-- Four functions are not two in each module whatever their sizes are, but four of one size are. -/
theorem keepsMinimum_of_level :
    (¬ ∀ functions : List FunctionRecord, (functions.map (·.id)).Nodup →
      (functions.filter (·.moveable)).length = 4 → (functions.filter (!·.moveable)).length = 0 →
        KeepsMinimum 2 (balanced functions 12 2 none)) ∧
    KeepsMinimum 2 (balanced ((List.range 4).map fun n =>
      { id := toString n, name := "f", start := n, stop := n + 1, moveable := true }) 12 2 none) := by
  have hminimum := @keepsMinimum_iff 4 2 (by decide) (by decide) (by decide) 0 12 none
  refine ⟨fun hkept => absurd (hminimum.1.1 hkept) (by decide), hminimum.2 _ ?_ ?_ ?_ 1 ?_ ?_⟩
  all_goals decide

end ScriptSplit.Plan
