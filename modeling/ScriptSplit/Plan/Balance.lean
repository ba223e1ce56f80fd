import ScriptSplit.Plan.Basic
import ScriptSplit.Number.Double

/-!
# Balanced plans

A plan that needs no advice: functions that cannot be moved stay in the module with the source, the
others are spread over buckets of about the same size, the largest function first and each into the
bucket that is smallest so far.
-/

namespace ScriptSplit.Plan

def floatQuotient (num den : Int) : Double :=
  .ofQuotient (num < 0) num.natAbs den.natAbs

/-- How many buckets there are for the moveable functions. Where the quotient of functions and
cluster size is too large for a floating-point number there is no answer. -/
def bucketCount? (moveable : Int) (hasOriginal : Bool) (maxFiles minClusterSize : Int) :
    Option Int :=
  if moveable = 0 then some 0
  else
    let reserved := if hasOriginal then 1 else 0
    let most := max 1 (maxFiles - reserved)
    (floatQuotient moveable (max 1 minClusterSize)).ceil?.map fun desired => min most desired

structure Bucket where
  functions : List FunctionRecord := []
  load : Int := 0

def Bucket.add (bucket : Bucket) (f : FunctionRecord) : Bucket where
  functions := bucket.functions ++ [f]
  load := bucket.load + f.size

/-- Puts a function into the lightest bucket; of equally light ones into the first. -/
def place (f : FunctionRecord) (buckets : List Bucket) : List Bucket :=
  match (buckets.map (·.load)).min? with
  | none => []
  | some lightest => into lightest buckets
where
  /-- Adds the function to the first bucket with the load `lightest`. -/
  into (lightest : Int) : List Bucket → List Bucket
    | [] => []
    | bucket :: rest =>
      if bucket.load = lightest then bucket.add f :: rest else bucket :: into lightest rest

/-- The order in which functions are placed: larger ones first, then by start and id. -/
def placedBefore (f g : FunctionRecord) : Bool :=
  if f.size ≠ g.size then g.size < f.size
  else if f.start ≠ g.start then f.start < g.start
  else !decide (g.id < f.id)

def balance (functions : List FunctionRecord) (groups : Nat) : List (List FunctionRecord) :=
  let sorted := functions.mergeSort placedBefore
  (sorted.foldl (fun buckets f => place f buckets) (List.replicate groups {})).map (·.functions)

def balance? (functions : List FunctionRecord) (groups : Int) :
    Option (List (List FunctionRecord)) :=
  if groups ≤ 0 ∧ functions ≠ [] then none else some (balance functions groups.toNat)

/-- Joins the last bucket to the one before it if it has too few functions. -/
def mergeLast (minClusterSize : Int) : List (List FunctionRecord) → List (List FunctionRecord)
  | [] => []
  | [only] => [only]
  | [before, last] =>
    if (last.length : Int) < minClusterSize then [before ++ last] else [before, last]
  | first :: second :: third :: rest =>
    first :: mergeLast minClusterSize (second :: third :: rest)

def sourceOrder (functions : List FunctionRecord) : List FunctionRecord :=
  functions.mergeSort fun f g => f.start ≤ g.start

/-- The first of `base-n`, `base-(n+1)`, … that is not taken, among `fuel` of them. -/
def numberedSlug (base : String) (taken : List String) (n : Nat) : Nat → String
  | 0 => base ++ "-" ++ toString n
  | fuel + 1 =>
    let slug := base ++ "-" ++ toString n
    if taken.contains slug then numberedSlug base taken (n + 1) fuel else slug

/-- A slug that is not taken: the base itself, or with a number from two on. -/
def uniqueSlug (base : String) (taken : List String) : String :=
  if taken.contains base then numberedSlug base taken 2 taken.length else base

def bucketModules (n : Nat) (taken : List String) : List (List FunctionRecord) → List ModuleSpec
  | [] => []
  | bucket :: rest =>
    let functions := sourceOrder bucket
    let first := (functions.head?.map (·.name)).getD ""
    let base := slugify first
    let numbered := "mod" ++ toString n
    let slug := uniqueSlug (if base == "" then numbered else base) taken
    { name := if base == "" then numbered else first, slug, functions := functions.map (·.id) } ::
      bucketModules (n + 1) (slug :: taken) rest

def reservedSlugs (basename : Option String) : List String :=
  match basename with
  | none => [originalSlug]
  | some basename =>
    if basename == "" then [originalSlug] else [Text.lower basename, originalSlug]

def balanced (functions : List FunctionRecord) (maxFiles minClusterSize : Int)
    (basename : Option String) : Plan :=
  let fixed := functions.filter (!·.moveable)
  let moveable := functions.filter (·.moveable)
  let original : List ModuleSpec :=
    if fixed.isEmpty then []
    else [{ name := originalSlug, slug := originalSlug,
            functions := (sourceOrder fixed).map (·.id) }]
  let groups := (bucketCount? moveable.length (!fixed.isEmpty) maxFiles minClusterSize).getD 0
  let buckets :=
    if groups = 0 then [] else mergeLast minClusterSize (balance moveable groups.toNat)
  { modules := original ++ bucketModules 1 (reservedSlugs basename) buckets }

end ScriptSplit.Plan
