import ScriptSplit.Table
import ScriptSplit.Warning

/-!
# Statistics of a run

What a run counted, and the summary that is printed at its end.
-/

namespace ScriptSplit

structure Stats where
  functions : Int := 0
  moveable : Int := 0
  calls : Int := 0
  imports : Int := 0
  usedFallback : Bool := false
  /-- Who made the plan; empty before there is one. -/
  planSource : String := ""
  /-- The number of functions of each module, by its slug. -/
  moduleSizes : Table Int := []
  advisorCalls : Int := 0
  filesWritten : List String := []
  importSource : String := "none"
  importsInserted : Int := 0
  warnings : Nat := 0

namespace Stats

/-- Larger modules first, and of modules of one size the one with the lesser slug. -/
def larger (a b : String × Int) : Bool :=
  if a.2 = b.2 then !decide (b.1 < a.1) else b.2 < a.2

/-- The first `limit` items, or, where `limit` is negative, all but so many at the end. -/
def upTo {α : Type} (limit : Int) (items : List α) : List α :=
  if 0 ≤ limit then items.take limit.toNat else items.take (items.length - limit.natAbs)

def topModules (stats : Stats) (limit : Int) : List String :=
  upTo limit ((stats.moduleSizes.mergeSort larger).map fun (slug, n) =>
    slug ++ " (" ++ toString n ++ ")")

def summaryModules : Int := 5

def summary (stats : Stats) : List String :=
  ["--- atomizer summary ---",
    "functions:",
    "  total:               " ++ toString stats.functions,
    "  moveable:            " ++ toString stats.moveable,
    "  kept in original:    " ++ toString (stats.functions - stats.moveable)] ++
  (if stats.usedFallback then ["  (regex fallback scanner used)"] else []) ++
  ["plan:",
    "  source:              " ++ (if stats.planSource == "" then "n/a" else stats.planSource),
    "  modules:             " ++ toString stats.moduleSizes.length] ++
  (if stats.moduleSizes.isEmpty then []
    else ["  largest:             " ++ ", ".intercalate (stats.topModules summaryModules)]) ++
  ["imports:",
    "  source:              " ++ stats.importSource,
    "  inserted:            " ++ toString stats.importsInserted,
    "LLM calls: " ++ toString stats.advisorCalls,
    "files written: " ++
      (if stats.filesWritten.isEmpty then "none" else toString stats.filesWritten.length),
    "warnings: " ++ toString stats.warnings]

end Stats

end ScriptSplit
