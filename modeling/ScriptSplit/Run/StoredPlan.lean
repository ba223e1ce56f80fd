import ScriptSplit.Plan.Reader
import ScriptSplit.Run.StoredFacts

/-!
# Stored plans

A plan as a file in the directory of plans.
-/

namespace ScriptSplit.Storage

def planFile : String := "plan.json"

def writePlan (directory : Path) (plan : Plan) : Storage Path := do
  let path := directory / planFile
  writeDocument path plan.toDoc
  return path

def readPlan (directory : Path) : Storage Plan := do
  match Plan.ofDoc (← readDocument (directory / planFile) .plan) with
  | .ok plan => return plan
  | .error cause => throw (.plan cause)

end ScriptSplit.Storage
