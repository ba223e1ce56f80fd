import ScriptSplit.Advice.Session
import ScriptSplit.Plan.Balance
import ScriptSplit.Run.Places
import ScriptSplit.Run.StoredPlan

/-!
# Planning

The second stage: a plan is made from the stored facts. Where the adviser is enabled it is asked first;
whatever goes wrong with its advice, a balanced plan takes the place.
-/

namespace ScriptSplit

inductive PlanSource where
  | adviser
  | heuristic
  deriving DecidableEq, Repr

def PlanSource.name : PlanSource → String
  | .adviser => "llm"
  | .heuristic => "heuristic"

structure PlanReport where
  plan : Plan
  source : PlanSource
  adviserCalls : Nat
  messages : List String
  warnings : List Warning

namespace Run

def adviceFile : String := "plan.raw.json"

def planWarning (message : String) : Warning where
  stage := .plan
  kind := .planningDegradation
  message

def warnPlan (message : String) : Run Warning := do
  warn "planning.runner" (planWarning message)
  return planWarning message

/-- Asks the adviser for a plan and keeps a record of the conversation, also if it could not begin. -/
def advise (session : Advice.Session) (plansDirectory : Path) : Run Advice := do
  let surroundings ← read
  match session.ask surroundings.environment (← get).line with
  | .ok advice =>
    modify fun s => { s with line := advice.line }
    storing (Storage.writeDocument (plansDirectory / adviceFile)
      (advice.audit surroundings.now.written session.config.adviser))
    return advice
  | .error reason =>
    storing (Storage.writeDocument (plansDirectory / adviceFile)
      (Advice.unconnected surroundings.now.written session.config.adviser))
    throw (.injected reason)

def acceptedMessage (advice : Advice) : String :=
  "plan: LLM plan accepted after " ++ toString advice.calls ++ " round(s)"

/-- Asks the adviser and gives its plan, if there is one, and what there is to say about that. -/
def takeAdvice (session : Advice.Session) (plansDirectory : Path) :
    Run (Option Plan × Nat × List String × List Warning) := do
  let adviser := session.config.adviser
  let asking := "plan: asking " ++ adviser.provider ++ " model " ++ adviser.model
  let advice ← advise session plansDirectory
  match advice.result with
  | .ok plan => return (some plan, advice.calls, [asking, acceptedMessage advice], [])
  | .error cause =>
    let message := "LLM planning failed (" ++ cause.message ++ "); using heuristic planner"
    let warning ← warnPlan message
    return (none, advice.calls,
      [asking, "plan: " ++ message ++ "; see " ++ (plansDirectory / adviceFile).toString],
      [warning])

/-- What the adviser is asked about. The text of the source is part of that only where it may be sent. -/
def planSession (config : Config) (source : Path) (index : FactsIndex) (facts : Facts)
    (text : Option String) : Advice.Session where
  config
  facts
  index
  source := text
  basename := some source.basename

/-- The plan of the adviser, if it is enabled and gives one, and what there is to say about that. -/
def advisedPlan (config : Config) (source : Path) (plansDirectory : Path) (index : FactsIndex)
    (facts : Facts) : Run (Option Plan × Nat × List String × List Warning) := do
  if !config.adviser.enabled then return (none, 0, [], [])
  if config.adviser.sendsSource then
    let (text, _) ← storing (Storage.readOriginal source)
    takeAdvice (planSession config source index facts (some (String.ofList text))) plansDirectory
  else takeAdvice (planSession config source index facts none) plansDirectory

/-- The balanced plan, with a warning if it needs more modules than allowed. -/
def balancedPlan (config : Config) (source : Path) (facts : Facts) : Run (Plan × List Warning) := do
  let plan := Plan.balanced facts.functions config.maxFiles config.minClusterSize
    (some source.basename)
  let count : Int := plan.modules.length
  let warnings ←
    if config.maxFiles < count then do
      let warning ← warnPlan <| "max_files=" ++ toString config.maxFiles ++
        " is too small; writing " ++ toString count ++ " modules"
      pure [warning]
    else pure []
  orFail .plan
    (plan.validate facts.functions (max config.maxFiles count) (some source.basename))
  return (plan, warnings)

def storePlan (plansDirectory : Path) (plan : Plan) (source : PlanSource) (adviserCalls : Nat)
    (messages : List String) (warnings : List Warning) : Run PlanReport := do
  let path ← storing (Storage.writePlan plansDirectory plan)
  return {
    plan
    source
    adviserCalls
    messages := messages ++
      ["plan: " ++ toString plan.modules.length ++ " modules (" ++ source.name ++
        ") written to " ++ path.toString]
    warnings }

def plan (config : Config) : Run PlanReport := do
  let factsDirectory ← factsDirectory config
  let plansDirectory ← plansDirectory config
  let index ← storing (Storage.readIndex factsDirectory)
  let facts ← storing (Storage.readFacts factsDirectory)
  let source ← sourcePath config
  let (advised, adviserCalls, messages, warnings) ←
    advisedPlan config source plansDirectory index facts
  match advised with
  | some plan => storePlan plansDirectory plan .adviser adviserCalls messages warnings
  | none => do
    let (plan, moreWarnings) ← balancedPlan config source facts
    storePlan plansDirectory plan .heuristic adviserCalls messages (warnings ++ moreWarnings)

end Run

end ScriptSplit
