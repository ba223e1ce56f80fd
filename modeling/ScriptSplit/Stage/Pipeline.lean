import ScriptSplit.Settings.Load
import ScriptSplit.Stage.Link
import ScriptSplit.Stage.Plan
import ScriptSplit.Stage.Write
import ScriptSplit.Stats

/-!
# The pipeline

Stages one after the other. A stage finds all that it needs in stored artifacts, so that any of them can be
run again by itself. A failure ends the pipeline; the warnings up to then are stored in any case.
-/

namespace ScriptSplit

def Stage.all : List Stage := [.analyze, .plan, .write, .link]

def Stage.ofName? (name : String) : Option Stage :=
  Stage.all.find? (·.name == name)

structure Progress where
  messages : List String := []
  stats : Stats := {}
  warnings : List Warning := []
  failure : Option Failure := none

namespace Progress

def add (p : Progress) (stats : Stats) (messages : List String) (warnings : List Warning) :
    Progress :=
  let all := p.warnings ++ warnings
  { p with
    messages := p.messages ++ messages
    stats := { stats with warnings := all.length }
    warnings := all }

def countAnalysis (stats : Stats) (analysis : Analysis) : Stats :=
  { stats with
    functions := analysis.facts.functions.length
    moveable := (analysis.facts.functions.filter (·.moveable)).length
    calls := analysis.facts.calls.length
    imports := analysis.facts.imports.length
    usedFallback := analysis.usedFallback }

def countPlan (stats : Stats) (report : PlanReport) : Stats :=
  { stats with
    planSource := report.source.name
    moduleSizes := report.plan.modules.foldl (fun sizes m =>
      Table.put sizes m.slug (m.functions.length : Int)) []
    advisorCalls := stats.advisorCalls + report.adviserCalls }

def countLinks (stats : Stats) (report : LinkReport) : Stats :=
  { stats with
    importSource := report.imports.source.name
    importsInserted := report.inserted
    filesWritten := stats.filesWritten ++ report.files.map Path.toString }

end Progress

namespace Run

def stage (config : Config) (p : Progress) : Stage → Run Progress
  | .analyze => do
    let report ← analyze config
    return p.add (Progress.countAnalysis p.stats report.analysis) report.messages
      report.analysis.warnings
  | .plan => do
    let report ← plan config
    return p.add (Progress.countPlan p.stats report) report.messages report.warnings
  | .write => do
    let report ← write config
    return p.add
      { p.stats with
        filesWritten := p.stats.filesWritten ++ report.files.map fun (_, path) => path.toString }
      report.messages report.warnings
  | .link => do
    let report ← link config
    return p.add (Progress.countLinks p.stats report) report.messages report.warnings

/-- Runs stages until one fails. -/
def stagesFrom (config : Config) (p : Progress) : List Stage → Run Progress
  | [] => return p
  | s :: rest => do
    log .debug "engine" ("starting stage " ++ s.name)
    match (← attempt (stage config p s)) with
    | .ok p => stagesFrom config p rest
    | .error cause => return { p with failure := some cause }

def storeWarnings (config : Config) (warnings : List Warning) : Run Unit := do
  let directory ← plansDirectory config
  storing (Storage.writeDocument (directory / "warnings.json")
    (.array (warnings.map Warning.toDoc)))

def pipeline (config : Config) (names : List String) : Run Progress := do
  match names.filter fun name => (Stage.ofName? name).isNone with
  | [] =>
    let p ← stagesFrom config {} (names.filterMap Stage.ofName?)
    match (← attempt (storeWarnings config p.warnings)) with
    | .ok () => return p
    | .error cause => return { p with failure := some cause }
  | unknown => return { failure := some (.unknownStages unknown) }

def textOf? (path : Path) : Run (Option Text) := do
  match (← attempt (storing (Storage.readText path))) with
  | .ok text => return some text
  | .error _ => return none

def loadSettings (root : Path) : Run Settings := do
  let project ← textOf? (root / Settings.projectFile)
  let own ← textOf? (root / Settings.ownFile)
  match Settings.ofTables? (Settings.tableOf project) (Settings.tableOf own) with
  | some settings => return settings
  | none => throw .settingsNotATable

def configure (settings : Settings) (root : Path) : Run Config :=
  match settings.config? root with
  | some config => pure config
  | none => throw .settingType

end Run

end ScriptSplit
