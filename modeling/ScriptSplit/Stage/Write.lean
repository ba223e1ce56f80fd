import ScriptSplit.Emit.Module
import ScriptSplit.Run.StoredPlan
import ScriptSplit.Stage.Analyze

/-!
# Writing

The third stage: one file for every module of the plan that has functions.
-/

namespace ScriptSplit

structure WriteReport where
  /-- The file of every module written, by its slug. -/
  files : Table Path := []
  messages : List String := []
  warnings : List Warning := []

namespace Emission

def unknownFunction (slug id : String) : Warning where
  stage := .write
  kind := .sliceRepairFailure
  message := "module " ++ slug ++ ": unknown function id " ++ id ++ " skipped"

def records (facts : Facts) (m : ModuleSpec) : List FunctionRecord :=
  m.functions.filterMap facts.function?

def unknownFunctions (facts : Facts) (m : ModuleSpec) : List Warning :=
  (m.functions.filter fun id => (facts.function? id).isNone).map (unknownFunction m.slug)

/-- The names that the module which keeps the source has to list: those that the source does not export
where it declares them. -/
def listedNames (source : Text) (records : List FunctionRecord) (stripped : List String) :
    List String :=
  let kept := (records.filter fun f =>
    f.exported && !stripped.contains f.name && !isDefaultExport source f).map (·.name)
  (exportNames records).filter (!kept.contains ·)

/-- The text of a module, and a warning for each function whose end was only guessed. -/
def moduleText (reader : Script.Reader) (banner source : Text) (m : ModuleSpec)
    (records : List FunctionRecord) : Text × List Warning :=
  if m.isOriginal then
    let (body, stripped) := stripInlineExports source records
    (renderOriginal banner body (listedNames source records stripped), [])
  else
    let (slices, warnings) := sliceFunctions source m.slug records reader
    (renderModule banner slices (exportNames records), warnings)

end Emission

namespace Run

def warnAll (source : String) (warnings : List Warning) : Run Unit :=
  warnings.forM (warn source)

def copyForDebug (config : Config) (path : Path) : Run Unit := do
  storing (Storage.makeDirectories config.debugDirectory)
  storing (Storage.copyFile path (config.debugDirectory / path.name))

/-- Writes one module; one without functions gets no file. -/
def writeModule (config : Config) (reader : Script.Reader) (source : Path) (text : Text)
    (facts : Facts) (report : WriteReport) (m : ModuleSpec) : Run WriteReport := do
  let records := Emission.records facts m
  let unknown := Emission.unknownFunctions facts m
  warnAll "writer" unknown
  if records.isEmpty then return { report with warnings := report.warnings ++ unknown }
  let (moduleText, guessed) := Emission.moduleText reader config.banner text m records
  warnAll "writer" guessed
  let target := config.moduleDirectory source / moduleFileName m.slug source.basename ".js"
  storing (Storage.writeText target moduleText)
  if config.debugCopies then copyForDebug config target
  return {
    files := report.files.put m.slug target
    messages := report.messages ++
      ["write: " ++ target.name ++ " (" ++ toString records.length ++ " functions)"]
    warnings := report.warnings ++ unknown ++ guessed }

def write (config : Config) : Run WriteReport := do
  let source ← sourcePath config
  let (text, usedFrom) ← storing (Storage.readOriginal source)
  let facts ← storing (Storage.readFacts (← factsDirectory config))
  let plan ← storing (Storage.readPlan (← plansDirectory config))
  storing (Storage.makeDirectories (config.moduleDirectory source))
  let reader := (← read).reader
  let report ← plan.modules.foldlM (writeModule config reader source text facts) {}
  return { report with
    messages := backupMessage .write source usedFrom "slicing" ++ report.messages }

end Run

end ScriptSplit
