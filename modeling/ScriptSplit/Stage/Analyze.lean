import ScriptSplit.Run.Places
import ScriptSplit.Run.StoredFacts

/-!
# Analysing

The first stage: the facts about the source are found and stored.
-/

namespace ScriptSplit

structure AnalysisReport where
  analysis : Analysis
  messages : List String

namespace AnalysisReport

def countsMessage (facts : Facts) : String :=
  "analyze: " ++ toString facts.functions.length ++ " functions (" ++
    toString (facts.functions.filter (·.moveable)).length ++ " moveable), " ++
    toString facts.imports.length ++ " imports, " ++ toString facts.calls.length ++ " calls"

end AnalysisReport

def backupMessage (stage : Stage) (source usedFrom : Path) (doing : String) : List String :=
  if usedFrom = source then []
  else [stage.name ++ ": " ++ source.name ++ " is a shim; " ++ doing ++ " backup " ++ usedFrom.name]

def Run.analyze (config : Config) : Run AnalysisReport := do
  let source ← sourcePath config
  let (text, usedFrom) ← storing (Storage.readOriginal source)
  let reader := (← read).reader
  let program := reader.tree? text
  if program.isNone then warn "analysis.analyzer" degradedParse
  let analysis ← orFail .analysis
    (analyzeTree reader program text source.toString config.closureCalls)
  let directory ← factsDirectory config
  let _ ← storing (Storage.writeFacts directory analysis.facts)
  return {
    analysis
    messages := backupMessage .analyze source usedFrom "reading" ++
      [AnalysisReport.countsMessage analysis.facts] }

end ScriptSplit
