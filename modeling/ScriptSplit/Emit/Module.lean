import ScriptSplit.Emit.Exports
import ScriptSplit.Plan.Basic
import ScriptSplit.Script.Mend
import ScriptSplit.Source.Repair
import ScriptSplit.Warning

/-!
# Texts of emitted modules

A module holds the source text of its functions and exports them by name. The module that keeps the
source holds all of it.
-/

namespace ScriptSplit

def importsPlaceholder : String := "// imports will be added by linker"

def originalExportsComment : String := "// explicit exports added by atomizer for original module"

def exportsComment : String := "// exports"

/-- The text of the module that keeps the source: banner, source and export list. -/
def renderOriginal (banner source : Text) (names : List String) : Text :=
  banner ++ ['\n', '\n'] ++ source ++
    if names.isEmpty then []
    else
      (if source.getLast? == some '\n' then [] else ['\n']) ++
        Text.unlines [[], originalExportsComment, exportStatement names]

/-- The text of any other module: banner, place for imports, functions and export list. -/
def renderModule (banner : Text) (slices : List Text) (names : List String) : Text :=
  Text.unlines <|
    [banner, [], importsPlaceholder.toList, []] ++ slices.flatMap (fun slice => [slice, []]) ++
      if names.isEmpty then [] else [exportsComment.toList, (exportStatement names).toList]

def guessedSpan (slug : String) (f : FunctionRecord) (method : Repair.Method) : Warning where
  stage := .write
  kind := .sliceRepairFailure
  message := "module " ++ slug ++ ": span of " ++ f.name ++ " (" ++ f.id ++
    ") could not be balanced; cut by " ++ method.name

/-- The source text of each function, and a warning for each whose end was only guessed. -/
def sliceFunctions (source : Text) (slug : String) (records : List FunctionRecord)
    (reader : Script.Reader := .ofGrammar) : List Text × List Warning :=
  let spans := records.map fun f =>
    (f, repairSpan source f.start.toNat f.stop.toNat (some reader.isProgram))
  (spans.map fun (_, span) => source.slice span.start span.stop,
    spans.filterMap fun (f, span) =>
      if span.degraded then some (guessedSpan slug f span.method) else none)

end ScriptSplit
