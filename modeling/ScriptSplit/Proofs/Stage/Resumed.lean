import ScriptSplit.Proofs.Stage.Staged

/-!
# Stages that find what the ones before them left

A stage reads documents before it does anything with them. Where these are known to be in their files, what
is left of the stage is a task over the facts and the plan themselves.
-/

namespace ScriptSplit

namespace Run
open Storage (Holds StoredText)

variable {surroundings : Surroundings} {s : RunState} {config : Config} {current : Location}
  {facts : Facts} {texts : List StoredText} {paths : List Path}

theorem storing_readFacts {directory : Path} (hfacts : facts.Storable)
    (htexts : StoredFacts.texts directory facts ⊆ texts) (hheld : Holds current texts paths s.files) :
    storing (Storage.readFacts directory) surroundings s = .ok facts.sorted s :=
  storing_eq <| Storage.readFacts_of_texts hfacts.functions hfacts.spans hfacts.printable
    fun stored hstored => hheld.stored stored (htexts hstored)

theorem storing_readPlan {directory : Path} {plan : Plan} (hplan : plan.Storable)
    (htext : plan.storedText directory ∈ texts) (hheld : Holds current texts paths s.files) :
    storing (Storage.readPlan directory) surroundings s = .ok plan s :=
  storing_eq (Storage.readPlan_eq hplan (hheld.stored _ htext))

def storeAnalysis (config : Config) (source usedFrom : Path) (analysis : Analysis) :
    Run AnalysisReport := do
  let directory ← factsDirectory config
  let _ ← storing (Storage.writeFacts directory analysis.facts)
  return {
    analysis
    messages := backupMessage .analyze source usedFrom "reading" ++
      [AnalysisReport.countsMessage analysis.facts] }

theorem analyze_eq {source usedFrom : Path} {text : Text} {program : Script.Tree} {analysis : Analysis}
    (hsource : config.sourcePath? = some source) (hfile : s.files.hasFile source = true)
    (hread : Storage.readOriginal source s.files = .ok (text, usedFrom) s.files)
    (hprogram : surroundings.reader.tree? text = some program)
    (hanalysis : analyzeTree surroundings.reader (some program) text source.toString config.closureCalls =
      .ok analysis) :
    analyze config surroundings s = storeAnalysis config source usedFrom analysis surroundings s := by
  unfold analyze
  rw [bind_eq (sourcePath_eq hsource hfile), bind_eq (storing_eq hread)]
  simp only [bind_read_eq, hprogram, hanalysis, Option.isNone_some, Bool.false_eq_true, if_false]
  rfl

def planWith (config : Config) (facts : Facts) : Run PlanReport := do
  let _ ← factsDirectory config
  let directory ← plansDirectory config
  let source ← sourcePath config
  let balanced ← balancedPlan config source facts
  storePlan directory balanced.1 .heuristic 0 [] balanced.2

theorem plan_eq (hadviser : config.adviser.enabled = false) (hfacts : facts.Storable)
    (hheld : Holds current (StoredFacts.texts (config.factsPath surroundings.environment) facts) []
      s.files) :
    plan config surroundings s = planWith config facts.sorted surroundings s := by
  unfold plan planWith
  refine bind_congr_ok (factsDirectory_meets Storage.holds_stable_empty config) hheld ?_
  rintro directory s₁ ⟨rfl, hheld⟩
  refine bind_congr_ok (plansDirectory_meets Storage.holds_stable_empty config) hheld ?_
  rintro directory s₂ ⟨rfl, hheld⟩
  have hindex : storing (Storage.readIndex (config.factsPath surroundings.environment)) surroundings s₂ =
      .ok facts.index s₂ := storing_eq (Storage.readIndex_of_texts hfacts.printable hheld.stored)
  rw [bind_eq hindex, bind_eq (storing_readFacts hfacts (List.Subset.refl _) hheld)]
  refine bind_congr_ok (sourcePath_meets config _) hheld ?_
  rintro source s₃ -
  have hadvised : advisedPlan config source (config.plansPath surroundings.environment) facts.index
      facts.sorted surroundings s₃ = .ok (none, 0, [], []) s₃ := by
    simp only [advisedPlan, hadviser]
    rfl
  rw [bind_eq hadvised]
  rfl

def writeWith (config : Config) (facts : Facts) (plan : Plan) : Run WriteReport := do
  let source ← sourcePath config
  let original ← storing (Storage.readOriginal source)
  let _ ← factsDirectory config
  let _ ← plansDirectory config
  storing (Storage.makeDirectories (config.moduleDirectory source))
  let reader := (← read).reader
  let report ← plan.modules.foldlM (writeModule config reader source original.1 facts) {}
  return { report with
    messages := backupMessage .write source original.2 "slicing" ++ report.messages }

def linkWith (config : Config) (facts : Facts) (plan : Plan) : Run LinkReport := do
  let source ← sourcePath config
  let original ← storing (Storage.readOriginal source)
  let _ ← factsDirectory config
  let directory ← plansDirectory config
  let layout := Layout.ofPlan plan facts (config.moduleDirectory source) source.basename
  let p ← prepare config directory source original.1 facts layout
  let surrounded ← p.linking.surround
  let report ← step .report (pure (plan.report facts))
  writeLinkDocument (directory / "report.json") report
  return {
    imports := p.imports
    inserted := p.inserted
    files := surrounded.files
    messages := backupMessage .link source original.2 "using" ++
      ["link: " ++ toString p.inserted ++ " import line(s) inserted (" ++
        p.imports.source.name ++ ")"] ++ surrounded.messages
    warnings := p.warnings ++ surrounded.warnings }

section Planned

variable {plan : Plan} (hfacts : facts.Storable) (hplan : plan.Storable)
  (hheld : Holds current (plan.storedText (config.plansPath surroundings.environment) ::
    StoredFacts.texts (config.factsPath surroundings.environment) facts) paths s.files)

include hfacts hplan hheld

theorem write_eq : write config surroundings s = writeWith config facts.sorted plan surroundings s := by
  unfold write writeWith
  refine bind_congr_ok (sourcePath_meets config _) hheld ?_
  rintro source s₁ ⟨-, -, hheld⟩
  refine bind_congr_ok (Meets.reading (Storage.readOriginal_readOnly source)) hheld ?_
  rintro original s₂ hheld
  refine bind_congr_ok (factsDirectory_meets Storage.holds_stable_empty config) hheld ?_
  rintro directory s₃ ⟨rfl, hheld⟩
  rw [bind_eq (storing_readFacts hfacts (List.subset_cons_self ..) hheld)]
  refine bind_congr_ok (plansDirectory_meets Storage.holds_stable_empty config) hheld ?_
  rintro directory s₄ ⟨rfl, hheld⟩
  rw [bind_eq (storing_readPlan hplan List.mem_cons_self hheld)]

theorem link_eq (hfaults : surroundings.faults = []) :
    link config surroundings s = linkWith config facts.sorted plan surroundings s := by
  have hnone : ∀ kind, surroundings.faults.lookup kind = none := by simp [hfaults]
  unfold link linkWith
  refine bind_congr_ok (sourcePath_meets config _) hheld ?_
  rintro source s₁ ⟨-, -, hheld⟩
  refine bind_congr_ok (Meets.reading (Storage.readOriginal_readOnly source)) hheld ?_
  rintro original s₂ hheld
  refine bind_congr_ok (factsDirectory_meets Storage.holds_stable_empty config) hheld ?_
  rintro directory s₃ ⟨rfl, hheld⟩
  rw [bind_eq (step_eq_ok.2 ⟨hnone .readFacts,
    storing_readFacts hfacts (List.subset_cons_self ..) hheld⟩)]
  refine bind_congr_ok (plansDirectory_meets Storage.holds_stable_empty config) hheld ?_
  rintro directory s₄ ⟨rfl, hheld⟩
  rw [bind_eq (step_eq_ok.2 ⟨hnone .readPlan, storing_readPlan hplan List.mem_cons_self hheld⟩)]

end Planned

end Run

end ScriptSplit
