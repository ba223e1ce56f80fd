import ScriptSplit.Proofs.Run.Stored
import ScriptSplit.Proofs.Run.Places
import ScriptSplit.Stage.Plan
import ScriptSplit.Stage.Write

/-!
# Stages that fail

Each stage reads and checks everything first, which leaves all files alone, and only then writes, which does
not fail with an error of the program's own. So where a stage fails with such an error, no file has changed.
-/

namespace ScriptSplit

variable {α β : Type}

def Files.SameFiles (before after : Files) : Prop :=
  ∀ location content, after.entry? location = some (.file content) ↔
    before.entry? location = some (.file content)

namespace Files.SameFiles

@[refl] theorem refl (files : Files) : SameFiles files files := fun _ _ => Iff.rfl

theorem trans {f g h : Files} (hfg : SameFiles f g) (hgh : SameFiles g h) : SameFiles f h :=
  fun location content => (hgh location content).trans (hfg location content)

end Files.SameFiles

theorem Files.Changes.sameFiles {made : Set Location} {f g : Files} (h : Changes ∅ made f g) :
    SameFiles f g := by
  intro location content
  rcases h.kept location (Set.notMem_empty _) with hsame | ⟨hnone, hdirectory, -⟩
  · rw [hsame]
  · simp [hnone, hdirectory]

/-! ## Tasks on files -/

namespace Storage

/-- A task that does not fail with one of the program's own errors. -/
def NeverOwn (task : Storage α) : Prop :=
  ∀ files cause after, task files = .error cause after → cause.isOwn = false

namespace NeverOwn

theorem pure (a : α) : NeverOwn (Pure.pure a : Storage α) := by
  intro files cause after hrun
  cases hrun

theorem bind {task : Storage α} {next : α → Storage β} (htask : NeverOwn task)
    (hnext : ∀ a, NeverOwn (next a)) : NeverOwn (task >>= next) := by
  intro files cause after hrun
  rcases bind_eq_error.1 hrun with hfirst | ⟨a, between, -, hlast⟩
  · exact htask files cause after hfirst
  · exact hnext a between cause after hlast

theorem change (operation : Files → Except OsError Files) :
    NeverOwn (Storage.change operation) := by
  intro files cause after hrun
  unfold Storage.change at hrun
  split at hrun
  · cases hrun
  · cases hrun
    rfl

theorem makeDirectories (path : Path) : NeverOwn (Storage.makeDirectories path) := by
  intro files cause after hrun
  unfold Storage.makeDirectories at hrun
  split at hrun
  · cases hrun
  · cases hrun
    rfl

theorem readText (path : Path) : NeverOwn (Storage.readText path) := by
  intro files cause after hrun
  unfold Storage.readText at hrun
  split at hrun
  · cases hrun
    rfl
  · split at hrun
    · cases hrun
    · cases hrun
      rfl

theorem require (path : Path) (beside : Option Path) : NeverOwn (Storage.require path beside) := by
  intro files cause after hrun
  cases beside with
  | some found => cases hrun
  | none =>
      cases hrun
      rfl

theorem writeText (path : Path) (text : Text) : NeverOwn (Storage.writeText path text) :=
  (makeDirectories _).bind fun _ => (change _).bind fun _ => change _

theorem writeDocument (path : Path) (doc : Json) : NeverOwn (Storage.writeDocument path doc) :=
  writeText _ _

theorem copyFile (source target : Path) : NeverOwn (Storage.copyFile source target) := by
  refine bind ?_ fun content => change _
  intro files cause after hrun
  simp only at hrun
  split at hrun
  · cases hrun
  · cases hrun
    rfl

theorem writeFacts (directory : Path) (facts : Facts) :
    NeverOwn (Storage.writeFacts directory facts) :=
  (writeText _ _).bind fun _ => (writeText _ _).bind fun _ => (writeText _ _).bind fun _ =>
    (writeDocument _ _).bind fun _ => (writeDocument _ _).bind fun _ =>
      (writeDocument _ _).bind fun _ => pure _

theorem writePlan (directory : Path) (plan : Plan) : NeverOwn (Storage.writePlan directory plan) :=
  (writeDocument _ _).bind fun _ => pure _

theorem insertInto (path : Path) (lines : List String) :
    NeverOwn (Run.insertInto path lines) := by
  refine (readText path).bind fun text => ?_
  simp only
  split
  · exact pure _
  · exact (writeText _ _).bind fun _ => pure _

end NeverOwn

end Storage

namespace Run

/-! ## Pieces of a run -/

/-- A piece of a run that leaves all files as they are, whether it succeeds or fails. -/
def Harmless (task : Run α) : Prop :=
  ∀ surroundings s, Files.SameFiles s.files (filesAfter task surroundings s)

def NeverOwn (task : Run α) : Prop :=
  ∀ surroundings s cause s', task surroundings s = .error cause s' → cause.isOwn = false

/-- A piece of a run that has changed no file if it fails with one of the program's own errors. -/
def Careful (task : Run α) : Prop :=
  ∀ surroundings s cause s', task surroundings s = .error cause s' → cause.isOwn = true →
    Files.SameFiles s.files s'.files

namespace Harmless

theorem pure (a : α) : Harmless (Pure.pure a : Run α) :=
  fun _ s => .refl s.files

theorem throw (cause : Failure) : Harmless (throw cause : Run α) :=
  fun _ s => .refl s.files

theorem bind {task : Run α} {next : α → Run β} (htask : Harmless task)
    (hnext : ∀ a, Harmless (next a)) : Harmless (task >>= next) := by
  intro surroundings s
  have hfirst := htask surroundings s
  unfold filesAfter at hfirst ⊢
  cases hrun : task surroundings s with
  | ok a s₁ =>
      rw [hrun] at hfirst
      rw [bind_eq hrun]
      exact hfirst.trans (hnext a surroundings s₁)
  | error cause s₁ =>
      rw [hrun] at hfirst
      rw [bind_eq_error hrun]
      exact hfirst

theorem warn (source : String) (warning : Warning) : Harmless (warn source warning) :=
  fun _ s => .refl s.files

theorem orFail {ε : Type} (failure : ε → Failure) (outcome : Except ε α) :
    Harmless (orFail failure outcome) := by
  cases outcome with
  | ok a => exact pure a
  | error cause => exact throw _

theorem reading {task : Storage α} (htask : Storage.ReadOnly task) : Harmless (storing task) := by
  intro surroundings s
  unfold filesAfter storing
  rcases htask s.files with ⟨a, hrun⟩ | ⟨cause, hrun⟩ <;> rw [hrun]

theorem makeDirectories (path : Path) : Harmless (storing (Storage.makeDirectories path)) := by
  intro surroundings s
  have hmeets := Storage.makeDirectories_meets path s.files
  unfold filesAfter storing
  cases hrun : Storage.makeDirectories path s.files with
  | ok a after =>
      rw [hrun] at hmeets
      exact hmeets.1.sameFiles
  | error cause after =>
      rw [hrun] at hmeets
      exact hmeets.sameFiles

theorem step {kind : LinkStep} {task : Run α} (htask : Harmless task) :
    Harmless (step kind task) := by
  intro surroundings s
  unfold Run.step filesAfter
  rw [bind_read_eq]
  cases surroundings.faults.lookup kind with
  | some reason => exact .refl s.files
  | none => exact htask surroundings s

theorem sourcePath (config : Config) : Harmless (sourcePath config) := by
  unfold Run.sourcePath
  split
  · exact throw _
  · refine bind (fun _ s => .refl s.files) fun found => ?_
    split
    · exact pure _
    · exact throw _

theorem artifactDirectory (config : Config) (variable_ : String) (configured : Option String)
    (usual : String) : Harmless (artifactDirectory config variable_ configured usual) :=
  bind (fun _ s => .refl s.files) fun _ => (makeDirectories _).bind fun _ => pure _

theorem factsDirectory (config : Config) : Harmless (factsDirectory config) :=
  artifactDirectory _ _ _ _

theorem plansDirectory (config : Config) : Harmless (plansDirectory config) :=
  artifactDirectory _ _ _ _

end Harmless

namespace NeverOwn

theorem pure (a : α) : NeverOwn (Pure.pure a : Run α) := by
  intro surroundings s cause s' hrun
  cases hrun

theorem bind {task : Run α} {next : α → Run β} (htask : NeverOwn task)
    (hnext : ∀ a, NeverOwn (next a)) : NeverOwn (task >>= next) := by
  intro surroundings s cause s' hrun
  cases hfirst : task surroundings s with
  | ok a s₁ =>
      rw [bind_eq hfirst] at hrun
      exact hnext a surroundings s₁ cause s' hrun
  | error reason s₁ =>
      rw [bind_eq_error hfirst] at hrun
      cases hrun
      exact htask surroundings s cause s' hfirst

theorem storing {task : Storage α} (htask : Storage.NeverOwn task) : NeverOwn (storing task) := by
  intro surroundings s cause s' hrun
  unfold Run.storing at hrun
  cases hfirst : task s.files with
  | ok a files =>
      rw [hfirst] at hrun
      cases hrun
  | error reason files =>
      rw [hfirst] at hrun
      cases hrun
      exact htask s.files cause files hfirst

theorem read : NeverOwn (read : Run Surroundings) := by
  intro surroundings s cause s' hrun
  cases hrun

theorem get : NeverOwn (get : Run RunState) := by
  intro surroundings s cause s' hrun
  cases hrun

theorem modify (change : RunState → RunState) : NeverOwn (modify change : Run PUnit) := by
  intro surroundings s cause s' hrun
  cases hrun

theorem connect (line : ChatLine) (client : ChatClient) :
    NeverOwn (orFail .injected (line.connect client)) := by
  intro surroundings s cause s' hrun
  cases hconnect : line.connect client with
  | ok connected =>
      rw [hconnect] at hrun
      cases hrun
  | error reason =>
      rw [hconnect] at hrun
      cases hrun
      rfl

theorem files : NeverOwn Run.files :=
  get.bind fun _ => pure _

theorem warn (source : String) (warning : Warning) : NeverOwn (warn source warning) :=
  modify _

theorem warnAll (source : String) (warnings : List Warning) : NeverOwn (warnAll source warnings) := by
  unfold Run.warnAll
  induction warnings with
  | nil => exact pure _
  | cons warning warnings ih => exact (warn source warning).bind fun _ => ih

theorem foldlM {step : β → α → Run β} (hstep : ∀ b a, NeverOwn (step b a)) (list : List α)
    (start : β) : NeverOwn (list.foldlM step start) := by
  induction list generalizing start with
  | nil => exact pure _
  | cons a list ih =>
      rw [List.foldlM_cons]
      exact (hstep start a).bind ih

theorem mapM {task : α → Run β} (htask : ∀ a, NeverOwn (task a)) (list : List α) :
    NeverOwn (list.mapM task) := by
  induction list with
  | nil => exact pure _
  | cons a list ih =>
      rw [List.mapM_cons]
      exact (htask a).bind fun _ => ih.bind fun _ => pure _

theorem step {kind : LinkStep} {task : Run α} (htask : NeverOwn task) :
    NeverOwn (step kind task) := by
  intro surroundings s cause s' hrun
  unfold Run.step at hrun
  rw [bind_read_eq] at hrun
  cases hfault : surroundings.faults.lookup kind with
  | some reason =>
      rw [hfault] at hrun
      cases hrun
      rfl
  | none =>
      rw [hfault] at hrun
      exact htask surroundings s cause s' hrun

theorem bestEffort (name : String) (task : Run α) : NeverOwn (bestEffort name task) := by
  refine bind ?_ fun outcome => ?_
  · intro surroundings s cause s' hrun
    unfold attempt at hrun
    split at hrun <;> cases hrun
  · cases outcome with
    | ok a => exact pure _
    | error cause => exact (warn _ _).bind fun _ => pure _

end NeverOwn

namespace Careful

theorem of_neverOwn {task : Run α} (htask : NeverOwn task) : Careful task := by
  intro surroundings s cause s' hrun hown
  rw [htask surroundings s cause s' hrun] at hown
  cases hown

theorem after {task : Run α} {next : α → Run β} (htask : Harmless task)
    (hnext : ∀ a, Careful (next a)) : Careful (task >>= next) := by
  intro surroundings s cause s' hrun hown
  have hfirst := htask surroundings s
  unfold filesAfter at hfirst
  cases hrest : task surroundings s with
  | ok a s₁ =>
      rw [hrest] at hfirst
      rw [bind_eq hrest] at hrun
      exact hfirst.trans (hnext a surroundings s₁ cause s' hrun hown)
  | error reason s₁ =>
      rw [hrest] at hfirst
      rw [bind_eq_error hrest] at hrun
      cases hrun
      exact hfirst

end Careful

/-! ## Writing -/

theorem copyForDebug_neverOwn (config : Config) (path : Path) :
    NeverOwn (copyForDebug config path) :=
  (NeverOwn.storing (.makeDirectories _)).bind fun _ => .storing (.copyFile _ _)

theorem writeModule_neverOwn (config : Config) (reader : Script.Reader) (source : Path) (text : Text)
    (facts : Facts) (report : WriteReport) (m : ModuleSpec) :
    NeverOwn (writeModule config reader source text facts report m) := by
  unfold writeModule
  simp only
  refine (NeverOwn.warnAll _ _).bind fun _ => ?_
  split
  · exact .pure _
  · refine (NeverOwn.warnAll _ _).bind fun _ => (NeverOwn.storing (.writeText _ _)).bind fun _ => ?_
    split
    · exact (copyForDebug_neverOwn _ _).bind fun _ => .pure _
    · exact .pure _

/-! ## Linking -/

theorem previewImports_neverOwn (layout : Layout) : NeverOwn (previewImports layout) := by
  unfold previewImports
  refine NeverOwn.foldlM (fun preview slug => NeverOwn.files.bind fun found => ?_) _ _
  split
  · exact (NeverOwn.storing (.readText _)).bind fun _ => .pure _
  · exact .pure _

theorem reviewPreview_neverOwn (config : Config) (plansDirectory : Path) (preview : ImportPreview) :
    NeverOwn (reviewPreview config plansDirectory preview) := by
  unfold reviewPreview
  refine NeverOwn.read.bind fun surroundings => ?_
  split
  · exact .pure _
  · refine NeverOwn.get.bind fun s => (NeverOwn.connect _ _).bind fun line => ?_
    simp only
    refine (NeverOwn.modify _).bind fun _ => ?_
    split
    · exact .pure _
    · exact (NeverOwn.storing (.writeDocument _ _)).bind fun _ => .pure _

theorem findImports_neverOwn (config : Config) (plansDirectory : Path) (facts : Facts)
    (layout : Layout) : NeverOwn (findImports config plansDirectory facts layout) := by
  unfold findImports
  split
  · exact .pure _
  · refine (previewImports_neverOwn layout).bind fun preview =>
      (NeverOwn.storing (.writeDocument _ _)).bind fun _ => ?_
    split
    · exact .pure _
    · refine (reviewPreview_neverOwn config plansDirectory preview).bind fun outcome => ?_
      cases outcome with
      | ok _ => exact .pure _
      | error cause => exact (NeverOwn.warn _ _).bind fun _ => .pure _

theorem insertNeeded_neverOwn (layout : Layout) (needed : NeededNames) :
    NeverOwn (insertNeeded layout needed) := by
  unfold insertNeeded
  refine NeverOwn.foldlM (fun inserted entry => NeverOwn.files.bind fun found => ?_) _ _
  split
  · refine (NeverOwn.mapM (fun name => ?_) _).bind fun lines =>
      (NeverOwn.storing (.insertInto _ _)).bind fun _ => .pure _
    split
    · exact .pure _
    · intro surroundings s cause s' hrun
      cases hrun
      rfl
  · exact .pure _

theorem writeLinkDocument_neverOwn (path : Path) (doc : Json) :
    NeverOwn (writeLinkDocument path doc) :=
  .step (.storing (.writeDocument _ _))

theorem prepare_neverOwn (config : Config) (plansDirectory source : Path) (text : Text)
    (facts : Facts) (layout : Layout) :
    NeverOwn (prepare config plansDirectory source text facts layout) := by
  unfold prepare
  refine (NeverOwn.step (findImports_neverOwn _ _ _ _)).bind fun imports => ?_
  refine (NeverOwn.step (insertNeeded_neverOwn _ _)).bind fun inserted => ?_
  refine (writeLinkDocument_neverOwn _ _).bind fun _ => ?_
  refine (NeverOwn.step (NeverOwn.files.bind fun _ => .pure _)).bind fun exports => ?_
  refine (NeverOwn.step (.pure _)).bind fun mapping => ?_
  exact (NeverOwn.bestEffort _ _).bind fun _ => .pure _

theorem replaceSource_neverOwn (l : Linking) (backup bridge : Path) :
    NeverOwn (l.replaceSource backup bridge) :=
  (NeverOwn.bestEffort _ _).bind fun _ => (NeverOwn.bestEffort _ _).bind fun _ => .pure _

theorem surround_neverOwn (l : Linking) : NeverOwn l.surround := by
  unfold Linking.surround Linking.writeBridges
  refine NeverOwn.read.bind fun surroundings => ?_
  refine (NeverOwn.bestEffort _ _).bind fun backup => ?_
  refine NeverOwn.bind ?_ fun bridge => ?_
  · refine (NeverOwn.bestEffort _ _).bind fun written => ?_
    simp only
    split
    · exact .pure _
    · exact (NeverOwn.bestEffort _ _).bind fun _ => .pure _
  · refine (NeverOwn.bestEffort _ _).bind fun mirrored => ?_
    simp only
    split
    · exact (replaceSource_neverOwn _ _ _).bind fun _ => .pure _
    · exact (NeverOwn.pure _).bind fun _ => .pure _

/-! ## Stages -/

variable (config : Config)

theorem analyze_careful : Careful (analyze config) := by
  unfold analyze
  refine .after (.sourcePath config) fun source => ?_
  refine .after (.reading (Storage.readOriginal_readOnly source)) fun original => ?_
  have hread : Harmless (read : Run Surroundings) := fun _ s => .refl s.files
  refine .after hread fun surroundings => ?_
  have hanalysis : ∀ program, Careful (do
      let analysis ← orFail .analysis
        (analyzeTree surroundings.reader program original.1 source.toString config.closureCalls)
      let directory ← factsDirectory config
      let _ ← storing (Storage.writeFacts directory analysis.facts)
      return ({
        analysis
        messages := backupMessage .analyze source original.2 "reading" ++
          [AnalysisReport.countsMessage analysis.facts] } : AnalysisReport)) := by
    intro program
    refine .after (.orFail _ _) fun analysis => .after (.factsDirectory config) fun directory => ?_
    exact .of_neverOwn ((NeverOwn.storing (.writeFacts _ _)).bind fun _ => .pure _)
  simp only
  split
  · exact .after (.warn _ _) fun _ => hanalysis _
  · exact hanalysis _

theorem storePlan_neverOwn (plansDirectory : Path) (plan : Plan) (source : PlanSource)
    (adviserCalls : Nat) (messages : List String) (warnings : List Warning) :
    NeverOwn (storePlan plansDirectory plan source adviserCalls messages warnings) :=
  (NeverOwn.storing (.writePlan _ _)).bind fun _ => .pure _

theorem balancedPlan_harmless (source : Path) (facts : Facts) :
    Harmless (balancedPlan config source facts) := by
  unfold balancedPlan
  simp only
  split
  · exact ((Harmless.warn _ _).bind fun _ => .pure _).bind fun _ =>
      (Harmless.pure _).bind fun _ => (Harmless.orFail _ _).bind fun _ => .pure _
  · exact (Harmless.pure _).bind fun _ => (Harmless.orFail _ _).bind fun _ => .pure _

/-- Without an adviser the plan is checked before it is stored. -/
theorem plan_careful (hadviser : config.adviser.enabled = false) : Careful (plan config) := by
  unfold plan
  refine .after (.factsDirectory config) fun factsDirectory => ?_
  refine .after (.plansDirectory config) fun plansDirectory => ?_
  refine .after (.reading (Storage.readIndex_readOnly _)) fun index => ?_
  refine .after (.reading (Storage.readFacts_readOnly _)) fun facts => ?_
  refine .after (.sourcePath config) fun source => ?_
  have hadvised : advisedPlan config source plansDirectory index facts =
      (pure (none, 0, [], []) : Run _) := by
    unfold advisedPlan
    rw [hadviser]
    rfl
  rw [hadvised, pure_bind]
  refine .after (balancedPlan_harmless config source facts) fun balanced => ?_
  exact .of_neverOwn (storePlan_neverOwn _ _ _ _ _ _)

theorem write_careful : Careful (write config) := by
  unfold write
  refine .after (.sourcePath config) fun source => ?_
  refine .after (.reading (Storage.readOriginal_readOnly source)) fun original => ?_
  refine .after (.factsDirectory config) fun factsDirectory => ?_
  refine .after (.reading (Storage.readFacts_readOnly _)) fun facts => ?_
  refine .after (.plansDirectory config) fun plansDirectory => ?_
  refine .after (.reading (Storage.readPlan_readOnly _)) fun plan => ?_
  refine .of_neverOwn ((NeverOwn.storing (.makeDirectories _)).bind fun _ => NeverOwn.read.bind fun _ => ?_)
  exact (NeverOwn.foldlM (writeModule_neverOwn _ _ _ _ _) _ _).bind fun _ => .pure _

theorem link_careful : Careful (link config) := by
  unfold link
  refine .after (.sourcePath config) fun source => ?_
  refine .after (.reading (Storage.readOriginal_readOnly source)) fun original => ?_
  refine .after (.factsDirectory config) fun factsDirectory => ?_
  refine .after (.step (.reading (Storage.readFacts_readOnly _))) fun facts => ?_
  refine .after (.plansDirectory config) fun plansDirectory => ?_
  refine .after (.step (.reading (Storage.readPlan_readOnly _))) fun plan => ?_
  refine .of_neverOwn ((prepare_neverOwn _ _ _ _ _ _).bind fun prepared => ?_)
  refine (surround_neverOwn _).bind fun surrounded => ?_
  refine (NeverOwn.step (.pure _)).bind fun report => ?_
  exact (writeLinkDocument_neverOwn _ _).bind fun _ => .pure _

/-- Where a stage fails with one of the program's own errors, every file is what it was before. -/
theorem own_error_keeps_files : Careful (analyze config) ∧
    (config.adviser.enabled = false → Careful (plan config)) ∧
    Careful (write config) ∧ Careful (link config) :=
  ⟨analyze_careful config, plan_careful config, write_careful config, link_careful config⟩

/-- A workspace whose facts have no functions in them. -/
def unfilled : RunState where
  files := workspace "function a() \x7b\x7d" "" "[]"

def midday : Surroundings where
  environment := []
  now := ⟨2024, 1, 2, 12, 0, 0⟩

theorem plan_unfilled_keeps_files : workspaceConfig.adviser.enabled = false ∧
    ∃ cause s', plan workspaceConfig midday unfilled = .error cause s' ∧
      cause.isOwn = true ∧ Files.SameFiles unfilled.files s'.files := by
  have hadviser : workspaceConfig.adviser.enabled = false := rfl
  have hfails : (match plan workspaceConfig midday unfilled with
      | .ok _ _ => false
      | .error cause _ => cause.isOwn) = true := by decide +kernel
  refine ⟨hadviser, ?_⟩
  cases hrun : plan workspaceConfig midday unfilled with
  | ok report s' =>
      rw [hrun] at hfails
      cases hfails
  | error cause s' =>
      rw [hrun] at hfails
      exact ⟨cause, s', rfl, hfails,
        (own_error_keeps_files workspaceConfig).2.1 hadviser _ _ _ _ hrun hfails⟩

end Run

end ScriptSplit
