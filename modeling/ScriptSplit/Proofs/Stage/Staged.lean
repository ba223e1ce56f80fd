import ScriptSplit.Proofs.Run.Holding
import ScriptSplit.Proofs.Stage.Artifacts
import ScriptSplit.Proofs.Stage.Plan

/-!
# What a stage leaves for the next one

Analysing leaves the facts, planning a plan that fits them, and writing a file for every module that has
functions. Each stage reads back what the ones before it have left, whoever makes the plan and wherever the
artifacts are: what a stage writes has other names than what is to stay.
-/

namespace ScriptSplit

open Storage (Holds Stable StoredText)

/-! ## Facts and plans in files -/

/-- Facts that come back from files as they are, apart from the order of names. -/
structure Facts.Storable (facts : Facts) : Prop where
  functions : facts.functions ≠ []
  spans : ∀ f ∈ facts.functions, 0 ≤ f.start ∧ f.start ≤ f.stop
  printable : facts.Printable

/-- A plan that comes back from its file and fits the functions that it was made for. -/
structure Plan.Usable (plan : Plan) (functions : List FunctionRecord) (basename : String) : Prop where
  storable : plan.Storable
  fits : ∃ maxFiles, plan.Fits functions maxFiles (some basename)

def Plan.storedText (directory : Path) (plan : Plan) : StoredText where
  directory
  name := Storage.planFile
  text := plan.toDoc.pretty.toList ++ ['\n']

namespace StoredFacts

def fileNames : List String :=
  ["functions.ndjson", "imports.ndjson", "calls.ndjson", namesFile, countsFile, indexFile]

theorem name_mem_fileNames {directory : Path} {facts : Facts} {stored : StoredText}
    (hstored : stored ∈ texts directory facts) : stored.name ∈ fileNames :=
  List.mem_map_of_mem (f := StoredText.name) hstored

theorem foreign_of_mem_fileNames {name : String} (hname : name ∈ fileNames) : Foreign name := by
  have hall : ∀ file ∈ fileNames, ∀ ending ∈ [".js", ".cjs", ".tmp"],
      ¬ file.toList <:+ ending.toList ∧ ¬ ending.toList <:+ file.toList := by decide
  exact foreign_of_name (hall name hname)

theorem texts_apart (directory : Path) (facts : Facts) {name : String}
    (hname : ∀ other ∈ fileNames, other ≠ name ∧ other ≠ Path.temporaryName name) :
    ∀ stored ∈ texts directory facts, stored.Apart name := fun stored hstored =>
  ⟨texts_names directory facts stored hstored, (hname _ (name_mem_fileNames hstored)).1,
    (hname _ (name_mem_fileNames hstored)).2⟩

end StoredFacts

theorem Foreign.apart {name : String} (hforeign : Foreign name) (stored : StoredText)
    (hstored : stored.name = name) (hname : name ≠ "..") (start : String) :
    stored.Apart (start ++ ".js") where
  isName := hstored ▸ hname
  target := hstored ▸ hforeign start ".js" (by simp)
  aside := hstored ▸ hforeign (start ++ ".js") ".tmp" (by simp)

namespace Storage

variable {current : Location} {texts : List StoredText} {paths : List Path} {facts : Facts}
  {plan : Plan} {directory : Path}

theorem readFacts_holds {failed : Files → Prop} (hfacts : facts.Storable)
    (htexts : StoredFacts.texts directory facts ⊆ texts) :
    Meets (Holds current texts paths) (readFacts directory)
      (fun found files => found = facts.sorted ∧ Holds current texts paths files) failed := by
  constructor
  intro files hfiles
  rw [readFacts_of_texts hfacts.functions hfacts.spans hfacts.printable fun stored hstored =>
    hfiles.stored stored (htexts hstored)]
  exact ⟨rfl, hfiles⟩

theorem readPlan_holds {failed : Files → Prop} (hplan : plan.Storable)
    (htext : plan.storedText directory ∈ texts) :
    Meets (Holds current texts paths) (readPlan directory)
      (fun found files => found = plan ∧ Holds current texts paths files) failed := by
  constructor
  intro files hfiles
  have hread : readPlan directory files = .ok plan files :=
    readPlan_eq hplan (hfiles.stored _ htext)
  rw [hread]
  exact ⟨rfl, hfiles⟩

theorem writeEach_current {all : List StoredText} {files after : Files}
    (hnames : ∀ stored ∈ all, stored.name ≠ "..")
    (hrun : StoredText.writeEach all files = .ok () after) : after.current = files.current := by
  induction all generalizing files with
  | nil =>
      cases hrun
      rfl
  | cons stored rest ih =>
      obtain ⟨hname, hnames⟩ := List.forall_mem_cons.1 hnames
      obtain ⟨_, between, hwrite, hrest⟩ := bind_eq_ok.1 hrun
      exact (ih hnames hrest).trans (StoredText.writeText_path_eq_ok hname hwrite).1.current

theorem writeFacts_holds (directory : Path) (facts : Facts) :
    Meets (·.current = current) (writeFacts directory facts)
      (fun _ => Holds current (StoredFacts.texts directory facts) []) fun _ => True := by
  constructor
  intro files hfiles
  rw [StoredFacts.writeFacts_eq]
  cases hrun : (do
      StoredText.writeEach (StoredFacts.texts directory facts)
      return facts.index : Storage FactsIndex) files with
  | error cause after => trivial
  | ok index after =>
      obtain ⟨_, between, hwrite, hlast⟩ := bind_eq_ok.1 hrun
      cases hlast
      have hnames := StoredFacts.texts_names directory facts
      refine ⟨(writeEach_current hnames hwrite).trans hfiles, ?_, by simp⟩
      exact StoredText.writeEach_eq_ok hnames
        (StoredFacts.texts_spared directory facts files.current) hwrite

end Storage

namespace Run

variable {config : Config} {surroundings : Surroundings} {s s' : RunState} {current : Location}
  {source : Path} {facts : Facts} {property : Files → Prop} {texts : List StoredText}

theorem sourcePath_known (hsource : config.sourcePath? = some source) :
    Meets surroundings property (sourcePath config) (fun path files => path = source ∧ property files)
      property := by
  apply (sourcePath_meets config property).consequence (fun _ hfiles => hfiles) _
    fun _ hfiles => hfiles
  rintro path files ⟨hpath, -, hfiles⟩
  exact ⟨Option.some.inj (hpath.symm.trans hsource), hfiles⟩

/-! ## Analysing -/

/-- Analysing leaves the facts about the text that the source is read from. -/
theorem analyze_leaves (hsource : config.sourcePath? = some source) {start : Files} {text : Text}
    {path : Path} (hread : Storage.readOriginal source start = .ok (text, path) start) :
    Meets surroundings (· = start) (analyze config)
      (fun report files =>
        analyzeTree surroundings.reader (surroundings.reader.tree? text) text source.toString
            config.closureCalls = .ok report.analysis ∧
          Holds start.current (StoredFacts.texts (config.factsPath surroundings.environment)
            report.analysis.facts) [] files) fun _ => True := by
  have hplace : Stable start.current ∅ (·.current = start.current) :=
    ⟨fun _ hfiles => hfiles, fun _ _ hchanges hbefore => hchanges.current.trans hbefore⟩
  unfold analyze
  apply Meets.bind ((sourcePath_known hsource).failing fun _ _ => trivial)
  intro found
  apply Meets.assume
  rintro rfl
  apply Meets.seq (fun original files => original = (text, path) ∧ files = start)
  · apply Meets.storing
    constructor
    rintro files rfl
    rw [hread]
    exact ⟨rfl, rfl⟩
  rintro ⟨text', usedFrom⟩
  apply Meets.assume
  rintro ⟨⟩
  simp only
  apply Meets.bind_read
  suffices hstored : Meets surroundings (· = start) _ _ _ by
    split
    · exact Meets.bind_warn hstored
    · exact hstored
  apply Meets.bind ((Meets.orFail _ _).failing fun _ _ => trivial)
  intro analysis
  apply Meets.assume
  intro hanalysis
  apply Meets.bind (((factsDirectory_meets hplace config).starting
    fun files hfiles => congrArg Files.current hfiles).failing fun _ _ => trivial)
  intro directory
  apply Meets.assume
  rintro rfl
  apply Meets.bind (Meets.storing (Storage.writeFacts_holds _ analysis.facts))
  intro index
  exact .pure fun _ hfiles => ⟨hanalysis, hfiles⟩

/-! ## Planning -/

theorem balancedPlan_usable (hids : (facts.functions.map (·.id)).Nodup) (source : Path) :
    Meets surroundings property (balancedPlan config source facts)
      (fun found files => found.1.Usable facts.functions source.basename ∧ property files)
      property := by
  unfold balancedPlan
  simp only
  generalize hplan : Plan.balanced facts.functions config.maxFiles config.minClusterSize
    (some source.basename) = plan
  have hchecked (maxFiles : Int) (warnings : List Warning) : Meets surroundings property
      (do
        orFail .plan (plan.validate facts.functions maxFiles (some source.basename))
        return (plan, warnings))
      (fun found files => found.1.Usable facts.functions source.basename ∧ property files)
      property := by
    apply Meets.bind (Meets.orFail _ _)
    rintro ⟨⟩
    apply Meets.assume
    intro hvalid
    have hstorable : plan.Storable := hplan ▸ Plan.balanced_storable _ _ hids
    exact .pure fun _ hfiles => ⟨⟨hstorable, maxFiles, Plan.fits_of_validate hvalid⟩, hfiles⟩
  split
  · simp only [warnPlan, bind_assoc, pure_bind]
    exact Meets.bind_warn (hchecked _ _)
  · simp only [pure_bind]
    exact hchecked _ _

/-- A plan of the adviser that is taken has been read and checked. -/
theorem takeAdvice_usable {session : Advice.Session} {directory : Path} {basename : String}
    (hfunctions : session.facts = facts) (hbasename : session.basename = some basename)
    (hstable : Stable current (Storage.touchedBy directory adviceFile current) property) :
    Meets surroundings property (takeAdvice session directory)
      (fun found files =>
        (∀ plan, found.1 = some plan → plan.Usable facts.functions basename) ∧ property files)
      property := by
  unfold takeAdvice
  simp only
  apply Meets.seq (fun advice files =>
    (∀ plan, advice.result = .ok plan → plan.Usable facts.functions basename) ∧ property files)
  · unfold advise
    apply Meets.bind_read
    apply Meets.bind_get
    intro s
    split
    · next advice hask =>
        apply Meets.bind_modify
        · intro _
          rfl
        apply Meets.bind (writeDocument_keeps adviceFile_isName hstable _)
        intro _
        refine .pure fun _ hfiles => ⟨fun plan hplan => ?_, hfiles⟩
        obtain ⟨body, doc, -, hread, hvalid⟩ := Advice.Session.Accepted.offers
          (((Advice.Session.ask_answers hask).plan plan).1 hplan)
        rw [hfunctions, hbasename] at hvalid
        exact ⟨Plan.storable_of_ofDoc hread, _, Plan.fits_of_validate hvalid⟩
    · apply Meets.bind (writeDocument_keeps adviceFile_isName hstable _)
      intro _
      exact .throw fun _ hfiles => hfiles
  intro advice
  apply Meets.assume
  intro husable
  split
  · next plan hresult =>
      refine .pure fun _ hfiles => ⟨fun other hother => ?_, hfiles⟩
      obtain rfl := Option.some.inj hother
      exact husable _ hresult
  · simp only [warnPlan, bind_assoc, pure_bind]
    exact Meets.bind_warn (.pure fun _ hfiles => ⟨by simp, hfiles⟩)

theorem advisedPlan_usable {index : FactsIndex} {directory : Path}
    (hstable : Stable current (Storage.touchedBy directory adviceFile current) property) :
    Meets surroundings property (advisedPlan config source directory index facts)
      (fun found files =>
        (∀ plan, found.1 = some plan → plan.Usable facts.functions source.basename) ∧ property files)
      property := by
  unfold advisedPlan
  split
  · exact .pure fun _ hfiles => ⟨by simp, hfiles⟩
  split
  · apply Meets.bind (Meets.reading (Storage.readOriginal_readOnly _))
    rintro ⟨text, usedFrom⟩
    exact takeAdvice_usable rfl rfl hstable
  · exact takeAdvice_usable rfl rfl hstable

theorem storePlan_leaves {texts : List StoredText} {directory : Path}
    (happart : ∀ stored ∈ texts, stored.Apart Storage.planFile) (plan : Plan) (source : PlanSource)
    (adviserCalls : Nat) (messages : List String) (warnings : List Warning) :
    Meets surroundings (Holds current texts [])
      (storePlan directory plan source adviserCalls messages warnings)
      (fun report files => report.plan = plan ∧
        Holds current (plan.storedText directory :: texts) [] files)
      (Holds current texts []) := by
  unfold storePlan Storage.writePlan
  simp only [storing_bind, bind_assoc]
  apply Meets.bind (writeDocument_meets Storage.planFile_isName
    (Storage.holds_stable_apart happart directory) plan.toDoc)
  intro _
  rw [show (storing (pure (directory / Storage.planFile)) : Run Path) =
    pure (directory / Storage.planFile) from rfl, pure_bind]
  exact .pure fun _ hfiles => ⟨rfl, hfiles.1.current,
    List.forall_mem_cons.2 ⟨hfiles.2, hfiles.1.stored⟩, by simp⟩

/-- Planning leaves a plan that fits the functions beside their facts. -/
theorem plan_leaves (hfacts : facts.Storable) (hids : (facts.functions.map (·.id)).Nodup)
    (hsource : config.sourcePath? = some source) :
    let texts := StoredFacts.texts (config.factsPath surroundings.environment) facts
    Meets surroundings (Holds current texts []) (plan config)
      (fun report files => report.plan.Usable facts.sorted.functions source.basename ∧
        Holds current (report.plan.storedText (config.plansPath surroundings.environment) :: texts) []
          files)
      (Holds current texts []) := by
  intro texts
  have happart (name : String)
      (hname : ∀ other ∈ StoredFacts.fileNames, other ≠ name ∧ other ≠ Path.temporaryName name) :
      ∀ stored ∈ texts, stored.Apart name :=
    StoredFacts.texts_apart (config.factsPath surroundings.environment) facts hname
  have hids' : (facts.sorted.functions.map (·.id)).Nodup := by
    have hsame : facts.sorted.functions.map (·.id) = facts.functions.map (·.id) := by
      simp [Facts.sorted, FunctionRecord.sorted]
    rw [hsame]
    exact hids
  have hadvice : Stable current (Storage.touchedBy (config.plansPath surroundings.environment)
      adviceFile current) (Holds current texts []) :=
    Storage.holds_stable_apart (happart adviceFile (by decide)) _
  unfold plan
  apply Meets.bind (factsDirectory_meets Storage.holds_stable_empty config)
  intro factsDirectory
  apply Meets.assume
  rintro rfl
  apply Meets.bind (plansDirectory_meets Storage.holds_stable_empty config)
  intro plansDirectory
  apply Meets.assume
  rintro rfl
  apply Meets.bind (Meets.reading (Storage.readIndex_readOnly _))
  intro index
  apply Meets.bind (Meets.storing (Storage.readFacts_holds hfacts (List.Subset.refl _)))
  intro found
  apply Meets.assume
  rintro rfl
  apply Meets.bind (sourcePath_known hsource)
  intro path
  apply Meets.assume
  rintro rfl
  apply Meets.bind (advisedPlan_usable hadvice)
  rintro ⟨advised, adviserCalls, messages, warnings⟩
  apply Meets.assume
  intro husable
  cases advised with
  | some plan =>
      apply (storePlan_leaves (happart Storage.planFile (by decide)) plan .adviser adviserCalls
        messages warnings).consequence (fun _ hfiles => hfiles) _ fun _ hfiles => hfiles
      rintro report files ⟨rfl, hfiles⟩
      exact ⟨husable _ rfl, hfiles⟩
  | none =>
      apply Meets.bind (balancedPlan_usable hids' _)
      rintro ⟨plan, moreWarnings⟩
      apply Meets.assume
      intro hplan
      apply (storePlan_leaves (happart Storage.planFile (by decide)) plan .heuristic adviserCalls
        messages (warnings ++ moreWarnings)).consequence (fun _ hfiles => hfiles) _
          fun _ hfiles => hfiles
      rintro report files ⟨rfl, hfiles⟩
      exact ⟨hplan, hfiles⟩

/-! ## Writing -/

theorem Meets.bind_warnAll {α : Type} {source : String} {warnings : List Warning} {next : Unit → Run α}
    {after : α → Files → Prop} {failed : Files → Prop}
    (h : Meets surroundings property (next ()) after failed) :
    Meets surroundings property (warnAll source warnings >>= next) after failed := by
  unfold warnAll
  induction warnings with
  | nil => exact h
  | cons warning warnings ih =>
      rw [show (warning :: warnings).forM (warn source) =
        (warn source warning >>= fun _ => warnings.forM (warn source)) from rfl, bind_assoc]
      exact Meets.bind_warn ih

def ScriptsIn (directory : Path) (paths : List Path) : Prop :=
  ∀ path ∈ paths, ∃ start, path = directory.child (start ++ ".js")

theorem mem_put_paths {table : Table Path} {slug : String} {target : Path} :
    (table.put slug target).map (·.2) ⊆ target :: table.map (·.2) := by
  refine List.forall_mem_map.2 fun entry hentry => ?_
  rcases Table.mem_put hentry with rfl | hold
  · exact List.mem_cons_self
  · exact List.mem_cons_of_mem _ (List.mem_map_of_mem hold)

section Scripts

variable {directory : Path} {paths : List Path} {start : String}
variable (hname : Path.IsName (start ++ ".js")) (htexts : ∀ stored ∈ texts, stored.Apart (start ++ ".js"))

include hname htexts

theorem writeScript_holds (hscripts : ScriptsIn directory paths) (text : Text) :
    Storage.Meets (Holds current texts paths)
      (Storage.writeText (directory.child (start ++ ".js")) text)
      (fun _ => Holds current texts (directory.child (start ++ ".js") :: paths))
      (Holds current texts paths) := by
  have haside : ∀ path ∈ paths,
      path.place current ≠ Storage.asideOf directory (start ++ ".js") current := by
    rintro path hpath heq
    obtain ⟨other, rfl⟩ := hscripts path hpath
    have hup : Foreign ".." := foreign_of_name (by decide)
    have hother : other ++ ".js" ≠ ".." := (hup other ".js" (by simp)).symm
    rw [Path.place_child hother, Storage.asideOf] at heq
    have hsame : other ++ ".js" = Path.temporaryName (start ++ ".js") := by simpa using heq
    exact append_ne_append (by decide) _ _ hsame
  apply (Storage.writeText_holds hname.notUp (fun stored hstored =>
    (htexts stored hstored).place_not_mem directory current) haside text).consequence
  · exact fun _ hfiles => hfiles
  · exact fun _ _ hfiles => hfiles.weaken (List.subset_cons_self ..) (List.Subset.refl _)
  · exact fun _ hfiles => hfiles

theorem copyForDebug_holds :
    Meets surroundings (Holds current texts paths)
      (copyForDebug config (directory.child (start ++ ".js"))) (fun _ => Holds current texts paths)
      (Holds current texts paths) := by
  unfold copyForDebug
  rw [Path.child_name, Path.div_name _ hname]
  apply Meets.bind (Meets.storing (Storage.makeDirectories_keeps Storage.holds_stable_empty _))
  intro _
  exact Meets.storing (Storage.copyFile_holds _ hname.notUp fun stored hstored heq =>
    (htexts stored hstored).place_not_mem config.debugDirectory current (Or.inl heq))

end Scripts

/-- What has been written of the modules: the files of those that are reported are there. -/
def Wrote (config : Config) (source : Path) (current : Location) (texts : List StoredText)
    (report : WriteReport) (files : Files) : Prop :=
  ScriptsIn (config.moduleDirectory source) (report.files.map (·.2)) ∧
    Holds current texts (report.files.map (·.2)) files

theorem writeModule_wrote (hsource : Path.IsName source.name)
    (htexts : ∀ stored ∈ texts, ∀ start, stored.Apart (start ++ ".js")) {m : ModuleSpec}
    (hslug : isSlug m.slug = true) (reader : Script.Reader) (text : Text) (report : WriteReport) :
    Meets surroundings (Wrote config source current texts report)
      (writeModule config reader source text facts report m) (Wrote config source current texts)
      fun _ => True := by
  have hisName := moduleFileName_isName (c := 'j') hslug (Path.noSlash_of_isName hsource).1 ".js"
    (by decide) (by decide) (by decide)
  have htarget := Path.div_name (config.moduleDirectory source) hisName
  obtain ⟨start, hstart⟩ := moduleFileName_eq m.slug source.basename ".js"
  rw [hstart] at hisName htarget
  unfold writeModule
  simp only [hstart, htarget]
  apply Meets.assume
  intro hscripts
  have hreported : ScriptsIn (config.moduleDirectory source)
      ((config.moduleDirectory source).child (start ++ ".js") :: report.files.map (·.2)) :=
    List.forall_mem_cons.2 ⟨⟨start, rfl⟩, hscripts⟩
  have hapart : ∀ stored ∈ texts, stored.Apart (start ++ ".js") :=
    fun stored hstored => htexts stored hstored start
  apply Meets.bind_warnAll
  split
  · exact .pure fun _ hfiles => ⟨hscripts, hfiles⟩
  apply Meets.bind_warnAll
  apply Meets.bind ((Meets.storing (writeScript_holds hisName hapart hscripts _)).failing
    fun _ _ => trivial)
  intro _
  have hdone : ∀ files, Holds current texts
      ((config.moduleDirectory source).child (start ++ ".js") :: report.files.map (·.2)) files →
      ∀ messages warnings, Wrote config source current texts
        { files := report.files.put m.slug ((config.moduleDirectory source).child (start ++ ".js"))
          messages, warnings } files :=
    fun files hfiles _ _ => ⟨fun path hpath => hreported path (mem_put_paths hpath),
      hfiles.weaken (List.Subset.refl _) mem_put_paths⟩
  split
  · apply Meets.bind ((copyForDebug_holds hisName hapart).failing fun _ _ => trivial)
    intro _
    exact .pure fun files hfiles => hdone files hfiles _ _
  · exact .pure fun files hfiles => hdone files hfiles _ _

theorem write_leaves (hfacts : facts.Storable) {plan : Plan} (hplan : plan.Storable) {maxFiles : Int}
    {basename : Option String} (hfits : plan.Fits facts.sorted.functions maxFiles basename)
    (hsource : config.sourcePath? = some source) (hname : Path.IsName source.name) :
    let texts := plan.storedText (config.plansPath surroundings.environment) ::
      StoredFacts.texts (config.factsPath surroundings.environment) facts
    Meets surroundings (Holds current texts []) (write config)
      (fun _ => Holds current texts (moduleFiles config source plan)) fun _ => True := by
  intro texts
  have htexts : ∀ stored ∈ texts, ∀ start, stored.Apart (start ++ ".js") := by
    have hplanFile : Foreign Storage.planFile := foreign_of_name (by decide)
    refine List.forall_mem_cons.2 ⟨hplanFile.apart _ rfl (by decide), ?_⟩
    intro stored hstored
    exact (StoredFacts.foreign_of_mem_fileNames (StoredFacts.name_mem_fileNames hstored)).apart _ rfl
      (StoredFacts.texts_names _ _ stored hstored)
  unfold write
  apply Meets.bind ((sourcePath_known hsource).failing fun _ _ => trivial)
  intro path
  apply Meets.assume
  rintro rfl
  apply Meets.bind ((Meets.reading (Storage.readOriginal_readOnly _)).failing fun _ _ => trivial)
  rintro ⟨text, usedFrom⟩
  apply Meets.bind ((factsDirectory_meets Storage.holds_stable_empty config).failing fun _ _ => trivial)
  intro directory
  apply Meets.assume
  rintro rfl
  apply Meets.bind (Meets.storing (Storage.readFacts_holds hfacts (List.subset_cons_self ..)))
  intro found
  apply Meets.assume
  rintro rfl
  apply Meets.bind ((plansDirectory_meets Storage.holds_stable_empty config).failing fun _ _ => trivial)
  intro directory
  apply Meets.assume
  rintro rfl
  apply Meets.bind (Meets.storing (Storage.readPlan_holds hplan List.mem_cons_self))
  intro found
  apply Meets.assume
  rintro rfl
  apply Meets.bind ((Meets.storing (Storage.makeDirectories_keeps Storage.holds_stable_empty _)).failing
    fun _ _ => trivial)
  intro _
  apply Meets.bind_read
  apply Meets.seq (fun report files => report.files.map (·.2) = moduleFiles config path found ∧
    Wrote config path current texts report files)
  · apply Meets.knowing
    · apply (Meets.foldlM (Wrote config path current texts) fun report m hm =>
        writeModule_wrote hname htexts (hplan.slugs m hm) _ text report).starting
      exact fun files hfiles => ⟨by simp [ScriptsIn], hfiles⟩
    · exact fun _ _ _ hrun => reported_moduleFiles hplan hfits hrun
  intro report
  apply Meets.assume
  intro hreported
  exact .pure fun _ hfiles => hreported ▸ hfiles.2
end Run

end ScriptSplit
