import ScriptSplit.Proofs.Analysis.Invariants
import ScriptSplit.Proofs.Bridge.Offered
import ScriptSplit.Proofs.Stage.Resumed

/-!
# What is published

Linking puts a shim in the place of a source and a bridge beside it, and the bridge is made from the records
of functions. Through all stages this comes to: the names of functions can be imported as before, and
everything else that the source exports is lost.
-/

namespace ScriptSplit

namespace Run
open Storage (Holds Stable StoredText)

variable {α : Type} {surroundings : Surroundings} {s s' : RunState}

/-- A step that leaves no warning has given a value. -/
theorem bestEffort_quiet {name : String} {task : Run α} {found : Option α}
    (hrun : bestEffort name task surroundings s = .ok (found, []) s') :
    ∃ a, found = some a ∧ task surroundings s = .ok a s' := by
  cases htask : task surroundings s with
  | ok a between =>
      rw [bestEffort_ok htask] at hrun
      cases hrun
      exact ⟨a, rfl, rfl⟩
  | error cause between =>
      obtain ⟨log, hbest⟩ := bestEffort_error name htask
      rw [hbest] at hrun
      cases hrun

theorem Meets.under {before : Files → Prop} {task : Run α} {after : α → Files → Prop} {known : Prop}
    {failed : Files → Prop} (h : known → Meets surroundings before task after failed) :
    Meets surroundings (fun files => known → before files) task (fun a files => known → after a files)
      fun _ => True := by
  constructor
  intro s hs
  cases hrun : task surroundings s with
  | ok a s' =>
      intro hknown
      exact (h hknown).ok (hs hknown) hrun
  | error cause s' => trivial

namespace Linking

variable {l : Linking}

theorem writeBridges_quiet {backup bridge : Option Path}
    (hrun : l.writeBridges backup surroundings s = .ok (bridge, []) s') :
    ∃ path, bridge = some path ∧ l.writeBridge surroundings s = .ok path s' := by
  unfold writeBridges at hrun
  obtain ⟨⟨first, warnings⟩, s₁, hfirst, hrun⟩ := bind_eq_ok.1 hrun
  cases first with
  | some path =>
      cases hrun
      obtain ⟨written, hsame, hwrite⟩ := bestEffort_quiet hfirst
      cases hsame
      exact ⟨path, rfl, hwrite⟩
  | none =>
      obtain ⟨⟨fallback, more⟩, s₂, hfallback, hrun⟩ := bind_eq_ok.1 hrun
      have hquiet : warnings ++ more = [] :=
        congrArg Prod.snd (EStateM.Result.ok.inj hrun).1
      obtain rfl := (List.append_eq_nil_iff.1 hquiet).1
      obtain ⟨path, hnone, -⟩ := bestEffort_quiet hfirst
      cases hnone

theorem replaceSource_quiet {backup bridge : Path} {files : List Path} {messages : List String}
    (hrun : l.replaceSource backup bridge surroundings s = .ok (files, messages, []) s') :
    ∃ s₁ copied, l.writeShim surroundings s = .ok () s₁ ∧
      l.copyBackup backup surroundings s₁ = .ok copied s' := by
  unfold replaceSource at hrun
  obtain ⟨⟨shim, warnings⟩, s₁, hshim, hrun⟩ := bind_eq_ok.1 hrun
  obtain ⟨⟨copied, more⟩, s₂, hcopied, hrun⟩ := bind_eq_ok.1 hrun
  obtain ⟨hvalue, rfl⟩ := EStateM.Result.ok.inj hrun
  have hquiet : warnings ++ more = [] := congrArg (fun value => value.2.2) hvalue
  obtain ⟨rfl, rfl⟩ := List.append_eq_nil_iff.1 hquiet
  obtain ⟨_, -, hwritten⟩ := bestEffort_quiet hshim
  obtain ⟨path, -, hcopy⟩ := bestEffort_quiet hcopied
  exact ⟨s₁, path, hwritten, hcopy⟩

/-- A run around the modules that leaves no warning has gone through all its steps. -/
theorem surround_quiet {surrounded : Surrounded} (hrun : l.surround surroundings s = .ok surrounded s')
    (hquiet : surrounded.warnings = []) :
    ∃ backup s₁ bridge s₂ mirrored s₃ s₄ copied,
      backUpStep l.source surroundings.now surroundings s = .ok backup s₁ ∧
      l.writeBridge surroundings s₁ = .ok bridge s₂ ∧ l.writeMirror surroundings s₂ = .ok mirrored s₃ ∧
      l.writeShim surroundings s₃ = .ok () s₄ ∧ l.copyBackup backup surroundings s₄ = .ok copied s' := by
  unfold surround at hrun
  rw [bind_read_eq] at hrun
  obtain ⟨⟨backup, warnings⟩, s₁, hbackup, hrun⟩ := bind_eq_ok.1 hrun
  obtain ⟨⟨bridge, more⟩, s₂, hbridge, hrun⟩ := bind_eq_ok.1 hrun
  obtain ⟨⟨mirrored, others⟩, s₃, hmirror, hrun⟩ := bind_eq_ok.1 hrun
  cases backup with
  | none =>
      cases hrun
      simp only [List.append_eq_nil_iff] at hquiet
      obtain rfl := hquiet.1.1.1
      obtain ⟨path, hnone, -⟩ := bestEffort_quiet hbackup
      cases hnone
  | some saved =>
    cases bridge with
    | none =>
        cases hrun
        simp only [List.append_eq_nil_iff] at hquiet
        obtain rfl := hquiet.1.1.2
        obtain ⟨path, hnone, -⟩ := writeBridges_quiet hbridge
        cases hnone
    | some target =>
        obtain ⟨⟨replaced, messages, last⟩, s₄, hreplaced, hrun⟩ := bind_eq_ok.1 hrun
        cases hrun
        simp only [List.append_eq_nil_iff] at hquiet
        obtain ⟨⟨⟨rfl, rfl⟩, rfl⟩, rfl⟩ := hquiet
        obtain ⟨_, ⟨⟩, hsaved⟩ := bestEffort_quiet hbackup
        obtain ⟨_, ⟨⟩, hwritten⟩ := writeBridges_quiet hbridge
        obtain ⟨mirrors, -, hmirrored⟩ := bestEffort_quiet hmirror
        obtain ⟨s₅, copied, hshim, hcopied⟩ := replaceSource_quiet hreplaced
        exact ⟨saved, s₁, target, s₂, mirrors, s₃, s₅, copied, hsaved, hwritten, hmirrored, hshim,
          hcopied⟩

end Linking

/-! ## Around the modules -/

/-- Whether a text stays where it is when the modules of a source are surrounded: it is in no script and in
no backup, and it is not the source. -/
structure Beside (source : Path) (current : Location) (stored : StoredText) : Prop where
  isName : stored.name ≠ ".."
  foreign : Foreign stored.name
  plain : '_' ∉ stored.name.toList
  elsewhere : stored.path.place current ≠ source.place current

namespace Beside

variable {source : Path} {current : Location} {stored : StoredText}

theorem ne_underscored (h : Beside source current stored) {name : String}
    (hname : source.Underscored name) : stored.name ≠ name := by
  rintro heq
  obtain ⟨rest, rfl, hrest⟩ := hname
  refine h.plain ?_
  rw [heq, String.toList_append]
  exact List.mem_append_right _ (List.mem_of_mem_head? hrest)

theorem apart_js (h : Beside source current stored) (start : String) : stored.Apart (start ++ ".js") :=
  h.foreign.apart stored rfl h.isName start

theorem apart_cjs (h : Beside source current stored) (start : String) :
    stored.Apart (start ++ ".cjs") where
  isName := h.isName
  target := h.foreign start ".cjs" (by simp)
  aside := h.foreign (start ++ ".cjs") ".tmp" (by simp)

theorem apart_backup (h : Beside source current stored) : stored.Apart source.backupName where
  isName := h.isName
  target := h.ne_underscored (Path.underscored_backupName source)
  aside := h.foreign source.backupName ".tmp" (by simp)

theorem not_backup (h : Beside source current stored) :
    stored.path.place current ∉ Storage.backupPlaces source current := by
  rintro ⟨name, hname, heq⟩
  rw [StoredText.path, Path.place_child h.isName] at heq
  exact h.ne_underscored hname (List.cons.inj (List.append_inj' heq rfl).2).1

theorem not_source (h : Beside source current stored) (hnamed : source.Named) :
    stored.path.place current ∉ Storage.touchedBy source.parent source.name current := by
  rintro (heq | heq)
  · exact h.elsewhere (heq.trans (hnamed.place_eq current).symm)
  · rw [StoredText.path, Path.place_child h.isName] at heq
    exact h.foreign source.name ".tmp" (by simp) (List.cons.inj (List.append_inj' heq rfl).2).1

end Beside

namespace Linking

variable {l : Linking} {current : Location} {texts : List StoredText}

def storedBridge (l : Linking) : StoredText where
  directory := l.source.parent
  name := l.source.bridgeName
  text := l.bridgeText

def storedShim (l : Linking) : StoredText where
  directory := l.source.parent
  name := l.source.name
  text := l.shimText

section Named

variable (h : l.source.Named)

include h

theorem bridge_apart_cjs (start : String) : l.storedBridge.Apart (start ++ ".cjs") := by
  obtain ⟨front, hfront⟩ := l.source.bridgeName_eq
  refine ⟨h.isName_bridgeName.notUp, ?_, ?_⟩
  · exact fun heq => append_ne_append (by decide) front start (hfront.symm.trans heq)
  · exact fun heq => append_ne_append (by decide) front (start ++ ".cjs") (hfront.symm.trans heq)

theorem bridge_apart_backup : l.storedBridge.Apart l.source.backupName where
  isName := h.isName_bridgeName.notUp
  target := (Path.dotted_bridgeName h.name_ne_empty).ne (Path.underscored_backupName l.source)
  aside := (Path.dotted_bridgeName h.name_ne_empty).ne (Path.underscored_backupName l.source).temporary

theorem bridge_apart_source : l.storedBridge.Apart l.source.name where
  isName := h.isName_bridgeName.notUp
  target := (Path.name_ne_bridgeName l.source).symm
  aside := Path.bridgeName_ne_temporary_name l.source

theorem shim_apart_backup : l.storedShim.Apart l.source.backupName where
  isName := h.isName.notUp
  target := (Path.dotted_name h.name_ne_empty).ne (Path.underscored_backupName l.source)
  aside := (Path.dotted_name h.name_ne_empty).ne (Path.underscored_backupName l.source).temporary

variable (hbeside : ∀ stored ∈ texts, Beside l.source current stored)

include hbeside

theorem writeBridge_holds :
    Meets surroundings (Holds current texts []) l.writeBridge
      (fun _ => Holds current (l.storedBridge :: texts) []) fun _ => True := by
  have happart : ∀ stored ∈ texts, stored.Apart l.source.bridgeName := by
    intro stored hstored
    obtain ⟨front, hfront⟩ := l.source.bridgeName_eq
    exact hfront ▸ (hbeside stored hstored).apart_js front
  apply (writeBridge_meets h (Storage.holds_stable_apart happart l.source.parent)).consequence
    (fun _ hfiles => hfiles) _ fun _ _ => trivial
  rintro path files ⟨-, hfiles, hat⟩
  exact ⟨hfiles.current, List.forall_mem_cons.2 ⟨Files.textAt?_of_at? hat, hfiles.stored⟩, by simp⟩

theorem writeMirror_holds (hslugs : ∀ slug ∈ l.layout.slugs, isSlug slug = true)
    (hbasename : l.layout.basename = l.source.basename) :
    Meets surroundings (Holds current (l.storedBridge :: texts) []) l.writeMirror
      (fun _ => Holds current (l.storedBridge :: texts) []) fun _ => True := by
  have happart : ∀ start, ∀ stored ∈ l.storedBridge :: texts, stored.Apart (start ++ ".cjs") :=
    fun start => List.forall_mem_cons.2 ⟨bridge_apart_cjs h start,
      fun stored hstored => (hbeside stored hstored).apart_cjs start⟩
  have hstable : ∀ directory start, Stable current
      (Storage.touchedBy directory (start ++ ".cjs") current) (Holds current (l.storedBridge :: texts) []) :=
    fun directory start => Storage.holds_stable_apart (happart start) directory
  refine (writeMirror_keeps h hslugs (hbasename ▸ h.noSlash.1) (fun mirror _ slug _ => ?_)
    (?_ : Stable current _ _)).failing fun _ _ => trivial
  · obtain ⟨start, hstart⟩ := moduleFileName_eq slug l.layout.basename ".cjs"
    exact hstart ▸ hstable _ start
  · obtain ⟨start, hstart⟩ := l.source.requireBridgeName_eq
    exact hstart ▸ hstable _ start

theorem writeShim_holds :
    Meets surroundings (Holds current (l.storedBridge :: texts) []) l.writeShim
      (fun _ => Holds current (l.storedShim :: l.storedBridge :: texts) []) fun _ => True := by
  have houtside : ∀ stored ∈ l.storedBridge :: texts,
      stored.path.place current ∉ Storage.touchedBy l.source.parent l.source.name current :=
    List.forall_mem_cons.2 ⟨(bridge_apart_source h).place_not_mem _ current,
      fun stored hstored => (hbeside stored hstored).not_source h⟩
  have hpath : l.storedShim.path = l.source := h.parent_child
  have hstable : Stable current (Storage.touchedBy l.source.parent l.source.name current)
      (Holds current (l.storedBridge :: texts) []) := Storage.holds_stable houtside (by simp)
  apply (writeShim_meets (Holds current (l.storedShim :: l.storedBridge :: texts) []) h
    (hstable.mono (Set.singleton_subset_iff.2 (Or.inr rfl))) ?_).consequence
  · exact fun _ hfiles => hfiles
  · rintro _ files (⟨hfiles, htext⟩ | hwritten)
    · exact ⟨hfiles.current, List.forall_mem_cons.2 ⟨hpath ▸ htext, hfiles.stored⟩, by simp⟩
    · exact hwritten
  · exact fun _ _ => trivial
  · intro before after hchanges hbefore hat
    have hafter := hstable.changes before after hchanges hbefore
    exact ⟨hafter.current, List.forall_mem_cons.2
      ⟨hpath ▸ Files.textAt?_of_at? hat, hafter.stored⟩, by simp⟩

theorem copyBackup_holds (backup : Path) :
    Meets surroundings (Holds current (l.storedShim :: l.storedBridge :: texts) []) (l.copyBackup backup)
      (fun _ => Holds current (l.storedShim :: l.storedBridge :: texts) []) fun _ => True := by
  have happart : ∀ stored ∈ l.storedShim :: l.storedBridge :: texts, stored.Apart l.source.backupName :=
    List.forall_mem_cons.2 ⟨shim_apart_backup h, List.forall_mem_cons.2 ⟨bridge_apart_backup h,
      fun stored hstored => (hbeside stored hstored).apart_backup⟩⟩
  exact (copyBackup_keeps h (Storage.holds_stable_apart happart _) backup).failing fun _ _ => trivial

/-- A run around the modules that leaves no warning leaves the bridge and the shim that names it. -/
theorem surround_leaves (hslugs : ∀ slug ∈ l.layout.slugs, isSlug slug = true)
    (hbasename : l.layout.basename = l.source.basename) :
    Meets surroundings (Holds current texts []) l.surround
      (fun surrounded files => surrounded.warnings = [] →
        Holds current (l.storedShim :: l.storedBridge :: texts) [] files) fun _ => True := by
  have hbackUp : Meets surroundings (Holds current texts []) (backUpStep l.source surroundings.now)
      (fun _ => Holds current texts []) (Holds current texts []) := by
    have hstable : Stable current (Storage.backupPlaces l.source current) (Holds current texts []) :=
      Storage.holds_stable (fun stored hstored => (hbeside stored hstored).not_backup) (by simp)
    exact (Meets.storing (Storage.backUp_keeps h hstable surroundings.now)).step fun _ hfiles => hfiles
  constructor
  intro s hs
  cases hrun : l.surround surroundings s with
  | error cause s' => trivial
  | ok surrounded s' =>
      intro hquiet
      obtain ⟨backup, s₁, bridge, s₂, mirrored, s₃, s₄, copied, hsaved, hwritten, hmirrored, hshim,
        hcopied⟩ := surround_quiet hrun hquiet
      have h₁ := hbackUp.ok hs hsaved
      have h₂ := (writeBridge_holds h hbeside).ok h₁ hwritten
      have h₃ := (writeMirror_holds h hbeside hslugs hbasename).ok h₂ hmirrored
      have h₄ := (writeShim_holds h hbeside).ok h₃ hshim
      exact (copyBackup_holds h hbeside backup).ok h₄ hcopied

end Named

end Linking

/-! ## Linking -/

variable {current : Location} {config : Config} {source plans : Path} {facts : Facts} {layout : Layout}
  {paths : List Path}

def storedNames (plans : Path) (mapping : Table String) : StoredText where
  directory := plans
  name := exportNamesFile
  text := (exportNamesDoc mapping).pretty.toList ++ ['\n']

theorem storedNames_beside (mapping : Table String)
    (hplans : ¬ plans.place current <+: source.place current) :
    Beside source current (storedNames plans mapping) := by
  have hforeign : Foreign exportNamesFile := foreign_of_name (by decide)
  have hname : exportNamesFile ≠ ".." := by decide
  refine ⟨hname, hforeign, (by decide : '_' ∉ exportNamesFile.toList), fun heq => hplans ?_⟩
  rw [← heq, StoredText.path]
  exact ⟨[exportNamesFile], (Path.place_child hname current).symm⟩

theorem prepare_leaves (hlayout : layout.Closed) (hslugs : ∀ slug ∈ layout.slugs, isSlug slug = true)
    (hbasename : '/' ∉ layout.basename.toList) (hscripts : ScriptsIn layout.directory paths)
    (source : Path) (text : Text) (facts : Facts) :
    Meets surroundings (Holds current [] paths) (prepare config plans source text facts layout)
      (fun p files =>
        (∃ found, Holds current [] paths found ∧
          p.linking = preparedLinking config source text facts layout found) ∧
        (p.warnings = [] → Holds current [storedNames plans p.linking.mapping] [] files))
      fun _ => True := by
  have hdocuments : ∀ name ∈ preparedDocuments,
      Stable current (Storage.touchedBy plans name current) (Holds current [] paths) := by
    have hforeign : ∀ name ∈ preparedDocuments, ∀ ending ∈ [".js", ".cjs", ".tmp"],
        ¬ name.toList <:+ ending.toList ∧ ¬ ending.toList <:+ name.toList := by decide
    intro name hname
    refine Storage.holds_stable (by simp) fun path hpath => ?_
    obtain ⟨start, rfl⟩ := hscripts path hpath
    have hup : Foreign ".." := foreign_of_name (by decide)
    rw [Path.place_child (hup start ".js" (by simp)).symm]
    exact Storage.not_mem_touchedBy
      (foreign_of_name (hforeign name hname) start ".js" (by simp)).symm
      (append_ne_append (by decide) _ _)
  have hmodules : ∀ slug ∈ layout.slugs, WriteKeeps (Holds current [] paths) (layout.file slug) := by
    intro slug hslug text
    obtain ⟨start, hstart⟩ := moduleFileName_eq slug layout.basename ".js"
    have hname := moduleFileName_isName (c := 'j') (hslugs slug hslug) hbasename ".js" (by decide)
      (by decide) (by decide)
    rw [layout_file_eq (hslugs slug hslug) hbasename]
    rw [hstart] at hname ⊢
    apply (writeScript_holds hname (List.forall_mem_nil _) hscripts text).consequence
    · exact fun _ hfiles => hfiles
    · exact fun _ _ hfiles => hfiles.weaken (List.Subset.refl _) (List.subset_cons_self ..)
    · exact fun _ hfiles => hfiles
  apply (prepare_meets hdocuments hlayout hmodules source text facts).consequence
  · exact fun _ hfiles => hfiles
  · rintro p files ⟨hfound, hfiles, hrecord⟩
    exact ⟨hfound, fun hquiet =>
      ⟨hfiles.current, List.forall_mem_singleton.2 (hrecord hquiet), by simp⟩⟩
  · exact fun _ _ => trivial

theorem moduleFiles_scripts (hnamed : source.Named) {plan : Plan} (hplan : plan.Storable) :
    ScriptsIn (config.moduleDirectory source) (moduleFiles config source plan) := by
  refine List.forall_mem_map.2 fun m hm => ?_
  obtain ⟨start, hstart⟩ := moduleFileName_eq m.slug source.basename ".js"
  exact ⟨start, hstart ▸ moduleFile_eq hnamed.isName hplan (List.mem_of_mem_filter hm)⟩

theorem report_stable {l : Linking} (hnamed : l.source.Named)
    (hplans : ¬ plans.place current <+: l.source.place current) (mapping : Table String) :
    Stable current (Storage.touchedBy plans "report.json" current)
      (Holds current [l.storedShim, l.storedBridge, storedNames plans mapping] []) := by
  have hbridge : l.storedBridge.Apart "report.json" := by
    obtain ⟨front, hfront⟩ := l.source.bridgeName_eq
    have hforeign : Foreign "report.json" := foreign_of_name (by decide)
    refine ⟨hnamed.isName_bridgeName.notUp, fun heq => ?_, fun heq => ?_⟩
    · exact hforeign front ".js" (by simp) (heq.symm.trans hfront)
    · exact append_ne_append (by decide) front "report.json" (hfront.symm.trans heq)
  have hnames : (storedNames plans mapping).Apart "report.json" :=
    ⟨(by decide : exportNamesFile ≠ ".."), (by decide : exportNamesFile ≠ "report.json"),
      (by decide : exportNamesFile ≠ Path.temporaryName "report.json")⟩
  refine Storage.holds_stable (List.forall_mem_cons.2 ⟨fun hmem => ?_, List.forall_mem_cons.2
    ⟨hbridge.place_not_mem _ current, List.forall_mem_singleton.2
      (hnames.place_not_mem _ current)⟩⟩) (by simp)
  obtain ⟨hbelow, -⟩ := Storage.touchedBy_subset_below plans "report.json" current hmem
  exact hplans (hnamed.parent_child ▸ hbelow)

/-- Linking that leaves no warning leaves the shim, the bridge and the public names, all of them made from
what the modules of the plan export whose files are there. -/
theorem link_leaves (hfacts : facts.Storable) {plan : Plan} (hplan : plan.Storable)
    (hsource : config.sourcePath? = some source) (hnamed : source.Named)
    (hplans : ¬ (config.plansPath surroundings.environment).place current <+: source.place current) :
    let plans := config.plansPath surroundings.environment
    let layout := Layout.ofPlan plan facts.sorted (config.moduleDirectory source) source.basename
    Meets surroundings
      (Holds current (plan.storedText plans ::
        StoredFacts.texts (config.factsPath surroundings.environment) facts)
          (moduleFiles config source plan))
      (link config)
      (fun report files => report.warnings = [] → ∃ found text,
        let l := preparedLinking config source text facts.sorted layout found
        Holds current [] (moduleFiles config source plan) found ∧
          Holds current [l.storedShim, l.storedBridge, storedNames plans l.mapping] [] files)
      fun _ => True := by
  intro plans layout
  have hdirectories : Stable current ∅ (Holds current (plan.storedText plans ::
      StoredFacts.texts (config.factsPath surroundings.environment) facts)
        (moduleFiles config source plan)) := Storage.holds_stable_empty
  unfold link
  apply Meets.bind ((sourcePath_known hsource).failing fun _ _ => trivial)
  intro path
  apply Meets.assume
  rintro rfl
  apply Meets.bind ((Meets.reading (Storage.readOriginal_readOnly _)).failing fun _ _ => trivial)
  rintro ⟨text, usedFrom⟩
  apply Meets.bind ((factsDirectory_meets hdirectories config).failing fun _ _ => trivial)
  intro directory
  apply Meets.assume
  rintro rfl
  apply Meets.bind ((Meets.storing (Storage.readFacts_holds hfacts (List.subset_cons_self ..))).step
    fun _ _ => trivial)
  intro found
  apply Meets.assume
  rintro rfl
  apply Meets.bind ((plansDirectory_meets hdirectories config).failing fun _ _ => trivial)
  intro directory
  apply Meets.assume
  rintro rfl
  apply Meets.bind ((Meets.storing (Storage.readPlan_holds hplan List.mem_cons_self)).step
    fun _ _ => trivial)
  intro found
  apply Meets.assume
  rintro rfl
  have hslugs : ∀ slug ∈ layout.slugs, isSlug slug = true := by
    rw [Layout.ofPlan_slugs]
    exact List.forall_mem_map.2 hplan.slugs
  have hbasename : layout.basename = path.basename := Layout.ofPlan_basename ..
  have hnoSlash : '/' ∉ layout.basename.toList := by
    rw [hbasename]
    exact hnamed.noSlash.1
  have hscripts : ScriptsIn layout.directory (moduleFiles config path found) := by
    rw [Layout.ofPlan_directory]
    exact moduleFiles_scripts hnamed hplan
  apply Meets.bind ((prepare_leaves (Layout.ofPlan_closed ..) hslugs hnoSlash hscripts path text
    facts.sorted).starting fun _ hfiles => hfiles.weaken (List.nil_subset _) (List.Subset.refl _))
  rintro ⟨l, imports, inserted, warnings⟩
  apply Meets.assume
  rintro ⟨prepared, hprepared, hlinking⟩
  simp only at hlinking
  subst hlinking
  have hbeside : ∀ mapping, ∀ stored ∈ [storedNames plans mapping], Beside path current stored :=
    fun mapping => List.forall_mem_singleton.2 (storedNames_beside mapping hplans)
  apply Meets.bind (Meets.under fun _ =>
    Linking.surround_leaves hnamed (hbeside _) hslugs hbasename)
  intro surrounded
  apply Meets.bind ((Meets.step_pure _ _).failing fun _ _ => trivial)
  intro report
  apply Meets.assume
  rintro rfl
  apply Meets.bind (Meets.under fun _ => Meets.under fun _ => writeLinkDocument_keeps
    ⟨by decide, by decide, by decide, by decide⟩ (report_stable hnamed hplans _) _)
  intro _
  refine .pure fun files hfiles hquiet => ?_
  obtain ⟨hprepare, hsurround⟩ := List.append_eq_nil_iff.1 hquiet
  exact ⟨prepared, text, hprepared, hfiles hprepare hsurround⟩

/-! ## All stages -/

def Ends (task : Run α) (environment : Table String) (reader : Script.Reader) (before : Files) (a : α)
    (after : Files) : Prop :=
  ∃ surroundings s s', surroundings.environment = environment ∧ surroundings.reader = reader ∧
    s.files = before ∧ task surroundings s = .ok a s' ∧ s'.files = after

/-- What there is for those who import a source: the shim in its place, the bridge that the shim names, and
the public names on record. -/
structure Published (config : Config) (environment : Table String) (source : Path) (mapping : Table String)
    (content : BridgeContent) (files : Files) : Prop where
  shim : files.textAt? source = some (renderShim config.banner source.bridgeName)
  bridge : ∃ bridge front middle, files.textAt? (bridgePath source) = some bridge ∧
    BridgeWords.modules.Says front middle bridge content
  recorded : files.textAt? ((config.plansPath environment).child exportNamesFile) =
    some ((exportNamesDoc mapping).pretty.toList ++ ['\n'])

theorem exportNames_sorted (facts : Facts) :
    exportNames facts.sorted.functions = exportNames facts.functions := by
  simp [exportNames, Facts.sorted, FunctionRecord.sorted, Function.comp_def]

theorem published_of_holds {environment : Table String} {plan : Plan}
    (husable : plan.Usable facts.sorted.functions source.basename)
    (hids : (facts.functions.map (·.id)).Nodup) (hbreaks : ∀ f ∈ facts.functions, '\n' ∉ f.name.toList)
    (hslugs : ∀ m ∈ plan.modules, '\n' ∉ m.slug.toList) (hnamed : source.Named) {found files : Files}
    {text : Text} (hfound : Holds current [] (moduleFiles config source plan) found)
    (hfiles :
      let layout := Layout.ofPlan plan facts.sorted (config.moduleDirectory source) source.basename
      let l := preparedLinking config source text facts.sorted layout found
      Holds current [l.storedShim, l.storedBridge, storedNames (config.plansPath environment) l.mapping] []
        files) :
    let exports := moduleExports
      (Layout.ofPlan plan facts.sorted (config.moduleDirectory source) source.basename) found
    ∃ content, Published config environment source (publicNames exports) content files ∧
      ∀ name, content.Offers (publicNames exports) name ↔ name ∈ exportNames facts.functions := by
  intro exports
  set layout := Layout.ofPlan plan facts.sorted (config.moduleDirectory source) source.basename
    with hlayout
  have hsorted : facts.sorted.functions = facts.functions.map FunctionRecord.sorted := rfl
  have hsortedIds : (facts.sorted.functions.map (·.id)).Nodup := by
    simpa [hsorted, FunctionRecord.sorted, Function.comp_def] using hids
  have hsortedBreaks : ∀ f ∈ facts.sorted.functions, '\n' ∉ f.name.toList := by
    rw [hsorted]
    exact List.forall_mem_map.2 hbreaks
  have hparts : ∀ m ∈ plan.modules, ∀ c ∈ m.slug.toList, isSlugPart c = true := fun m hm c hc =>
    (mem_of_isSlug (husable.storable.slugs m hm) hc).resolve_right fun heq => hslugs m hm (heq ▸ hc)
  have hproper : exports.Proper :=
    moduleExports_proper husable.storable hsortedBreaks hparts _ _ found
  let specifier (slug : String) : String := Path.specifierFrom source.parent (layout.file slug)
  have hsays := renderBridge_says hproper.nonempty config.banner
    (headerLines text (Linking.firstStart facts.sorted)) specifier hproper.named_publicName
  obtain ⟨hshim, hbridge, hnames, -⟩ : _ ∧ _ ∧ _ ∧ _ := by
    simpa only [List.forall_mem_cons] using hfiles.stored
  refine ⟨.ofModules exports (publicNames exports) specifier,
    { shim := (congrArg files.textAt? hnamed.parent_child.symm).trans hshim
      bridge := ⟨_, _, _, hbridge, hsays⟩
      recorded := hnames }, fun name => ?_⟩
  obtain ⟨maxFiles, hfits⟩ := husable.fits
  rw [BridgeContent.offers_iff hproper specifier, ← exportNames_sorted]
  refine mem_exports_iff husable.storable hfits hsortedIds fun m hm hfunctions => ?_
  obtain ⟨content, hat⟩ := hfound.file (layout.file m.slug) (by
    have hpath : layout.file m.slug =
        config.moduleDirectory source / moduleFileName m.slug source.basename ".js" := by
      rw [Layout.file, Layout.ofPlan_directory, Layout.ofPlan_basename]
    rw [hpath]
    exact List.mem_map_of_mem (List.mem_filter.2 ⟨hm, by simpa using hfunctions⟩))
  simp [Files.has, layout, hat]

/-- What is known of the facts that an analysis of a tree gives. -/
theorem storable_of_sound {analysis : Analysis} {program : Option Script.Tree} {text : Text}
    (h : analysis.Sound program text) (hprintable : analysis.facts.Printable) : analysis.facts.Storable where
  functions := h.nonempty
  spans f hf := ⟨(h.placed f hf).1, (h.placed f hf).2.1⟩
  printable := hprintable

section Stages

variable {environment : Table String} {f₀ f₁ f₂ f₃ f₄ : Files} {analyzed : AnalysisReport}
  {planned : PlanReport} {written : WriteReport} {linked : LinkReport} {text : Text} {path : Path}
  {reader : Script.Reader} {program : Script.Tree}

/-- Of a source that goes through all stages, what linking gives to those who import it are the names of its
functions: a bridge offers these under their public names and nothing else. A function is among them unless
it lies inside of another one; whatever else the source exports is lost. -/
theorem only_functions_published (hroot : config.root.isAbsolute = true ∧ config.root.Clean)
    (hsource : config.sourcePath? = some source)
    (hplans : ¬ (config.plansPath environment).place f₀.current <+: source.place f₀.current)
    (hread : Storage.readOriginal source f₀ = .ok (text, path) f₀)
    (hprogram : reader.tree? text = some program) (hplaced : program.Placed text)
    (hanalyze : Ends (analyze config) environment reader f₀ analyzed f₁)
    (hplan : Ends (plan config) environment reader f₁ planned f₂)
    (hwrite : Ends (write config) environment reader f₂ written f₃)
    (hlink : Ends (link config) environment reader f₃ linked f₄) (hquiet : linked.warnings = [])
    (hprintable : analyzed.analysis.facts.Printable)
    (hbreaks : ∀ f ∈ analyzed.analysis.facts.functions, '\n' ∉ f.name.toList)
    (hslugs : ∀ m ∈ planned.plan.modules, '\n' ∉ m.slug.toList) :
    ∃ mapping content, Published config environment source mapping content f₄ ∧
      (∀ name, isOpaque name = false → publicName mapping name = name) ∧
      (∀ name, content.Offers mapping name ↔ isExportable name = true ∧
        ∃ f ∈ analyzed.analysis.facts.functions, f.name = name) ∧
      (∀ statement ∈ program.children, ∀ d ∈ TopLevel.functions statement, ∀ name, d.name = some name →
        isExportable name = true → content.Offers mapping name ∨
          ∃ f ∈ analyzed.analysis.facts.functions, f.name ≠ name ∧ f.start ≤ d.start ∧
            (d.stop : Int) ≤ f.stop) ∧
      ∀ name ∈ program.children.flatMap TopLevel.namedExports,
        (∀ f ∈ analyzed.analysis.facts.functions, f.name ≠ name) → ¬ content.Offers mapping name := by
  have hnamed : source.Named := by
    obtain ⟨own, hown, -⟩ := Storage.readOriginal_eq_ok.1 hread
    exact named_of_textAt? hroot hsource hown
  -- each stage leaves what the next one reads
  obtain ⟨first, s₁, t₁, rfl, rfl, rfl, hrun₁, rfl⟩ := hanalyze
  obtain ⟨hanalysis, hheld⟩ := (analyze_leaves hsource hread).ok rfl hrun₁
  rw [hprogram] at hanalysis
  have hsound := sound_of_analyzeTree (fun tree htree => Option.some.inj htree ▸ hplaced) hanalysis
  have hfacts := storable_of_sound hsound hprintable
  obtain ⟨second, s₂, t₂, hsecond, -, hstart₂, hrun₂, rfl⟩ := hplan
  rw [← hstart₂, ← hsecond] at hheld
  obtain ⟨husable, hheld⟩ := (plan_leaves hfacts hsound.distinct hsource).ok hheld hrun₂
  obtain ⟨maxFiles, hfits⟩ := husable.fits
  obtain ⟨third, s₃, t₃, hthird, -, hstart₃, hrun₃, rfl⟩ := hwrite
  rw [← hstart₃, hsecond, ← hthird] at hheld
  have hheld := (write_leaves hfacts husable.storable hfits hsource hnamed.isName).ok hheld hrun₃
  obtain ⟨fourth, s₄, t₄, hfourth, -, hstart₄, hrun₄, rfl⟩ := hlink
  rw [← hstart₄, hthird, ← hfourth] at hheld
  rw [← hfourth] at hplans
  obtain ⟨found, own, hfound, hfiles⟩ :=
    (link_leaves hfacts husable.storable hsource hnamed hplans).ok hheld hrun₄ hquiet
  rw [hfourth] at hfiles
  obtain ⟨content, hpublished, hoffers⟩ :=
    published_of_holds husable hsound.distinct hbreaks hslugs hnamed hfound hfiles
  simp only [mem_exportNames] at hoffers
  refine ⟨_, content, hpublished, fun name hplain => publicName_of_plain hplain _, hoffers, ?_, ?_⟩
  · intro statement hstatement d hd name hname hexportable
    cases recorded_of_declared hanalysis hplaced hstatement hd hname with
    | named hf hown => exact Or.inl ((hoffers name).2 ⟨hexportable, _, hf, hown⟩)
    | inside hf hother hstart hstop => exact Or.inr ⟨_, hf, hother, hstart, hstop⟩
  · intro name _ hnone hoffered
    obtain ⟨-, f, hf, hown⟩ := (hoffers name).1 hoffered
    exact hnone f hf hown

end Stages

/-! ## A constant that is lost -/

/-- A script that exports a constant and a function. -/
def limitScript : List String :=
  ["export const LIMIT = 1;\n", "\n", "export function f() \x7b\n", "  return q;\n", "\x7d\n"]

def limitText : Text := limitScript.flatMap String.toList

def limitTree : Script.Tree :=
  node .program none 0 61
    [node .exportStatement none 0 23
      [node .lexicalDeclaration (some .declaration) 7 23
        [node .variableDeclarator none 13 22
          [leaf .identifier (some .name) 13 18 "LIMIT", leaf .literal (some .value) 21 22 "1"]]],
      node .exportStatement none 25 60
        [node .functionDeclaration (some .declaration) 32 60
          [leaf .identifier (some .name) 41 42 "f", node .parameters (some .parameters) 42 44 [],
            node .block (some .body) 45 60
              [node .statement none 49 58 [leaf .identifier none 56 57 "q"]]]]]
where
  leaf (kind : Script.Kind) (role : Option Script.Role) (start stop : Nat) (text : String) : Script.Tree :=
    .node { kind, role, start, stop, text } []
  node (kind : Script.Kind) (role : Option Script.Role) (start stop : Nat)
      (children : List Script.Tree) : Script.Tree :=
    .node { kind, role, start, stop, text := "" } children

def limitFacts : Facts where
  source := "/work/app.js"
  functions := [{ id := "f0000", name := "f", start := 32, stop := 60, exported := true, used := ["q"],
                  free := ["q"] }]
  topLevel := ["LIMIT", "f"]

def limitPlan : Plan where
  modules := [{ name := "original", slug := "original", functions := ["f0000"] }]

def limitSource : Path := (Path.ofString "/work").child "app.js"

def limitStart : RunState where
  files :=
    { current := ["work"]
      entries := [(["work"], .directory), (["work", "app.js"], .file (contentOf limitScript))] }

theorem tree?_limitText : Script.Reader.ofGrammar.tree? limitText = some limitTree :=
  show Script.parse? limitText = some limitTree by cbv

theorem placed_limitTree : limitTree.Placed limitText :=
  Script.Tree.within_of_liesWithin (by decide)

def limitAnalysis : Analysis where
  facts := limitFacts
  usedFallback := false
  warnings := []

theorem analyzeTree_limitTree :
    analyzeTree .ofGrammar (some limitTree) limitText "/work/app.js" false = .ok limitAnalysis := by
  have hrecord : (Candidate.ofText .ofGrammar limitText (some limitTree) false).mapIdx Candidate.record =
      limitFacts.functions := by decide +kernel
  obtain ⟨c, hc⟩ := List.length_eq_one_iff.1 (List.length_mapIdx.symm.trans (congrArg List.length hrecord))
  have hcalls : (Candidate.ofText .ofGrammar limitText (some limitTree) false).mapIdx Candidate.calls = [[]] := by
    decide +kernel
  have hkept : Candidate.dedupe [c] = [c] := by
    simp [Candidate.dedupe, List.mergeSort_singleton, Candidate.keepOuter]
  have himports : scanImports limitText = [] := by decide +kernel
  have hnames : topLevelNames (some limitTree) [c] = limitFacts.topLevel :=
    show (SymbolTable.ofProgram limitTree).topLevel = _ by decide +kernel
  rw [hc] at hrecord hcalls
  unfold analyzeTree
  simp only [hc, hkept, hrecord, hcalls, himports, hnames]
  rfl

def limitStages : Run (Plan × List Warning) := do
  let _ ← storeAnalysis workspaceConfig limitSource limitSource limitAnalysis
  let planned ← planWith workspaceConfig limitFacts.sorted
  let _ ← writeWith workspaceConfig limitFacts.sorted limitPlan
  let linked ← linkWith workspaceConfig limitFacts.sorted limitPlan
  return (planned.plan, linked.warnings)

theorem limitStages_eq : ∃ s, limitStages morning limitStart = .ok (limitPlan, []) s := by
  have hends : (match limitStages morning limitStart with
      | .ok found _ => decide (found.1 = limitPlan) && found.2.isEmpty
      | .error _ _ => false) = true := by decide +kernel
  cases hrun : limitStages morning limitStart with
  | error cause s =>
      rw [hrun] at hends
      cases hends
  | ok found s =>
      rw [hrun, Bool.and_eq_true, decide_eq_true_eq, List.isEmpty_iff] at hends
      exact ⟨s, congrArg (EStateM.Result.ok · s) (Prod.ext hends.1 hends.2)⟩

theorem limitFacts_storable : limitFacts.Storable where
  functions := by decide
  spans := by decide
  printable := by
    have hdigits {n : Nat} (hn : n < 10 ^ 2) : n < 10 ^ Json.maxDigits :=
      lt_of_lt_of_le hn (Nat.pow_le_pow_right (by decide) (by decide : 2 ≤ Json.maxDigits))
    exact ⟨List.forall_mem_singleton.2 (hdigits (by decide)), hdigits (by decide), hdigits (by decide),
      hdigits (by decide)⟩

theorem limitSource_eq : workspaceConfig.sourcePath? = some limitSource := by decide +kernel

theorem readOriginal_limitSource :
    Storage.readOriginal limitSource limitStart.files = .ok (limitText, limitSource) limitStart.files :=
  Storage.readOriginal_eq_ok.2 ⟨limitText, by decide +kernel, Or.inl ⟨by decide +kernel, rfl, rfl⟩⟩

theorem limit_ends : ∃ f₁ f₂ f₃ f₄ analyzed planned written linked,
    Ends (analyze workspaceConfig) [] .ofGrammar limitStart.files analyzed f₁ ∧
    Ends (plan workspaceConfig) [] .ofGrammar f₁ planned f₂ ∧ Ends (write workspaceConfig) [] .ofGrammar f₂ written f₃ ∧
    Ends (link workspaceConfig) [] .ofGrammar f₃ linked f₄ ∧ analyzed.analysis = limitAnalysis ∧
    planned.plan = limitPlan ∧ linked.warnings = [] := by
  have hsource := limitSource_eq
  have hread := readOriginal_limitSource
  have hpath : limitSource.toString = "/work/app.js" := by decide +kernel
  have hids : (limitFacts.functions.map (·.id)).Nodup := by decide
  obtain ⟨s, hstages⟩ := limitStages_eq
  obtain ⟨analyzed, s₁, hanalyzed, hstages⟩ := bind_eq_ok.1 hstages
  obtain ⟨planned, s₂, hplanned, hstages⟩ := bind_eq_ok.1 hstages
  obtain ⟨written, s₃, hwritten, hstages⟩ := bind_eq_ok.1 hstages
  obtain ⟨linked, s₄, hlinked, hstages⟩ := bind_eq_ok.1 hstages
  obtain ⟨hplan, hquiet⟩ : planned.plan = limitPlan ∧ linked.warnings = [] :=
    Prod.mk.inj (EStateM.Result.ok.inj hstages).1
  -- each stage reads what the ones before it left
  have hanalyze : analyze workspaceConfig morning limitStart = .ok analyzed s₁ :=
    (analyze_eq hsource (by decide +kernel) hread tree?_limitText
      (hpath ▸ analyzeTree_limitTree)).trans hanalyzed
  obtain ⟨hanalysis, hheld⟩ := (analyze_leaves hsource hread).ok rfl hanalyze
  have hsame : limitAnalysis = analyzed.analysis := by
    rw [show morning.reader = .ofGrammar from rfl, tree?_limitText, hpath] at hanalysis
    exact Except.ok.inj (analyzeTree_limitTree.symm.trans hanalysis)
  rw [← hsame] at hheld
  have hplanning : plan workspaceConfig morning s₁ = .ok planned s₂ :=
    (plan_eq rfl limitFacts_storable hheld).trans hplanned
  obtain ⟨husable, hheld⟩ := (plan_leaves limitFacts_storable hids hsource).ok hheld hplanning
  rw [hplan] at husable hheld
  obtain ⟨maxFiles, hfits⟩ := husable.fits
  have hwrite : write workspaceConfig morning s₂ = .ok written s₃ :=
    (write_eq limitFacts_storable husable.storable hheld).trans hwritten
  have hheld := (write_leaves limitFacts_storable husable.storable hfits hsource
    (by constructor <;> decide)).ok hheld hwrite
  have hlink : link workspaceConfig morning s₃ = .ok linked s₄ :=
    (link_eq limitFacts_storable husable.storable hheld rfl).trans hlinked
  exact ⟨_, _, _, _, _, _, _, _, ⟨morning, _, _, rfl, rfl, rfl, hanalyze, rfl⟩,
    ⟨morning, _, _, rfl, rfl, rfl, hplanning, rfl⟩, ⟨morning, _, _, rfl, rfl, rfl, hwrite, rfl⟩,
    ⟨morning, _, _, rfl, rfl, rfl, hlink, rfl⟩, hsame.symm, hplan, hquiet⟩

theorem limit_not_published : ∃ f₁ f₂ f₃ f₄ analyzed planned written linked,
    Script.Reader.ofGrammar.tree? limitText = some limitTree ∧
    Ends (analyze workspaceConfig) [] .ofGrammar limitStart.files analyzed f₁ ∧
    Ends (plan workspaceConfig) [] .ofGrammar f₁ planned f₂ ∧ Ends (write workspaceConfig) [] .ofGrammar f₂ written f₃ ∧
    Ends (link workspaceConfig) [] .ofGrammar f₃ linked f₄ ∧ linked.warnings = [] ∧
    "LIMIT" ∈ limitTree.children.flatMap TopLevel.namedExports ∧
    ∃ mapping content, Published workspaceConfig [] limitSource mapping content f₄ ∧
      content.Offers mapping "f" ∧ publicName mapping "LIMIT" = "LIMIT" ∧
      ¬ content.Offers mapping "LIMIT" := by
  obtain ⟨f₁, f₂, f₃, f₄, analyzed, planned, written, linked, hanalyze, hplan, hwrite, hlink, hanalysis,
    hplanned, hquiet⟩ := limit_ends
  obtain ⟨mapping, content, hpublished, hplain, hoffers, -, hlost⟩ := only_functions_published
    ⟨by decide, Path.ofString_clean _⟩ limitSource_eq (by decide +kernel) readOriginal_limitSource
    tree?_limitText placed_limitTree hanalyze hplan hwrite hlink hquiet
    (hanalysis ▸ limitFacts_storable.printable) (hanalysis ▸ by decide) (hplanned ▸ by decide)
  rw [hanalysis] at hoffers hlost
  have hlimit : "LIMIT" ∈ limitTree.children.flatMap TopLevel.namedExports := by decide +kernel
  exact ⟨f₁, f₂, f₃, f₄, analyzed, planned, written, linked, tree?_limitText, hanalyze, hplan, hwrite,
    hlink, hquiet, hlimit, mapping, content, hpublished,
    (hoffers "f").2 ⟨by decide +kernel, by decide⟩, hplain "LIMIT" (by decide +kernel),
    hlost "LIMIT" hlimit (by decide)⟩

end Run

end ScriptSplit
