import ScriptSplit.Proofs.Stage.Surround

/-!
# Writing and linking again

Both stages read the source, the facts and the plan, and go on from there. A first run leaves all three as it
found them, so that the second writes the same modules, links them alike and leaves every file as it is.
-/

namespace ScriptSplit

namespace Run

variable {config : Config} {surroundings : Surroundings} {environment : Table String} {source : Path}
  {text : Text} {facts : Facts} {plan : Plan} {s s' : RunState} {files : Files}

/-! ## What both stages read -/

structure Reads (config : Config) (environment : Table String) (source : Path) (text : Text)
    (facts : Facts) (plan : Plan) (files : Files) : Prop where
  original : ∃ path, Storage.readOriginal source files = .ok (text, path) files
  facts : Storage.readFacts (config.factsPath environment) files = .ok facts files
  plan : Storage.readPlan (config.plansPath environment) files = .ok plan files

structure Stocked (config : Config) (environment : Table String) (files : Files) : Prop where
  facts : files.Standing (config.factsPath environment)
  plans : files.Standing (config.plansPath environment)

theorem Stocked.changes {touched made : Set Location} {before after : Files}
    (h : Stocked config environment before) (hchanges : Files.Changes touched made before after) :
    Stocked config environment after :=
  ⟨hchanges.standing h.facts, hchanges.standing h.plans⟩

theorem Reads.hasFile (h : Reads config environment source text facts plan files) :
    files.hasFile source = true := by
  obtain ⟨path, hrun⟩ := h.original
  obtain ⟨own, hown, -⟩ := Storage.readOriginal_eq_ok.1 hrun
  obtain ⟨content, hat, -⟩ := Files.exists_of_textAt? hown
  simp [Files.hasFile, hat]

theorem Reads.slugs (h : Reads config environment source text facts plan files) :
    ∀ m ∈ plan.modules, isSlug m.slug = true := by
  have hmeets := (Storage.readPlan_meets (config.plansPath environment) fun _ => True).ends files
    trivial
  rw [h.plan] at hmeets
  exact hmeets.1

theorem sourcePath_eq_ok {path : Path} : sourcePath config surroundings s = .ok path s' ↔
    config.sourcePath? = some path ∧ s.files.hasFile path = true ∧ s' = s := by
  constructor
  · intro hrun
    unfold sourcePath at hrun
    cases hsource : config.source with
    | none =>
        rw [hsource] at hrun
        cases hrun
    | some written =>
        simp only [hsource] at hrun
        rw [bind_files_eq] at hrun
        split at hrun
        · next hfound =>
            cases hrun
            exact ⟨by simp [Config.sourcePath?, hsource], hfound, rfl⟩
        · cases hrun
  · rintro ⟨hsource, hfile, rfl⟩
    exact sourcePath_eq hsource hfile

theorem factsDirectory_standing (h : Stocked config surroundings.environment s.files) :
    factsDirectory config surroundings s = .ok (config.factsPath surroundings.environment) s :=
  artifactDirectory_eq (Storage.makeDirectories_standing h.facts)

theorem plansDirectory_standing (h : Stocked config surroundings.environment s.files) :
    plansDirectory config surroundings s = .ok (config.plansPath surroundings.environment) s :=
  artifactDirectory_eq (Storage.makeDirectories_standing h.plans)

/-! ## The steps of a run that ends well -/

theorem completes_bind_read {β : Type} {next : Surroundings → Run β} :
    Completes (read >>= next) surroundings s s' ↔ Completes (next surroundings) surroundings s s' :=
  Iff.rfl

theorem completes_bind_reading {α β : Type} {task : Storage α} {next : α → Run β}
    (htask : Storage.ReadOnly task) : Completes (storing task >>= next) surroundings s s' ↔
      ∃ a, task s.files = .ok a s.files ∧ Completes (next a) surroundings s s' := by
  rw [completes_bind]
  constructor
  · rintro ⟨a, s₁, hrun, hnext⟩
    obtain ⟨files, hread, rfl⟩ := storing_eq_ok.1 hrun
    rcases htask s.files with ⟨_, hsame⟩ | ⟨_, hfailed⟩
    · rw [hread] at hsame
      cases hsame
      exact ⟨a, hread, hnext⟩
    · rw [hread] at hfailed
      cases hfailed
  · rintro ⟨a, hread, hnext⟩
    exact ⟨a, s, storing_eq hread, hnext⟩

theorem completes_bind_step_reading {α β : Type} {kind : LinkStep} {task : Storage α}
    {next : α → Run β} (htask : Storage.ReadOnly task) :
    Completes (step kind (storing task) >>= next) surroundings s s' ↔
      surroundings.faults.lookup kind = none ∧
        ∃ a, task s.files = .ok a s.files ∧ Completes (next a) surroundings s s' := by
  rw [← completes_bind_reading htask, completes_bind, completes_bind]
  cases hfault : surroundings.faults.lookup kind with
  | some reason => simp [step_fault (storing task) hfault]
  | none => simp [step_eq (storing task) hfault]

theorem completes_bind_sourcePath {β : Type} {next : Path → Run β}
    (hsource : config.sourcePath? = some source) :
    Completes (sourcePath config >>= next) surroundings s s' ↔
      s.files.hasFile source = true ∧ Completes (next source) surroundings s s' := by
  constructor
  · intro h
    obtain ⟨path, s₁, hpath, hnext⟩ := completes_bind.1 h
    obtain ⟨hsame, hfile, rfl⟩ := sourcePath_eq_ok.1 hpath
    obtain rfl : source = path := Option.some.inj (hsource.symm.trans hsame)
    exact ⟨hfile, hnext⟩
  · rintro ⟨hfile, hnext⟩
    exact (completes_bind_of (sourcePath_eq hsource hfile)).2 hnext

def Links (config : Config) (environment : Table String) (source : Path) (text : Text)
    (facts : Facts) (plan : Plan) (surroundings : Surroundings) (s s' : RunState) : Prop :=
  ∃ p s₁ s₂,
    prepare config (config.plansPath environment) source text facts
      (Layout.ofPlan plan facts (config.moduleDirectory source) source.basename) surroundings s =
        .ok p s₁ ∧
    Completes p.linking.surround surroundings s₁ s₂ ∧
    Completes (step .report (pure (plan.report facts)) >>=
      writeLinkDocument (config.plansPath environment / "report.json")) surroundings s₂ s'

section Completes

variable (hstocked : Stocked config surroundings.environment s.files)
  (hsource : config.sourcePath? = some source)

include hstocked hsource

theorem completes_write : Completes (write config) surroundings s s' ↔
    ∃ text facts plan, Reads config surroundings.environment source text facts plan s.files ∧
      ∃ made, Storage.makeDirectories (config.moduleDirectory source) s.files = .ok () made ∧
        Completes (plan.modules.foldlM (writeModule config surroundings.reader source text facts) {})
          surroundings { s with files := made } s' := by
  have hfacts := factsDirectory_standing hstocked
  have hplans := plansDirectory_standing hstocked
  unfold write
  rw [completes_bind_sourcePath hsource, completes_bind_reading (Storage.readOriginal_readOnly source)]
  simp only [completes_bind_of hfacts, completes_bind_of hplans,
    completes_bind_reading (Storage.readFacts_readOnly _),
    completes_bind_reading (Storage.readPlan_readOnly _)]
  constructor
  · rintro ⟨-, ⟨text, path⟩, horiginal, facts, hreadFacts, plan, hreadPlan, hrun⟩
    obtain ⟨⟨⟩, s₁, hmake, hrun⟩ := completes_bind.1 hrun
    obtain ⟨made, hmade, rfl⟩ := storing_eq_ok.1 hmake
    rw [completes_bind_read, completes_bind_pure] at hrun
    exact ⟨text, facts, plan, ⟨⟨path, horiginal⟩, hreadFacts, hreadPlan⟩, made, hmade, hrun⟩
  · rintro ⟨text, facts, plan, hreads, made, hmake, hrun⟩
    obtain ⟨path, horiginal⟩ := hreads.original
    refine ⟨hreads.hasFile, (text, path), horiginal, facts, hreads.facts, plan, hreads.plan, ?_⟩
    rw [completes_bind_of (storing_eq hmake), completes_bind_read, completes_bind_pure]
    exact hrun

theorem exists_link {p : Prepared} {s₁ s₂ : RunState}
    (hreads : Reads config surroundings.environment source text facts plan s.files)
    (hfaultFacts : surroundings.faults.lookup .readFacts = none)
    (hfaultPlan : surroundings.faults.lookup .readPlan = none)
    (hprepared : prepare config (config.plansPath surroundings.environment) source text facts
      (Layout.ofPlan plan facts (config.moduleDirectory source) source.basename) surroundings s =
        .ok p s₁)
    (hsurrounded : Completes p.linking.surround surroundings s₁ s₂)
    (hreport : Completes (step .report (pure (plan.report facts)) >>=
      writeLinkDocument (config.plansPath surroundings.environment / "report.json")) surroundings s₂
        s') :
    ∃ report, link config surroundings s = .ok report s' ∧ report.inserted = p.inserted := by
  obtain ⟨path, horiginal⟩ := hreads.original
  obtain ⟨surrounded, hsurrounded⟩ := hsurrounded
  obtain ⟨_, hreport⟩ := hreport
  obtain ⟨doc, s₃, hdoc, hwritten⟩ := bind_eq_ok.1 hreport
  have hreadFacts := (step_eq (storing (Storage.readFacts (config.factsPath surroundings.environment)))
    hfaultFacts s).trans (storing_eq hreads.facts)
  have hreadPlan := (step_eq (storing (Storage.readPlan (config.plansPath surroundings.environment)))
    hfaultPlan s).trans (storing_eq hreads.plan)
  unfold link
  rw [bind_eq (sourcePath_eq hsource hreads.hasFile), bind_eq (storing_eq horiginal)]
  simp only
  rw [bind_eq (factsDirectory_standing hstocked), bind_eq hreadFacts,
    bind_eq (plansDirectory_standing hstocked), bind_eq hreadPlan, bind_eq hprepared,
    bind_eq hsurrounded, bind_eq hdoc, bind_eq hwritten]
  exact ⟨_, rfl, rfl⟩

/-- Linking ends well if everything can be read, the modules can be linked, and the report is written. -/
theorem completes_link : Completes (link config) surroundings s s' ↔
    ∃ text facts plan, Reads config surroundings.environment source text facts plan s.files ∧
      surroundings.faults.lookup .readFacts = none ∧
      surroundings.faults.lookup .readPlan = none ∧
      Links config surroundings.environment source text facts plan surroundings s s' := by
  constructor
  · intro hrun
    unfold link at hrun
    rw [completes_bind_sourcePath hsource,
      completes_bind_reading (Storage.readOriginal_readOnly source)] at hrun
    simp only [completes_bind_of (factsDirectory_standing hstocked),
      completes_bind_of (plansDirectory_standing hstocked),
      completes_bind_step_reading (Storage.readFacts_readOnly _),
      completes_bind_step_reading (Storage.readPlan_readOnly _)] at hrun
    obtain ⟨-, ⟨text, path⟩, horiginal, hfaultFacts, facts, hreadFacts, hfaultPlan, plan, hreadPlan,
      hlinked⟩ := hrun
    obtain ⟨p, s₁, hprepared, hlinked⟩ := completes_bind.1 hlinked
    obtain ⟨surrounded, s₂, hsurrounded, hlinked⟩ := completes_bind.1 hlinked
    obtain ⟨report, s₃, hreport, hlinked⟩ := completes_bind.1 hlinked
    rw [completes_bind_pure] at hlinked
    exact ⟨text, facts, plan, ⟨⟨path, horiginal⟩, hreadFacts, hreadPlan⟩, hfaultFacts, hfaultPlan,
      p, s₁, s₂, hprepared, ⟨surrounded, hsurrounded⟩,
      completes_bind.2 ⟨report, s₃, hreport, hlinked⟩⟩
  · rintro ⟨text, facts, plan, hreads, hfaultFacts, hfaultPlan, p, s₁, s₂, hprepared, hsurrounded,
      hreport⟩
    obtain ⟨report, hrun, -⟩ := exists_link hstocked hsource hreads hfaultFacts hfaultPlan hprepared
      hsurrounded hreport
    exact ⟨report, hrun⟩

end Completes

/-! ## Linking again -/

def linkingOf (config : Config) (source : Path) (text : Text) (facts : Facts) (plan : Plan)
    (exports : ModuleExports) (mapping : Table String) : Linking where
  config
  source
  text
  facts
  layout := Layout.ofPlan plan facts (config.moduleDirectory source) source.basename
  exports
  mapping

theorem prepare_linking {plans : Path} {layout : Layout} {p : Prepared}
    (hrun : prepare config plans source text facts layout surroundings s = .ok p s') :
    ∃ exports mapping,
      p.linking = { config, source, text, facts, layout, exports, mapping } := by
  unfold prepare at hrun
  obtain ⟨⟨imports, importWarnings⟩, s₁, -, hrun⟩ := bind_eq_ok.1 hrun
  obtain ⟨inserted, s₂, -, hrun⟩ := bind_eq_ok.1 hrun
  obtain ⟨-, s₃, -, hrun⟩ := bind_eq_ok.1 hrun
  obtain ⟨exports, s₄, -, hrun⟩ := bind_eq_ok.1 hrun
  obtain ⟨mapping, s₅, -, hrun⟩ := bind_eq_ok.1 hrun
  obtain ⟨⟨_, namesWarnings⟩, s₆, -, hrun⟩ := bind_eq_ok.1 hrun
  cases hrun
  exact ⟨exports, mapping, rfl⟩

section Linking

variable {r : Rerun} {known more : Set Location} {t : RunState} {path : Path}
  (h : Placed config environment source
    (Layout.ofPlan plan facts (config.moduleDirectory source) source.basename) r)
  (hplans : config.plansPath environment ∈ r.standing)

def modulePlaces (config : Config) (source : Path) (plan : Plan) (current : Location) :
    Set Location :=
  { location | ∃ m ∈ plan.modules, location = modulePlace config source current m.slug }

include h

theorem Placed.modulePlaces_written :
    (∀ slug ∈ (Layout.ofPlan plan facts (config.moduleDirectory source) source.basename).slugs,
      modulePlace config source r.current slug ∈ modulePlaces config source plan r.current) ∧
    modulePlaces config source plan r.current ⊆
      config.writtenPlaces environment source r.current := by
  have hslugs := h.slugs
  rw [Layout.ofPlan_slugs] at hslugs ⊢
  constructor
  · intro slug hslug
    obtain ⟨m, hm, rfl⟩ := List.mem_map.1 hslug
    exact ⟨m, hm, rfl⟩
  · rintro location ⟨m, hm, rfl⟩
    exact (Config.Writes.moduleFile (hslugs _ (List.mem_map_of_mem hm))).touched_subset (Or.inl rfl)

include hplans

theorem Placed.document {name : String} (hname : name ∈ Config.linkDocuments) :
    r.Writable (config.reach environment source r.current more) (config.plansPath environment)
      name :=
  (Config.Writes.document hname).writable (h.covers more) h.named hplans

theorem Placed.prepare_again (hadviser : config.adviser.enabled = false)
    (hknown : modulePlaces config source plan r.current ⊆ known) :
    Again r (config.reach environment source r.current more) known known
      (prepare config (config.plansPath environment) source text facts
        (Layout.ofPlan plan facts (config.moduleDirectory source) source.basename)) := by
  apply Run.prepare_again (h.modulesWritable fun slug hslug => hknown (h.modulePlaces_written.1 slug hslug))
    (Layout.ofPlan_closed ..) hadviser h.failures
  exact fun name hname => h.document hplans (List.mem_cons_of_mem _ hname)

theorem Placed.report_again (doc : Json) :
    Again r (config.reach environment source r.current more) known known
      (step .report (pure doc) >>=
        writeLinkDocument (config.plansPath environment / "report.json")) :=
  (Again.step_pure doc).seq fun _ =>
    writeLinkDocument_again ⟨by decide, by decide, by decide, by decide⟩
      (h.document hplans (by simp [Config.linkDocuments])) _

theorem Placed.prepare_changes (hadviser : config.adviser.enabled = false) {p : Prepared}
    (hready : r.Ready s.files)
    (hrun : prepare config (config.plansPath environment) source text facts
      (Layout.ofPlan plan facts (config.moduleDirectory source) source.basename) r.first s =
        .ok p s') :
    Files.Changes (config.writtenPlaces environment source r.current)
      (config.madePlaces source r.current) s.files s'.files := by
  have hprepare : Again r (config.reach environment source r.current ∅) Set.univ Set.univ
      (prepare config (config.plansPath environment) source text facts
        (Layout.ofPlan plan facts (config.moduleDirectory source) source.basename)) :=
    h.prepare_again hplans hadviser (Set.subset_univ _)
  have hchanges := hprepare.changes_ok hrun hready
  simp only [Config.reach, Set.union_empty] at hchanges
  exact hchanges

theorem Placed.report_changes {doc : Json} (hready : r.Ready s.files)
    (hrun : Completes (step .report (pure doc) >>=
      writeLinkDocument (config.plansPath environment / "report.json")) r.first s s') :
    Files.Changes (config.writtenPlaces environment source r.current)
      (config.madePlaces source r.current) s.files s'.files := by
  obtain ⟨_, hrun⟩ := hrun
  have hreport : Again r (config.reach environment source r.current ∅) ∅ ∅ _ :=
    h.report_again hplans doc
  have hchanges := hreport.changes_ok hrun hready
  simp only [Config.reach, Set.union_empty] at hchanges
  exact hchanges

theorem Placed.links_secures (hadviser : config.adviser.enabled = false) (hready : r.Ready s.files)
    (hread : Storage.readOriginal source s.files = .ok (text, path) s.files)
    (hrun : Links config environment source text facts plan r.first s s') :
    Files.Changes (config.changedPlaces environment source r.current)
        (config.madePlaces source r.current) s.files s'.files ∧
      ∃ backup, Secured r.first source text s'.files backup := by
  obtain ⟨p, s₁, s₂, hprepared, ⟨surrounded, hsurrounded⟩, hreport⟩ := hrun
  obtain ⟨exports, mapping, hlinking⟩ := prepare_linking hprepared
  rw [hlinking] at hsurrounded
  have hfirst := h.prepare_changes hplans hadviser hready hprepared
  have hready₁ := hready.changes hfirst
  obtain ⟨hsecond, backup, hsecured⟩ := Linking.surround_secures h hready₁
    (h.readOriginal_changes hready hread hfirst) hsurrounded
  have hready₂ := hready₁.changes hsecond
  have hlast := h.report_changes hplans hready₂ hreport
  refine ⟨?_, backup, ?_⟩
  · have hall := (hfirst.mono Set.subset_union_left (Set.Subset.refl _)).trans hsecond
    exact hall.trans (hlast.mono Set.subset_union_left (Set.Subset.refl _))
  · exact Linking.secured_changes h hready₂ hsecured hlast

/-- What is done around the modules is done again, and in the end every place holds what it did. -/
theorem Placed.ends_again {exports : ModuleExports} {mapping : Table String}
    {surrounded : Linking.Surrounded} {s₁ s₂ : RunState} (hready₁ : r.Ready s₁.files)
    (hread₁ : Storage.readOriginal source s₁.files = .ok (text, path) s₁.files)
    (hsurrounded : (linkingOf config source text facts plan exports mapping).surround r.first s₁ =
      .ok surrounded s₂)
    (hreport : Completes (step .report (pure (plan.report facts)) >>=
      writeLinkDocument (config.plansPath environment / "report.json")) r.first s₂ s') :
    Files.Changes (config.changedPlaces environment source r.current)
        (config.madePlaces source r.current) s₁.files s'.files ∧
      ∀ t₁ : RunState, Files.Follows r.touched (modulePlaces config source plan r.current) s'.files
          s₁.files t₁.files →
        ∃ again t₂ t', (linkingOf config source text facts plan exports mapping).surround r.again t₁ =
            .ok again t₂ ∧
          Completes (step .report (pure (plan.report facts)) >>=
            writeLinkDocument (config.plansPath environment / "report.json")) r.again t₂ t' ∧
          ∀ location, t'.files.entry? location = s'.files.entry? location := by
  obtain ⟨hsecond, -⟩ := Linking.surround_secures h hready₁ hread₁ hsurrounded
  have hready₂ := hready₁.changes hsecond
  have hlast := h.report_changes hplans hready₂ hreport
  refine ⟨hsecond.trans (hlast.mono Set.subset_union_left (Set.Subset.refl _)),
    fun t₁ hfollows₁ => ?_⟩
  obtain ⟨hmodules, hwritten⟩ := h.modulePlaces_written
  have hkept : ∀ location ∈ modulePlaces config source plan r.current,
      location ∉ Storage.heldPlaces source r.current := fun location hlocation hheld =>
    h.clear.held_not_written h.named location hheld (hwritten hlocation)
  obtain ⟨again, t₂, hsurrounded', hfollows₂⟩ := Linking.surround_again h hready₁ hread₁
    hsurrounded hmodules hkept hlast hfollows₁
  obtain ⟨_, hreport⟩ := hreport
  have hdocument : Again r (config.reach environment source r.current ∅)
      (modulePlaces config source plan r.current) (modulePlaces config source plan r.current) _ :=
    h.report_again hplans (plan.report facts)
  obtain ⟨t', hreport', hfollows'⟩ := hdocument.ok hreport hready₂ hfollows₂ (.refl ..)
  exact ⟨again, t₂, t', hsurrounded', ⟨_, hreport'⟩, hfollows'.finish⟩

theorem Placed.links_again (hadviser : config.adviser.enabled = false) (hready : r.Ready s.files)
    (hread : Storage.readOriginal source s.files = .ok (text, path) s.files)
    (hrun : Links config environment source text facts plan r.first s s')
    (hfollows : Files.Follows r.touched (modulePlaces config source plan r.current) s'.files
      s.files t.files) :
    ∃ t', Links config environment source text facts plan r.again t t' ∧
      ∀ location, t'.files.entry? location = s'.files.entry? location := by
  obtain ⟨p, s₁, s₂, hprepared, ⟨surrounded, hsurrounded⟩, hreport⟩ := hrun
  obtain ⟨exports, mapping, hlinking⟩ := prepare_linking hprepared
  rw [hlinking] at hsurrounded
  have hfirst := h.prepare_changes hplans hadviser hready hprepared
  have hread₁ := h.readOriginal_changes hready hread hfirst
  obtain ⟨hrest, hends⟩ :=
    h.ends_again hplans (hready.changes hfirst) hread₁ hsurrounded hreport
  obtain ⟨t₁, hprepared', hfollows₁⟩ :=
    (h.prepare_again hplans hadviser (Set.Subset.refl _)).ok hprepared hready hfollows hrest
  obtain ⟨again, t₂, t', hsurrounded', hreport', hsame⟩ := hends t₁ hfollows₁
  refine ⟨t', ⟨p, t₁, t₂, hprepared', ⟨again, ?_⟩, hreport'⟩, hsame⟩
  rw [hlinking]
  exact hsurrounded'

end Linking

/-! ## Both stages again -/

section Both

variable {first again : Surroundings} (henvironment : again.environment = first.environment)
  (hfaults : again.faults = first.faults)

/-- A run that starts where certain directories stand, and its repetition. -/
def repeating (config : Config) (source : Path) (henvironment : again.environment = first.environment)
    (hfaults : again.faults = first.faults) (files : Files) (failures : Prop) : Rerun where
  first
  again
  environment := henvironment
  faults := hfaults
  current := files.current
  standing := { path | files.Standing path }
  touched := config.writtenPlaces first.environment source files.current
  failures

theorem standing_outputParent {group : String} {mirror : Path}
    (h : files.Standing (config.outputRoot.child group))
    (hmirror : config.mirrorRoot? = some mirror) : files.Standing config.outputRoot.parent := by
  have hroot := Files.standing_of_locate_child h.locate
  have hparts : config.outputRoot.parts ≠ [] := by
    intro hnil
    simp [Config.mirrorRoot?, Path.sibling?, hnil] at hmirror
  rw [← Path.parent_child_name hparts] at hroot
  exact Files.standing_of_locate_child hroot.locate

theorem repeating_placed (hnamed : source.Named) (habsolute : source.isAbsolute = true)
    (hclean : config.root.Clean) (hclear : config.Clear first.environment files.current source)
    (hslugs : ∀ m ∈ plan.modules, isSlug m.slug = true) (hparent : files.Standing source.parent)
    (hmodules : files.Standing (config.outputRoot.child source.groupName)) :
    Placed config first.environment source
      (Layout.ofPlan plan facts (config.moduleDirectory source) source.basename)
      (repeating config source henvironment hfaults files True) where
  named := hnamed
  isAbsolute := habsolute
  root := hclean
  clear := hclear
  slugs := by
    rw [Layout.ofPlan_slugs]
    intro slug hslug
    obtain ⟨m, hm, rfl⟩ := List.mem_map.1 hslug
    exact hslugs m hm
  basename := Layout.ofPlan_basename ..
  directory := by rw [Layout.ofPlan_directory, Path.moduleDirectory_eq _ hnamed]
  parent := hparent
  modules := hmodules
  mirror _ hmirror := standing_outputParent hmodules hmirror
  touched := rfl
  failures := trivial

/-- What both stages read is read once more after a run has made its changes, if the original is. -/
theorem Reads.later {before after last : Files}
    (h : Reads config environment source text facts plan after)
    (hclear : config.Clear environment before.current source) (hnamed : source.Named)
    (hfacts : Storage.readFacts (config.factsPath environment) before = .ok facts before)
    (hindex : ∀ index, Storage.readIndex (config.factsPath environment) before = .ok index before →
      index.Standard)
    (halike : Storage.FactsAlike (config.factsPath environment) before after)
    (hchanges : Files.Changes (config.changedPlaces environment source before.current)
      (config.madePlaces source before.current) after last)
    (horiginal : ∃ path, Storage.readOriginal source last = .ok (text, path) last) :
    Reads config environment source text facts plan last where
  original := horiginal
  facts := ((halike.changes hchanges (hclear.facts_not_changed hnamed)
    Config.facts_not_made).readFacts_agrees hindex).eq_ok hfacts
  plan := by
    apply Storage.readPlan_after hchanges h.plan
    rw [halike.current]
    exact hclear.plan_not_changed hnamed

end Both

theorem Reads.located (h : Reads config environment source text facts plan files)
    (hroot : config.root.isAbsolute = true ∧ config.root.Clean)
    (hsource : config.sourcePath? = some source) :
    source.Named ∧ source.isAbsolute = true ∧ files.Standing source.parent := by
  obtain ⟨path, horiginal⟩ := h.original
  obtain ⟨own, hown, -⟩ := Storage.readOriginal_eq_ok.1 horiginal
  have hnamed := named_of_textAt? hroot hsource hown
  refine ⟨hnamed, ?_, ?_⟩
  · obtain ⟨configured, -, rfl⟩ := Option.map_eq_some_iff.1 hsource
    exact Path.div_isAbsolute hroot.1 configured
  · obtain ⟨content, hat, -⟩ := Files.exists_of_textAt? hown
    rw [← hnamed.parent_child] at hat
    exact Files.standing_of_locate_child (Files.at?_eq_some.1 hat).1

theorem records_ne_nil {m : ModuleSpec}
    (hknown : ∃ id ∈ m.functions, (facts.function? id).isSome = true) :
    Emission.records facts m ≠ [] := by
  obtain ⟨id, hid, hsome⟩ := hknown
  obtain ⟨f, hf⟩ := Option.isSome_iff_exists.1 hsome
  exact List.ne_nil_of_mem (List.mem_filterMap.2 ⟨id, hid, hf⟩)

section Repeating

variable {first again : Surroundings} (henvironment : again.environment = first.environment)
  (hfaults : again.faults = first.faults) {s₁ : RunState} {report : WriteReport}
  (hnamed : source.Named) (hslugs : ∀ m ∈ plan.modules, isSlug m.slug = true)
  (hstanding : files.Standing config.root)
  (hmodules : files.Standing (config.outputRoot.child source.groupName))
  (hknown : ∀ m ∈ plan.modules, ∃ id ∈ m.functions, (facts.function? id).isSome = true)

include hnamed hslugs hstanding hmodules hknown

theorem repeating_writes (reader : Script.Reader) (text : Text) (more : Set Location) :
    Again (repeating config source henvironment hfaults files False)
      (config.reach first.environment source files.current more) ∅
      (modulePlaces config source plan files.current)
      (plan.modules.foldlM (writeModule config reader source text facts) {}) := by
  have hcovers : config.Covers first.environment source
      (repeating config source henvironment hfaults files False)
      (config.reach first.environment source files.current more) :=
    ⟨Set.subset_union_left, rfl, rfl⟩
  exact writeModules_again hcovers hnamed hslugs hstanding hmodules (fun hmust => hmust)
    (fun m hm => records_ne_nil (hknown m hm)) reader text

/-- Writing the modules changes nothing but files that linking does not read to begin with. -/
theorem writeModules_changes {reader : Script.Reader}
    (hrun : plan.modules.foldlM (writeModule config reader source text facts) {} first
      { s with files } = .ok report s₁) :
    Files.Changes (config.writtenPlaces first.environment source files.current)
      (config.madePlaces source files.current) files s₁.files := by
  have hsame : first.environment = first.environment ∧ first.faults = first.faults := ⟨rfl, rfl⟩
  have hchanges := (repeating_writes hsame.1 hsame.2 hnamed hslugs hstanding hmodules hknown
    reader text ∅).changes_ok hrun ⟨rfl, fun _ hpath => hpath⟩
  simp only [Config.reach, Set.union_empty] at hchanges
  exact hchanges

end Repeating

/-- Once writing and linking have run to the end, running both again does so too and leaves every place as
it is. -/
theorem second_run_changes_nothing {first again : Surroundings} {s s₁ s₂ t : RunState}
    (hroot : config.root.isAbsolute = true ∧ config.root.Clean)
    (hstanding : s.files.Standing config.root) (hsource : config.sourcePath? = some source)
    (hclear : config.Clear first.environment s.files.current source)
    (hadviser : config.adviser.enabled = false)
    (hfacts : Storage.readFacts (config.factsPath first.environment) s.files = .ok facts s.files)
    (hindex : ∀ index, Storage.readIndex (config.factsPath first.environment) s.files =
      .ok index s.files → index.Standard)
    (hplan : Storage.readPlan (config.plansPath first.environment) s.files = .ok plan s.files)
    (hknown : ∀ m ∈ plan.modules, ∃ id ∈ m.functions, (facts.function? id).isSome = true)
    (hwrite : Completes (write config) first s s₁) (hlink : Completes (link config) first s₁ s₂)
    (henvironment : again.environment = first.environment) (hfaults : again.faults = first.faults)
    (hreader : again.reader = first.reader) (hfiles : t.files = s₂.files) :
    ∃ t₁ t₂, Completes (write config) again t t₁ ∧ Completes (link config) again t₁ t₂ ∧
      ∀ location, t₂.files.entry? location = s₂.files.entry? location := by
  have hstocked : Stocked config first.environment s.files :=
    ⟨(Storage.readFacts_stored hfacts hindex).standing, Storage.standing_of_readPlan hplan⟩
  -- what the first run reads and writes
  obtain ⟨text, facts', plan', hreads, made, hmake, report, hwritten⟩ :=
    (completes_write hstocked hsource).1 hwrite
  obtain rfl : facts = facts' := (EStateM.Result.ok.inj (hfacts.symm.trans hreads.facts)).1
  obtain rfl : plan = plan' := (EStateM.Result.ok.inj (hplan.symm.trans hreads.plan)).1
  obtain ⟨hnamed, habsolute, hparent⟩ := hreads.located hroot hsource
  obtain ⟨path, horiginal⟩ := hreads.original
  obtain ⟨hmade, hmodules⟩ := Storage.of_makeDirectories hmake
  rw [Path.moduleDirectory_eq _ hnamed] at hmodules
  have hroot' := hmade.standing hstanding
  have hmodulesChanges := writeModules_changes hnamed hreads.slugs hroot' hmodules hknown hwritten
  have hchanges₁ : Files.Changes (config.changedPlaces first.environment source s.files.current)
      Set.univ s.files s₁.files := by
    refine (hmade.mono (Set.empty_subset _) (Set.subset_univ _)).trans ?_
    rw [← hmade.current]
    exact hmodulesChanges.mono Set.subset_union_left (Set.subset_univ _)
  have hstocked₁ := hstocked.changes hchanges₁
  -- linking reads the same
  have hplaced : Placed config first.environment source
      (Layout.ofPlan plan facts (config.moduleDirectory source) source.basename)
      (repeating config source henvironment hfaults made True) :=
    repeating_placed henvironment hfaults hnamed habsolute hroot.2 (hmade.current ▸ hclear)
      hreads.slugs (hmade.standing hparent) hmodules
  have hready₁ : (repeating config source henvironment hfaults made True).Ready s₁.files :=
    Rerun.Ready.changes ⟨rfl, fun _ hpath => hpath⟩ hmodulesChanges
  have hread₁ : Storage.readOriginal source s₁.files = .ok (text, path) s₁.files := by
    apply hplaced.readOriginal_changes ⟨rfl, fun _ hpath => hpath⟩ ?_ hmodulesChanges
    exact (Storage.sourceAlike_of_changes hnamed hparent hmade (by simp)).readOriginal hnamed
      habsolute horiginal
  obtain ⟨text', facts', plan', hreads₁, hfaultFacts, hfaultPlan, hlinks⟩ :=
    (completes_link hstocked₁ hsource).1 hlink
  obtain ⟨path', horiginal'⟩ := hreads₁.original
  obtain ⟨rfl, rfl⟩ : text = text' ∧ path = path' := by
    simpa using (EStateM.Result.ok.inj (hread₁.symm.trans horiginal')).1
  obtain ⟨rfl, halike⟩ := Storage.readFacts_after hchanges₁ (hclear.facts_not_changed hnamed) hfacts
    hreads₁.facts hindex
  obtain rfl : plan = plan' := by
    have hplan₁ := Storage.readPlan_after hchanges₁ hplan (hclear.plan_not_changed hnamed)
    exact (EStateM.Result.ok.inj (hplan₁.symm.trans hreads₁.plan)).1
  have hplans := hmade.standing hstocked.plans
  obtain ⟨hchanges₂, backup, hsecured⟩ := hplaced.links_secures hplans hadviser hready₁ hread₁ hlinks
  rw [show Rerun.current _ = s.files.current from hmade.current] at hchanges₂
  have hreads₂ := hreads₁.later hclear hnamed hfacts hindex halike hchanges₂ hsecured.readOriginal
  -- writing again
  have hrest : Files.Changes (config.changedPlaces first.environment source made.current)
      (config.madePlaces source made.current) s₁.files s₂.files := by
    rw [hmade.current]
    exact hchanges₂
  have hstart : Files.Follows (config.writtenPlaces first.environment source made.current) ∅ s₂.files
      made t.files := by
    rw [hfiles]
    exact .start _ (by simp)
  obtain ⟨t₁, hagain, hfollows⟩ := (repeating_writes henvironment hfaults hnamed hreads.slugs hroot'
    hmodules hknown first.reader text (Storage.heldPlaces source made.current)).ok hwritten
      ⟨rfl, fun _ hpath => hpath⟩ hstart hrest
  have hwriteAgain : Completes (write config) again t t₁ := by
    have hstocked₂ := hstocked₁.changes hchanges₂
    have hdirectory := hchanges₂.standing (hmodulesChanges.standing hmodules)
    rw [← Path.moduleDirectory_eq _ hnamed] at hdirectory
    rw [← henvironment, ← hfiles] at hstocked₂
    rw [← hfiles] at hreads₂ hdirectory
    rw [completes_write hstocked₂ hsource, henvironment, hreader]
    exact ⟨text, _, plan, hreads₂, t.files, Storage.makeDirectories_standing hdirectory, report,
      hagain⟩
  -- linking again
  obtain ⟨t₂, hlinksAgain, hsame⟩ := hplaced.links_again hplans hadviser hready₁ hread₁ hlinks hfollows
  refine ⟨t₁, t₂, hwriteAgain, ?_, hsame⟩
  have hchanges₃ : Files.Changes (config.changedPlaces first.environment source s.files.current)
      (config.madePlaces source s.files.current) s₁.files t₁.files := by
    apply hchanges₂.trans
    rw [← hmade.current]
    exact hfollows.changed.mono Set.subset_union_left (Set.empty_subset _)
  obtain ⟨path₂, horiginal₂⟩ := hsecured.readOriginal
  have hreads₃ := hreads₁.later hclear hnamed hfacts hindex halike hchanges₃
    ⟨path₂, hplaced.readOriginal_changes (hready₁.changes hchanges₂) horiginal₂ hfollows.changed⟩
  have hstocked₃ := hstocked₁.changes hchanges₃
  rw [← henvironment] at hstocked₃
  rw [completes_link hstocked₃ hsource, henvironment, hfaults]
  exact ⟨text, _, plan, hreads₃, hfaultFacts, hfaultPlan, hlinksAgain⟩

/-! ## One function written and linked twice -/

def contentOf (pieces : List String) : Content := .text (pieces.flatMap String.toList)

def soloScript : List String := ["function a() \x7b\x7d\n"]

def soloFacts : Facts where
  source := ""
  functions := [{ id := "f0", name := "a", start := 0, stop := 15 }]

def soloPlan : Plan where
  modules := [{ name := "original", slug := "original", functions := ["f0"] }]

def soloStart (texts : List (Location × List String)) : RunState where
  files :=
    { current := ["work"]
      entries :=
        [["work"], ["work", "output_debug"], ["work", "facts"], ["work", "facts", "facts.d"],
          ["work", "plans"]].map (·, .directory) ++
        (texts ++ [
          (["work", "facts", "facts.index.json"], ["\x7b\"source\": \"\", ", "\"shards\": ["] ++
            shard "functions" ++ [", "] ++ shard "calls" ++ [", "] ++ shard "imports" ++ ["]\x7d"]),
          (["work", "facts", "facts.d", "functions.ndjson"], ["\x7b\"id\": \"f0\"",
            ", \"name\": \"a\"", ", \"span\": ", "\x7b\"start\": 0, ", "\"end\": 15\x7d\x7d"]),
          (["work", "plans", "plan.json"],
            ["[", "\x7b\"slug\": \"original\"", ", \"functions\": ", "[\"f0\"]\x7d]"])]).map
          fun (place, pieces) => (place, .file (contentOf pieces)) }
where
  shard (kind : String) : List String :=
    ["\x7b\"kind\": \"", kind, "\", \"path\": \"", "facts.d/", kind, ".ndjson\", ", "\"count\": 0\x7d"]

def morning : Surroundings where
  environment := []
  now := ⟨2024, 1, 2, 9, 0, 0⟩

def nextMorning : Surroundings :=
  { morning with now := ⟨2024, 1, 3, 9, 0, 0⟩ }

def copying : Config := { workspaceConfig with debugCopies := true }

def copyingStart : RunState := soloStart [(["work", "app.js"], soloScript)]

theorem second_run_of_solo : ∃ s₁ s₂ t₁ t₂, Completes (write copying) morning copyingStart s₁ ∧
    Completes (link copying) morning s₁ s₂ ∧
    Completes (write copying) nextMorning { s₂ with log := [] } t₁ ∧
    Completes (link copying) nextMorning t₁ t₂ ∧
    ∀ location, t₂.files.entry? location = s₂.files.entry? location := by
  have hsource : copying.sourcePath? = some ((Path.ofString "/work").child "app.js") := by
    decide +kernel
  have hclear : copying.Clear morning.environment copyingStart.files.current
      ((Path.ofString "/work").child "app.js") :=
    { output := by decide +kernel
      mirror := fun mirror hmirror => by
        obtain rfl : mirror = (Path.ofString "/work").child "out_cjs" :=
          Option.some.inj (hmirror.symm.trans (by decide +kernel))
        decide +kernel
      facts := by decide +kernel
      plans := by decide +kernel
      copies := fun _ => by decide +kernel
      backups := by decide +kernel
      pattern := by decide +kernel }
  have hstanding : copyingStart.files.Standing copying.root := by
    unfold Files.Standing
    decide +kernel
  have hfacts : Storage.readFacts (copying.factsPath morning.environment) copyingStart.files =
      .ok soloFacts copyingStart.files :=
    (Storage.readFacts_readOnly _).eq_ok (by decide +kernel)
  have hplan : Storage.readPlan (copying.plansPath morning.environment) copyingStart.files =
      .ok soloPlan copyingStart.files :=
    (Storage.readPlan_readOnly _).eq_ok (by decide +kernel)
  obtain ⟨index, hindex, hstandard⟩ := (Storage.readIndex_readOnly
    (copying.factsPath morning.environment)).exists_ok copyingStart.files
    (fun index => decide index.Standard) (by decide +kernel)
  obtain ⟨s₁, s₂, hwrite, hlink⟩ : ∃ s₁ s₂, Completes (write copying) morning copyingStart s₁ ∧
      Completes (link copying) morning s₁ s₂ := by
    obtain ⟨hwrite, hlink⟩ : endsWell (write copying) morning copyingStart = true ∧
        endsWell (link copying) morning (stateAfter (write copying) morning copyingStart) = true := by
      decide +kernel
    exact ⟨_, _, completes_stateAfter hwrite, completes_stateAfter hlink⟩
  obtain ⟨t₁, t₂, hwriteAgain, hlinkAgain, hsame⟩ := second_run_changes_nothing
    ⟨by decide, Path.ofString_clean _⟩ hstanding hsource hclear rfl hfacts
    (fun other hother => by
      rw [(EStateM.Result.ok.inj (hother.symm.trans hindex)).1]
      exact of_decide_eq_true hstandard)
    hplan (by decide +kernel) hwrite hlink (rfl : nextMorning.environment = morning.environment) rfl rfl
    (rfl : ({ s₂ with log := [] } : RunState).files = s₂.files)
  exact ⟨s₁, s₂, t₁, t₂, hwrite, hlink, hwriteAgain, hlinkAgain, hsame⟩

/-- The source is itself where copies for debugging go. -/
def copyingOver : Config := { copying with source := some "output_debug/app.js" }

def copyingOverStart : RunState := soloStart [(["work", "output_debug", "app.js"], soloScript)]

/-- Outside of all other directories of a run, a source does not outlast it where copies for debugging go: the
copy of the module that keeps it takes its place, and the second run works on that. -/
theorem second_run_copies_over :
    let source := ((Path.ofString "/work").child "output_debug").child "app.js"
    copyingOver.sourcePath? = some source ∧
      copyingOver.Outside morning.environment copyingOverStart.files.current source ∧
      copyingOver.adviser.enabled = false ∧
      Storage.readFacts (copyingOver.factsPath morning.environment) copyingOverStart.files =
        .ok soloFacts copyingOverStart.files ∧
      Storage.readPlan (copyingOver.plansPath morning.environment) copyingOverStart.files =
        .ok soloPlan copyingOverStart.files ∧
      (∀ m ∈ soloPlan.modules, m.slug ≠ source.basename ++ "_old" ∧
        ∃ id ∈ m.functions, (soloFacts.function? id).isSome = true) ∧
      ∃ s₁ s₂ t₁ t₂, Completes (write copyingOver) morning copyingOverStart s₁ ∧
        Completes (link copyingOver) morning s₁ s₂ ∧ Completes (write copyingOver) morning s₂ t₁ ∧
        Completes (link copyingOver) morning t₁ t₂ ∧
        t₂.files.entry? ["work", "out", "app.atomized", "app.js"] ≠
          s₂.files.entry? ["work", "out", "app.atomized", "app.js"] := by
  intro source
  refine ⟨by decide +kernel, ?_, rfl, (Storage.readFacts_readOnly _).eq_ok (by decide +kernel),
    (Storage.readPlan_readOnly _).eq_ok (by decide +kernel), by decide +kernel, ?_⟩
  · exact
      { output := by decide +kernel
        mirror := fun mirror hmirror => by
          obtain rfl : mirror = (Path.ofString "/work").child "out_cjs" :=
            Option.some.inj (hmirror.symm.trans (by decide +kernel))
          decide +kernel
        facts := by decide +kernel
        plans := by decide +kernel }
  · let s₁ := stateAfter (write copyingOver) morning copyingOverStart
    let s₂ := stateAfter (link copyingOver) morning s₁
    let t₁ := stateAfter (write copyingOver) morning s₂
    let t₂ := stateAfter (link copyingOver) morning t₁
    obtain ⟨hwrite, hlink, hwriteAgain, hlinkAgain, hdiffers⟩ :
        endsWell (write copyingOver) morning copyingOverStart = true ∧
          endsWell (link copyingOver) morning s₁ = true ∧
          endsWell (write copyingOver) morning s₂ = true ∧
          endsWell (link copyingOver) morning t₁ = true ∧
          t₂.files.entry? ["work", "out", "app.atomized", "app.js"] ≠
            s₂.files.entry? ["work", "out", "app.atomized", "app.js"] := by decide +kernel
    exact ⟨s₁, s₂, t₁, t₂, completes_stateAfter hwrite, completes_stateAfter hlink,
      completes_stateAfter hwriteAgain, completes_stateAfter hlinkAgain, hdiffers⟩

end Run

end ScriptSplit
