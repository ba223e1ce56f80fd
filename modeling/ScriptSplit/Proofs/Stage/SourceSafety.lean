import Mathlib.Order.BooleanAlgebra.Set
import ScriptSplit.Proofs.Run.Original
import ScriptSplit.Proofs.Stage.Link

/-!
# The source survives

Whatever steps of linking fail, the source keeps its text or gets the shim. The shim comes last: the text
is in the backup by then, and the bridge that the shim names is there.

From the backup on, every step works on files that protect the source, the backup and the bridge; the places
that a step touches are none of these.
-/

namespace ScriptSplit

namespace Run

open Storage (Stable backupPath)

/-! ## What protects the source -/

structure Intact (current : Location) (source : Path) (content : Content) (files : Files) : Prop where
  current : files.current = current
  unchanged : files.at? source = some (.file content)

structure Saved (current : Location) (source : Path) (content : Content) (text : Text)
    (files : Files) : Prop extends Intact current source content files where
  saved : files.textAt? (backupPath source) = some text

/-- What a bridge may hold: the exports of all modules, or all that the backup exports. -/
def IsBridge (config : Config) (source : Path) (bridge : Text) : Prop :=
  (∃ layout exports header, bridge =
    renderBridge config.banner (bySpecifier source (Layout.file layout) exports)
      (publicNames exports) header) ∨
  bridge = renderFallbackBridge config.banner
    (Path.specifierFrom source.parent (backupPath source))

structure Bridged (config : Config) (current : Location) (source : Path) (content : Content)
    (text : Text) (files : Files) : Prop extends Saved current source content text files where
  bridge : ∃ written, files.at? (bridgePath source) = some (.file (.text written)) ∧
    IsBridge config source written

/-- The shim stands in the place of the source, and all that it stands for is there. -/
structure Replaced (config : Config) (source : Path) (text : Text) (files : Files) : Prop where
  shim : files.at? source =
    some (.file (.text (renderShim config.banner (bridgePath source).name)))
  saved : files.textAt? (backupPath source) = some text
  bridge : ∃ written, files.at? (bridgePath source) = some (.file (.text written)) ∧
    IsBridge config source written

section Stable

variable {config : Config} {current : Location} {source : Path} {content : Content} {text : Text}

/-- The places of the source, of its backup and of its bridge. -/
def protectedPlaces (current : Location) (source : Path) : Set Location :=
  {source.place current, (backupPath source).place current, (bridgePath source).place current}

theorem intact_stable :
    Stable current {source.place current}ᶜ (Intact current source content) where
  current _ hfiles := hfiles.current
  changes before after hchanges hbefore := by
    refine ⟨hchanges.current.trans hbefore.current, hchanges.at?_eq_some ?_ hbefore.unchanged⟩
    rw [hbefore.current]
    simp

theorem saved_stable :
    Stable current {source.place current, (backupPath source).place current}ᶜ
      (Saved current source content text) where
  current _ hfiles := hfiles.current
  changes before after hchanges hbefore := by
    have hintact := (intact_stable.mono (Set.compl_subset_compl.2 (by simp))).changes
      before after hchanges hbefore.toIntact
    refine ⟨hintact, hchanges.textAt?_eq_some ?_ hbefore.saved⟩
    rw [hbefore.current]
    simp

theorem bridged_stable :
    Stable current (protectedPlaces current source)ᶜ
      (Bridged config current source content text) where
  current _ hfiles := hfiles.current
  changes before after hchanges hbefore := by
    obtain ⟨written, hat, hbridge⟩ := hbefore.bridge
    have hsaved := (saved_stable.mono (Set.compl_subset_compl.2
      (by intro place; simp [protectedPlaces]; tauto))).changes before after hchanges
        hbefore.toSaved
    refine ⟨hsaved, written, hchanges.at?_eq_some ?_ hat, hbridge⟩
    rw [hbefore.current]
    simp [protectedPlaces]

theorem replaced_stable :
    Stable current (protectedPlaces current source)ᶜ
      (fun files => files.current = current ∧ Replaced config source text files) where
  current _ hfiles := hfiles.1
  changes before after hchanges hbefore := by
    obtain ⟨hcurrent, hshim, hsaved, written, hat, hbridge⟩ := hbefore
    refine ⟨hchanges.current.trans hcurrent, hchanges.at?_eq_some ?_ hshim,
      hchanges.textAt?_eq_some ?_ hsaved, written, hchanges.at?_eq_some ?_ hat, hbridge⟩ <;>
    · rw [hcurrent]
      simp [protectedPlaces]

end Stable

/-! ## Steps that touch nothing protected -/

section Places

variable {config : Config} {environment : Table String} {current : Location} {source : Path}

theorem mem_protectedPlaces (h : source.Named) {location : Location} :
    location ∈ protectedPlaces current source ↔ ∃ name,
      (name = source.name ∨ name = source.backupName ∨ name = source.bridgeName) ∧
        location = source.parent.place current ++ [name] := by
  simp only [protectedPlaces, backupPath, bridgePath, Path.place_child h.isName_backupName.notUp,
    Path.place_child h.isName_bridgeName.notUp, h.place_eq current, Set.mem_insert_iff,
    Set.mem_singleton_iff]
  constructor
  · rintro (rfl | rfl | rfl)
    · exact ⟨_, Or.inl rfl, rfl⟩
    · exact ⟨_, Or.inr (Or.inl rfl), rfl⟩
    · exact ⟨_, Or.inr (Or.inr rfl), rfl⟩
  · rintro ⟨name, rfl | rfl | rfl, rfl⟩
    · exact Or.inl rfl
    · exact Or.inr (Or.inl rfl)
    · exact Or.inr (Or.inr rfl)

theorem neighbour_not_protected (h : source.Named) {name : String} (hsource : name ≠ source.name)
    (hbackup : name ≠ source.backupName) (hbridge : name ≠ source.bridgeName) :
    source.parent.place current ++ [name] ∉ protectedPlaces current source := by
  rw [mem_protectedPlaces h]
  rintro ⟨other, hother, heq⟩
  have hname : name = other := by simpa using heq
  subst hname
  tauto

theorem awayFrom_subset (h : source.Named)
    (houtside : config.Outside environment current source) :
    config.awayFrom environment current ⊆ (protectedPlaces current source)ᶜ := by
  intro location haway hprotected
  obtain ⟨name, -, rfl⟩ := (mem_protectedPlaces h).1 hprotected
  exact houtside.neighbour_not_away h name haway

theorem touchedBy_requireBridge_subset (h : source.Named) :
    Storage.touchedBy source.parent source.requireBridgeName current ⊆
      (protectedPlaces current source)ᶜ := by
  have hname := h.name_ne_empty
  have hdotted := Path.dotted_requireBridgeName hname
  have hbackup := Path.underscored_backupName source
  rintro location (rfl | rfl)
  · exact neighbour_not_protected h (Path.name_ne_requireBridgeName source).symm
      (hdotted.ne hbackup) (Path.bridgeName_ne_requireBridgeName hname).symm
  · exact neighbour_not_protected h (Path.name_ne_temporary_requireBridgeName hname).symm
      (hdotted.temporary.ne hbackup) (Path.bridgeName_ne_temporary_requireBridgeName hname).symm

theorem touchedBy_bridge_subset (h : source.Named) :
    Storage.touchedBy source.parent source.bridgeName current ⊆
      {source.place current, (backupPath source).place current}ᶜ := by
  have hdotted := Path.dotted_bridgeName h.name_ne_empty
  have hbackup := Path.underscored_backupName source
  rw [h.place_eq, backupPath, Path.place_child h.isName_backupName.notUp]
  rintro location (rfl | rfl) <;>
    simp only [Set.mem_compl_iff, Set.mem_insert_iff, Set.mem_singleton_iff, Storage.asideOf,
      List.append_cancel_left_eq, List.cons.injEq, and_true, not_or]
  · exact ⟨(Path.name_ne_bridgeName source).symm, hdotted.ne hbackup⟩
  · exact ⟨(Path.name_ne_temporary_bridgeName source).symm, hdotted.temporary.ne hbackup⟩

theorem asideOf_source_subset (h : source.Named) :
    {Storage.asideOf source.parent source.name current} ⊆ (protectedPlaces current source)ᶜ := by
  rintro location rfl
  exact neighbour_not_protected h (Path.ne_temporaryName _).symm
    ((Path.dotted_name h.name_ne_empty).temporary.ne (Path.underscored_backupName source))
    (Path.bridgeName_ne_temporary_name source).symm

theorem touchedBy_source_subset (h : source.Named) :
    Storage.touchedBy source.parent source.name current ⊆
      {(backupPath source).place current, (bridgePath source).place current}ᶜ := by
  have hdotted := Path.dotted_name h.name_ne_empty
  have hbackup := Path.underscored_backupName source
  rw [backupPath, bridgePath, Path.place_child h.isName_backupName.notUp,
    Path.place_child h.isName_bridgeName.notUp]
  rintro location (rfl | rfl) <;>
    simp only [Set.mem_compl_iff, Set.mem_insert_iff, Set.mem_singleton_iff, Storage.asideOf,
      List.append_cancel_left_eq, List.cons.injEq, and_true, not_or]
  · exact ⟨hdotted.ne hbackup, Path.name_ne_bridgeName source⟩
  · exact ⟨hdotted.temporary.ne hbackup, (Path.bridgeName_ne_temporary_name source).symm⟩

theorem touchedBy_output_subset {group : String} (hgroup : group ≠ "..") (name : String) :
    Storage.touchedBy (config.outputRoot.child group) name current ⊆
      config.awayFrom environment current :=
  (Storage.touchedBy_child_subset_below _ hgroup name current).trans
    fun _ hmem => Or.inl (Or.inl hmem)

theorem touchedBy_mirror_subset {mirror : Path} (hroot : config.mirrorRoot? = some mirror)
    {group : String} (hgroup : group ≠ "..") (name : String) :
    Storage.touchedBy (mirror.child group) name current ⊆ config.awayFrom environment current :=
  (Storage.touchedBy_child_subset_below _ hgroup name current).trans
    fun _ hmem => Or.inl (Or.inr ⟨mirror, hroot, hmem⟩)

theorem touchedBy_plans_subset (name : String) :
    Storage.touchedBy (config.plansPath environment) name current ⊆
      config.awayFrom environment current :=
  (Storage.touchedBy_subset_below _ name current).trans fun _ hmem => Or.inr hmem

end Places

/-! ## Linking -/

section Linking

variable {config : Config} {surroundings : Surroundings} {current : Location} {source : Path}
  {content : Content} {text : Text}

/-- What every run of linking leaves. -/
def Safe (config : Config) (current : Location) (source : Path) (content : Content) (text : Text)
    (files : Files) : Prop :=
  Intact current source content files ∨ files.current = current ∧ Replaced config source text files

theorem safe_stable : Stable current (protectedPlaces current source)ᶜ
    (Safe config current source content text) where
  current files hfiles := by
    rcases hfiles with hintact | hreplaced
    · exact hintact.current
    · exact hreplaced.1
  changes before after hchanges hbefore := by
    rcases hbefore with hintact | hreplaced
    · left
      exact (intact_stable.mono (Set.compl_subset_compl.2 (by simp [protectedPlaces]))).changes
        before after hchanges hintact
    · right
      exact replaced_stable.changes before after hchanges hreplaced

/-- Once the shim may be written, the source is safe whether that succeeds or not. -/
theorem replaceSource_meets {l : Linking} (h : l.source.Named)
    (houtside : l.config.Outside surroundings.environment current l.source) (backup : Path) :
    Meets surroundings (Bridged l.config current l.source content text)
      (l.replaceSource backup (bridgePath l.source))
      (fun _ => Safe l.config current l.source content text)
      (Safe l.config current l.source content text) := by
  have hshim : Meets surroundings (Bridged l.config current l.source content text) l.writeShim
      (fun _ => Safe l.config current l.source content text)
      (Safe l.config current l.source content text) := by
    apply (Linking.writeShim_meets (fun files => files.current = current ∧
      Replaced l.config l.source text files) h (bridged_stable.mono (asideOf_source_subset h))
        ?_).consequence
    · exact fun _ hfiles => hfiles
    · rintro _ files (⟨hbridged, -⟩ | hreplaced)
      · exact Or.inl hbridged.toIntact
      · exact Or.inr hreplaced
    · exact fun _ hfiles => Or.inl hfiles.toIntact
    · intro before after hchanges hbefore hat
      obtain ⟨written, hbridge, hwritten⟩ := hbefore.bridge
      have hplaces : Storage.touchedBy l.source.parent l.source.name current ⊆
          {(backupPath l.source).place current, (bridgePath l.source).place current}ᶜ :=
        touchedBy_source_subset h
      refine ⟨hchanges.current.trans hbefore.current, ?_, hchanges.textAt?_eq_some ?_ hbefore.saved,
        written, hchanges.at?_eq_some ?_ hbridge, hwritten⟩
      · rw [hat, bridgePath, Path.child_name, Linking.shimText]
      · rw [hbefore.current]
        exact fun hmem => hplaces hmem (Or.inl rfl)
      · rw [hbefore.current]
        exact fun hmem => hplaces hmem (Or.inr rfl)
  have hcopy : Meets surroundings (Safe l.config current l.source content text)
      (l.copyBackup backup) (fun _ => Safe l.config current l.source content text)
      (Safe l.config current l.source content text) :=
    Linking.copyBackup_keeps h (safe_stable.mono ((touchedBy_output_subset
      (Path.isName_groupName h).notUp _).trans (awayFrom_subset h houtside))) backup
  unfold Linking.replaceSource
  apply Meets.seq (fun _ => Safe l.config current l.source content text)
    hshim.bestEffort_always
  rintro ⟨shim, shimWarnings⟩
  apply Meets.seq (fun _ => Safe l.config current l.source content text)
    hcopy.bestEffort_always
  rintro ⟨copied, copyWarnings⟩
  exact .pure fun _ hfiles => hfiles

/-- The bridge or the fallback bridge is there, or nothing that protects the source has changed. -/
theorem writeBridges_meets {l : Linking} (h : l.source.Named) (hmapping : l.mapping =
    publicNames l.exports) :
    Meets surroundings (Saved current l.source content text)
      (l.writeBridges (some (backupPath l.source)))
      (fun written files => match written.1 with
        | some path => path = bridgePath l.source ∧
            Bridged l.config current l.source content text files
        | none => Saved current l.source content text files)
      (Safe l.config current l.source content text) := by
  have hstable : Stable current
      (Storage.touchedBy l.source.parent l.source.bridgeName current)
      (Saved current l.source content text) :=
    saved_stable.mono (touchedBy_bridge_subset h)
  unfold Linking.writeBridges
  apply Meets.bind (Linking.writeBridge_meets h hstable).bestEffort
  rintro ⟨_ | path, bridgeWarnings⟩
  · apply Meets.bind (Linking.writeFallback_meets h _ hstable).bestEffort
    rintro ⟨_ | path, fallbackWarnings⟩
    · exact .pure fun _ hfiles => hfiles
    · exact .pure fun _ hfiles => ⟨hfiles.1, hfiles.2.1, _, hfiles.2.2, Or.inr rfl⟩
  · refine .pure fun _ hfiles => ⟨hfiles.1, hfiles.2.1, _, hfiles.2.2, Or.inl ?_⟩
    exact ⟨l.layout, l.exports, headerLines l.text (Linking.firstStart l.facts),
      by rw [Linking.bridgeText, hmapping]⟩

/-- Without a backup the bridges leave the source alone. -/
theorem writeBridges_keeps {l : Linking} (h : l.source.Named) {property : Files → Prop}
    (hstable : Stable current
      (Storage.touchedBy l.source.parent l.source.bridgeName current) property)
    (backup : Option Path) :
    Meets surroundings property (l.writeBridges backup) (fun _ => property) property := by
  unfold Linking.writeBridges
  apply Meets.seq (fun _ => property)
  · apply Meets.bestEffort_always
    exact (Linking.writeBridge_meets h hstable).consequence (fun _ hfiles => hfiles)
      (fun _ _ hfiles => hfiles.2.1) fun _ hfiles => hfiles
  rintro ⟨_ | path, bridgeWarnings⟩
  · apply Meets.seq (fun _ => property)
    · apply Meets.bestEffort_always
      exact (Linking.writeFallback_meets h backup hstable).consequence (fun _ hfiles => hfiles)
        (fun _ _ hfiles => hfiles.2.1) fun _ hfiles => hfiles
    · exact fun _ => .pure fun _ hfiles => hfiles
  · exact .pure fun _ hfiles => hfiles

theorem writeMirror_safe {l : Linking} (h : l.source.Named)
    (houtside : l.config.Outside surroundings.environment current l.source)
    (hslugs : ∀ slug ∈ l.layout.slugs, isSlug slug = true)
    (hbasename : l.layout.basename = l.source.basename) {property : Files → Prop}
    (hstable : Stable current (protectedPlaces current l.source)ᶜ property) :
    Meets surroundings property l.writeMirror (fun _ => property) property := by
  apply Linking.writeMirror_keeps h hslugs (hbasename ▸ h.noSlash.1)
  · intro mirror hroot slug _
    exact hstable.mono ((touchedBy_mirror_subset hroot (Path.isName_groupName h).notUp _).trans
      (awayFrom_subset h houtside))
  · exact hstable.mono (touchedBy_requireBridge_subset h)

theorem surround_meets {l : Linking} (h : l.source.Named)
    (houtside : l.config.Outside surroundings.environment current l.source)
    (hslugs : ∀ slug ∈ l.layout.slugs, isSlug slug = true)
    (hbasename : l.layout.basename = l.source.basename)
    (hmapping : l.mapping = publicNames l.exports)
    (hdecoded : content.decoded = .ok text) (hplain : looksLikeShim text = false) :
    Meets surroundings (Intact current l.source content) l.surround
      (fun _ => Safe l.config current l.source content text)
      (Safe l.config current l.source content text) := by
  have hintact : Stable current {l.source.place current}ᶜ (Intact current l.source content) :=
    intact_stable
  have hprotected : Stable current (protectedPlaces current l.source)ᶜ
      (Intact current l.source content) :=
    hintact.mono (Set.compl_subset_compl.2 (by simp [protectedPlaces]))
  have hsaved : Stable current (protectedPlaces current l.source)ᶜ
      (Saved current l.source content text) :=
    saved_stable.mono (Set.compl_subset_compl.2 (by intro place; simp [protectedPlaces]; tauto))
  have htext : ∀ files, Intact current l.source content files →
      files.textAt? l.source = some text := by
    intro files hfiles
    rw [Files.textAt?, hfiles.unchanged]
    simp [hdecoded, Except.toOption]
  unfold Linking.surround
  apply Meets.bind_read
  apply Meets.bind ((Meets.storing (Storage.backUp_meets h (hintact.mono (Storage.backupPlaces_subset_compl h current)) htext hplain
    surroundings.now)).step fun _ hfiles => hfiles).bestEffort
  rintro ⟨_ | backup, backupWarnings⟩
  · -- no backup: the source stays as it is
    have hplaces : Storage.touchedBy l.source.parent l.source.bridgeName current ⊆
        {l.source.place current}ᶜ :=
      (touchedBy_bridge_subset h).trans (Set.compl_subset_compl.2 (by simp))
    apply Meets.bind ((writeBridges_keeps h (hintact.mono hplaces) none).failing fun _ hfiles => Or.inl hfiles)
    rintro ⟨bridge, bridgeWarnings⟩
    apply Meets.bind (writeMirror_safe h houtside hslugs hbasename hprotected).bestEffort_always
    rintro ⟨mirrored, mirrorWarnings⟩
    exact .pure fun _ hfiles => Or.inl hfiles
  · apply Meets.assume
    rintro rfl
    suffices hrest : Meets surroundings (Saved current l.source content text) _ _ _ from
      hrest.starting fun _ hfiles => ⟨hfiles.1, hfiles.2⟩
    apply Meets.bind (writeBridges_meets h hmapping)
    rintro ⟨_ | bridge, bridgeWarnings⟩
    · apply Meets.bind (writeMirror_safe h houtside hslugs hbasename hsaved).bestEffort_always
      rintro ⟨mirrored, mirrorWarnings⟩
      exact .pure fun _ hfiles => Or.inl hfiles.toIntact
    · apply Meets.assume
      rintro rfl
      apply Meets.bind
        (writeMirror_safe h houtside hslugs hbasename bridged_stable).bestEffort_always
      rintro ⟨mirrored, mirrorWarnings⟩
      apply Meets.bind (replaceSource_meets h houtside (backupPath l.source))
      rintro ⟨replaced, messages, replacedWarnings⟩
      exact .pure fun _ hfiles => hfiles

/-- Whether the modules of a source are linked: their files have safe names, and the bridge maps the names
that the modules export. -/
structure Concerns (config : Config) (source : Path) (l : Linking) : Prop where
  config_eq : l.config = config
  source_eq : l.source = source
  slugs : ∀ slug ∈ l.layout.slugs, isSlug slug = true
  basename : l.layout.basename = source.basename
  mapping : l.mapping = publicNames l.exports

theorem prepare_keeps (h : source.Named) {property : Files → Prop}
    (hstable : Stable current (config.awayFrom surroundings.environment current) property)
    {plan : Plan} (hslugs : ∀ m ∈ plan.modules, isSlug m.slug = true) (original : Text)
    (facts : Facts) :
    Meets surroundings property
      (prepare config (config.plansPath surroundings.environment) source original facts
        (Layout.ofPlan plan facts (config.moduleDirectory source) source.basename))
      (fun p files => Concerns config source p.linking ∧ property files) property := by
  generalize hlayout : Layout.ofPlan plan facts (config.moduleDirectory source) source.basename =
    layout
  have hclosed : layout.Closed := hlayout ▸ Layout.ofPlan_closed ..
  have hdirectory : layout.directory = config.outputRoot.child source.groupName := by
    rw [← hlayout, Layout.ofPlan_directory, Path.moduleDirectory_eq _ h]
  have hbasename : layout.basename = source.basename := by
    rw [← hlayout, Layout.ofPlan_basename]
  have hlayoutSlugs : ∀ slug ∈ layout.slugs, isSlug slug = true := by
    rw [← hlayout, Layout.ofPlan_slugs]
    intro slug hslug
    obtain ⟨m, hm, rfl⟩ := List.mem_map.1 hslug
    exact hslugs m hm
  have hmodules : ∀ slug ∈ layout.slugs, WriteKeeps property (layout.file slug) := by
    intro slug hslug
    have hnoSlash : '/' ∉ layout.basename.toList := hbasename ▸ h.noSlash.1
    have hname := moduleFileName_isName (c := 'j') (hlayoutSlugs slug hslug) hnoSlash ".js"
      (by decide) (by decide) (by decide)
    rw [layout_file_eq (hlayoutSlugs slug hslug) hnoSlash, hdirectory]
    exact writeKeeps_child hname.notUp (hstable.mono (touchedBy_output_subset
      (Path.isName_groupName h).notUp _))
  apply (prepare_meets (fun name _ => hstable.mono (touchedBy_plans_subset name)) hclosed hmodules source original facts).consequence (fun _ hfiles => hfiles) _
      fun _ hfiles => hfiles
  rintro p files ⟨⟨found, -, hlinking⟩, hfiles, -⟩
  rw [hlinking]
  exact ⟨⟨rfl, rfl, hlayoutSlugs, hbasename, rfl⟩, hfiles⟩

/-- What holds until the modules are surrounded and what surrounding them leaves are all that matters in a
run: everything else is done away from the source. -/
theorem link_around (h : source.Named) (hsource : config.sourcePath? = some source)
    {before after : Files → Prop}
    (hbefore : Stable current (config.awayFrom surroundings.environment current) before)
    (hafter : Stable current (config.awayFrom surroundings.environment current) after)
    (hleft : ∀ files, before files → after files)
    (hsurround : ∀ l, Concerns config source l →
      Meets surroundings before l.surround (fun _ => after) after) :
    Meets surroundings before (link config) (fun _ => after) after := by
  have hdirectories : Stable current ∅ before := hbefore.mono (Set.empty_subset _)
  unfold link
  apply Meets.seq (fun path files => config.sourcePath? = some path ∧ before files)
  · exact (sourcePath_meets config _).consequence (fun _ hfiles => hfiles)
      (fun _ _ hfiles => ⟨hfiles.1, hfiles.2.2⟩) hleft
  intro path
  apply Meets.assume
  intro hpath
  rw [hsource] at hpath
  cases hpath
  apply Meets.bind ((Meets.reading (Storage.readOriginal_readOnly source)).failing hleft)
  rintro ⟨original, usedFrom⟩
  apply Meets.bind ((factsDirectory_meets hdirectories config).failing hleft)
  intro directory
  apply Meets.assume
  intro _
  apply Meets.bind (((Meets.reading (Storage.readFacts_readOnly directory)).failing hleft).step
    hleft)
  intro facts
  apply Meets.bind ((plansDirectory_meets hdirectories config).failing hleft)
  intro plans
  apply Meets.assume
  rintro rfl
  apply Meets.bind (((Meets.storing (Storage.readPlan_meets (config.plansPath
    surroundings.environment) _)).failing hleft).step hleft)
  intro plan
  apply Meets.assume
  intro hslugs
  apply Meets.bind ((prepare_keeps h hbefore hslugs original facts).failing hleft)
  intro p
  apply Meets.assume
  intro hconcerns
  apply Meets.bind (hsurround p.linking hconcerns)
  intro surrounded
  apply Meets.bind (Meets.step_pure _ _)
  intro report
  apply Meets.assume
  intro _
  apply Meets.bind (writeLinkDocument_keeps ⟨by decide, by decide, by decide, by decide⟩
    (hafter.mono (touchedBy_plans_subset _)) _)
  intro _
  exact .pure fun _ hfiles => hfiles

theorem link_meets (h : source.Named) (hsource : config.sourcePath? = some source)
    (houtside : config.Outside surroundings.environment current source)
    (hdecoded : content.decoded = .ok text) (hplain : looksLikeShim text = false) :
    Meets surroundings (Intact current source content) (link config)
      (fun _ => Safe config current source content text)
      (Safe config current source content text) := by
  have hplaces := awayFrom_subset h houtside
  apply link_around h hsource (intact_stable.mono (hplaces.trans
    (Set.compl_subset_compl.2 (by simp [protectedPlaces])))) (safe_stable.mono hplaces)
  · exact fun _ hfiles => Or.inl hfiles
  · rintro l ⟨rfl, rfl, hslugs, hbasename, hmapping⟩
    exact surround_meets h houtside hslugs hbasename hmapping hdecoded hplain

end Linking

/-! ## The source survives -/

/-- A source without a text ends the run before anything is written. -/
theorem link_without_text {config : Config} {surroundings : Surroundings} {start : Files}
    {source : Path} (hsource : config.sourcePath? = some source)
    (htext : start.textAt? source = none) :
    Meets surroundings (· = start) (link config) (fun _ => (· = start)) (· = start) := by
  have horiginal : Meets surroundings (· = start) (storing (Storage.readOriginal source))
      (fun _ _ => False) (· = start) := by
    apply Meets.storing
    constructor
    rintro files rfl
    obtain ⟨cause, hrun⟩ := Storage.readOriginal_of_textAt?_eq_none htext
    rw [hrun]
  unfold link
  apply Meets.seq (fun path files => config.sourcePath? = some path ∧ files = start)
  · exact (sourcePath_meets config _).consequence (fun _ hfiles => hfiles)
      (fun _ _ hfiles => ⟨hfiles.1, hfiles.2.2⟩) fun _ hfiles => hfiles
  intro path
  apply Meets.assume
  intro hpath
  rw [hsource] at hpath
  cases hpath
  exact horiginal.bind fun _ => ⟨fun s hs => hs.elim⟩

theorem named_of_textAt? {config : Config} {files : Files} {source : Path} {text : Text}
    (hroot : config.root.isAbsolute = true ∧ config.root.Clean)
    (hsource : config.sourcePath? = some source) (htext : files.textAt? source = some text) :
    source.Named := by
  obtain ⟨written, -, rfl⟩ := Option.map_eq_some_iff.1 hsource
  obtain ⟨content, hat, -⟩ := Files.exists_of_textAt? htext
  apply Path.named_normal (Path.div_clean hroot.2 written)
  intro hparts
  -- the root is no file
  have habsolute : (config.root / written).normal.isAbsolute = true :=
    Path.div_isAbsolute hroot.1 written
  have hentry := (Files.at?_eq_some.1 hat).2
  rw [Path.place_of_absolute habsolute hparts] at hentry
  cases hentry

theorem looksLikeShim_renderShim (banner : Text) (bridgeName : String) :
    looksLikeShim (renderShim banner bridgeName) = true := by
  have hcontains : (renderShim banner bridgeName).contains shimMarker = true := by
    have hlines : renderShim banner bridgeName =
        (banner ++ ['\n', '\n']) ++ shimMarker.toList ++
          ('\n' :: ("export * from './" ++ bridgeName ++ "';").toList ++ ['\n']) := by
      simp [renderShim, Text.unlines]
    rw [hlines]
    exact Text.contains_append _ _ _
  simp [looksLikeShim, hcontains]

private theorem unlines_exportList (lines : List Text) (comment : Text) (names : String) :
    ∃ front, Text.unlines (lines ++ [comment, ("export \x7b " ++ names ++ " \x7d;").toList]) =
      front ++ ['\x7d', ';', '\n'] := by
  have hending : (" \x7d;" : String).toList = [' ', '\x7d', ';'] := by decide
  refine ⟨Text.unlines lines ++ comment ++ ['\n'] ++ ("export \x7b " ++ names).toList ++ [' '], ?_⟩
  simp only [Text.unlines, List.flatMap_append, List.flatMap_cons, List.flatMap_nil,
    String.toList_append, hending, List.append_assoc, List.append_nil, List.cons_append,
    List.nil_append]

private theorem fallback_ends (banner : Text) (specifier : String) :
    ∃ front, renderFallbackBridge banner specifier = front ++ ['\'', ';', '\n'] := by
  have hending : ("';" : String).toList = ['\'', ';'] := by decide
  refine ⟨banner ++ ['\n', '\n'] ++ fallbackComment.toList ++ ['\n'] ++
    ("export * from '" ++ specifier).toList, ?_⟩
  simp only [renderFallbackBridge, Text.unlines, List.flatMap_cons, List.flatMap_nil,
    String.toList_append, hending, List.append_assoc, List.append_nil, List.cons_append,
    List.nil_append]

/-- No bridge exports what the source does by naming the source. -/
theorem IsBridge.ne_fallback_of_source {config : Config} {source : Path} (hnamed : source.Named)
    {bridge : Text} (h : IsBridge config source bridge) :
    bridge ≠ renderFallbackBridge config.banner (Path.specifierFrom source.parent source) := by
  rcases h with ⟨layout, exports, header, rfl⟩ | rfl
  · -- a full bridge ends in a brace, a fallback in a quote
    intro heq
    obtain ⟨front, hfront⟩ := fallback_ends config.banner (Path.specifierFrom source.parent source)
    obtain ⟨other, hother⟩ := unlines_exportList _ _ _
    rw [renderBridge, hother, hfront] at heq
    exact absurd (List.append_inj_right' heq rfl) (by decide)
  · intro heq
    have hself := Path.specifierFrom_child source.parent hnamed.isName
    rw [hnamed.parent_child] at hself
    rw [backupPath, Path.specifierFrom_child _ hnamed.isName_backupName, hself] at heq
    have hname : source.backupName = source.name := by
      rw [← String.toList_inj]
      simpa [renderFallbackBridge, Text.unlines] using heq
    exact (Path.dotted_name hnamed.name_ne_empty).ne (Path.underscored_backupName source) hname.symm

/-- Whatever fails in a run of linking, the source keeps its text or holds exactly the shim. Where it holds
the shim, its text is in the backup and the bridge that the shim names is there, which never names the
source itself. -/
theorem source_survives_link (config : Config) (surroundings : Surroundings) (s : RunState)
    {source : Path} (hroot : config.root.isAbsolute = true ∧ config.root.Clean)
    (hsource : config.sourcePath? = some source)
    (houtside : config.Outside surroundings.environment s.files.current source)
    (hplain : ∀ text, s.files.textAt? source = some text → looksLikeShim text = false) :
    let after := filesAfter (link config) surroundings s
    let shim := renderShim config.banner (bridgePath source).name
    (after.at? source = s.files.at? source ∨ after.at? source = some (.file (.text shim))) ∧
      (after.textAt? source = some shim →
        ∃ text, s.files.textAt? source = some text ∧ Replaced config source text after ∧
          after.textAt? (bridgePath source) ≠ some (renderFallbackBridge config.banner
            (Path.specifierFrom source.parent source))) := by
  intro after shim
  cases htext : s.files.textAt? source with
  | none =>
      have hafter : after = s.files := (link_without_text hsource htext).filesAfter rfl
      rw [hafter, htext]
      exact ⟨Or.inl rfl, by simp⟩
  | some text =>
      have hnamed := named_of_textAt? hroot hsource htext
      obtain ⟨content, hat, hdecoded⟩ := Files.exists_of_textAt? htext
      have hsafe : Safe config s.files.current source content text after :=
        (link_meets hnamed hsource houtside hdecoded (hplain text htext)).filesAfter ⟨rfl, hat⟩
      rcases hsafe with hintact | ⟨-, hreplaced⟩
      · refine ⟨Or.inl (by rw [hintact.unchanged, hat]), fun hshim => ?_⟩
        rw [Files.textAt?, hintact.unchanged] at hshim
        simp only [hdecoded, Except.toOption, Option.some.injEq] at hshim
        have hcontradiction := hplain text htext
        rw [hshim, looksLikeShim_renderShim] at hcontradiction
        cases hcontradiction
      · refine ⟨Or.inr hreplaced.shim, fun _ => ⟨text, rfl, hreplaced, ?_⟩⟩
        obtain ⟨written, hbridge, hwritten⟩ := hreplaced.bridge
        rw [Files.textAt?_of_at? hbridge]
        exact fun heq => hwritten.ne_fallback_of_source hnamed (Option.some.inj heq)

/-- One function, a module for it, and no room for the bridge. -/
def crowded : RunState where
  files := workspace "function a() \x7b\x7d"
    "\x7b\"id\": \"f0\", \"name\": \"a\", \"span\": \x7b\"start\": 0, \"end\": 15\x7d\x7d"
    "[\x7b\"slug\": \"a\", \"functions\": [\"f0\"]\x7d]"

def crowding : Surroundings where
  environment := []
  now := ⟨2024, 1, 2, 3, 4, 5⟩
  faults := [(.writeBridge, "no space left")]

theorem source_survives_without_bridge :
    let source := (Path.ofString "/work").child "app.js"
    let after := filesAfter (link workspaceConfig) crowding crowded
    let shim := renderShim workspaceConfig.banner (bridgePath source).name
    after.textAt? source = some shim ∧
      ∃ text, crowded.files.textAt? source = some text ∧
        Replaced workspaceConfig source text after ∧
        after.textAt? (bridgePath source) ≠ some (renderFallbackBridge workspaceConfig.banner
          (Path.specifierFrom source.parent source)) := by
  intro source after shim
  have hsource : workspaceConfig.sourcePath? = some source := by decide +kernel
  have hsafe := source_survives_link workspaceConfig crowding crowded
    ⟨by decide, Path.ofString_clean _⟩ hsource
    { output := by decide +kernel
      mirror := fun mirror hmirror => by
        obtain rfl : mirror = (Path.ofString "/work").child "out_cjs" :=
          Option.some.inj (hmirror.symm.trans (by decide +kernel))
        decide +kernel
      facts := by decide +kernel
      plans := by decide +kernel }
    (fun text htext => by
      obtain rfl : text = "function a() \x7b\x7d".toList :=
        Option.some.inj (htext.symm.trans (by decide +kernel))
      decide +kernel)
  have hshim : after.textAt? source = some shim := by decide +kernel
  exact ⟨hshim, hsafe.2 hshim⟩

end Run

end ScriptSplit
