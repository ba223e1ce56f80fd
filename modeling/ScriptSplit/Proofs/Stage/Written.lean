import ScriptSplit.Proofs.Stage.Relink
import ScriptSplit.Proofs.Stage.Settled

/-!
# Where a run writes

Apart from the source and its backup, a run writes modules, their CommonJS forms, bridges, documents and
copies. None of these is read to begin with: facts, plan, source and backups stay what they are. And none is
in the place of a directory that a run makes.
-/

namespace ScriptSplit

variable {config : Config} {environment : Table String} {current front : Location} {source : Path}
  {directory : Path} {name other : String}

namespace Config

def mirrorName (config : Config) : String :=
  config.outputRoot.name ++ "_cjs"

def linkDocuments : List String :=
  "report.json" :: Run.importDocuments

inductive Writes (config : Config) (environment : Table String) (source : Path) :
    Path → String → Prop
  | moduleFile {slug : String} (hslug : isSlug slug = true) :
    Writes config environment source (config.outputRoot.child source.groupName)
      (moduleFileName slug source.basename ".js")
  | debugCopy {slug : String} (hslug : isSlug slug = true) (hcopies : config.debugCopies = true) :
    Writes config environment source config.debugDirectory
      (moduleFileName slug source.basename ".js")
  | document {name : String} (hname : name ∈ linkDocuments) :
    Writes config environment source (config.plansPath environment) name
  | bridge : Writes config environment source source.parent source.bridgeName
  | requireBridge : Writes config environment source source.parent source.requireBridgeName
  | mirror {slug : String} (hslug : isSlug slug = true)
    (hroot : config.mirrorRoot? = some (config.outputRoot.parent.child config.mirrorName)) :
    Writes config environment source
      ((config.outputRoot.parent.child config.mirrorName).child source.groupName)
      (moduleFileName slug source.basename ".cjs")
  | backupCopy : Writes config environment source (config.outputRoot.child source.groupName)
      source.backupName

def writtenPlaces (config : Config) (environment : Table String) (source : Path)
    (current : Location) : Set Location :=
  { location | ∃ directory name, config.Writes environment source directory name ∧
    location ∈ Storage.touchedBy directory name current }

def madePlaces (config : Config) (source : Path) (current : Location) : Set Location :=
  insert (config.root.place current ++ ["output_debug"])
    (Storage.twoPlaces config.outputRoot.parent config.mirrorName source.groupName current)

theorem debugDirectory_eq (config : Config) :
    config.debugDirectory = config.root.child "output_debug" :=
  Path.div_name _ ⟨by decide, by decide, by decide, by decide⟩

theorem isName_mirrorName (hroot : config.root.Clean) : Path.IsName config.mirrorName := by
  have hslash : '/' ∉ config.outputRoot.name.toList := by
    unfold Path.name
    cases hlast : config.outputRoot.parts.getLast? with
    | none => simp
    | some part => exact (Path.div_clean hroot _ part (List.mem_of_getLast? hlast)).1
  exact Path.Named.isName_append (c := 'c') hslash (by decide) (by decide) (by decide)

theorem mirrorRoot?_eq (hroot : config.root.Clean) {mirror : Path}
    (hmirror : config.mirrorRoot? = some mirror) :
    mirror = config.outputRoot.parent.child config.mirrorName := by
  unfold mirrorRoot? Path.sibling? at hmirror
  split at hmirror
  · cases hmirror
  · exact (Option.some.inj hmirror).symm.trans (Path.div_name _ (isName_mirrorName hroot))

end Config

/-! ## Names -/

theorem append_ne_append {ending ending' : String}
    (hends : ¬ ending.toList <:+ ending'.toList ∧ ¬ ending'.toList <:+ ending.toList)
    (start start' : String) : start ++ ending ≠ start' ++ ending' := by
  intro heq
  have hlists := congrArg String.toList heq
  rw [String.toList_append, String.toList_append] at hlists
  have hfirst : ending.toList <:+ start'.toList ++ ending'.toList :=
    hlists ▸ List.suffix_append ..
  have hsecond := List.suffix_append start'.toList ending'.toList
  rcases le_total ending.toList.length ending'.toList.length with hle | hle
  · exact hends.1 (List.suffix_of_suffix_length_le hfirst hsecond hle)
  · exact hends.2 (List.suffix_of_suffix_length_le hsecond hfirst hle)

theorem moduleFileName_eq (slug basename ending : String) :
    ∃ start, moduleFileName slug basename ending = start ++ ending := by
  unfold moduleFileName
  split
  · exact ⟨_, rfl⟩
  · exact ⟨_, rfl⟩

theorem Path.requireBridgeName_eq (source : Path) :
    ∃ start, source.requireBridgeName = start ++ ".cjs" := by
  unfold Path.requireBridgeName
  split
  · refine ⟨source.name ++ ".atomized", ?_⟩
    rw [String.append_assoc]
    rfl
  · exact ⟨_, rfl⟩

theorem Path.bridgeName_eq (source : Path) : ∃ start, source.bridgeName = start ++ ".js" := by
  refine ⟨source.name ++ ".atomized", ?_⟩
  rw [Path.bridgeName, String.append_assoc]
  rfl

/-- Whether a name is not one that scripts or unfinished files have. -/
def Foreign (name : String) : Prop :=
  ∀ start, ∀ ending ∈ [".js", ".cjs", ".tmp"], name ≠ start ++ ending

theorem foreign_of_ending {ending : String}
    (hends : ∀ other ∈ [".js", ".cjs", ".tmp"],
      ¬ ending.toList <:+ other.toList ∧ ¬ other.toList <:+ ending.toList) (start : String) :
    Foreign (start ++ ending) :=
  fun start' other hother => append_ne_append (hends other hother) start start'

theorem foreign_of_name {name : String}
    (hends : ∀ ending ∈ [".js", ".cjs", ".tmp"],
      ¬ name.toList <:+ ending.toList ∧ ¬ ending.toList <:+ name.toList) : Foreign name := by
  simpa using foreign_of_ending hends ""

theorem Config.Writes.ne (h : config.Writes environment source directory name)
    (hforeign : Foreign other) (hdocument : other ∉ Config.linkDocuments) :
    directory = config.outputRoot.child source.groupName ∧ name = source.backupName ∨
      other ≠ name := by
  cases h with
  | moduleFile hslug =>
      obtain ⟨start, hname⟩ := moduleFileName_eq _ source.basename ".js"
      exact Or.inr (hname ▸ hforeign start ".js" (by simp))
  | debugCopy hslug hcopies =>
      obtain ⟨start, hname⟩ := moduleFileName_eq _ source.basename ".js"
      exact Or.inr (hname ▸ hforeign start ".js" (by simp))
  | document hname => exact Or.inr fun heq => hdocument (heq ▸ hname)
  | bridge =>
      obtain ⟨start, hname⟩ := source.bridgeName_eq
      exact Or.inr (hname ▸ hforeign start ".js" (by simp))
  | requireBridge =>
      obtain ⟨start, hname⟩ := source.requireBridgeName_eq
      exact Or.inr (hname ▸ hforeign start ".cjs" (by simp))
  | mirror hslug hroot =>
      obtain ⟨start, hname⟩ := moduleFileName_eq _ source.basename ".cjs"
      exact Or.inr (hname ▸ hforeign start ".cjs" (by simp))
  | backupCopy => exact Or.inl ⟨rfl, rfl⟩

/-- A place with a name of another kind is not written to. -/
theorem Config.not_mem_writtenPlaces (hforeign : Foreign other)
    (hdocument : other ∉ Config.linkDocuments)
    (hbackup : front = (config.outputRoot.child source.groupName).place current →
      other ≠ source.backupName) :
    front ++ [other] ∉ config.writtenPlaces environment source current := by
  rintro ⟨directory, name, hwrites, hmem⟩
  have htemporary := hforeign name ".tmp" (by simp)
  rcases hwrites.ne hforeign hdocument with ⟨rfl, rfl⟩ | hname
  · rcases hmem with heq | heq
    · obtain ⟨hfront, hlast⟩ := List.append_inj' heq rfl
      exact hbackup hfront (List.cons.inj hlast).1
    · exact htemporary (List.cons.inj (List.append_inj' heq rfl).2).1
  · exact Storage.not_mem_touchedBy hname htemporary hmem

theorem Path.ne_backupName (hold : ¬ ['_', 'o', 'l', 'd'] <:+: name.toList) :
    name ≠ source.backupName := by
  rintro rfl
  apply hold
  refine ⟨source.basename.toList, source.suffix.toList, ?_⟩
  simp [Path.backupName, String.toList_append]

/-! ## Places -/

namespace Config

/-- Whether a source lies apart from everything that a run writes: outside of its directories, not among
the copies for debugging, and beside no file that could be taken for a backup; and whether its backups can be
looked for. -/
structure Clear (config : Config) (environment : Table String) (current : Location)
    (source : Path) : Prop extends config.Outside environment current source where
  copies : config.debugCopies = true →
    config.debugDirectory.place current ≠ source.parent.place current
  backups : source.BackupsApart
  pattern : isNamePattern source.datedPattern = true

theorem Writes.touched_cases (h : config.Writes environment source directory name)
    (hnamed : source.Named) :
    Storage.touchedBy directory name current ⊆ config.awayFrom environment current ∨
      directory = config.debugDirectory ∧ config.debugCopies = true ∨
        directory = source.parent ∧ (name = source.bridgeName ∨ name = source.requireBridgeName) := by
  have hgroup := (Path.isName_groupName hnamed).notUp
  cases h with
  | moduleFile hslug =>
      exact Or.inl ((Storage.touchedBy_child_subset_below _ hgroup _ _).trans
        fun _ hmem => Or.inl (Or.inl hmem))
  | debugCopy hslug hcopies => exact Or.inr (Or.inl ⟨rfl, hcopies⟩)
  | document hname =>
      exact Or.inl ((Storage.touchedBy_subset_below _ _ _).trans fun _ hmem => Or.inr hmem)
  | bridge => exact Or.inr (Or.inr ⟨rfl, Or.inl rfl⟩)
  | requireBridge => exact Or.inr (Or.inr ⟨rfl, Or.inr rfl⟩)
  | mirror hslug hroot =>
      exact Or.inl ((Storage.touchedBy_child_subset_below _ hgroup _ _).trans
        fun _ hmem => Or.inl (Or.inr ⟨_, hroot, hmem⟩))
  | backupCopy =>
      exact Or.inl ((Storage.touchedBy_child_subset_below _ hgroup _ _).trans
        fun _ hmem => Or.inl (Or.inl hmem))

theorem own_ne_bridges (hnamed : source.Named)
    (hname : name = source.bridgeName ∨ name = source.requireBridgeName) :
    ∀ other ∈ [source.name, Path.temporaryName source.name],
      other ≠ name ∧ other ≠ Path.temporaryName name := by
  have hinjective : ∀ {a b : String}, a ≠ b → Path.temporaryName a ≠ Path.temporaryName b :=
    fun hne heq => hne ((String.append_left_inj _).1 heq)
  simp only [List.mem_cons, List.not_mem_nil, or_false, forall_eq_or_imp, forall_eq]
  rcases hname with rfl | rfl
  · exact ⟨⟨Path.name_ne_bridgeName source, Path.name_ne_temporary_bridgeName source⟩,
      (Path.bridgeName_ne_temporary_name source).symm,
      hinjective (Path.name_ne_bridgeName source)⟩
  · refine ⟨⟨Path.name_ne_requireBridgeName source,
      Path.name_ne_temporary_requireBridgeName hnamed.name_ne_empty⟩, ?_,
      hinjective (Path.name_ne_requireBridgeName source)⟩
    obtain ⟨start, hstart⟩ := source.requireBridgeName_eq
    rw [hstart]
    exact append_ne_append (by decide) _ _

/-- A run writes to no place that holds the source or a backup of it. -/
theorem Clear.held_not_written (h : config.Clear environment current source)
    (hnamed : source.Named) :
    ∀ location ∈ Storage.heldPlaces source current,
      location ∉ config.writtenPlaces environment source current := by
  rintro location hheld ⟨directory, name, hwrites, hmem⟩
  obtain ⟨other, rfl⟩ : ∃ other, location = source.parent.place current ++ [other] := by
    rcases hheld with (rfl | rfl) | ⟨other, -, rfl⟩
    · exact ⟨_, rfl⟩
    · exact ⟨_, rfl⟩
    · exact ⟨_, rfl⟩
  rcases hwrites.touched_cases hnamed with haway | ⟨rfl, hcopies⟩ | ⟨rfl, hname⟩
  · exact h.toOutside.neighbour_not_away hnamed other (haway hmem)
  · rcases hmem with heq | heq
    · exact h.copies hcopies (List.append_inj' heq rfl).1.symm
    · exact h.copies hcopies (List.append_inj' heq rfl).1.symm
  · have hbeside : name ∈ source.namesBeside ∧ Path.temporaryName name ∈ source.namesBeside := by
      rcases hname with rfl | rfl <;> simp [Path.namesBeside]
    rcases hheld with hown | hsaved
    · have hne := own_ne_bridges hnamed hname other (by
        rcases hown with heq | heq
        · simp [(List.cons.inj (List.append_inj' heq rfl).2).1]
        · simp [(List.cons.inj (List.append_inj' heq rfl).2).1])
      exact Storage.not_mem_touchedBy hne.1 hne.2 hmem
    · rcases hmem with heq | heq
      · rw [heq] at hsaved
        exact Storage.beside_not_saved hnamed h.backups hbeside.1 hsaved
      · rw [heq] at hsaved
        exact Storage.beside_not_saved hnamed h.backups hbeside.2 hsaved

/-! ## Artifacts that are read -/

def artifactNames : List String :=
  Storage.planFile :: StoredFacts.documents ++ StoredFacts.recordKinds.map (· ++ ".ndjson")

theorem foreign_of_mem_artifactNames (hname : name ∈ artifactNames) : Foreign name := by
  have hall : ∀ artifact ∈ artifactNames, ∀ ending ∈ [".js", ".cjs", ".tmp"],
      ¬ artifact.toList <:+ ending.toList ∧ ¬ ending.toList <:+ artifact.toList := by decide
  exact foreign_of_name (hall name hname)

theorem artifact_not_written (hname : name ∈ artifactNames) :
    front ++ [name] ∉ config.writtenPlaces environment source current := by
  have hdocuments : ∀ artifact ∈ artifactNames, artifact ∉ linkDocuments := by decide
  have hold : ∀ artifact ∈ artifactNames, ¬ ['_', 'o', 'l', 'd'] <:+: artifact.toList := by decide
  exact not_mem_writtenPlaces (foreign_of_mem_artifactNames hname) (hdocuments name hname)
    fun _ => Path.ne_backupName (hold name hname)

theorem not_mem_madePlaces (hdebug : other ≠ "output_debug") (hmirror : other ≠ config.mirrorName)
    (hgroup : other ≠ source.groupName) :
    front ++ [other] ∉ config.madePlaces source current := by
  rintro (heq | heq | heq)
  · exact hdebug (List.cons.inj (List.append_inj' heq rfl).2).1
  · exact hmirror (List.cons.inj (List.append_inj' heq rfl).2).1
  · exact hgroup (List.cons.inj (List.append_inj' heq rfl).2).1

theorem artifact_not_made (hname : name ∈ artifactNames) :
    front ++ [name] ∉ config.madePlaces source current := by
  have hall : ∀ artifact ∈ artifactNames, ∀ ending ∈ ["output_debug", "_cjs", ".atomized"],
      ¬ artifact.toList <:+ ending.toList ∧ ¬ ending.toList <:+ artifact.toList := by decide
  have hne : ∀ start, ∀ ending ∈ ["output_debug", "_cjs", ".atomized"], name ≠ start ++ ending :=
    fun start ending hending => by
      simpa using append_ne_append (hall name hname ending hending) "" start
  exact not_mem_madePlaces (by simpa using hne "" "output_debug" (by simp))
    (hne _ "_cjs" (by simp)) (hne _ ".atomized" (by simp))

theorem exists_of_mem_places {location : Location}
    (hlocation : location ∈ StoredFacts.places directory current) :
    ∃ front, ∃ name ∈ artifactNames, location = front ++ [name] ∧
      location ∈ Location.below (directory.place current) := by
  rcases hlocation with ⟨name, hname, rfl⟩ | ⟨kind, hkind, rfl⟩
  · exact ⟨_, name, by simp [artifactNames, hname], rfl, Location.append_mem_below _ (by simp)⟩
  · refine ⟨_, kind ++ ".ndjson", ?_, rfl, ?_⟩
    · simp only [artifactNames, List.mem_append, List.mem_map]
      exact Or.inr ⟨kind, hkind, rfl⟩
    · rw [List.append_assoc]
      exact Location.append_mem_below _ (by simp)

theorem held_not_below (hnamed : source.Named) {outer : Location}
    (houtside : ¬ outer <+: source.place current) :
    ∀ location ∈ Storage.heldPlaces source current, location ∉ Location.below outer := by
  rw [hnamed.place_eq] at houtside
  rintro location ((rfl | rfl) | ⟨other, -, rfl⟩)
  · exact Location.neighbour_not_mem_below houtside
  · exact Location.neighbour_not_mem_below houtside
  · exact Location.neighbour_not_mem_below houtside

def changedPlaces (config : Config) (environment : Table String) (source : Path)
    (current : Location) : Set Location :=
  config.writtenPlaces environment source current ∪ Storage.heldPlaces source current

theorem facts_not_made : ∀ location ∈ StoredFacts.places directory current,
    location ∉ config.madePlaces source current := by
  intro location hlocation
  obtain ⟨front, name, hname, rfl, -⟩ := exists_of_mem_places hlocation
  exact artifact_not_made hname

theorem Clear.facts_not_changed (h : config.Clear environment current source)
    (hnamed : source.Named) :
    ∀ location ∈ StoredFacts.places (config.factsPath environment) current,
      location ∉ config.changedPlaces environment source current := by
  intro location hlocation
  obtain ⟨front, name, hname, rfl, hbelow⟩ := exists_of_mem_places hlocation
  rintro (hwritten | hheld)
  · exact artifact_not_written hname hwritten
  · exact held_not_below hnamed h.facts _ hheld hbelow

theorem Clear.plan_not_changed (h : config.Clear environment current source)
    (hnamed : source.Named) :
    (config.plansPath environment).place current ++ [Storage.planFile] ∉
      config.changedPlaces environment source current := by
  rintro (hwritten | hheld)
  · exact artifact_not_written (by simp [artifactNames]) hwritten
  · exact held_not_below hnamed h.plans _ hheld (Location.append_mem_below _ (by simp))

/-! ## Directories that a run makes -/

theorem parent_place_ne {path : Path} (hname : path.name ≠ "..") (hgroup : other ≠ "..") :
    path.parent.place current ≠ (path.child other).place current := by
  intro heq
  have hlength := congrArg List.length heq
  rw [Path.place_child hgroup, List.length_append, List.length_singleton] at hlength
  by_cases hparts : path.parts = []
  · have hparent : path.parent = path := by
      cases path
      simp_all [Path.parent]
    rw [hparent] at hlength
    omega
  · have hchild : (path.parent.child path.name).place current =
        path.parent.place current ++ [path.name] := Path.place_child hname current
    rw [Path.parent_child_name hparts] at hchild
    rw [hchild, List.length_append, List.length_singleton] at hlength
    omega

/-- No file is written in the place of a directory that a run makes. -/
theorem made_not_written (hnamed : source.Named) :
    ∀ location ∈ config.madePlaces source current,
      location ∉ config.writtenPlaces environment source current := by
  have hdocuments : ∀ doc ∈ linkDocuments, ∀ ending ∈ ["_cjs", ".atomized"],
      ¬ doc.toList <:+ ending.toList ∧ ¬ ending.toList <:+ doc.toList := by decide
  have hne : ∀ start, ∀ ending ∈ ["_cjs", ".atomized"], start ++ ending ∉ linkDocuments :=
    fun start ending hending hmem => by
      simpa using append_ne_append (hdocuments _ hmem ending hending) "" start
  rintro location (rfl | rfl | rfl)
  · have hforeign : Foreign "output_debug" := by
      simpa using foreign_of_ending (by decide : ∀ other ∈ [".js", ".cjs", ".tmp"],
        ¬ ("output_debug" : String).toList <:+ other.toList ∧
          ¬ other.toList <:+ ("output_debug" : String).toList) ""
    exact not_mem_writtenPlaces hforeign (by decide) fun _ => Path.ne_backupName (by decide)
  · refine not_mem_writtenPlaces (foreign_of_ending (by decide) _) (hne _ "_cjs" (by simp)) ?_
    intro hfront
    by_cases hup : config.outputRoot.name = ".."
    · rw [mirrorName, hup]
      exact Path.ne_backupName (by decide)
    · exact absurd hfront (parent_place_ne hup (Path.isName_groupName hnamed).notUp)
  · refine not_mem_writtenPlaces (foreign_of_ending (by decide) _) (hne _ ".atomized" (by simp)) ?_
    have hdotted : source.Dotted source.groupName := ⟨".atomized", rfl, by decide⟩
    exact fun _ => hdotted.ne (Path.underscored_backupName source)

theorem Clear.mirror_not_own (h : config.Clear environment current source)
    (hroot : config.root.Clean) (hnamed : source.Named)
    (hmirror : config.mirrorRoot? = some (config.outputRoot.parent.child config.mirrorName)) :
    ∀ location ∈ Storage.twoPlaces config.outputRoot.parent config.mirrorName source.groupName
        current, location ∉ Storage.touchedBy source.parent source.name current := by
  have houtside := h.mirror _ hmirror
  rw [Path.place_child (isName_mirrorName hroot).notUp] at houtside
  have hbelow : ∀ other, source.parent.place current ++ [other] ∉
      Location.below (config.outputRoot.parent.place current ++ [config.mirrorName]) := by
    intro other
    rw [hnamed.place_eq] at houtside
    exact Location.neighbour_not_mem_below houtside
  rintro location (rfl | rfl)
  · rintro (heq | heq)
    · exact houtside (by rw [heq, hnamed.place_eq])
    · exact append_ne_append (by decide) config.outputRoot.name source.name
        (List.cons.inj (List.append_inj' heq rfl).2).1
  · rintro (heq | heq)
    · exact hbelow _ (heq ▸ Location.append_mem_below _ (by simp))
    · exact hbelow _ (heq ▸ Location.append_mem_below _ (by simp))

/-! ## Writing in both runs -/

theorem Writes.notUp (h : config.Writes environment source directory name) (hnamed : source.Named) :
    name ≠ ".." := by
  cases h with
  | moduleFile hslug =>
      exact (moduleFileName_isName (c := 'j') hslug hnamed.noSlash.1 ".js" (by decide) (by decide)
        (by decide)).notUp
  | debugCopy hslug hcopies =>
      exact (moduleFileName_isName (c := 'j') hslug hnamed.noSlash.1 ".js" (by decide) (by decide)
        (by decide)).notUp
  | document hname =>
      have hall : ∀ doc ∈ linkDocuments, doc ≠ ".." := by decide
      exact hall name hname
  | bridge => exact hnamed.isName_bridgeName.notUp
  | requireBridge => exact hnamed.isName_requireBridgeName.notUp
  | mirror hslug hroot =>
      exact (moduleFileName_isName (c := 'j') hslug hnamed.noSlash.1 ".cjs" (by decide) (by decide)
        (by decide)).notUp
  | backupCopy => exact hnamed.isName_backupName.notUp

theorem Writes.touched_subset (h : config.Writes environment source directory name) :
    Storage.touchedBy directory name current ⊆
      config.writtenPlaces environment source current :=
  fun _ hmem => ⟨directory, name, h, hmem⟩

/-- Whether a run and its repetition write to the places of a configuration. -/
structure Covers (config : Config) (environment : Table String) (source : Path) (r : Rerun)
    (reach : Reach) : Prop where
  written : config.writtenPlaces environment source r.current ⊆ reach.touched
  made : reach.made = config.madePlaces source r.current
  again : r.touched = config.writtenPlaces environment source r.current

theorem Writes.writable {r : Rerun} {reach : Reach}
    (h : config.Writes environment source directory name)
    (hcovers : config.Covers environment source r reach) (hnamed : source.Named)
    (hstanding : directory ∈ r.standing) : r.Writable reach directory name where
  standing := hstanding
  isName := h.notUp hnamed
  touched := h.touched_subset.trans hcovers.written
  again := by
    rw [hcovers.again]
    exact h.touched_subset
  made location hmem hmade := by
    rw [hcovers.made] at hmade
    exact made_not_written hnamed location hmade (h.touched_subset hmem)

end Config

end ScriptSplit
