import ScriptSplit.Proofs.Plan.Reading
import ScriptSplit.Proofs.Run.Storage

/-!
# Where a run works

The directories of a run depend on its configuration and environment alone. A source that lies outside of
them has neighbours that no module, mirror or artifact can take the place of.
-/

namespace ScriptSplit

namespace Config

def sourcePath? (config : Config) : Option Path :=
  config.source.map fun written => (config.root / written).normal

def artifactPath (config : Config) (environment : Table String) (variable_ : String)
    (configured : Option String) (usual : String) : Path :=
  match (environment.get? variable_).filter (· != ""), configured with
  | some named, _ => Path.ofString named
  | none, some configured => config.root / configured
  | none, none => config.root / usual

def factsPath (config : Config) (environment : Table String) : Path :=
  config.artifactPath environment "ATOMIZER_FACTS_DIR" config.factsDirectory "facts"

def plansPath (config : Config) (environment : Table String) : Path :=
  config.artifactPath environment "ATOMIZER_PLANS_DIR" config.plansDirectory "plans"

/-- The directory that the CommonJS forms of all modules are written below. -/
def mirrorRoot? (config : Config) : Option Path :=
  config.outputRoot.sibling? (config.outputRoot.name ++ "_cjs")

/-- Whether a source lies outside all directories that a run writes to. -/
structure Outside (config : Config) (environment : Table String) (current : Location)
    (source : Path) : Prop where
  output : ¬ config.outputRoot.place current <+: source.place current
  mirror : ∀ mirror, config.mirrorRoot? = some mirror →
    ¬ mirror.place current <+: source.place current
  facts : ¬ (config.factsPath environment).place current <+: source.place current
  plans : ¬ (config.plansPath environment).place current <+: source.place current

end Config

/-! ## Directories of artifacts -/

namespace Run

variable {surroundings : Surroundings} {current : Location} {property : Files → Prop}

theorem artifactDirectory_meets (h : Storage.Stable current ∅ property) (config : Config)
    (variable_ : String) (configured : Option String) (usual : String) :
    Meets surroundings property (artifactDirectory config variable_ configured usual)
      (fun path files =>
        path = config.artifactPath surroundings.environment variable_ configured usual ∧
          property files) property := by
  unfold artifactDirectory
  apply Meets.bind_read
  apply Meets.bind (Meets.storing (Storage.makeDirectories_keeps h _))
  intro _
  exact .pure fun _ hfiles => ⟨rfl, hfiles⟩

theorem factsDirectory_meets (h : Storage.Stable current ∅ property) (config : Config) :
    Meets surroundings property (factsDirectory config)
      (fun path files => path = config.factsPath surroundings.environment ∧ property files)
      property :=
  artifactDirectory_meets h config _ _ _

theorem plansDirectory_meets (h : Storage.Stable current ∅ property) (config : Config) :
    Meets surroundings property (plansDirectory config)
      (fun path files => path = config.plansPath surroundings.environment ∧ property files)
      property :=
  artifactDirectory_meets h config _ _ _

theorem sourcePath_meets (config : Config) (property : Files → Prop) :
    Meets surroundings property (sourcePath config)
      (fun path files => config.sourcePath? = some path ∧ files.hasFile path = true ∧
        property files) property := by
  unfold sourcePath
  cases hsource : config.source with
  | none => exact .throw fun _ hfiles => hfiles
  | some written =>
      apply Meets.bind_files
      intro found
      split
      · next hfound =>
          apply Meets.pure
          rintro files ⟨rfl, hfiles⟩
          exact ⟨by simp [Config.sourcePath?, hsource], hfound, hfiles⟩
      · exact .throw fun _ hfiles => hfiles.2

variable {s : RunState}

theorem artifactDirectory_eq {config : Config} {variable_ : String} {configured : Option String}
    {usual : String} {files : Files}
    (h : Storage.makeDirectories (config.artifactPath surroundings.environment variable_ configured
      usual) s.files = .ok () files) :
    artifactDirectory config variable_ configured usual surroundings s =
      .ok (config.artifactPath surroundings.environment variable_ configured usual)
        { s with files } := by
  unfold artifactDirectory
  exact bind_eq (storing_eq h)

theorem sourcePath_eq {config : Config} {source : Path} (hsource : config.sourcePath? = some source)
    (hfile : s.files.hasFile source = true) :
    sourcePath config surroundings s = .ok source s := by
  unfold Config.sourcePath? at hsource
  unfold sourcePath
  cases hconfigured : config.source with
  | none => simp [hconfigured] at hsource
  | some written =>
      simp only [hconfigured, Option.map_some, Option.some.injEq] at hsource
      subst hsource
      simp only
      rw [bind_files_eq, if_pos hfile]
      rfl

end Run

/-! ## Neighbours of a source -/

def Location.below (directory : Location) : Set Location :=
  { location | directory <+: location ∧ location ≠ directory }

theorem Location.append_mem_below (directory : Location) {more : Location} (hmore : more ≠ []) :
    directory ++ more ∈ Location.below directory :=
  ⟨List.prefix_append .., by simpa using hmore⟩

theorem Location.neighbour_not_mem_below {directory holder : Location} {name other : String}
    (houtside : ¬ directory <+: holder ++ [name]) :
    holder ++ [other] ∉ Location.below directory := by
  rintro ⟨hbelow, hne⟩
  rcases List.prefix_concat_iff.1 hbelow with heq | hholder
  · exact hne heq.symm
  · exact houtside (hholder.trans (List.prefix_append ..))

namespace Path

variable {source : Path}

theorem Named.place_eq (h : source.Named) (current : Location) :
    source.place current = source.parent.place current ++ [source.name] := by
  conv_lhs => rw [← h.parent_child]
  exact place_child h.isName.notUp current

theorem Named.place_neighbour_ne (h : source.Named) {current : Location} {name : String}
    (hne : source.name ≠ name) :
    source.place current ≠ source.parent.place current ++ [name] := by
  rw [h.place_eq]
  simpa using hne

theorem isName_groupName (h : source.Named) : IsName source.groupName :=
  Named.isName_append (c := 'a') h.noSlash.1 (by decide) (by decide) (by decide)

theorem moduleDirectory_eq (config : Config) (h : source.Named) :
    config.moduleDirectory source = config.outputRoot.child source.groupName :=
  div_name _ (isName_groupName h)

theorem mirrorDirectory?_eq (config : Config) (h : source.Named) :
    config.mirrorDirectory? source = config.mirrorRoot?.map (·.child source.groupName) := by
  have hdiv : (fun root : Path => root / source.groupName) = (·.child source.groupName) := by
    funext root
    exact div_name root (isName_groupName h)
  simp only [Config.mirrorDirectory?, Config.mirrorRoot?]
  rw [hdiv]

end Path

/-- The places that linking writes to away from the source: below the directories of modules, of their
CommonJS forms and of plans. -/
def Config.awayFrom (config : Config) (environment : Table String) (current : Location) :
    Set Location :=
  Location.below (config.outputRoot.place current) ∪
    { location | ∃ mirror, config.mirrorRoot? = some mirror ∧
      location ∈ Location.below (mirror.place current) } ∪
    Location.below ((config.plansPath environment).place current)

theorem Config.Outside.neighbour_not_away {config : Config} {environment : Table String}
    {current : Location} {source : Path} (h : config.Outside environment current source)
    (hnamed : source.Named) (name : String) :
    source.parent.place current ++ [name] ∉ config.awayFrom environment current := by
  obtain ⟨houtput, hmirror, -, hplans⟩ := h
  rw [hnamed.place_eq] at houtput hmirror hplans
  rintro ((hbelow | ⟨mirror, hroot, hbelow⟩) | hbelow)
  · exact Location.neighbour_not_mem_below houtput hbelow
  · exact Location.neighbour_not_mem_below (hmirror mirror hroot) hbelow
  · exact Location.neighbour_not_mem_below hplans hbelow

theorem Storage.touchedBy_subset_below (directory : Path) (name : String) (current : Location) :
    touchedBy directory name current ⊆ Location.below (directory.place current) := by
  rintro location (rfl | rfl)
  · exact Location.append_mem_below _ (by simp)
  · exact Location.append_mem_below _ (by simp)

theorem Storage.touchedBy_child_subset_below (directory : Path) {group : String}
    (hgroup : group ≠ "..") (name : String) (current : Location) :
    touchedBy (directory.child group) name current ⊆ Location.below (directory.place current) := by
  have hplace : (directory.child group).place current = directory.place current ++ [group] :=
    Path.place_child hgroup current
  rintro location (rfl | rfl)
  · rw [hplace, List.append_assoc]
    exact Location.append_mem_below _ (by simp)
  · rw [asideOf, hplace, List.append_assoc]
    exact Location.append_mem_below _ (by simp)

/-! ## A small workspace -/

def Run.workspace (script functions plan : String) : Files where
  current := ["work"]
  entries := [
    (["work"], .directory),
    (["work", "app.js"], .file (.text script.toList)),
    (["work", "facts"], .directory),
    (["work", "facts", "facts.index.json"], .file (.text
      ("\x7b\"source\": \"app.js\", \"shards\": [" ++
        "\x7b\"kind\": \"functions\", \"path\": \"functions\", \"count\": 0\x7d, " ++
        "\x7b\"kind\": \"calls\", \"path\": \"calls\", \"count\": 0\x7d, " ++
        "\x7b\"kind\": \"imports\", \"path\": \"imports\", \"count\": 0\x7d]\x7d").toList)),
    (["work", "facts", "functions"], .file (.text functions.toList)),
    (["work", "plans"], .directory),
    (["work", "plans", "plan.json"], .file (.text plan.toList))]

/-- The configuration for a small workspace: no adviser, no copies for debugging. -/
def Run.workspaceConfig : Config where
  root := Path.ofString "/work"
  source := some "app.js"
  output := "out"
  banner := "'use strict';".toList
  maxFiles := 12
  minClusterSize := 1
  debugCopies := false
  factsDirectory := none
  plansDirectory := none
  closureCalls := false
  adviser :=
    { enabled := false
      provider := "ollama"
      url := none
      model := "llama3.1:8b"
      temperature := .float (.ofDecimal false 2 (-1))
      maxTokens := .int 2048
      sendsSource := false
      maxRounds := 2
      timeout := .float (.ofDecimal false 30 0) }

end ScriptSplit
