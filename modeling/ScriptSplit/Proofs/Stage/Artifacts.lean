import ScriptSplit.Proofs.Link.Declared
import ScriptSplit.Proofs.Plan.Storing
import ScriptSplit.Proofs.Plan.Validity
import ScriptSplit.Proofs.Stage.Spared

/-!
# The files beside the modules

Writing puts one file for each module with functions into the directory of the modules, and linking puts a
copy of the backup beside them. No two of these files are the same, except where a script `app.js` has a
module with the slug `app_old`.
-/

namespace ScriptSplit

/-! ## Names -/

theorem Text.underscore_mem_lowerAfter {text : List Char} (htext : '_' ∈ text) (before : List Char) :
    '_' ∈ lowerAfter before text := by
  induction text generalizing before with
  | nil => cases htext
  | cons c text ih =>
      unfold lowerAfter
      rcases List.mem_cons.1 htext with rfl | hrest
      · exact List.mem_append_left _ (show '_' ∈ lowerChar '_' by decide)
      · exact List.mem_append_right _ (ih hrest _)

/-- The module that keeps the source is not called like a backup. -/
theorem lower_old_ne (basename : String) : Text.lower (basename ++ "_old") ≠ originalSlug := by
  intro heq
  have hmem : '_' ∈ (Text.lower (basename ++ "_old")).toList := by
    rw [Text.lower, String.toList_ofList]
    exact Text.underscore_mem_lowerAfter (by simp [String.toList_append]) []
  rw [heq] at hmem
  exact absurd hmem (by decide)

namespace Path

variable {source : Path}

theorem basename_ne_empty (source : Path) : source.basename ≠ "" := by
  unfold basename
  split
  · decide
  · next hstem => simpa using hstem

theorem moduleFileName_eq_backupName_iff {slug : String} :
    moduleFileName slug source.basename ".js" = source.backupName ↔
      source.suffix = ".js" ∧ slug = source.basename ++ "_old" := by
  constructor
  · intro heq
    have hslug : slug = source.basename ++ "_old" := by
      by_contra hold
      exact moduleFileName_ne_backupName hold heq
    subst hslug
    rw [moduleFileName, if_neg (by simpa using lower_old_ne _), backupName,
      String.append_right_inj] at heq
    exact ⟨heq.symm, rfl⟩
  · rintro ⟨hsuffix, rfl⟩
    rw [moduleFileName, if_neg (by simpa using lower_old_ne _), backupName, hsuffix]

end Path

/-- Modules of a plan that was read and fits have files of their own. -/
theorem moduleFileName_injOn {plan : Plan} {functions : List FunctionRecord} {maxFiles : Int}
    {basename : String} (hplan : plan.Storable)
    (hfits : plan.Fits functions maxFiles (some basename)) (hbasename : basename ≠ "")
    {m m' : ModuleSpec} (hm : m ∈ plan.modules) (hm' : m' ∈ plan.modules) {ending : String}
    (heq : moduleFileName m.slug basename ending = moduleFileName m'.slug basename ending) :
    m = m' := by
  apply Layout.eq_of_lower_slug hplan hm hm'
  have hsource : ∀ {m m' : ModuleSpec}, m ∈ plan.modules → m' ∈ plan.modules →
      m.isOriginal = true → m'.isOriginal = false → basename ≠ m'.slug := by
    intro m m' hm hm' horiginal hother hslug
    have hsome : plan.original?.isSome = true := List.find?_isSome.2 ⟨m, hm, horiginal⟩
    exact hfits.apart basename rfl hbasename hsome m' hm' hother (congrArg Text.lower hslug.symm)
  have hname (m : ModuleSpec) : moduleFileName m.slug basename ending =
      if m.isOriginal = true then basename ++ ending else m.slug ++ ending := rfl
  rw [hname, hname] at heq
  by_cases horiginal : m.isOriginal = true <;> by_cases horiginal' : m'.isOriginal = true
  · have hlower : Text.lower m.slug = originalSlug := by simpa [ModuleSpec.isOriginal] using horiginal
    have hlower' : Text.lower m'.slug = originalSlug := by
      simpa [ModuleSpec.isOriginal] using horiginal'
    rw [hlower, hlower']
  · rw [if_pos horiginal, if_neg horiginal', String.append_left_inj] at heq
    exact absurd heq (hsource hm hm' horiginal (by simpa using horiginal'))
  · rw [if_neg horiginal, if_pos horiginal', String.append_left_inj] at heq
    exact absurd heq.symm (hsource hm' hm horiginal' (by simpa using horiginal))
  · rw [if_neg horiginal, if_neg horiginal', String.append_left_inj] at heq
    rw [heq]

namespace Run

variable {config : Config} {source : Path} {plan : Plan}

/-! ## Paths -/

def moduleFiles (config : Config) (source : Path) (plan : Plan) : List Path :=
  (plan.modules.filter (!·.functions.isEmpty)).map fun m =>
    config.moduleDirectory source / moduleFileName m.slug source.basename ".js"

def backupCopy (config : Config) (source : Path) : Path :=
  config.moduleDirectory source / source.backupName

/-- Whether a module with functions is called like the backup of a script. -/
def NamedLikeBackup (source : Path) (plan : Plan) : Prop :=
  source.suffix = ".js" ∧
    ∃ m ∈ plan.modules, m.functions ≠ [] ∧ m.slug = source.basename ++ "_old"

theorem moduleFile_eq (hsource : Path.IsName source.name) (hplan : plan.Storable) {m : ModuleSpec}
    (hm : m ∈ plan.modules) :
    config.moduleDirectory source / moduleFileName m.slug source.basename ".js" =
      (config.moduleDirectory source).child (moduleFileName m.slug source.basename ".js") :=
  Path.div_name _ (moduleFileName_isName (c := 'j') (hplan.slugs m hm) (Path.noSlash_of_isName hsource).1
    ".js" (by decide) (by decide) (by decide))

theorem nodup_moduleFiles (hsource : Path.IsName source.name) (hplan : plan.Storable)
    {functions : List FunctionRecord} {maxFiles : Int}
    (hfits : plan.Fits functions maxFiles (some source.basename)) :
    (moduleFiles config source plan).Nodup := by
  have hmodules : plan.modules.Nodup := (Layout.slugs_nodup hplan).of_map
  refine (hmodules.filter _).map_on fun m hm m' hm' heq => ?_
  have hmem := List.mem_of_mem_filter hm
  have hmem' := List.mem_of_mem_filter hm'
  rw [moduleFile_eq hsource hplan hmem, moduleFile_eq hsource hplan hmem', Path.child_inj] at heq
  exact moduleFileName_injOn hplan hfits (Path.basename_ne_empty source) hmem hmem' heq

theorem backupCopy_mem_moduleFiles_iff (hsource : Path.IsName source.name) (hplan : plan.Storable) :
    backupCopy config source ∈ moduleFiles config source plan ↔ NamedLikeBackup source plan := by
  have hcopy : backupCopy config source = (config.moduleDirectory source).child source.backupName :=
    Path.div_name _ (Path.isName_backupName_of_isName hsource)
  unfold moduleFiles NamedLikeBackup
  rw [List.mem_map]
  constructor
  · rintro ⟨m, hm, heq⟩
    obtain ⟨hmem, hfunctions⟩ := List.mem_filter.1 hm
    rw [moduleFile_eq hsource hplan hmem, hcopy, Path.child_inj,
      Path.moduleFileName_eq_backupName_iff] at heq
    exact ⟨heq.1, m, hmem, by simpa using hfunctions, heq.2⟩
  · rintro ⟨hsuffix, m, hmem, hfunctions, hslug⟩
    refine ⟨m, List.mem_filter.2 ⟨hmem, by simpa using hfunctions⟩, ?_⟩
    rw [moduleFile_eq hsource hplan hmem, hcopy, Path.child_inj]
    exact Path.moduleFileName_eq_backupName_iff.2 ⟨hsuffix, hslug⟩

/-! ## What is written there -/

variable {reader : Script.Reader} {text : Text} {facts : Facts} {surroundings : Surroundings} {s s' : RunState}

theorem writeModule_files {report after : WriteReport} {m : ModuleSpec}
    (hrun : writeModule config reader source text facts report m surroundings s = .ok after s') :
    after.files = if (Emission.records facts m).isEmpty then report.files
      else report.files.put m.slug
        (config.moduleDirectory source / moduleFileName m.slug source.basename ".js") := by
  unfold writeModule at hrun
  simp only at hrun
  obtain ⟨-, s₁, -, hrun⟩ := bind_eq_ok.1 hrun
  split at hrun
  · next hempty =>
      cases hrun
      rw [if_pos hempty]
  · next hrecords =>
      rw [if_neg hrecords]
      obtain ⟨-, s₂, -, hrun⟩ := bind_eq_ok.1 hrun
      obtain ⟨-, s₃, -, hrun⟩ := bind_eq_ok.1 hrun
      split at hrun
      · obtain ⟨-, s₄, -, hrun⟩ := bind_eq_ok.1 hrun
        cases hrun
        rfl
      · cases hrun
        rfl

theorem writeModules_files {modules : List ModuleSpec} {report after : WriteReport}
    (hslugs : (report.files.map (·.1) ++ modules.map (·.slug)).Nodup)
    (hrun : modules.foldlM (writeModule config reader source text facts) report surroundings s =
      .ok after s') :
    after.files.map (·.2) = report.files.map (·.2) ++
      (modules.filter fun m => !(Emission.records facts m).isEmpty).map fun m =>
        config.moduleDirectory source / moduleFileName m.slug source.basename ".js" := by
  induction modules generalizing report s with
  | nil =>
      cases hrun
      simp
  | cons m modules ih =>
      rw [List.foldlM_cons] at hrun
      obtain ⟨between, s₁, hfirst, hrest⟩ := bind_eq_ok.1 hrun
      have hfiles := writeModule_files hfirst
      have hfresh : m.slug ∉ report.files.map (·.1) := by
        intro hmem
        exact (List.nodup_append.1 hslugs).2.2 _ hmem _ (by simp) rfl
      rw [Table.put_of_not_mem hfresh] at hfiles
      by_cases hempty : (Emission.records facts m).isEmpty = true
      · rw [if_pos hempty] at hfiles
        rw [ih (by rw [hfiles]; exact hslugs.sublist (by simp)) hrest, hfiles,
          List.filter_cons_of_neg (by simpa using hempty)]
      · rw [if_neg hempty] at hfiles
        rw [ih (by simpa [hfiles] using hslugs) hrest, hfiles,
          List.filter_cons_of_pos (by simpa using hempty)]
        simp

theorem isEmpty_records {maxFiles : Int} {basename : Option String}
    (hfits : plan.Fits facts.functions maxFiles basename) {m : ModuleSpec}
    (hm : m ∈ plan.modules) : (Emission.records facts m).isEmpty = m.functions.isEmpty := by
  unfold Emission.records
  cases hfunctions : m.functions with
  | nil => rfl
  | cons id ids =>
      have hid : id ∈ plan.assigned :=
        List.mem_flatMap.2 ⟨m, hm, by rw [hfunctions]; exact List.mem_cons_self⟩
      obtain ⟨f, hf, rfl⟩ := List.mem_map.1 (hfits.known id hid)
      have hsome : (facts.function? f.id).isSome = true :=
        List.find?_isSome.2 ⟨f, List.mem_reverse.2 hf, by simp⟩
      obtain ⟨found, hfound⟩ := Option.isSome_iff_exists.1 hsome
      rw [List.filterMap_cons_some hfound]
      rfl

theorem reported_moduleFiles (hplan : plan.Storable) {maxFiles : Int} {basename : Option String}
    (hfits : plan.Fits facts.functions maxFiles basename) {report : WriteReport}
    (hrun : plan.modules.foldlM (writeModule config reader source text facts) {} surroundings s =
      .ok report s') : report.files.map (·.2) = moduleFiles config source plan := by
  have hslugs := Layout.slugs_nodup hplan
  rw [writeModules_files (by simpa using hslugs) hrun, moduleFiles]
  have hfilter : plan.modules.filter (fun m => !(Emission.records facts m).isEmpty) =
      plan.modules.filter (!·.functions.isEmpty) :=
    List.filter_congr fun m hm => by rw [isEmpty_records hfits hm]
  rw [hfilter]
  rfl

theorem copyBackup_eq_ok (hsource : Path.IsName source.name) {l : Linking} (hl : l.source = source)
    {backup path : Path} (hrun : l.copyBackup backup surroundings s = .ok path s') :
    path = backupCopy l.config source := by
  subst hl
  have hnonempty : l.source.parts.isEmpty = false := by
    cases hparts : l.source.parts with
    | nil => exact absurd (by simp [Path.name, hparts]) hsource.nonempty
    | cons part parts => rfl
  have hbackup : l.source.backup? = some (l.source.parent.child l.source.backupName) := by
    unfold Path.backup? Path.sibling?
    rw [hnonempty, if_neg (by decide)]
    exact congrArg some (Path.div_name _ (Path.isName_backupName_of_isName hsource))
  unfold Linking.copyBackup at hrun
  rw [step_eq_ok, hbackup, storing_require_some] at hrun
  obtain ⟨plain, s₁, hplain, hrun⟩ := bind_eq_ok.1 hrun.2
  cases hplain
  obtain ⟨found, s₂, -, hrun⟩ := bind_eq_ok.1 hrun
  obtain ⟨-, s₃, -, hrun⟩ := bind_eq_ok.1 hrun
  cases hrun
  rw [Path.child_name]
  rfl

/-- The files that a run puts into the directory of the modules are apart, unless a script has a module
with functions that is called like its backup: then the copy of the backup is written over that module. -/
theorem artifacts_apart_iff (config : Config) (hsource : Path.IsName source.name) {doc : Json}
    (hread : Plan.ofDoc doc = .ok plan) {maxFiles : Int}
    (hvalid : plan.validate facts.functions maxFiles (some source.basename) = .ok ()) :
    ((moduleFiles config source plan ++ [backupCopy config source]).Nodup ↔
      ¬ NamedLikeBackup source plan) ∧
    (∀ reader text surroundings s report s',
      plan.modules.foldlM (writeModule config reader source text facts) {} surroundings s = .ok report s' →
        report.files.map (·.2) = moduleFiles config source plan) ∧
    ∀ (l : Linking) backup surroundings s path s', l.config = config → l.source = source →
      l.copyBackup backup surroundings s = .ok path s' → path = backupCopy config source := by
  have hplan := Plan.storable_of_ofDoc hread
  have hfits := Plan.fits_of_validate hvalid
  refine ⟨?_, fun reader text surroundings s report s' hrun => ?_, ?_⟩
  · rw [← List.concat_eq_append, List.nodup_concat, backupCopy_mem_moduleFiles_iff hsource hplan]
    exact and_iff_left (nodup_moduleFiles hsource hplan hfits)
  · exact reported_moduleFiles hplan hfits hrun
  · rintro l backup surroundings s path s' rfl hl hrun
    exact copyBackup_eq_ok hsource hl hrun

/-- Two modules for the script `app.js`, one of them called like its backup. -/
def oldDoc : Json :=
  .array [.object [("slug", .string "app_old"), ("functions", .ofStrings ["f0000"])],
    .object [("slug", .string "main"), ("functions", .ofStrings ["f0001"])]]

def oldPlan : Plan where
  modules := [{ name := "app_old", slug := "app_old", functions := ["f0000"] },
    { name := "main", slug := "main", functions := ["f0001"] }]

def oldFacts : Facts where
  source := "app.js"
  functions := [
    { id := "f0000", name := "helper", start := 0, stop := 33, moveable := true },
    { id := "f0001", name := "main", start := 35, stop := 70, moveable := true }]

/-- Such a plan is accepted, and the copy of the backup is written over a module. -/
theorem old_module_overwritten : Plan.ofDoc oldDoc = .ok oldPlan ∧
    oldPlan.validate oldFacts.functions 12 (some "app") = .ok () ∧
    ¬ (moduleFiles workspaceConfig (Path.ofString "/work/app.js") oldPlan ++
      [backupCopy workspaceConfig (Path.ofString "/work/app.js")]).Nodup := by
  have hread : Plan.ofDoc oldDoc = .ok oldPlan := by decide +kernel
  have hvalid : oldPlan.validate oldFacts.functions 12 (some "app") = .ok () := by decide +kernel
  have hsource : Path.IsName (Path.ofString "/work/app.js").name :=
    ⟨by decide, by decide, by decide, by decide⟩
  have hbasename : (Path.ofString "/work/app.js").basename = "app" := by decide +kernel
  have hnamed : NamedLikeBackup (Path.ofString "/work/app.js") oldPlan :=
    ⟨by decide +kernel, oldPlan.modules.head (by decide), by decide, by decide, by
      rw [hbasename]
      decide⟩
  refine ⟨hread, hvalid, fun hapart => ?_⟩
  rw [← hbasename] at hvalid
  exact (artifacts_apart_iff workspaceConfig hsource hread hvalid).1.1 hapart hnamed

end Run

end ScriptSplit
