import ScriptSplit.Proofs.Run.Again
import ScriptSplit.Proofs.Stage.Link

/-!
# Linking again

Every step of linking is made again as long as the files of the modules are the same in both runs: imports,
bridges and mirror depend on nothing else that linking itself changes.
-/

namespace ScriptSplit

namespace Run

variable {r : Rerun} {reach : Reach} {known : Set Location} {layout : Layout} {config : Config}
  {plans : Path}

def moduleFile (layout : Layout) (slug : String) : String :=
  moduleFileName slug layout.basename ".js"

/-- Whether the files of all modules are in a directory that stands and are known to be the same in both
runs. -/
structure ModulesKnown (r : Rerun) (known : Set Location) (layout : Layout) : Prop where
  file : ∀ slug ∈ layout.slugs, layout.file slug = layout.directory.child (moduleFile layout slug)
  standing : layout.directory ∈ r.standing
  isName : ∀ slug ∈ layout.slugs, moduleFile layout slug ≠ ".."
  known : ∀ slug ∈ layout.slugs,
    layout.directory.place r.current ++ [moduleFile layout slug] ∈ known

structure ModulesWritable (r : Rerun) (reach : Reach) (known : Set Location) (layout : Layout) : Prop
    extends ModulesKnown r known layout where
  writable : ∀ slug ∈ layout.slugs, r.Writable reach layout.directory (moduleFile layout slug)

theorem writeDocument_again {name : String} (hname : Path.IsName name)
    (h : r.Writable reach plans name) (doc : Json) :
    Again r reach known known (storing (Storage.writeDocument (plans / name) doc)) := by
  rw [Path.div_name _ hname]
  exact (Again.writeText h _).forget

/-! ## Imports -/

theorem previewImports_again (h : ModulesKnown r known layout) :
    Again r reach known known (previewImports layout) := by
  unfold previewImports
  apply Again.foldlM
  intro preview slug hslug
  have hslug' : slug ∈ layout.slugs := (List.mem_filter.1 hslug).1
  have hname := h.isName slug hslug'
  simp only [h.file slug hslug']
  apply Again.has h.standing hname (h.known slug hslug')
  · apply (Again.readText h.standing hname (h.known slug hslug')).seq
    intro text
    exact .pure _
  · exact .pure _

theorem findImports_again (h : ModulesKnown r known layout)
    (hadviser : config.adviser.enabled = false)
    (hplans : r.Writable reach plans "imports.preview.json") (facts : Facts) :
    Again r reach known known (findImports config plans facts layout) := by
  unfold findImports
  split
  · exact .pure _
  · apply (previewImports_again h).seq
    intro preview
    apply (writeDocument_again ⟨by decide, by decide, by decide, by decide⟩ hplans _).seq
    intro _
    rw [if_pos (by simp [hadviser])]
    exact .pure _

theorem insertInto_again {slug : String} (h : ModulesWritable r reach known layout)
    (hslug : slug ∈ layout.slugs) (lines : List String) :
    Again r reach known known (storing (insertInto (layout.file slug) lines)) := by
  have hwritable := h.writable slug hslug
  rw [h.file slug hslug]
  unfold insertInto
  rw [storing_bind]
  apply (Again.readText hwritable.standing hwritable.isName (h.known slug hslug)).seq
  intro text
  simp only
  split
  · exact .pure _
  · rw [storing_bind]
    apply (Again.writeText hwritable _).forget.seq
    intro _
    exact .pure _

theorem linesFor_again (slug : String) (names : List String) :
    Again r reach known known (linesFor layout slug names) := by
  apply Again.mapM
  intro name _
  split
  · exact .pure _
  · exact .throw _

theorem insertNeeded_again (h : ModulesWritable r reach known layout) {needed : NeededNames}
    (hneeded : needed.Within layout.slugs) :
    Again r reach known known (insertNeeded layout needed) := by
  unfold insertNeeded
  apply Again.foldlM
  rintro inserted ⟨slug, names⟩ hentry
  have hslug : slug ∈ layout.slugs := hneeded.sorted _ hentry
  have hinsert := fun lines => insertInto_again h hslug lines
  simp only [h.file slug hslug] at hinsert ⊢
  apply Again.has h.standing (h.isName slug hslug) (h.known slug hslug)
  · apply (linesFor_again slug names).seq
    intro lines
    apply (hinsert lines).seq
    intro count
    exact .pure _
  · exact .pure _

theorem writeLinkDocument_again {name : String} (hname : Path.IsName name)
    (h : r.Writable reach plans name) (doc : Json) :
    Again r reach known known (writeLinkDocument (plans / name) doc) :=
  (writeDocument_again hname h doc).step

def importDocuments : List String :=
  ["imports.preview.json", "imports.source.json", "export-names.json"]

theorem moduleExports_same (h : ModulesKnown r known layout) {first again : Files}
    (hfirst : r.Ready first) (hagain : r.Ready again)
    (hsame : ∀ location ∈ known, again.entry? location = first.entry? location) :
    moduleExports layout again = moduleExports layout first := by
  unfold moduleExports
  apply List.filterMap_congr
  intro slug hslug
  have hname := h.isName slug hslug
  have hhas : again.has (layout.file slug) = first.has (layout.file slug) := by
    rw [h.file slug hslug, Files.has, Files.has, (hagain.standing _ h.standing).at?_child hname,
      (hfirst.standing _ h.standing).at?_child hname, hagain.current, hfirst.current,
      hsame _ (h.known slug hslug)]
  rw [hhas]

def gather (config : Config) (plans source : Path) (text : Text) (facts : Facts) (layout : Layout)
    (imports : ImportPlan) (importWarnings : List Warning) (inserted : Nat) : Run Prepared := do
  writeLinkDocument (plans / "imports.source.json") imports.audit
  let exports ← step .gatherExports do return moduleExports layout (← files)
  let mapping ← step .nameExports (pure (publicNames exports))
  let (_, namesWarnings) ← bestEffort "export names" <|
    writeLinkDocument (plans / "export-names.json") (exportNamesDoc mapping)
  return {
    linking := { config, source, text, facts, layout, exports, mapping }
    imports
    inserted
    warnings := importWarnings ++ namesWarnings }

def insertedTotal (insertedBySlug : Table Nat) : Nat :=
  insertedBySlug.foldl (fun total entry => total + entry.2) 0

theorem prepare_eq (config : Config) (plans source : Path) (text : Text) (facts : Facts)
    (layout : Layout) : prepare config plans source text facts layout =
      step .findImports (findImports config plans facts layout) >>= fun found =>
        step .insertImports (insertNeeded layout found.1.needed) >>= fun insertedBySlug =>
          gather config plans source text facts layout found.1 found.2
            (insertedTotal insertedBySlug) := by
  rfl

theorem gather_again (h : ModulesKnown r known layout) (hfailures : r.failures)
    (hplans : ∀ name ∈ importDocuments, r.Writable reach plans name) (source : Path) (text : Text)
    (facts : Facts) (imports : ImportPlan) (importWarnings : List Warning) (inserted : Nat) :
    Again r reach known known
      (gather config plans source text facts layout imports importWarnings inserted) := by
  unfold gather
  apply (writeLinkDocument_again ⟨by decide, by decide, by decide, by decide⟩
    (hplans _ (by simp [importDocuments])) _).seq
  intro _
  refine Again.seq (Again.step ?_) ?_
  · have hview : ∀ first last again touched made, r.Ready first → r.Ready again →
        Files.Changes touched made first last → Files.Follows r.touched known last first again →
          moduleExports layout again = moduleExports layout first := by
      intro first last again touched made hfirst hagain _ hfollows
      exact moduleExports_same h hfirst hagain hfollows.same
    exact Again.look hview fun exports => .pure exports
  intro exports
  apply (Again.step_pure _).seq
  intro mapping
  apply ((writeLinkDocument_again ⟨by decide, by decide, by decide, by decide⟩
    (hplans _ (by simp [importDocuments])) _).bestEffort hfailures).seq
  rintro ⟨_, namesWarnings⟩
  exact .pure _

theorem prepare_again (h : ModulesWritable r reach known layout) (hclosed : layout.Closed)
    (hadviser : config.adviser.enabled = false) (hfailures : r.failures)
    (hplans : ∀ name ∈ importDocuments, r.Writable reach plans name) (source : Path) (text : Text)
    (facts : Facts) :
    Again r reach known known (prepare config plans source text facts layout) := by
  rw [prepare_eq]
  apply ((findImports_again h.toModulesKnown hadviser (hplans _ (by simp [importDocuments]))
    facts).step).bind _ (Set.Subset.refl _)
  rintro ⟨imports, importWarnings⟩ ⟨s, s', hrun⟩
  have hneeded : imports.needed.Within layout.slugs := by
    have hstable : ∀ touched, Storage.Stable s.files.current touched
        (·.current = s.files.current) :=
      fun _ => ⟨fun _ hfiles => hfiles, fun _ _ hchanges hbefore => hchanges.current.trans hbefore⟩
    have hmeets : Meets r.first (·.current = s.files.current)
        (step .findImports (findImports config plans facts layout))
        (fun found files => found.1.needed.Within layout.slugs ∧ files.current = s.files.current)
        (·.current = s.files.current) :=
      (findImports_meets (fun _ _ => hstable _) hclosed facts).step fun _ hfiles => hfiles
    have hends := hmeets.ends s rfl
    rw [hrun] at hends
    exact hends.1
  apply (insertNeeded_again h hneeded).step.seq
  intro insertedBySlug
  exact gather_again h.toModulesKnown hfailures hplans source text facts _ _ _

/-! ## Bridges -/

namespace Linking

variable {l : Linking}

theorem writeBridge_again (hnamed : l.source.Named)
    (h : r.Writable reach l.source.parent l.source.bridgeName) :
    Again r reach known known l.writeBridge := by
  apply Again.step
  rw [hnamed.bridge?_eq, storing_require_some, pure_bind]
  apply (Again.step_pure _).seq
  intro header
  apply (Again.step_pure _).seq
  intro text
  apply (Again.writeText h text).forget.seq
  intro _
  exact .pure _

theorem writeFallback_again (hnamed : l.source.Named)
    (h : r.Writable reach l.source.parent l.source.bridgeName) (backup : Option Path) :
    Again r reach known known (l.writeFallback backup) := by
  apply Again.step
  rw [hnamed.bridge?_eq, storing_require_some, pure_bind]
  apply (Again.step_pure _).seq
  intro text
  apply (Again.writeText h text).forget.seq
  intro _
  exact .pure _

theorem writeBridges_again (hnamed : l.source.Named) (hfailures : r.failures)
    (h : r.Writable reach l.source.parent l.source.bridgeName) (backup : Option Path) :
    Again r reach known known (l.writeBridges backup) := by
  unfold Linking.writeBridges
  apply ((writeBridge_again hnamed h).bestEffort hfailures).seq
  rintro ⟨_ | path, bridgeWarnings⟩
  · apply ((writeFallback_again hnamed h backup).bestEffort hfailures).seq
    rintro ⟨fallback, fallbackWarnings⟩
    exact .pure _
  · exact .pure _

/-! ## The CommonJS mirror -/

theorem mirrorDirectory_again {top : Path} {name group : String} {next : Unit → Run Unit}
    {known' : Set Location} (htop : top ∈ r.standing) (hname : name ≠ "..") (hgroup : group ≠ "..")
    (hmade : Storage.twoPlaces top name group r.current ⊆ reach.made)
    (htouched : ∀ location ∈ Storage.twoPlaces top name group r.current,
      location ∉ reach.touched)
    (hnext : Again (r.within ((top.child name).child group)) reach known known' (next ())) :
    Again r reach known known'
      (storing (Storage.makeDirectories ((top.child name).child group)) >>= next) := by
  have hupperPlace : top.place r.current ++ [name] ∈
      Storage.twoPlaces top name group r.current := Or.inl rfl
  have hlowerPlace : top.place r.current ++ [name] ++ [group] ∈
      Storage.twoPlaces top name group r.current := Or.inr rfl
  apply Again.making _ _ hnext
  · intro first hfirst
    have hchanges := Storage.makeDirectories_grandchild_changes (hfirst.standing _ htop) hname
      hgroup
    rw [hfirst.current] at hchanges
    cases hrun : Storage.makeDirectories ((top.child name).child group) first with
    | ok _ made =>
        rw [hrun] at hchanges
        exact hchanges.mono (Set.Subset.refl _) hmade
    | error cause made =>
        rw [hrun] at hchanges
        exact hchanges.1.mono (Set.Subset.refl _) hmade
  · intro _ first again last cause made hfirst hagain hrun hlast hfollows
    have hchanges := Storage.makeDirectories_grandchild_changes (hfirst.standing _ htop) hname
      hgroup
    rw [hrun, hfirst.current] at hchanges
    obtain ⟨hmadeChanges, hcause⟩ := hchanges
    -- a file that is in the way was there before and stays
    have hfile : ∀ location ∈ Storage.twoPlaces top name group r.current, ∀ content,
        made.entry? location = some (.file content) →
          again.entry? location = some (.file content) := by
      intro location hlocation content hentry
      rcases hfollows.either location with hsame | hsame
      · rw [hsame]
        exact hlast.entry?_eq_some (htouched location hlocation) hentry
      · rw [hsame]
        rcases hmadeChanges.kept location (by simp) with hkept | ⟨-, hdirectory, -⟩
        · rw [← hkept]
          exact hentry
        · rw [hdirectory] at hentry
          cases hentry
    apply Storage.makeDirectories_of_inTheWay (hagain.standing _ htop) hname hgroup
    unfold Storage.InTheWay at hcause ⊢
    rw [hmadeChanges.current, hfirst.current] at hcause
    rw [hagain.current]
    rcases hcause with ⟨content, hupper, rfl⟩ | ⟨hupper, content, hlower, rfl⟩
    · exact Or.inl ⟨content, hfile _ hupperPlace content hupper, rfl⟩
    · exact Or.inr ⟨hfollows.changed.directory _ (hlast.directory _ hupper), content,
        hfile _ hlowerPlace content hlower, rfl⟩

/-- Whether the mirror can be written by both runs: it is in a directory that may not be there yet, and
which nothing else touches. -/
structure MirrorWritable (r : Rerun) (reach : Reach) (layout : Layout) (top : Path)
    (name group : String) : Prop where
  standing : top ∈ r.standing
  isName : name ≠ ".."
  isGroup : group ≠ ".."
  made : Storage.twoPlaces top name group r.current ⊆ reach.made
  untouched : ∀ location ∈ Storage.twoPlaces top name group r.current, location ∉ reach.touched
  file : ∀ slug ∈ layout.slugs,
    ((top.child name).child group) / moduleFileName slug layout.basename ".cjs" =
      ((top.child name).child group).child (moduleFileName slug layout.basename ".cjs")
  writable : ∀ slug ∈ layout.slugs,
    (r.within ((top.child name).child group)).Writable reach ((top.child name).child group)
      (moduleFileName slug layout.basename ".cjs")

theorem writeMirrorModule_again {top : Path} {name group slug : String}
    (h : ModulesKnown r known l.layout) (hmirror : MirrorWritable r reach l.layout top name group)
    (hslug : slug ∈ l.layout.slugs) (written : List Path) :
    Again r reach known known
      (l.writeMirrorModule (fun slug => ((top.child name).child group) /
        moduleFileName slug l.layout.basename ".cjs") written slug) := by
  have hname := h.isName slug hslug
  unfold writeMirrorModule
  simp only [h.file slug hslug, hmirror.file slug hslug]
  apply Again.has h.standing hname (h.known slug hslug)
  · apply (Again.readText h.standing hname (h.known slug hslug)).seq
    intro text
    apply (Again.step_pure _).seq
    rintro ⟨converted, count⟩
    simp only
    rw [Storage.writeText_making, storing_bind]
    refine Again.seq (mirrorDirectory_again hmirror.standing hmirror.isName hmirror.isGroup
      hmirror.made hmirror.untouched ?_) ?_
    · exact (Again.writeText (hmirror.writable slug hslug) converted).forget
    · exact fun _ => .pure _
  · exact .pure _

theorem writeMirror_again (hnamed : l.source.Named) (h : ModulesKnown r known l.layout)
    (hmirror : ∀ mirror, l.config.mirrorRoot? = some mirror → ∃ top name,
      mirror = top.child name ∧ MirrorWritable r reach l.layout top name l.source.groupName)
    (hbridge : r.Writable reach l.source.parent l.source.requireBridgeName) :
    Again r reach known known l.writeMirror := by
  apply Again.step
  rw [Path.mirrorDirectory?_eq _ hnamed]
  cases hroot : l.config.mirrorRoot? with
  | none => exact .throw _
  | some mirror =>
      obtain ⟨top, name, rfl, hwritable⟩ := hmirror mirror hroot
      rw [Option.map_some, storing_require_some, pure_bind]
      apply Again.seq
      · apply Again.foldlM
        intro written slug hslug
        exact writeMirrorModule_again h hwritable hslug written
      · intro written
        rw [hnamed.requireBridge?_eq, storing_require_some, pure_bind]
        apply (Again.step_pure _).seq
        intro text
        apply (Again.writeText hbridge text).forget.seq
        intro _
        exact .pure _

/-! ## The backup -/

theorem copyBackup_again (hnamed : l.source.Named) {backup : String} (hbackup : backup ≠ "..")
    (hparent : l.source.parent ∈ r.standing)
    (hknown : l.source.parent.place r.current ++ [backup] ∈ known)
    (h : r.Writable reach (l.config.outputRoot.child l.source.groupName) l.source.backupName) :
    Again r reach known known (l.copyBackup (l.source.parent.child backup)) := by
  apply Again.step
  rw [hnamed.backup?_eq, storing_require_some, pure_bind, Path.child_name,
    Path.moduleDirectory_eq _ hnamed, Path.div_name _ hnamed.isName_backupName]
  apply (Again.readText hparent hbackup hknown).seq
  intro text
  apply (Again.writeText h text).forget.seq
  intro _
  exact .pure _

end Linking

end Run

end ScriptSplit
