import ScriptSplit.Proofs.Stage.Written
import ScriptSplit.Stage.Write

/-!
# Writing again

Every module is written again with the same text, and its file is the same in both runs from then on.
-/

namespace ScriptSplit

namespace Run

variable {r : Rerun} {reach : Reach} {known : Set Location} {config : Config}
  {environment : Table String} {source : Path} {slug : String}

theorem warnAll_again (source : String) (warnings : List Warning) :
    Again r reach known known (warnAll source warnings) := by
  unfold warnAll
  induction warnings with
  | nil => exact .pure ()
  | cons warning warnings ih => exact Again.bind_warn ih

def moduleTarget (config : Config) (source : Path) (slug : String) : Path :=
  (config.outputRoot.child source.groupName).child (moduleFileName slug source.basename ".js")

def modulePlace (config : Config) (source : Path) (current : Location) (slug : String) : Location :=
  (config.outputRoot.child source.groupName).place current ++
    [moduleFileName slug source.basename ".js"]

theorem copyForDebug_again (hcovers : config.Covers environment source r reach)
    (hnamed : source.Named) (hslug : isSlug slug = true) (hcopies : config.debugCopies = true)
    (hroot : config.root ∈ r.standing)
    (hmodules : config.outputRoot.child source.groupName ∈ r.standing)
    (hknown : modulePlace config source r.current slug ∈ known) (hfailures : ¬ r.failures) :
    Again r reach known known (copyForDebug config (moduleTarget config source slug)) := by
  have hwrites : config.Writes environment source config.debugDirectory
      (moduleFileName slug source.basename ".js") := .debugCopy hslug hcopies
  have hname := hwrites.notUp hnamed
  have hplace : (config.root.child "output_debug").place r.current =
      config.root.place r.current ++ ["output_debug"] := Path.place_child (by decide) _
  have hisName := moduleFileName_isName (c := 'j') hslug hnamed.noSlash.1 ".js" (by decide)
    (by decide) (by decide)
  unfold copyForDebug
  rw [moduleTarget, Path.child_name, Path.div_name _ hisName]
  rw [config.debugDirectory_eq] at hwrites ⊢
  have hwritable : (r.within (config.root.child "output_debug")).Writable reach
      (config.root.child "output_debug") (moduleFileName slug source.basename ".js") :=
    hwrites.writable ⟨hcovers.written, hcovers.made, hcovers.again⟩ hnamed (Set.mem_insert _ _)
  apply Again.making
  · intro first hfirst
    have hchanges := Storage.makeDirectories_child_changes (hfirst.standing _ hroot)
      (show "output_debug" ≠ ".." by decide)
    have hmade : {config.root.place first.current ++ ["output_debug"]} ⊆ reach.made := by
      rw [hcovers.made, hfirst.current]
      exact Set.singleton_subset_iff.2 (Or.inl rfl)
    have hmono := hchanges.mono (Set.Subset.refl _) hmade
    unfold Storage.filesAfter at hmono
    cases hrun : Storage.makeDirectories (config.root.child "output_debug") first with
    | ok _ made => rw [hrun] at hmono; exact hmono
    | error cause made => rw [hrun] at hmono; exact hmono
  · exact fun hmust => absurd hmust hfailures
  · exact (Again.copyFile (r := r.within (config.root.child "output_debug"))
      (Set.mem_insert_of_mem _ hmodules) hname hknown hwritable.standing hname
      (hwritable.touched (Or.inl rfl)) (hwritable.again (Or.inl rfl))
      (hwritable.made _ (Or.inl rfl))).forget

theorem writeModule_again (hcovers : config.Covers environment source r reach)
    (hnamed : source.Named) {m : ModuleSpec} (hslug : isSlug m.slug = true)
    (hroot : config.root ∈ r.standing)
    (hmodules : config.outputRoot.child source.groupName ∈ r.standing) (hfailures : ¬ r.failures)
    {facts : Facts} (hrecords : Emission.records facts m ≠ []) (reader : Script.Reader) (text : Text)
    (report : WriteReport) :
    Again r reach known (insert (modulePlace config source r.current m.slug) known)
      (writeModule config reader source text facts report m) := by
  have hwrites : config.Writes environment source (config.outputRoot.child source.groupName)
      (moduleFileName m.slug source.basename ".js") := .moduleFile hslug
  have hisName := moduleFileName_isName (c := 'j') hslug hnamed.noSlash.1 ".js" (by decide)
    (by decide) (by decide)
  have htarget : config.moduleDirectory source / moduleFileName m.slug source.basename ".js" =
      moduleTarget config source m.slug := by
    rw [Path.moduleDirectory_eq _ hnamed, Path.div_name _ hisName, moduleTarget]
  have hempty : (Emission.records facts m).isEmpty = false := by simpa using hrecords
  unfold writeModule
  simp only [htarget, hempty]
  apply (warnAll_again _ _).bind _ (Set.subset_insert _ _)
  rintro ⟨⟩ -
  apply (warnAll_again _ _).bind _ (Set.subset_insert _ _)
  rintro ⟨⟩ -
  apply (Again.writeText (hwrites.writable hcovers hnamed hmodules) _).bind _ (Set.Subset.refl _)
  rintro ⟨⟩ -
  split
  · next hcopies =>
    exact (copyForDebug_again hcovers hnamed hslug hcopies hroot hmodules (Set.mem_insert _ _)
      hfailures).seq fun _ => .pure _
  · exact .pure _

/-- All modules are written again, and known to be the same afterwards. -/
theorem writeModules_again (hcovers : config.Covers environment source r reach)
    (hnamed : source.Named) {plan : Plan} (hslugs : ∀ m ∈ plan.modules, isSlug m.slug = true)
    (hroot : config.root ∈ r.standing)
    (hmodules : config.outputRoot.child source.groupName ∈ r.standing) (hfailures : ¬ r.failures)
    {facts : Facts} (hrecords : ∀ m ∈ plan.modules, Emission.records facts m ≠ [])
    (reader : Script.Reader) (text : Text) :
    Again r reach ∅ { location | ∃ m ∈ plan.modules,
        location = modulePlace config source r.current m.slug }
      (plan.modules.foldlM (writeModule config reader source text facts) {}) := by
  rw [← Set.empty_union { location | ∃ m ∈ plan.modules, _ }]
  exact Again.foldlM_learning fun known report m hm =>
    writeModule_again hcovers hnamed (hslugs m hm) hroot hmodules hfailures (hrecords m hm) reader
      text report

end Run

end ScriptSplit
