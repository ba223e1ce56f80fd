import ScriptSplit.Proofs.Stage.Rerun

/-!
# What linking leaves of the modules

Once the modules have their imports, nothing is written to their files any more: documents, bridges, the CommonJS
forms, the copy of the backup and the shim all have other names or are in other directories. Only a module that is
called like the backup would be in its place.
-/

namespace ScriptSplit

open Storage (touchedBy)

/-- The reach of a run that leaves some places alone. -/
def Reach.sparing (reach : Reach) (spared : Set Location) : Reach :=
  { reach with touched := reach.touched \ spared }

theorem Rerun.Writable.sparing {r : Rerun} {reach : Reach} {directory : Path} {name : String}
    (h : r.Writable reach directory name) {spared : Set Location}
    (hspared : ∀ location ∈ touchedBy directory name r.current, location ∉ spared) :
    r.Writable (reach.sparing spared) directory name :=
  { h with touched := fun location hmem => ⟨h.touched hmem, hspared location hmem⟩ }

namespace Path

variable {source : Path}

theorem suffix_eq_of_js {start start' : String}
    (heq : start ++ ".js" = start' ++ source.suffix) (hsuffix : source.suffix ≠ "") :
    source.suffix = ".js" := by
  have hlists := congrArg String.toList heq
  rw [String.toList_append, String.toList_append] at hlists
  obtain ⟨rest, hrest, hpoint⟩ := (splitName_suffix source.name).resolve_left hsuffix
  rw [← suffix] at hrest
  rw [hrest] at hlists
  have hjs : (".js" : String).toList = ['.', 'j', 's'] := by decide
  have hfirst : (".js" : String).toList <:+ start'.toList ++ '.' :: rest := hlists ▸ List.suffix_append ..
  have hsecond : '.' :: rest <:+ start'.toList ++ '.' :: rest := List.suffix_append ..
  rw [← String.toList_inj, hrest, hjs]
  rw [hjs] at hfirst
  rcases le_total ['.', 'j', 's'].length ('.' :: rest).length with hle | hle
  · -- a longer suffix would have another point
    rcases List.suffix_cons_iff.1 (List.suffix_of_suffix_length_le hfirst hsecond hle) with
      hsame | hinner
    · exact hsame.symm
    · exact absurd (hinner.mem (by simp)) hpoint
  · rcases List.suffix_cons_iff.1 (List.suffix_of_suffix_length_le hsecond hfirst hle) with
      hsame | hinner
    · exact hsame
    · exact absurd (hinner.mem (by simp : '.' ∈ '.' :: rest)) (by decide)

theorem moduleFileName_ne_backupName {slug : String} (hold : slug ≠ source.basename ++ "_old") :
    moduleFileName slug source.basename ".js" ≠ source.backupName := by
  intro heq
  unfold moduleFileName backupName at heq
  split at heq
  · rw [String.append_assoc, String.append_right_inj, ← String.toList_inj, String.toList_append] at heq
    exact absurd (congrArg List.head? heq) (by simp)
  · by_cases hsuffix : source.suffix = ""
    · rw [hsuffix, String.append_empty] at heq
      exact append_ne_append (by decide) _ _ heq
    · rw [suffix_eq_of_js heq hsuffix] at heq
      exact hold ((String.append_left_inj _).1 heq)

end Path

namespace Run

variable {config : Config} {environment : Table String} {current : Location} {source directory : Path}
  {plan : Plan} {name : String}

/-! ## Places -/

/-- Nothing but a script is in the place of a module. -/
theorem other_not_module (hname : ∀ front, name ≠ front ++ ".js") :
    ∀ location ∈ touchedBy directory name current,
      location ∉ modulePlaces config source plan current := by
  rintro location hmem ⟨m, -, rfl⟩
  obtain ⟨front, hfile⟩ := moduleFileName_eq m.slug source.basename ".js"
  rw [modulePlace, hfile] at hmem
  exact Storage.not_mem_touchedBy (hname front).symm (append_ne_append (by decide) _ _) hmem

theorem beside_not_module (hclear : config.Clear environment current source) (hnamed : source.Named)
    (name : String) :
    source.parent.place current ++ [name] ∉ modulePlaces config source plan current := by
  rintro ⟨m, -, heq⟩
  apply hclear.toOutside.neighbour_not_away hnamed name
  rw [heq]
  exact Or.inl (Or.inl (Storage.touchedBy_child_subset_below _ (Path.isName_groupName hnamed).notUp
    (moduleFileName m.slug source.basename ".js") _ (Or.inl rfl)))

theorem touchedBy_beside_not_module (hclear : config.Clear environment current source)
    (hnamed : source.Named) : ∀ location ∈ touchedBy source.parent name current,
      location ∉ modulePlaces config source plan current := by
  rintro location (rfl | rfl)
  · exact beside_not_module hclear hnamed _
  · exact beside_not_module hclear hnamed _

theorem backupCopy_not_module (hold : ∀ m ∈ plan.modules, m.slug ≠ source.basename ++ "_old") :
    ∀ location ∈ touchedBy directory source.backupName current,
      location ∉ modulePlaces config source plan current := by
  rintro location hmem ⟨m, hm, rfl⟩
  obtain ⟨front, hfile⟩ := moduleFileName_eq m.slug source.basename ".js"
  refine Storage.not_mem_touchedBy (Path.moduleFileName_ne_backupName (hold m hm)) ?_ hmem
  rw [hfile]
  exact append_ne_append (by decide) _ _

end Run

def Config.laterReach (config : Config) (environment : Table String) (source : Path) (plan : Plan)
    (current : Location) : Reach :=
  (config.reach environment source current ∅).sparing (Run.modulePlaces config source plan current)

theorem Config.laterReach_subset {config : Config} {environment : Table String} {source : Path}
    {plan : Plan} {current : Location} :
    (config.laterReach environment source plan current).touched ⊆
      config.writtenPlaces environment source current :=
  Set.sdiff_subset.trans (Set.union_empty _).subset

namespace Run

/-! ## Steps -/

namespace Placed

variable {config : Config} {environment : Table String} {source : Path} {plan : Plan} {facts : Facts}
  {r : Rerun} {known : Set Location} {layout : Layout}

section Layout

variable (h : Placed config environment source layout r)

include h

theorem bridge_later : r.Writable (config.laterReach environment source plan r.current) source.parent
    source.bridgeName :=
  (Config.Writes.bridge.writable (h.covers ∅) h.named h.parent).sparing
    (touchedBy_beside_not_module h.clear h.named)

theorem requireBridge_later : r.Writable (config.laterReach environment source plan r.current)
    source.parent source.requireBridgeName :=
  (Config.Writes.requireBridge.writable (h.covers ∅) h.named h.parent).sparing
    (touchedBy_beside_not_module h.clear h.named)

theorem backupCopy_later (hold : ∀ m ∈ plan.modules, m.slug ≠ source.basename ++ "_old") :
    r.Writable (config.laterReach environment source plan r.current)
      (config.outputRoot.child source.groupName) source.backupName :=
  (Config.Writes.backupCopy.writable (h.covers ∅) h.named h.modules).sparing
    (backupCopy_not_module hold)

theorem mirror_later {mirror : Path} (hmirror : config.mirrorRoot? = some mirror) :
    ∃ (top : Path) (name : String), mirror = top.child name ∧
      Linking.MirrorWritable r (config.laterReach environment source plan r.current) layout top name
        source.groupName := by
  obtain ⟨top, name, heq, hwritable⟩ :=
    h.mirrorWritable hmirror fun location _ => Set.notMem_empty location
  refine ⟨top, name, heq, { hwritable with untouched := ?_, writable := ?_ }⟩
  · exact fun location hlocation hmem => hwritable.untouched location hlocation hmem.1
  · intro slug hslug
    obtain ⟨front, hfile⟩ := moduleFileName_eq slug layout.basename ".cjs"
    refine (hwritable.writable slug hslug).sparing (other_not_module fun front' => ?_)
    rw [hfile]
    exact append_ne_append (by decide) _ _

end Layout

theorem surround_later {l : Linking} (h : Placed l.config environment l.source l.layout r)
    {s s' : RunState} {text : Text} {path : Path} {surrounded : Linking.Surrounded}
    (hold : ∀ m ∈ plan.modules, m.slug ≠ l.source.basename ++ "_old") (hready : r.Ready s.files)
    (hread : Storage.readOriginal l.source s.files = .ok (text, path) s.files)
    (hrun : l.surround r.first s = .ok surrounded s') :
    Files.Changes ((l.config.laterReach environment l.source plan r.current).touched ∪
        Storage.heldPlaces l.source r.current)
      (l.config.madePlaces l.source r.current) s.files s'.files := by
  obtain ⟨backup, warnings, s₁, bridge, more, s₂, mirrored, s₃, hbackup, hbridge, hmirror, hlast⟩ :=
    Linking.surround_eq_ok.1 ⟨surrounded, hrun⟩
  have hstanding := hready.standing _ h.parent
  obtain ⟨hmoved, hsecured⟩ := secured_of_backUp h.named h.clear.pattern hstanding hread hbackup
  rw [hready.current] at hmoved
  have hready₁ := hready.changes hmoved
  have hbridges : Again r (l.config.laterReach environment l.source plan r.current) ∅ ∅
      (l.writeBridges backup) :=
    Linking.writeBridges_again h.named h.failures h.bridge_later backup
  have hmirrors : Again r (l.config.laterReach environment l.source plan r.current) Set.univ Set.univ
      (bestEffort "CommonJS mirror" l.writeMirror) :=
    (Linking.writeMirror_again h.named (h.modulesKnown fun _ _ => Set.mem_univ _)
      (fun _ hmirror => h.mirror_later hmirror) h.requireBridge_later).bestEffort h.failures
  have hwritten := hbridges.changes_ok hbridge hready₁
  have hready₂ := hready₁.changes hwritten
  have hchanges := hwritten.trans (hmirrors.changes_ok hmirror hready₂)
  have hready₃ := hready₁.changes hchanges
  have hsaved := Storage.backupPlaces_subset_saved l.source r.current
  have hall : Files.Changes ((l.config.laterReach environment l.source plan r.current).touched ∪
      Storage.heldPlaces l.source r.current) (l.config.madePlaces l.source r.current) s.files
        s₃.files :=
    (hmoved.mono (hsaved.trans (Set.subset_union_right.trans Set.subset_union_right))
      (Set.empty_subset _)).trans (hchanges.mono Set.subset_union_left (Set.Subset.refl _))
  rcases hlast with ⟨path, target, rfl, rfl, hreplaced⟩ | ⟨-, rfl⟩
  · obtain ⟨shim, s₄, copied, hshim, hcopied⟩ := Linking.replaceSource_eq_ok.1 hreplaced
    obtain ⟨-, hrecoverable⟩ := Linking.secured_changes h hready₁ hsecured
      (hchanges.mono Config.laterReach_subset (Set.Subset.refl _))
    obtain ⟨own, hown, -⟩ := hrecoverable.own
    obtain ⟨name, -, hup, rfl⟩ := Storage.findBackup_eq_some (hready₃.standing _ h.parent) h.named
      h.isAbsolute hrecoverable.found
    obtain ⟨hshimmed, -⟩ := Linking.shimmed_of_writeShim h.named (hready₃.standing _ h.parent) hown
      hshim
    rw [hready₃.current] at hshimmed
    have hcopies : Again r (l.config.laterReach environment l.source plan r.current) Set.univ Set.univ
        (bestEffort "backup copy" (l.copyBackup (l.source.parent.child name))) :=
      (Linking.copyBackup_again h.named hup h.parent (Set.mem_univ _)
        (h.backupCopy_later hold)).bestEffort h.failures
    have hcopy := hcopies.changes_ok hcopied (hready₃.changes hshimmed)
    exact (hall.trans (hshimmed.mono (Set.subset_union_left.trans Set.subset_union_right)
      (Set.empty_subset _))).trans (hcopy.mono Set.subset_union_left (Set.Subset.refl _))
  · exact hall

section Linked

variable (h : Placed config environment source
    (Layout.ofPlan plan facts (config.moduleDirectory source) source.basename) r)
  (hplans : config.plansPath environment ∈ r.standing)

include h hplans

theorem document_later {name : String} (hname : name ∈ Config.linkDocuments) :
    r.Writable (config.laterReach environment source plan r.current) (config.plansPath environment)
      name := by
  have hends : ∀ doc ∈ Config.linkDocuments, ¬ ".js".toList <:+ doc.toList := by decide
  refine (h.document hplans hname).sparing (other_not_module fun front heq => ?_)
  exact hends name hname (heq ▸ ⟨front.toList, String.toList_append.symm⟩)

theorem gather_later (hknown : modulePlaces config source plan r.current ⊆ known) (text : Text)
    (imports : ImportPlan) (importWarnings : List Warning) (inserted : Nat) :
    Again r (config.laterReach environment source plan r.current) known known
      (gather config (config.plansPath environment) source text facts
        (Layout.ofPlan plan facts (config.moduleDirectory source) source.basename) imports
        importWarnings inserted) := by
  apply gather_again (h.modulesKnown fun slug hslug => hknown (h.modulePlaces_written.1 slug hslug))
    h.failures
  exact fun name hname => h.document_later hplans (List.mem_cons_of_mem _ hname)

theorem report_later (doc : Json) :
    Again r (config.laterReach environment source plan r.current) known known
      (step .report (pure doc) >>=
        writeLinkDocument (config.plansPath environment / "report.json")) :=
  (Again.step_pure doc).seq fun _ =>
    writeLinkDocument_again ⟨by decide, by decide, by decide, by decide⟩
      (h.document_later hplans (by simp [Config.linkDocuments])) _

end Linked

end Placed

end Run

end ScriptSplit
