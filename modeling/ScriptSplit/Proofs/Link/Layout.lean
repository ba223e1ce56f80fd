import ScriptSplit.Link.Imports
import ScriptSplit.Proofs.Table

/-!
# What a layout says

The module of a name or of a function is always one of the plan, and so are the modules that imports are
found for.
-/

namespace ScriptSplit

namespace Layout

/-- Whether a layout knows no modules but its own. -/
structure Closed (layout : Layout) : Prop where
  moduleOfId : ∀ entry ∈ layout.moduleOfId, entry.2 ∈ layout.slugs
  moduleOfName : ∀ entry ∈ layout.moduleOfName, entry.2 ∈ layout.slugs

theorem addFunction_slugs (facts : Facts) (slug : String) (layout : Layout) (id : String) :
    (addFunction facts slug layout id).slugs = layout.slugs := by
  unfold addFunction
  split
  · split <;> rfl
  · rfl

theorem addFunction_directory (facts : Facts) (slug : String) (layout : Layout) (id : String) :
    (addFunction facts slug layout id).directory = layout.directory ∧
      (addFunction facts slug layout id).basename = layout.basename := by
  unfold addFunction
  split
  · split <;> exact ⟨rfl, rfl⟩
  · exact ⟨rfl, rfl⟩

theorem mem_putNew {table : Table String} {name value : String} {entry : String × String}
    (hentry : entry ∈ table.putNew name value) : entry = (name, value) ∨ entry ∈ table := by
  unfold Table.putNew at hentry
  split at hentry
  · exact Or.inr hentry
  · rcases List.mem_append.1 hentry with hold | hnew
    · exact Or.inr hold
    · exact Or.inl (List.mem_singleton.1 hnew)

theorem Closed.addFunction {layout : Layout} (h : layout.Closed) {facts : Facts} {slug : String}
    (hslug : slug ∈ layout.slugs) (id : String) :
    (Layout.addFunction facts slug layout id).Closed := by
  have hid : ∀ entry ∈ layout.moduleOfId.put id slug, entry.2 ∈ layout.slugs := by
    intro entry hentry
    rcases Table.mem_put hentry with rfl | hold
    · exact hslug
    · exact h.moduleOfId entry hold
  constructor
  · rw [addFunction_slugs]
    unfold Layout.addFunction
    split
    · split <;> exact hid
    · exact hid
  · rw [addFunction_slugs]
    unfold Layout.addFunction
    split
    · split
      · intro entry hentry
        rcases mem_putNew hentry with rfl | hold
        · exact hslug
        · exact h.moduleOfName entry hold
      · exact h.moduleOfName
    · exact h.moduleOfName

theorem foldl_addFunction (facts : Facts) {slug : String} (ids : List String) {layout : Layout}
    (h : layout.Closed) (hslug : slug ∈ layout.slugs) :
    let after := ids.foldl (Layout.addFunction facts slug) layout
    after.Closed ∧ after.slugs = layout.slugs ∧ after.directory = layout.directory ∧
      after.basename = layout.basename := by
  induction ids generalizing layout with
  | nil => exact ⟨h, rfl, rfl, rfl⟩
  | cons id ids ih =>
      have hslugs := addFunction_slugs facts slug layout id
      obtain ⟨hdirectory, hbasename⟩ := addFunction_directory facts slug layout id
      have hrest := ih (h.addFunction hslug id) (hslugs ▸ hslug)
      rw [hslugs, hdirectory, hbasename] at hrest
      exact hrest

theorem addModule_closed (facts : Facts) {layout : Layout} (h : layout.Closed) (m : ModuleSpec) :
    (addModule facts layout m).Closed ∧
      (addModule facts layout m).slugs = layout.slugs ++ [m.slug] ∧
        (addModule facts layout m).directory = layout.directory ∧
          (addModule facts layout m).basename = layout.basename := by
  apply foldl_addFunction
  · constructor
    · intro entry hentry
      exact List.mem_append_left _ (h.moduleOfId entry hentry)
    · intro entry hentry
      exact List.mem_append_left _ (h.moduleOfName entry hentry)
  · simp

private theorem foldl_addModule (facts : Facts) (modules : List ModuleSpec) {layout : Layout}
    (h : layout.Closed) :
    let after := modules.foldl (addModule facts) layout
    after.Closed ∧ after.slugs = layout.slugs ++ modules.map (·.slug) ∧
      after.directory = layout.directory ∧ after.basename = layout.basename := by
  induction modules generalizing layout with
  | nil => simp [h]
  | cons m modules ih =>
      obtain ⟨hclosed, hslugs, hdirectory, hbasename⟩ := addModule_closed facts h m
      have hrest := ih hclosed
      rw [hslugs, hdirectory, hbasename] at hrest
      simpa using hrest

variable (plan : Plan) (facts : Facts) (directory : Path) (basename : String)

private theorem empty_closed : ({ directory, basename } : Layout).Closed :=
  ⟨by simp, by simp⟩

theorem ofPlan_closed : (ofPlan plan facts directory basename).Closed :=
  (foldl_addModule facts plan.modules ⟨by simp, by simp⟩).1

@[simp] theorem ofPlan_slugs :
    (ofPlan plan facts directory basename).slugs = plan.modules.map (·.slug) := by
  have hslugs := (foldl_addModule facts plan.modules (empty_closed directory basename)).2.1
  simpa [ofPlan] using hslugs

@[simp] theorem ofPlan_directory :
    (ofPlan plan facts directory basename).directory = directory :=
  (foldl_addModule facts plan.modules (empty_closed directory basename)).2.2.1

@[simp] theorem ofPlan_basename :
    (ofPlan plan facts directory basename).basename = basename :=
  (foldl_addModule facts plan.modules (empty_closed directory basename)).2.2.2

variable {layout : Layout}

theorem Closed.importerOf? (h : layout.Closed) {edge : CallEdge} {importer : String}
    (himporter : layout.importerOf? edge = some importer) : importer ∈ layout.slugs := by
  unfold Layout.importerOf? at himporter
  simp only [Option.bind_eq_bind, Option.bind_eq_some_iff] at himporter
  obtain ⟨found, hfound, target, -, hlast⟩ := himporter
  split at hlast
  · cases hlast
  · cases hlast
    exact h.moduleOfId _ (Table.mem_of_get? hfound)

end Layout

def NeededNames.Within (needed : NeededNames) (slugs : List String) : Prop :=
  ∀ entry ∈ needed, entry.1 ∈ slugs

namespace NeededNames

variable {needed : NeededNames} {slugs : List String}

theorem Within.add (h : needed.Within slugs) {slug : String} (hslug : slug ∈ slugs)
    (name : String) : (needed.add slug name).Within slugs := by
  intro entry hentry
  rcases Table.mem_put hentry with rfl | hold
  · exact hslug
  · exact h entry hold

theorem Within.sorted (h : needed.Within slugs) : needed.sorted.Within slugs :=
  fun entry hentry => h entry (List.mem_mergeSort.1 hentry)

end NeededNames

/-- What holds of no needed names and stays with every call that leads into another module holds of those
that calls need. -/
theorem Layout.calledNames_rec {layout : Layout} {calls : List CallEdge} (property : NeededNames → Prop)
    (hnone : property [])
    (hadd : ∀ needed, ∀ edge ∈ calls, ∀ importer, layout.importerOf? edge = some importer →
      property needed → property (needed.add importer edge.callee)) :
    property (layout.calledNames calls) := by
  unfold Layout.calledNames
  refine List.foldlRecOn (motive := property) calls _ hnone ?_
  intro needed hneeded edge hedge
  split
  · next importer himporter => exact hadd needed edge hedge importer himporter hneeded
  · exact hneeded

theorem ImportPreview.needed_rec {preview : ImportPreview} (property : NeededNames → Prop)
    (hnone : property [])
    (hadd : ∀ needed, ∀ entry ∈ preview, ∀ line ∈ entry.2, ∀ name, nameIn? line = some name →
      property needed → property (needed.add entry.1 name)) :
    property preview.needed := by
  unfold ImportPreview.needed
  refine List.foldlRecOn (motive := property) preview _ hnone ?_
  intro needed hneeded entry hentry
  refine List.foldlRecOn (motive := property) (entry.2.filterMap nameIn?) _ hneeded ?_
  intro needed hneeded name hname
  obtain ⟨line, hline, hnamed⟩ := List.mem_filterMap.1 hname
  exact hadd needed entry hentry line hline name hnamed hneeded

theorem Layout.Closed.calledNames {layout : Layout} (h : layout.Closed) (calls : List CallEdge) :
    (layout.calledNames calls).Within layout.slugs := by
  apply calledNames_rec fun needed => needed.Within layout.slugs
  · simp [NeededNames.Within]
  · exact fun needed _ _ _ himporter hneeded => hneeded.add (h.importerOf? himporter) _

theorem ImportPreview.needed_within {preview : ImportPreview} {slugs : List String}
    (hpreview : ∀ entry ∈ preview, entry.1 ∈ slugs) : preview.needed.Within slugs := by
  apply needed_rec fun needed => needed.Within slugs
  · simp [NeededNames.Within]
  · exact fun needed entry hentry _ _ name _ hneeded => hneeded.add (hpreview entry hentry) name

end ScriptSplit
