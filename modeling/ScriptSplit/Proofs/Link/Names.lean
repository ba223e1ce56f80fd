import Mathlib.Data.List.Induction
import Mathlib.Data.List.Nodup
import ScriptSplit.Emit.Module
import ScriptSplit.Proofs.Link.Layout
import ScriptSplit.Proofs.Text.Names
import ScriptSplit.Stage.Write

/-!
# Names of modules

A layout knows the module of every name that can be exported, and calls make a module need exactly the
names that its functions call and other modules declare.
-/

namespace ScriptSplit

theorem mem_exportNames {records : List FunctionRecord} {name : String} :
    name ∈ exportNames records ↔ isExportable name = true ∧ ∃ f ∈ records, f.name = name := by
  unfold exportNames
  rw [List.mem_eraseDups, List.mem_filter, List.mem_map]
  exact and_comm

namespace Layout

variable {layout : Layout} {facts : Facts} {slug name : String}

/-! ## One more function -/

def Declares (facts : Facts) (id name : String) : Prop :=
  isExportable name = true ∧ ∃ f, facts.function? id = some f ∧ f.name = name

theorem addFunction_moduleOfId (facts : Facts) (slug : String) (layout : Layout) (id : String) :
    (addFunction facts slug layout id).moduleOfId = layout.moduleOfId.put id slug := by
  unfold addFunction
  split
  · split <;> rfl
  · rfl

theorem mem_names_addFunction {id other : String} :
    name ∈ (addFunction facts slug layout id).names other ↔
      name ∈ layout.names other ∨ other = slug ∧ Declares facts id name := by
  unfold addFunction Declares
  cases hf : facts.function? id with
  | none => simp [names]
  | some f =>
      by_cases hexportable : isExportable f.name = true
      · simp only [hexportable, if_true, names, Table.get?_put]
        by_cases hother : other = slug
        · subst hother
          simp only [if_true, Option.getD_some, true_and, Option.some.injEq, exists_eq_left']
          split
          · next hold =>
              rw [List.contains_iff_mem] at hold
              constructor
              · exact Or.inl
              · rintro (hmem | ⟨-, rfl⟩)
                · exact hmem
                · exact hold
          · rw [List.mem_append, List.mem_singleton]
            constructor
            · rintro (hmem | rfl)
              · exact Or.inl hmem
              · exact Or.inr ⟨hexportable, rfl⟩
            · rintro (hmem | ⟨-, rfl⟩)
              · exact Or.inl hmem
              · exact Or.inr rfl
        · simp [hother]
      · simp only [hexportable, Bool.false_eq_true, if_false, names, Option.some.injEq,
          exists_eq_left']
        constructor
        · exact Or.inl
        · rintro (hmem | ⟨-, hname, rfl⟩)
          · exact hmem
          · exact absurd hname hexportable

/-- The first module that declares a name keeps it. -/
theorem moduleOfName_addFunction {id target : String} :
    (addFunction facts slug layout id).moduleOfName.get? name = some target ↔
      layout.moduleOfName.get? name = some target ∨
        layout.moduleOfName.get? name = none ∧ slug = target ∧ Declares facts id name := by
  unfold addFunction Declares
  cases hf : facts.function? id with
  | none => simp
  | some f =>
      by_cases hexportable : isExportable f.name = true
      · simp only [hexportable, if_true, Table.get?_putNew, Option.some.injEq, exists_eq_left']
        cases hold : layout.moduleOfName.get? name with
        | some found => simp
        | none =>
            by_cases hname : name = f.name
            · subst hname
              simp [hexportable]
            · have hne : f.name ≠ name := Ne.symm hname
              simp [hname, hne]
      · simp only [hexportable, Bool.false_eq_true, if_false, Option.some.injEq, exists_eq_left']
        constructor
        · exact Or.inl
        · rintro (hget | ⟨-, -, hname, rfl⟩)
          · exact hget
          · exact absurd hname hexportable

/-- Whether the module of a name declares it, and every declared name has a module. -/
structure Named (layout : Layout) : Prop where
  declared : ∀ name slug, layout.moduleOfName.get? name = some slug → name ∈ layout.names slug
  found : ∀ name slug, name ∈ layout.names slug → (layout.moduleOfName.get? name).isSome = true

theorem Named.addFunction (h : layout.Named) (facts : Facts) (slug id : String) :
    (Layout.addFunction facts slug layout id).Named where
  declared name target hget := by
    rw [mem_names_addFunction]
    rcases moduleOfName_addFunction.1 hget with hold | ⟨-, rfl, hdeclares⟩
    · exact Or.inl (h.declared name target hold)
    · exact Or.inr ⟨rfl, hdeclares⟩
  found name other hmem := by
    rw [Option.isSome_iff_exists]
    cases hold : layout.moduleOfName.get? name with
    | some target => exact ⟨target, moduleOfName_addFunction.2 (Or.inl hold)⟩
    | none =>
        rcases mem_names_addFunction.1 hmem with hnames | ⟨-, hdeclares⟩
        · have hsome := h.found name other hnames
          rw [hold] at hsome
          cases hsome
        · exact ⟨slug, moduleOfName_addFunction.2 (Or.inr ⟨hold, rfl, hdeclares⟩)⟩

/-! ## The functions of one more module -/

theorem moduleOfId_foldl (facts : Facts) (slug : String) (ids : List String) (layout : Layout)
    (id : String) :
    (ids.foldl (addFunction facts slug) layout).moduleOfId.get? id =
      if id ∈ ids then some slug else layout.moduleOfId.get? id := by
  induction ids generalizing layout with
  | nil => simp
  | cons first ids ih =>
      rw [List.foldl_cons, ih, addFunction_moduleOfId, Table.get?_put]
      by_cases hids : id ∈ ids
      · simp [hids]
      · by_cases hfirst : id = first <;> simp [hids, hfirst]

theorem mem_names_foldl {ids : List String} {other : String} :
    name ∈ (ids.foldl (addFunction facts slug) layout).names other ↔
      name ∈ layout.names other ∨ other = slug ∧ ∃ id ∈ ids, Declares facts id name := by
  induction ids generalizing layout with
  | nil => simp
  | cons id ids ih =>
      rw [List.foldl_cons, ih, mem_names_addFunction]
      simp only [List.mem_cons, exists_eq_or_imp]
      tauto

theorem Named.foldl (h : layout.Named) (facts : Facts) (slug : String) (ids : List String) :
    (ids.foldl (Layout.addFunction facts slug) layout).Named := by
  induction ids generalizing layout with
  | nil => exact h
  | cons id ids ih => exact ih (h.addFunction facts slug id)

theorem originalSlug?_foldl (facts : Facts) (slug : String) (ids : List String) (layout : Layout) :
    (ids.foldl (addFunction facts slug) layout).originalSlug? = layout.originalSlug? := by
  induction ids generalizing layout with
  | nil => rfl
  | cons id ids ih =>
      rw [List.foldl_cons, ih]
      unfold addFunction
      split
      · split <;> rfl
      · rfl

theorem exists_declares {ids : List String} :
    (∃ id ∈ ids, Declares facts id name) ↔ name ∈ exportNames (ids.filterMap facts.function?) := by
  rw [mem_exportNames]
  constructor
  · rintro ⟨id, hid, hexportable, f, hf, rfl⟩
    exact ⟨hexportable, f, List.mem_filterMap.2 ⟨id, hid, hf⟩, rfl⟩
  · rintro ⟨hexportable, f, hf, rfl⟩
    obtain ⟨id, hid, hf⟩ := List.mem_filterMap.1 hf
    exact ⟨id, hid, hexportable, f, hf, rfl⟩

def opened (layout : Layout) (m : ModuleSpec) : Layout :=
  { layout with
    slugs := layout.slugs ++ [m.slug]
    originalSlug? := if m.isOriginal then some m.slug else layout.originalSlug?
    namesIn := layout.namesIn.putNew m.slug [] }

theorem addModule_eq (facts : Facts) (layout : Layout) (m : ModuleSpec) :
    addModule facts layout m = m.functions.foldl (addFunction facts m.slug) (layout.opened m) := rfl

@[simp] theorem names_opened (layout : Layout) (m : ModuleSpec) (slug : String) :
    (layout.opened m).names slug = layout.names slug := by
  unfold names opened
  simp only [Table.get?_putNew]
  cases layout.namesIn.get? slug with
  | some found => rfl
  | none => by_cases hslug : slug = m.slug <;> simp [hslug]

theorem mem_names_addModule {m : ModuleSpec} {other : String} :
    name ∈ (addModule facts layout m).names other ↔
      name ∈ layout.names other ∨
        other = m.slug ∧ name ∈ exportNames (Emission.records facts m) := by
  rw [addModule_eq, mem_names_foldl, exists_declares, names_opened]
  rfl

theorem Named.addModule (h : layout.Named) (facts : Facts) (m : ModuleSpec) :
    (Layout.addModule facts layout m).Named := by
  rw [addModule_eq]
  apply Named.foldl
  constructor
  · intro name slug hget
    rw [names_opened]
    exact h.declared name slug hget
  · intro name slug hmem
    rw [names_opened] at hmem
    exact h.found name slug hmem

/-! ## The layout of a plan -/

variable {plan : Plan} {directory : Path} {basename : String}

private theorem mem_names_modules {modules : List ModuleSpec} :
    name ∈ (modules.foldl (addModule facts) layout).names slug ↔
      name ∈ layout.names slug ∨
        ∃ m ∈ modules, slug = m.slug ∧ name ∈ exportNames (Emission.records facts m) := by
  induction modules generalizing layout with
  | nil => simp
  | cons m modules ih =>
      rw [List.foldl_cons, ih, mem_names_addModule]
      simp only [List.mem_cons, exists_eq_or_imp, or_assoc]

theorem mem_names_ofPlan :
    name ∈ (ofPlan plan facts directory basename).names slug ↔
      ∃ m ∈ plan.modules, slug = m.slug ∧ name ∈ exportNames (Emission.records facts m) := by
  unfold ofPlan
  rw [mem_names_modules]
  simp [names, Table.get?]

theorem ofPlan_named (plan : Plan) (facts : Facts) (directory : Path) (basename : String) :
    (ofPlan plan facts directory basename).Named := by
  unfold ofPlan
  apply List.foldlRecOn (motive := Named) plan.modules
  · exact ⟨by simp [Table.get?], by simp [names, Table.get?]⟩
  · exact fun layout hlayout m _ => hlayout.addModule facts m

/-- Where no function is in two modules, each has the module that lists it. -/
theorem moduleOfId_ofPlan (honce : plan.assigned.Nodup) {m : ModuleSpec} (hm : m ∈ plan.modules)
    {id : String} (hid : id ∈ m.functions) :
    (ofPlan plan facts directory basename).moduleOfId.get? id = some m.slug := by
  have hfold : ∀ (modules : List ModuleSpec) (layout : Layout),
      (modules.flatMap (·.functions)).Nodup →
        (m ∈ modules ∨ (∀ m' ∈ modules, id ∉ m'.functions) ∧
          layout.moduleOfId.get? id = some m.slug) →
            (modules.foldl (addModule facts) layout).moduleOfId.get? id = some m.slug := by
    intro modules
    induction modules with
    | nil =>
        rintro layout - (hnone | ⟨-, hget⟩)
        · cases hnone
        · exact hget
    | cons first modules ih =>
        intro layout hnodup hcases
        rw [List.flatMap_cons, List.nodup_append] at hnodup
        obtain ⟨-, hrest, hapart⟩ := hnodup
        have hafter := moduleOfId_foldl facts first.slug first.functions (layout.opened first) id
        rw [← addModule_eq] at hafter
        apply ih _ hrest
        rcases hcases with hmem | ⟨hnone, hget⟩
        · rcases List.mem_cons.1 hmem with rfl | hmem
          · refine Or.inr ⟨fun m' hm' hid' => ?_, ?_⟩
            · exact hapart id hid id (List.mem_flatMap.2 ⟨m', hm', hid'⟩) rfl
            · rw [if_pos hid] at hafter
              exact hafter
          · exact Or.inl hmem
        · refine Or.inr ⟨fun m' hm' => hnone m' (List.mem_cons_of_mem _ hm'), ?_⟩
          rw [if_neg (hnone first List.mem_cons_self)] at hafter
          exact hafter.trans hget
  exact hfold plan.modules _ honce (Or.inl hm)

theorem mem_of_moduleOfId_ofPlan {id : String}
    (hget : (ofPlan plan facts directory basename).moduleOfId.get? id = some slug) :
    ∃ m ∈ plan.modules, m.slug = slug ∧ id ∈ m.functions := by
  unfold ofPlan at hget
  revert hget
  apply List.foldlRecOn
    (motive := fun layout : Layout => layout.moduleOfId.get? id = some slug →
      ∃ m ∈ plan.modules, m.slug = slug ∧ id ∈ m.functions) plan.modules
  · intro hnone
    cases hnone
  · intro layout hlayout m hm hget
    rw [addModule_eq, moduleOfId_foldl] at hget
    split at hget
    · next hid => exact ⟨m, hm, Option.some.inj hget, hid⟩
    · exact hlayout hget

theorem acceptsImports_ofPlan {m : ModuleSpec} (hother : m.isOriginal = false) :
    (ofPlan plan facts directory basename).acceptsImports m.slug = true := by
  have hslug : ∀ original, (ofPlan plan facts directory basename).originalSlug? = some original →
      (Text.lower original == originalSlug) = true := by
    unfold ofPlan
    apply List.foldlRecOn
      (motive := fun layout : Layout => ∀ original, layout.originalSlug? = some original →
        (Text.lower original == originalSlug) = true) plan.modules
    · intro original hnone
      cases hnone
    · intro layout hlayout m' _ original horiginal
      rw [addModule_eq, originalSlug?_foldl] at horiginal
      simp only [opened] at horiginal
      split at horiginal
      · next hthis =>
          cases horiginal
          exact hthis
      · exact hlayout original horiginal
  unfold acceptsImports
  rw [bne_iff_ne]
  intro heq
  have hsame := hslug m.slug heq
  rw [show (Text.lower m.slug == originalSlug) = m.isOriginal from rfl, hother] at hsame
  cases hsame

/-! ## Names that calls need -/

theorem mem_add {needed : NeededNames} {importer other callee : String} :
    name ∈ ((needed.add importer callee).get? other).getD [] ↔
      name ∈ (needed.get? other).getD [] ∨ other = importer ∧ name = callee := by
  unfold NeededNames.add
  rw [Table.get?_put]
  by_cases hother : other = importer
  · subst hother
    simp [Names.mem_insert, or_comm]
  · simp [hother]

theorem calledNames_concat (layout : Layout) (calls : List CallEdge) (edge : CallEdge) :
    layout.calledNames (calls ++ [edge]) =
      ((layout.importerOf? edge).map fun importer =>
        (layout.calledNames calls).add importer edge.callee).getD (layout.calledNames calls) := by
  unfold calledNames
  rw [List.foldl_append, List.foldl_cons, List.foldl_nil]
  cases layout.importerOf? edge <;> rfl

theorem mem_calledNames {calls : List CallEdge} :
    name ∈ ((layout.calledNames calls).get? slug).getD [] ↔
      ∃ edge ∈ calls, layout.importerOf? edge = some slug ∧ edge.callee = name := by
  induction calls using List.reverseRecOn with
  | nil => simp [calledNames, Table.get?]
  | append_singleton calls edge ih =>
      rw [calledNames_concat]
      simp only [List.mem_append, List.mem_singleton, or_and_right, exists_or, exists_eq_left, ← ih]
      cases himporter : layout.importerOf? edge with
      | none => simp
      | some importer =>
          simp only [Option.map_some, Option.getD_some, mem_add, Option.some.injEq]
          rw [eq_comm (a := slug), eq_comm (a := name)]

theorem importerOf?_eq_some (h : layout.Named) {edge : CallEdge} :
    layout.importerOf? edge = some slug ↔
      layout.moduleOfId.get? edge.caller = some slug ∧ layout.acceptsImports slug = true ∧
        edge.callee ∉ layout.names slug ∧ (layout.moduleOfName.get? edge.callee).isSome = true := by
  unfold importerOf?
  simp only [Option.bind_eq_bind, Option.bind_eq_some_iff]
  constructor
  · rintro ⟨importer, himporter, target, htarget, hlast⟩
    split at hlast
    · cases hlast
    · next hguard =>
        cases hlast
        simp only [Bool.or_eq_true, decide_eq_true_eq, Bool.not_eq_true', not_or,
          Bool.not_eq_false, List.contains_iff_mem] at hguard
        exact ⟨himporter, hguard.1.2, hguard.2, by rw [htarget]; rfl⟩
  · rintro ⟨himporter, haccepts, hnames, hfound⟩
    obtain ⟨target, htarget⟩ := Option.isSome_iff_exists.1 hfound
    refine ⟨slug, himporter, target, htarget, ?_⟩
    have hdiff : slug ≠ target := by
      rintro rfl
      exact hnames (h.declared _ _ htarget)
    rw [if_neg]
    · rfl
    · simp [hdiff, haccepts, hnames]

end Layout

end ScriptSplit
