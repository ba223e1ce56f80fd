import ScriptSplit.Proofs.Link.Names
import ScriptSplit.Proofs.Plan.Storing

/-!
# Declared names

In the layout of a plan that was read, a module declares exactly the names that it exports, in the same
order, a name belongs to the first module that declares it, and imports are added to every module but the
one that keeps the source.
-/

namespace ScriptSplit

/-! ## Names as lists -/

theorem eraseDups_concat (names : List String) (name : String) :
    (names ++ [name]).eraseDups =
      if name ∈ names then names.eraseDups else names.eraseDups ++ [name] := by
  rw [List.eraseDups_append]
  by_cases hmem : name ∈ names <;> simp [List.removeAll, List.eraseDups_cons, hmem]

theorem nodup_eraseDups (names : List String) : names.eraseDups.Nodup := by
  induction names using List.reverseRecOn with
  | nil => simp
  | append_singleton names name ih =>
      rw [eraseDups_concat]
      by_cases hmem : name ∈ names
      · rwa [if_pos hmem]
      · rw [if_neg hmem]
        exact List.nodup_append'.2 ⟨ih, List.nodup_singleton name, by simpa using hmem⟩

theorem eraseDups_eq_self {names : List String} (hnodup : names.Nodup) : names.eraseDups = names := by
  induction names using List.reverseRecOn with
  | nil => rfl
  | append_singleton names name ih =>
      obtain ⟨hnames, -, hdisjoint⟩ := List.nodup_append'.1 hnodup
      rw [eraseDups_concat, if_neg fun hname => hdisjoint hname (List.mem_singleton_self name),
        ih hnames]

theorem exportNames_concat (records : List FunctionRecord) (f : FunctionRecord) :
    exportNames (records ++ [f]) =
      if isExportable f.name = true ∧ f.name ∉ exportNames records then
        exportNames records ++ [f.name]
      else exportNames records := by
  unfold exportNames
  rw [List.map_append, List.filter_append, List.map_singleton]
  by_cases hexportable : isExportable f.name = true
  · rw [List.filter_cons_of_pos hexportable, List.filter_nil, eraseDups_concat]
    by_cases hmem : f.name ∈ (records.map (·.name)).filter isExportable
    · rw [if_pos hmem, if_neg fun h => h.2 (List.mem_eraseDups.2 hmem)]
    · rw [if_neg hmem, if_pos ⟨hexportable, mt List.mem_eraseDups.1 hmem⟩]
  · rw [List.filter_cons_of_neg hexportable, List.filter_nil, List.append_nil,
      if_neg fun h => hexportable h.1]

theorem mem_exportNames_append {name : String} {records more : List FunctionRecord} :
    name ∈ exportNames (records ++ more) ↔ name ∈ exportNames records ∨ name ∈ exportNames more := by
  simp only [mem_exportNames, List.mem_append, or_and_right, exists_or, and_or_left]

namespace Layout

variable {layout : Layout} {facts : Facts} {slug other name : String}

theorem names_addFunction {records : List FunctionRecord} (h : layout.names slug = exportNames records)
    (id : String) : (addFunction facts slug layout id).names slug =
      exportNames (records ++ (facts.function? id).toList) := by
  unfold names at h
  unfold addFunction
  cases hf : facts.function? id with
  | none => simpa [names] using h
  | some f =>
      rw [Option.toList_some, exportNames_concat, ← h]
      by_cases hexportable : isExportable f.name = true
      · simp only [hexportable, if_true, names, Table.get?_put, Option.getD_some, true_and]
        by_cases hmem : f.name ∈ (layout.namesIn.get? slug).getD []
        · simp [hmem]
        · simp [hmem]
      · simp [hexportable, names]

theorem names_addFunction_of_ne (hne : other ≠ slug) (id : String) :
    (addFunction facts slug layout id).names other = layout.names other := by
  unfold addFunction
  split
  · split
    · simp [names, Table.get?_put, hne]
    · rfl
  · rfl

theorem names_foldl {records : List FunctionRecord} (h : layout.names slug = exportNames records)
    (ids : List String) : (ids.foldl (addFunction facts slug) layout).names slug =
      exportNames (records ++ ids.filterMap facts.function?) := by
  induction ids generalizing layout records with
  | nil => simpa using h
  | cons id ids ih =>
      rw [List.foldl_cons, ih (names_addFunction h id), List.append_assoc]
      cases hf : facts.function? id <;> simp [hf]

theorem names_foldl_of_ne (hne : other ≠ slug) (ids : List String) :
    (ids.foldl (addFunction facts slug) layout).names other = layout.names other := by
  induction ids generalizing layout with
  | nil => rfl
  | cons id ids ih => rw [List.foldl_cons, ih, names_addFunction_of_ne hne]

theorem names_modules_of_ne {modules : List ModuleSpec} (hne : ∀ m ∈ modules, slug ≠ m.slug) :
    (modules.foldl (addModule facts) layout).names slug = layout.names slug := by
  induction modules generalizing layout with
  | nil => rfl
  | cons m modules ih =>
      rw [List.foldl_cons, ih fun m' hm' => hne m' (List.mem_cons_of_mem _ hm'), addModule_eq,
        names_foldl_of_ne (hne m List.mem_cons_self), names_opened]

theorem names_modules {modules : List ModuleSpec} (hslugs : (modules.map (·.slug)).Nodup)
    (hnone : ∀ m ∈ modules, layout.names m.slug = []) {m : ModuleSpec} (hm : m ∈ modules) :
    (modules.foldl (addModule facts) layout).names m.slug =
      exportNames (Emission.records facts m) := by
  induction modules generalizing layout with
  | nil => cases hm
  | cons first modules ih =>
      rw [List.map_cons, List.nodup_cons] at hslugs
      obtain ⟨hfirst, hslugs⟩ := hslugs
      have hne : ∀ m' ∈ modules, first.slug ≠ m'.slug := fun m' hm' heq =>
        hfirst (heq ▸ List.mem_map_of_mem hm')
      rw [List.foldl_cons]
      rcases List.mem_cons.1 hm with rfl | hm
      · have hopened : (layout.opened m).names m.slug = exportNames [] := by
          rw [names_opened, hnone m List.mem_cons_self]
          rfl
        rw [names_modules_of_ne hne, addModule_eq, names_foldl hopened]
        rfl
      · refine ih hslugs (fun m' hm' => ?_) hm
        rw [addModule_eq, names_foldl_of_ne (hne m' hm').symm, names_opened]
        exact hnone m' (List.mem_cons_of_mem _ hm')

/-! ## The module of a name -/

theorem moduleOfName_addFunction_eq (facts : Facts) (slug : String) (layout : Layout) (id : String) :
    (addFunction facts slug layout id).moduleOfName.get? name =
      (layout.moduleOfName.get? name).or
        (if name ∈ exportNames (facts.function? id).toList then some slug else none) := by
  have hdeclares : Declares facts id name ↔ name ∈ exportNames (facts.function? id).toList := by
    rw [mem_exportNames]
    simp [Declares]
  apply Option.ext
  intro target
  rw [moduleOfName_addFunction, hdeclares]
  cases hold : layout.moduleOfName.get? name with
  | some found => simp
  | none => by_cases hname : name ∈ exportNames (facts.function? id).toList <;> simp [hname]

theorem moduleOfName_foldl (facts : Facts) (slug : String) (layout : Layout) (ids : List String) :
    (ids.foldl (addFunction facts slug) layout).moduleOfName.get? name =
      (layout.moduleOfName.get? name).or
        (if name ∈ exportNames (ids.filterMap facts.function?) then some slug else none) := by
  induction ids generalizing layout with
  | nil => simp [exportNames]
  | cons id ids ih =>
      have hsplit : (id :: ids).filterMap facts.function? =
          (facts.function? id).toList ++ ids.filterMap facts.function? := by
        cases hf : facts.function? id <;> simp [hf]
      rw [List.foldl_cons, ih, moduleOfName_addFunction_eq, Option.or_assoc, hsplit]
      simp only [mem_exportNames_append]
      by_cases hid : name ∈ exportNames (facts.function? id).toList <;> simp [hid]

/-- A name belongs to the first module that declares it. -/
theorem moduleOfName_modules (facts : Facts) (layout : Layout) (modules : List ModuleSpec) :
    (modules.foldl (addModule facts) layout).moduleOfName.get? name =
      (layout.moduleOfName.get? name).or
        ((modules.find? fun m => (exportNames (Emission.records facts m)).contains name).map
          (·.slug)) := by
  induction modules generalizing layout with
  | nil => simp
  | cons m modules ih =>
      rw [List.foldl_cons, ih, addModule_eq, moduleOfName_foldl, Option.or_assoc]
      have hopened : (layout.opened m).moduleOfName = layout.moduleOfName := rfl
      have hrecords : m.functions.filterMap facts.function? = Emission.records facts m := rfl
      rw [hopened, hrecords, List.find?_cons]
      by_cases hname : name ∈ exportNames (Emission.records facts m) <;> simp [hname]

def Unambiguous (table : Table String) : Prop :=
  ∀ entry ∈ table, table.get? entry.1 = some entry.2

theorem Unambiguous.putNew {table : Table String} (h : Unambiguous table) (name slug : String) :
    Unambiguous (table.putNew name slug) := by
  intro entry hentry
  unfold Table.putNew at hentry ⊢
  split at hentry
  · exact h entry hentry
  · next hfound =>
      rw [Table.get?_append, Table.get?_cons]
      rcases List.mem_append.1 hentry with hold | hnew
      · rw [h entry hold]
        rfl
      · obtain rfl := List.mem_singleton.1 hnew
        rw [hfound, if_pos rfl]
        rfl

theorem moduleOfName_unambiguous (plan : Plan) (facts : Facts) (directory : Path)
    (basename : String) : Unambiguous (ofPlan plan facts directory basename).moduleOfName := by
  unfold ofPlan
  apply List.foldlRecOn (motive := fun layout : Layout => Unambiguous layout.moduleOfName)
    plan.modules
  · simp [Unambiguous]
  · intro layout hlayout m _
    rw [addModule_eq]
    apply List.foldlRecOn (motive := fun layout : Layout => Unambiguous layout.moduleOfName)
      m.functions
    · exact hlayout
    · intro layout hlayout id _
      unfold addFunction
      split
      · split
        · exact hlayout.putNew _ _
        · exact hlayout
      · exact hlayout

/-! ## The module that keeps the source -/

theorem originalSlug?_modules (facts : Facts) (layout : Layout) (modules : List ModuleSpec) :
    (modules.foldl (addModule facts) layout).originalSlug? =
      ((modules.reverse.find? (·.isOriginal)).map (·.slug)).or layout.originalSlug? := by
  induction modules generalizing layout with
  | nil => simp
  | cons m modules ih =>
      rw [List.foldl_cons, ih, addModule_eq, originalSlug?_foldl, List.reverse_cons,
        List.find?_append]
      cases hfound : modules.reverse.find? (·.isOriginal) with
      | some found => simp
      | none => by_cases horiginal : m.isOriginal = true <;> simp [opened, horiginal]

/-! ## The layout of a plan that was read -/

section Plan

variable {plan : Plan} (hplan : plan.Storable) (facts : Facts) (directory : Path) (basename : String)

include hplan

theorem eq_of_lower_slug {m m' : ModuleSpec} (hm : m ∈ plan.modules) (hm' : m' ∈ plan.modules)
    (hslug : Text.lower m.slug = Text.lower m'.slug) : m = m' :=
  List.inj_on_of_nodup_map hplan.apart hm hm' hslug

theorem slugs_nodup : (plan.modules.map (·.slug)).Nodup := by
  have hlower : plan.modules.map (Text.lower ·.slug) =
      (plan.modules.map (·.slug)).map Text.lower := by simp
  have hapart := hplan.apart
  rw [hlower] at hapart
  exact hapart.of_map

theorem names_ofPlan {m : ModuleSpec} (hm : m ∈ plan.modules) :
    (ofPlan plan facts directory basename).names m.slug = exportNames (Emission.records facts m) :=
  names_modules (slugs_nodup hplan) (fun _ _ => rfl) hm

theorem acceptsImports_eq {m : ModuleSpec} (hm : m ∈ plan.modules) :
    (ofPlan plan facts directory basename).acceptsImports m.slug = !m.isOriginal := by
  by_cases horiginal : m.isOriginal = true
  · have hslug : (ofPlan plan facts directory basename).originalSlug? = some m.slug := by
      rw [ofPlan, originalSlug?_modules]
      cases hfound : plan.modules.reverse.find? (·.isOriginal) with
      | none =>
          exact absurd horiginal (List.find?_eq_none.1 hfound m (List.mem_reverse.2 hm))
      | some found =>
          have hkept : found.isOriginal = true := by simpa using List.find?_some hfound
          have hmem := List.mem_reverse.1 (List.mem_of_find?_eq_some hfound)
          have hlower : Text.lower found.slug = Text.lower m.slug :=
            (eq_of_beq hkept).trans (eq_of_beq horiginal).symm
          rw [eq_of_lower_slug hplan hmem hm hlower]
          rfl
    simp [acceptsImports, hslug, horiginal]
  · rw [Bool.not_eq_true] at horiginal
    rw [acceptsImports_ofPlan horiginal, horiginal]
    rfl

end Plan

theorem moduleOfName_ofPlan (plan : Plan) (facts : Facts) (directory : Path) (basename : String) :
    (ofPlan plan facts directory basename).moduleOfName.get? name =
      (plan.modules.find? fun m => (exportNames (Emission.records facts m)).contains name).map
        (·.slug) := by
  rw [ofPlan, moduleOfName_modules]
  rfl

section Found

variable {plan : Plan} {facts : Facts} {directory : Path} {basename target : String}
  (hget : (ofPlan plan facts directory basename).moduleOfName.get? name = some target)

include hget

theorem exists_module_of_moduleOfName : ∃ m ∈ plan.modules, m.slug = target := by
  rw [moduleOfName_ofPlan] at hget
  obtain ⟨m, hfound, hslug⟩ := Option.map_eq_some_iff.1 hget
  exact ⟨m, List.mem_of_find?_eq_some hfound, hslug⟩

theorem exists_function_of_moduleOfName :
    isExportable name = true ∧ ∃ f ∈ facts.functions, f.name = name := by
  rw [moduleOfName_ofPlan] at hget
  obtain ⟨m, hfound, -⟩ := Option.map_eq_some_iff.1 hget
  have hname := List.find?_some hfound
  obtain ⟨hexportable, f, hf, rfl⟩ := mem_exportNames.1 (List.contains_iff_mem.1 hname)
  obtain ⟨id, -, hid⟩ := List.mem_filterMap.1 hf
  exact ⟨hexportable, f, List.mem_reverse.1 (List.mem_of_find?_eq_some hid), rfl⟩

end Found

end Layout

end ScriptSplit
