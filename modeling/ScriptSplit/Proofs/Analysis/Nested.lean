import Mathlib.Data.List.Forall2
import ScriptSplit.Proofs.Analysis.Scope

/-!
# Nested functions are closed

The scope of a function is told by its tree outside of the functions nested in it. All that is seen of a nested function
is the name that its declaration has in the scope around it: any other function may stand in its place, of another kind
and with other contents, and at other places in the text.
-/

namespace ScriptSplit

open Script

namespace Script.Tree

variable {t u : Tree}

/-! ## Agreement -/

/-- Trees that agree outside of the functions in them and on the names that these declare around them. The places of
nodes do not matter. -/
inductive AgreeOutside : Tree → Tree → Prop where
  /-- Functions in one role. Only one that stood for a name would count with its text. -/
  | function {t u : Tree} : t.isFunction = true → u.isFunction = true → t.label.role = u.label.role →
      nestedName t.kind t.children = nestedName u.kind u.children →
      (t.label.role = some .name → t.text = u.text) → AgreeOutside t u
  | node {t u : Tree} : t.isFunction = false → t.kind = u.kind → t.label.role = u.label.role → t.text = u.text →
      List.Forall₂ AgreeOutside t.children u.children → AgreeOutside t u

namespace AgreeOutside

theorem role (h : AgreeOutside t u) : t.label.role = u.label.role := by
  cases h with
  | function _ _ hrole _ _ => exact hrole
  | node _ _ hrole _ _ => exact hrole

theorem isFunction (h : AgreeOutside t u) : t.isFunction = u.isFunction := by
  cases h with
  | function ht hu _ _ _ => rw [ht, hu]
  | node _ hkind _ _ _ => rw [Tree.isFunction, Tree.isFunction, hkind]

theorem refl (t : Tree) : AgreeOutside t t := by
  induction t using of_children with
  | h t ih =>
      cases hfunction : t.isFunction with
      | true => exact .function hfunction hfunction rfl rfl fun _ => rfl
      | false => exact .node hfunction rfl rfl rfl (List.forall₂_same.2 ih)

theorem text_of_name (h : AgreeOutside t u) (hrole : t.label.role = some .name) : t.text = u.text := by
  cases h with
  | function _ _ _ _ htext => exact htext hrole
  | node _ _ _ htext _ => exact htext

theorem child? (h : List.Forall₂ AgreeOutside t.children u.children) (role : Role) :
    t.child? role = none ∧ u.child? role = none ∨ ∃ a b, t.child? role = some a ∧ u.child? role = some b ∧
      a.label.role = some role ∧ AgreeOutside a b := by
  unfold Tree.child?
  generalize t.children = ts, u.children = us at h
  induction h with
  | nil => exact Or.inl ⟨rfl, rfl⟩
  | @cons a b _ _ hfirst _ ih =>
      rw [List.find?_cons, List.find?_cons, ← hfirst.role]
      cases hrole : a.label.role == some role with
      | true => exact Or.inr ⟨a, b, rfl, rfl, eq_of_beq hrole, hfirst⟩
      | false => exact ih

theorem flatMap_eq {collect : Tree → List String} {ts us : List Tree} (h : List.Forall₂ AgreeOutside ts us)
    (hcollect : ∀ t ∈ ts, ∀ u, AgreeOutside t u → collect t = collect u) :
    ts.flatMap collect = us.flatMap collect := by
  induction h with
  | nil => rfl
  | cons hfirst _ ih =>
      rw [List.forall_mem_cons] at hcollect
      rw [List.flatMap_cons, List.flatMap_cons, hcollect.1 _ hfirst, ih hcollect.2]

/-! ## What is collected -/

theorem collect_eq {own collect : Tree → List String}
    (hcollect : ∀ t, collect t = own t ++ if t.isFunction then [] else t.children.flatMap collect)
    (hown : ∀ t u, AgreeOutside t u → own t = own u) (h : AgreeOutside t u) : collect t = collect u := by
  induction t using of_children generalizing u with
  | h t ih =>
      rw [hcollect t, hcollect u, hown t u h, ← h.isFunction]
      cases h with
      | function hfunction _ _ _ _ => rw [if_pos hfunction, if_pos hfunction]
      | node hfunction _ _ _ hchildren =>
          rw [if_neg (Bool.eq_false_iff.1 hfunction), if_neg (Bool.eq_false_iff.1 hfunction),
            flatMap_eq hchildren fun inner hinner _ hagree => ih inner hinner hagree]

theorem references_eq (h : AgreeOutside t u) : t.references = u.references := by
  refine collect_eq Tree.references_eq ?_ h
  intro t u h
  cases h with
  | function ht hu _ _ _ =>
      have hnone {t : Tree} (ht : t.isFunction = true) : t.isReference = false := by
        by_contra hreference
        rw [isFunction_of_isReference (Bool.eq_true_of_not_eq_false hreference)] at ht
        cases ht
      rw [hnone ht, hnone hu]
      rfl
  | node _ hkind _ htext _ => rw [isReference, isReference, hkind, htext]

/-! ## Patterns -/

theorem boundNames_of_isFunction (h : t.isFunction = true) : t.boundNames = [] := by
  cases t with
  | node label children =>
      rw [boundNames]
      change label.kind.isFunction = true at h
      split <;> simp_all [Kind.isFunction, Kind.functionName]

theorem boundNamesAt_eq_of_children (role : Role) (h : List.Forall₂ AgreeOutside t.children u.children)
    (hinner : ∀ inner ∈ t.children, ∀ other, AgreeOutside inner other → inner.boundNames = other.boundNames) :
    boundNamesAt role t.children = boundNamesAt role u.children := by
  rw [boundNamesAt_eq, boundNamesAt_eq]
  rcases child? h role with ⟨ht, hu⟩ | ⟨a, b, ha, hb, -, hagree⟩
  · rw [← Tree.child?, ← Tree.child?, ht, hu]
  · rw [← Tree.child?, ← Tree.child?, ha, hb, Option.map_some, Option.map_some,
      hinner a (mem_children_of_child? ha) b hagree]

theorem boundNames_eq (h : AgreeOutside t u) : t.boundNames = u.boundNames := by
  induction t using of_children generalizing u with
  | h t ih =>
      cases h with
      | function ht hu _ _ _ => rw [boundNames_of_isFunction ht, boundNames_of_isFunction hu]
      | node _ hkind _ htext hchildren =>
          have hat (role : Role) := boundNamesAt_eq_of_children role hchildren
            fun inner hinner _ hagree => ih inner hinner hagree
          have hall := flatMap_eq hchildren fun inner hinner _ hagree => ih inner hinner hagree
          cases t with
          | node label children =>
              cases u with
              | node label' children' =>
                  simp only [kind, text, Tree.label.eq_1, Tree.children.eq_1] at hkind htext hat hall
                  rw [boundNames, boundNames, ← hkind, ← htext, boundNamesAll_eq, boundNamesAll_eq, ← hall]
                  simp only [hat]

/-! ## Declarations -/

theorem declaredName_eq (h : List.Forall₂ AgreeOutside t.children u.children) :
    declaredName t.children = declaredName u.children := by
  unfold declaredName
  rcases child? h .name with ⟨ht, hu⟩ | ⟨a, b, ha, hb, hrole, hagree⟩
  · rw [← Tree.child?, ← Tree.child?, ht, hu]
  · rw [← Tree.child?, ← Tree.child?, ha, hb]
    exact congrArg (fun name => [name]) (hagree.text_of_name hrole)

theorem ownDeclarations_eq (h : AgreeOutside t u) : t.ownDeclarations = u.ownDeclarations := by
  unfold ownDeclarations
  cases h with
  | function ht hu _ hname _ => rw [if_pos ht, if_pos hu, hname]
  | node ht hkind _ _ hchildren =>
      have hu : u.isFunction = false := by rw [Tree.isFunction, ← hkind, ← Tree.isFunction, ht]
      have hat (role : Role) := boundNamesAt_eq_of_children role hchildren
        fun _ _ _ hagree => hagree.boundNames_eq
      rw [if_neg (Bool.eq_false_iff.1 ht), if_neg (Bool.eq_false_iff.1 hu), hkind, declaredName_eq hchildren]
      simp only [hat]

theorem declarations_eq (h : AgreeOutside t u) : t.declarations = u.declarations :=
  collect_eq Tree.declarations_eq (fun _ _ h => h.ownDeclarations_eq) h

/-! ## Functions -/

theorem scopeRoots (h : List.Forall₂ AgreeOutside t.children u.children) :
    List.Forall₂ AgreeOutside t.scopeRoots u.scopeRoots := by
  have hpart (role : Role) : List.Forall₂ AgreeOutside (t.child? role).toList (u.child? role).toList := by
    rcases child? h role with ⟨ht, hu⟩ | ⟨a, b, ha, hb, -, hagree⟩
    · rw [ht, hu]
      exact .nil
    · rw [ha, hb]
      exact .cons hagree .nil
  exact List.rel_append (hpart .parameters) (hpart .body)

theorem parameterNames_eq (h : List.Forall₂ AgreeOutside t.children u.children) :
    t.parameterNames = u.parameterNames := by
  unfold parameterNames
  rcases child? h .parameters with ⟨ht, hu⟩ | ⟨a, b, ha, hb, -, hagree⟩
  · rw [ht, hu]
    rcases child? h .parameter with ⟨ht, hu⟩ | ⟨a, b, ha, hb, -, hagree⟩
    · rw [ht, hu]
    · rw [ha, hb]
      exact hagree.boundNames_eq
  · rw [ha, hb]
    exact hagree.boundNames_eq

theorem ofFunction_eq (h : List.Forall₂ AgreeOutside t.children u.children) :
    Scope.ofFunction t = Scope.ofFunction u := by
  have hroots := scopeRoots h
  have hreferences : referencesAll t.scopeRoots = referencesAll u.scopeRoots := by
    rw [referencesAll_eq, referencesAll_eq]
    exact flatMap_eq hroots fun _ _ _ hagree => hagree.references_eq
  have hdeclarations : declarationsAll t.scopeRoots = declarationsAll u.scopeRoots := by
    rw [declarationsAll_eq, declarationsAll_eq]
    exact flatMap_eq hroots fun _ _ _ hagree => hagree.declarations_eq
  rw [Scope.ofFunction, Scope.ofFunction, parameterNames_eq h, hreferences, hdeclarations]

end AgreeOutside

end Script.Tree

open Script.Tree

/-- The names that a function uses are exactly those of the references at the ends of paths that go from its parameters
or its body through no function, each of them once. Two functions have the same scope if they agree outside of the
functions nested in them and on the names that nested declarations have. -/
theorem scope_closure_blind :
    (∀ function : Tree, (Scope.ofFunction function).used.Pairwise (· < ·) ∧
        ∀ name, name ∈ (Scope.ofFunction function).used ↔ ∃ node, Reached function.scopeRoots node ∧
          (node.kind = .identifier ∨ node.kind = .shorthandProperty) ∧ node.text = name) ∧
      ∀ function other : Tree, List.Forall₂ AgreeOutside function.children other.children →
        Scope.ofFunction function = Scope.ofFunction other := by
  refine ⟨fun function => ⟨Names.ofList_pairwise _, fun name => ?_⟩, fun _ _ h => AgreeOutside.ofFunction_eq h⟩
  rw [Scope.ofFunction, Names.mem_ofList, mem_referencesAll]
  simp only [Refers, isReference, Bool.or_eq_true, beq_iff_eq]

/-- A function that declares a function and passes on another one, with its parameter. -/
def passesOn (declared passed : Tree) : Tree :=
  let leaf (role : Option Role) (text : String) : Tree :=
    .node { kind := .identifier, role, start := 0, stop := 0, text } []
  let inner (kind : Kind) (role : Option Role) (children : List Tree) : Tree :=
    .node { kind, role, start := 0, stop := 0, text := "" } children
  inner .functionDeclaration none
    [leaf (some .name) "f", inner .parameters (some .parameters) [leaf none "items"],
      inner .block (some .body)
        [declared, inner .call none [leaf (some .function) "pick", inner .arguments none [leaf none "items", passed]]]]

def nestedFunction (kind : Kind) (name : Option String) (reference : String) : Tree :=
  let leaf (role : Role) (text : String) : Tree :=
    .node { kind := .identifier, role := some role, start := 0, stop := 0, text } []
  .node { kind, role := none, start := 0, stop := 0, text := "" }
    ((name.map (leaf .name)).toList ++ [leaf .body reference])

/-- Functions of other kinds that refer to other names may stand in place of nested ones. -/
theorem scope_closure_blind_replaced :
    let function := passesOn (nestedFunction .functionDeclaration (some "pick") "a")
      (nestedFunction .arrowFunction none "b")
    let other := passesOn (nestedFunction .generatorDeclaration (some "pick") "c")
      (nestedFunction .functionExpression (some "run") "d")
    List.Forall₂ AgreeOutside function.children other.children ∧ Scope.ofFunction function = Scope.ofFunction other ∧
      (Scope.ofFunction function).used = ["items", "pick"] ∧ (Scope.ofFunction function).locals = ["pick"] := by
  intro function other
  have hdeclared : AgreeOutside (nestedFunction .functionDeclaration (some "pick") "a")
      (nestedFunction .generatorDeclaration (some "pick") "c") := .function rfl rfl rfl (by decide) nofun
  have hpassed : AgreeOutside (nestedFunction .arrowFunction none "b")
      (nestedFunction .functionExpression (some "run") "d") := .function rfl rfl rfl (by decide) nofun
  have hagree : List.Forall₂ AgreeOutside function.children other.children := by
    refine .cons (.refl _) (.cons (.refl _) (.cons (.node rfl rfl rfl rfl ?_) .nil))
    refine .cons hdeclared (.cons (.node rfl rfl rfl rfl (.cons (.refl _) (.cons ?_ .nil))) .nil)
    exact .node rfl rfl rfl rfl (.cons (.refl _) (.cons hpassed .nil))
  exact ⟨hagree, scope_closure_blind.2 function other hagree, by decide, by decide⟩

end ScriptSplit
