import ScriptSplit.Analysis.Basic
import ScriptSplit.Proofs.Analysis.Open
import ScriptSplit.Proofs.Text.Names

/-!
# Names of a scope

A function binds names in patterns and declarations, and refers to names, where it does so outside of the functions
nested in it. What it refers to and does not bind comes from elsewhere, unless it is built in. The head of a loop over
members or items is the exception: what is declared there counts as referred to and not as bound.
-/

namespace ScriptSplit

open Script

namespace Script.Tree

variable {t : Tree} {name : String}

theorem mem_children_of_child? {role : Role} {inner : Tree} (h : t.child? role = some inner) : inner ∈ t.children :=
  List.mem_of_find?_eq_some h

/-! ## Patterns -/

/-- The names that a declarator or parameter pattern binds: its own, those of the target of a default value or of a
property, and those of its parts. -/
inductive Binds : Tree → String → Prop where
  | name {t : Tree} : t.kind = .identifier ∨ t.kind = .shorthandPattern → Binds t t.text
  | default {t target : Tree} {name : String} : t.kind = .assignmentPattern ∨ t.kind = .objectAssignmentPattern →
      t.child? .left = some target → Binds target name → Binds t name
  | property {t target : Tree} {name : String} : t.kind = .pairPattern → t.child? .value = some target →
      Binds target name → Binds t name
  | part {t inner : Tree} {name : String} : t.kind ∈ [.restPattern, .objectPattern, .arrayPattern, .parameters] →
      inner ∈ t.children → Binds inner name → Binds t name

theorem boundNamesAt_eq (role : Role) (children : List Tree) : boundNamesAt role children =
    ((children.find? (·.label.role == some role)).map boundNames).getD [] := by
  induction children with
  | nil => simp [boundNamesAt]
  | cons t rest ih =>
      rw [boundNamesAt, List.find?_cons]
      split
      · next hrole => simp [hrole]
      · next hrole => rw [Bool.eq_false_of_not_eq_true hrole, ih]

theorem boundNamesAll_eq (children : List Tree) : boundNamesAll children = children.flatMap boundNames := by
  induction children with
  | nil => rfl
  | cons t rest ih => rw [boundNamesAll, ih, List.flatMap_cons]

theorem mem_boundNames_child {role : Role} : name ∈ ((t.child? role).map boundNames).getD [] ↔
    ∃ target, t.child? role = some target ∧ name ∈ target.boundNames := by
  cases t.child? role <;> simp

theorem mem_boundNames_cases : name ∈ t.boundNames ↔
    (t.kind = .identifier ∨ t.kind = .shorthandPattern) ∧ name = t.text ∨
      (t.kind = .assignmentPattern ∨ t.kind = .objectAssignmentPattern) ∧
        (∃ target, t.child? .left = some target ∧ name ∈ target.boundNames) ∨
      t.kind = .pairPattern ∧ (∃ target, t.child? .value = some target ∧ name ∈ target.boundNames) ∨
      t.kind ∈ [.restPattern, .objectPattern, .arrayPattern, .parameters] ∧
        ∃ inner ∈ t.children, name ∈ inner.boundNames := by
  cases t with
  | node label parts =>
      simp only [← mem_boundNames_child]
      simp only [boundNames, boundNamesAt_eq, boundNamesAll_eq, kind, text, child?, Tree.label.eq_1,
        Tree.children.eq_1]
      split <;> simp_all

theorem mem_boundNames : name ∈ t.boundNames ↔ t.Binds name := by
  constructor
  · induction t using of_children with
    | h t ih =>
        intro h
        rcases mem_boundNames_cases.1 h with ⟨hkind, rfl⟩ | ⟨hkind, target, htarget, hname⟩ |
          ⟨hkind, target, htarget, hname⟩ | ⟨hkind, inner, hinner, hname⟩
        · exact .name hkind
        · exact .default hkind htarget (ih target (mem_children_of_child? htarget) hname)
        · exact .property hkind htarget (ih target (mem_children_of_child? htarget) hname)
        · exact .part hkind hinner (ih inner hinner hname)
  · intro h
    induction h with
    | name hkind => exact mem_boundNames_cases.2 (Or.inl ⟨hkind, rfl⟩)
    | default hkind htarget _ ih => exact mem_boundNames_cases.2 (Or.inr (Or.inl ⟨hkind, _, htarget, ih⟩))
    | property hkind htarget _ ih => exact mem_boundNames_cases.2 (Or.inr (Or.inr (Or.inl ⟨hkind, _, htarget, ih⟩)))
    | part hkind hinner _ ih => exact mem_boundNames_cases.2 (Or.inr (Or.inr (Or.inr ⟨hkind, _, hinner, ih⟩)))

/-! ## Names that are referred to -/

theorem referencesAll_eq (trees : List Tree) : referencesAll trees = trees.flatMap references := by
  induction trees with
  | nil => rfl
  | cons t rest ih => rw [referencesAll, ih, List.flatMap_cons]

theorem isFunction_of_isReference (h : t.isReference = true) : t.isFunction = false := by
  simp only [isReference, Bool.or_eq_true, beq_iff_eq] at h
  rcases h with h | h <;> simp [isFunction, h, Kind.isFunction, Kind.functionName]

theorem references_eq (t : Tree) : t.references =
    (if t.isReference then [t.text] else []) ++ if t.isFunction then [] else t.children.flatMap references := by
  have heq : t.references = if t.isFunction then []
      else if t.isReference then t.text :: t.children.flatMap references else t.children.flatMap references := by
    cases t with
    | node label children =>
        rw [references, referencesAll_eq]
        rfl
  cases hreference : t.isReference with
  | true => simp [heq, hreference, isFunction_of_isReference hreference]
  | false => simp [heq, hreference]

/-- The names that a function refers to, outside of the functions nested in it. -/
def Refers (function : Tree) (name : String) : Prop :=
  ∃ node, Reached function.scopeRoots node ∧ node.isReference = true ∧ node.text = name

theorem mem_referencesAll {function : Tree} :
    name ∈ referencesAll function.scopeRoots ↔ function.Refers name := by
  rw [referencesAll_eq, mem_collected references_eq]
  refine exists_congr fun node => and_congr_right fun _ => ?_
  cases node.isReference
  · simp
  · simp only [if_true, List.mem_singleton, true_and]
    exact eq_comm

/-! ## Names that are bound -/

/-- How a name is bound in a function. -/
inductive Form where
  | parameter
  | declarator
  | loopHead
  | caught
  | nestedFunction
  | nestedClass
  deriving DecidableEq, Repr

inductive Declares (node : Tree) : Form → String → Prop where
  | declarator {target : Tree} {name : String} : node.kind = .variableDeclarator → node.child? .name = some target →
      target.Binds name → Declares node .declarator name
  /-- A loop over members or items with one of the words that declare. -/
  | loopHead {word target : Tree} {name : String} : node.kind = .forIn → node.child? .kind = some word →
      node.child? .left = some target → target.Binds name → Declares node .loopHead name
  | caught {target : Tree} {name : String} : node.kind = .catchClause → node.child? .parameter = some target →
      target.Binds name → Declares node .caught name
  | nestedFunction {own : Tree} : node.kind = .functionDeclaration ∨ node.kind = .generatorDeclaration →
      node.child? .name = some own → own.text ≠ "" → Declares node .nestedFunction own.text
  | nestedClass {own : Tree} : node.kind = .classDeclaration → node.child? .name = some own →
      Declares node .nestedClass own.text

/-- The names that a function binds in its own scope: in its parameters, or outside of the functions nested in it. -/
inductive BoundBy (function : Tree) : Form → String → Prop where
  | parameters {pattern : Tree} {name : String} : function.child? .parameters = some pattern →
      pattern.Binds name → BoundBy function .parameter name
  | parameter {pattern : Tree} {name : String} : function.child? .parameters = none →
      function.child? .parameter = some pattern → pattern.Binds name → BoundBy function .parameter name
  | inside {node : Tree} {form : Form} {name : String} : Reached function.scopeRoots node →
      node.Declares form name → BoundBy function form name

def ownDeclarations (t : Tree) : List String :=
  if t.isFunction then nestedName t.kind t.children
  else
    match t.kind with
    | .variableDeclarator => boundNamesAt .name t.children
    | .catchClause => boundNamesAt .parameter t.children
    | .classDeclaration => declaredName t.children
    | _ => []

theorem declarationsAll_eq (trees : List Tree) : declarationsAll trees = trees.flatMap declarations := by
  induction trees with
  | nil => rfl
  | cons t rest ih => rw [declarationsAll, ih, List.flatMap_cons]

theorem declarations_eq (t : Tree) : t.declarations =
    t.ownDeclarations ++ if t.isFunction then [] else t.children.flatMap declarations := by
  cases t with
  | node label children =>
      rw [declarations, declarationsAll_eq, ownDeclarations]
      change (if (Tree.node label children).isFunction = true then _ else _) = _
      split
      · rw [List.append_nil]
        rfl
      · rfl

theorem mem_boundNamesAt {role : Role} : name ∈ boundNamesAt role t.children ↔
    ∃ target, t.child? role = some target ∧ target.Binds name := by
  simp only [← mem_boundNames]
  rw [boundNamesAt_eq]
  exact mem_boundNames_child

theorem mem_declaredName : name ∈ declaredName t.children ↔ ∃ own, t.child? .name = some own ∧ own.text = name := by
  unfold declaredName child?
  cases t.children.find? (·.label.role == some .name) <;> simp [eq_comm]

theorem mem_ownDeclarations : name ∈ t.ownDeclarations ↔ ∃ form, t.Declares form name ∧ form ≠ .loopHead := by
  unfold ownDeclarations
  constructor
  · intro h
    split at h
    · unfold nestedName at h
      split at h
      · next hkind =>
          simp only [Bool.or_eq_true, beq_iff_eq] at hkind
          rw [List.mem_filter, mem_declaredName, bne_iff_ne] at h
          obtain ⟨⟨own, hown, rfl⟩, hname⟩ := h
          exact ⟨_, .nestedFunction hkind hown hname, nofun⟩
      · cases h
    · split at h
      · next hkind =>
          obtain ⟨target, htarget, hbinds⟩ := mem_boundNamesAt.1 h
          exact ⟨_, .declarator hkind htarget hbinds, nofun⟩
      · next hkind =>
          obtain ⟨target, htarget, hbinds⟩ := mem_boundNamesAt.1 h
          exact ⟨_, .caught hkind htarget hbinds, nofun⟩
      · next hkind =>
          obtain ⟨own, hown, rfl⟩ := mem_declaredName.1 h
          exact ⟨_, .nestedClass hkind hown, nofun⟩
      · cases h
  · rintro ⟨form, hdeclares, hform⟩
    cases hdeclares with
    | declarator hkind htarget hbinds =>
        simpa [isFunction, hkind, Kind.isFunction, Kind.functionName] using mem_boundNamesAt.2 ⟨_, htarget, hbinds⟩
    | loopHead => exact absurd rfl hform
    | caught hkind htarget hbinds =>
        simpa [isFunction, hkind, Kind.isFunction, Kind.functionName] using mem_boundNamesAt.2 ⟨_, htarget, hbinds⟩
    | nestedFunction hkind hown hname =>
        have hdeclared := mem_declaredName.2 ⟨_, hown, rfl⟩
        rcases hkind with hkind | hkind <;>
          simpa [isFunction, hkind, Kind.isFunction, Kind.functionName, nestedName, hname] using hdeclared
    | nestedClass hkind hown =>
        simpa [isFunction, hkind, Kind.isFunction, Kind.functionName] using mem_declaredName.2 ⟨_, hown, rfl⟩

theorem mem_declarationsAll {roots : List Tree} : name ∈ declarationsAll roots ↔
    ∃ node form, Reached roots node ∧ node.Declares form name ∧ form ≠ .loopHead := by
  rw [declarationsAll_eq, mem_collected declarations_eq]
  simp only [mem_ownDeclarations, exists_and_left]

end Script.Tree

/-! ## Free names -/

theorem Scope.mem_free {scope : Scope} {exempt : List String} {name : String} :
    name ∈ scope.free exempt ↔ name ∈ scope.used ∧ name ∉ scope.params ∧ name ∉ scope.locals ∧
      name ∉ builtins ∧ name ∉ exempt := by
  simp [Scope.free, and_assoc]

namespace Script.Tree

variable {function : Tree} {name : String}

theorem mem_parameterNames : name ∈ function.parameterNames ↔
    ∃ pattern, (function.child? .parameters = some pattern ∨
      function.child? .parameters = none ∧ function.child? .parameter = some pattern) ∧ pattern.Binds name := by
  unfold parameterNames
  cases function.child? .parameters with
  | some parameters => simp [mem_boundNames]
  | none => cases function.child? .parameter <;> simp [mem_boundNames]

theorem mem_parameterNames_or_declarations :
    (name ∈ function.parameterNames ∨ name ∈ declarationsAll function.scopeRoots) ↔
      ∃ form, function.BoundBy form name ∧ form ≠ .loopHead := by
  rw [mem_parameterNames, mem_declarationsAll]
  constructor
  · rintro (⟨pattern, hpattern | ⟨hnone, hpattern⟩, hbinds⟩ | ⟨node, form, hreached, hdeclares, hform⟩)
    · exact ⟨_, .parameters hpattern hbinds, nofun⟩
    · exact ⟨_, .parameter hnone hpattern hbinds, nofun⟩
    · exact ⟨form, .inside hreached hdeclares, hform⟩
  · rintro ⟨form, hbound, hform⟩
    cases hbound with
    | parameters hpattern hbinds => exact Or.inl ⟨_, Or.inl hpattern, hbinds⟩
    | parameter hnone hpattern hbinds => exact Or.inl ⟨_, Or.inr ⟨hnone, hpattern⟩, hbinds⟩
    | inside hreached hdeclares => exact Or.inr ⟨_, form, hreached, hdeclares, hform⟩

theorem mem_free_ofFunction {exempt : List String} : name ∈ (Scope.ofFunction function).free exempt ↔
    function.Refers name ∧ (∀ form, function.BoundBy form name → form = .loopHead) ∧ name ∉ builtins ∧
      name ∉ exempt := by
  have hbound : (name ∉ function.parameterNames ∧ name ∉ declarationsAll function.scopeRoots) ↔
      ∀ form, function.BoundBy form name → form = .loopHead := by
    rw [← not_or, mem_parameterNames_or_declarations]
    simp
  rw [Scope.mem_free, ← hbound, ← mem_referencesAll]
  simp only [Scope.ofFunction, Names.mem_ofList, Names.diff, List.mem_filter, Bool.not_eq_true',
    List.contains_eq_mem, decide_eq_false_iff_not, not_and, not_not]
  tauto

theorem refers_loopVariable {loop target : Tree} (hloop : Reached function.scopeRoots loop)
    (hkind : loop.kind = .forIn) (htarget : loop.child? .left = some target) (hname : target.kind = .identifier) :
    function.Refers target.text :=
  ⟨target, hloop.child (by simp [isFunction, hkind, Kind.isFunction, Kind.functionName]) (mem_children_of_child? htarget),
    by simp [isReference, hname], rfl⟩

/-- The variable of a loop over members or items is free, unless something else binds it as well. -/
theorem loopVariable_mem_free {loop target : Tree} {exempt : List String} (hloop : Reached function.scopeRoots loop)
    (hkind : loop.kind = .forIn) (htarget : loop.child? .left = some target) (hname : target.kind = .identifier) :
    target.text ∈ (Scope.ofFunction function).free exempt ↔
      (∀ form, function.BoundBy form target.text → form = .loopHead) ∧ target.text ∉ builtins ∧
        target.text ∉ exempt := by
  rw [mem_free_ofFunction, and_iff_right (refers_loopVariable hloop hkind htarget hname)]

end Script.Tree

open Script.Tree

/-- A name that a function binds is not free in it, unless nothing but the heads of loops binds it: exactly those names
are free that the function refers to, that nothing else binds, and that are neither built in nor exempt. So a function
can be moved exactly if all that it refers to is bound in one of the other ways, built in, at the top level or its own
name. -/
theorem bound_names_not_free (function : Tree) :
    (∀ exempt name, name ∈ (Scope.ofFunction function).free exempt ↔ function.Refers name ∧
      (∀ form, function.BoundBy form name → form = .loopHead) ∧ name ∉ builtins ∧ name ∉ exempt) ∧
    ∀ reader text table closureCalls (d : TopLevel.Declared), d.function = function →
      ((Candidate.ofDeclared reader text table closureCalls d).moveable = true ↔ ∀ name, function.Refers name →
        (∃ form, function.BoundBy form name ∧ form ≠ .loopHead) ∨ name ∈ builtins ∨ name ∈ table.topLevel ∨
          name = d.name.getD anonymousName) := by
  refine ⟨fun exempt name => mem_free_ofFunction, ?_⟩
  rintro reader text table closureCalls d rfl
  rw [Candidate.ofDeclared, List.isEmpty_iff, List.eq_nil_iff_forall_not_mem]
  refine forall_congr' fun name => ?_
  have hbound : (∃ form, d.function.BoundBy form name ∧ form ≠ .loopHead) ↔
      ¬ ∀ form, d.function.BoundBy form name → form = .loopHead := by simp
  rw [mem_free_ofFunction, List.mem_cons, hbound]
  tauto

/-- A function that goes over the items of its parameter and names each of them. -/
def goesOver : Tree :=
  let leaf (kind : Kind) (role : Role) (text : String) : Tree :=
    .node { kind, role, start := 0, stop := 0, text } []
  let inner (kind : Kind) (role : Option Role) (children : List Tree) : Tree :=
    .node { kind, role, start := 0, stop := 0, text := "" } children
  inner .functionDeclaration none
    [leaf .identifier .name "f", inner .parameters (some .parameters) [leaf .identifier .left "items"],
      inner .block (some .body)
        [inner .forIn none
          [leaf .keyword .kind "const", leaf .identifier .left "item", leaf .identifier .right "items",
            inner .expressionStatement (some .body) [leaf .identifier .value "item"]]]]

/-- The variable of its loop is free. -/
example : (Scope.ofFunction goesOver).free ["f"] = ["item"] := by decide

end ScriptSplit
