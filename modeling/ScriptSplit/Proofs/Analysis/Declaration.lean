import ScriptSplit.Proofs.Analysis.Candidate

/-!
# Declarations

The functions of a declaration are told by the kinds and the names in its tree, and not by its place. So a declaration
that is read at some other place has functions of the same names if its tree has the same shape there. A declaration
of a single function gives its own span to that function.
-/

namespace ScriptSplit

namespace Script.Tree

/-! ## Shapes -/

mutual

def shape : Tree → Tree
  | .node label children => .node { label with start := 0, stop := 0 } (shapeAll children)

def shapeAll : List Tree → List Tree
  | [] => []
  | t :: rest => shape t :: shapeAll rest

end

theorem shapeAll_eq_map (trees : List Tree) : shapeAll trees = trees.map shape := by
  induction trees with
  | nil => rfl
  | cons t rest ih => rw [shapeAll, ih, List.map_cons]

@[simp] theorem kind_shape (t : Tree) : t.shape.kind = t.kind := by
  cases t with
  | node label children => rfl

@[simp] theorem text_shape (t : Tree) : t.shape.text = t.text := by
  cases t with
  | node label children => rfl

@[simp] theorem role_shape (t : Tree) : t.shape.label.role = t.label.role := by
  cases t with
  | node label children => rfl

@[simp] theorem children_shape (t : Tree) : t.shape.children = t.children.map shape := by
  cases t with
  | node label children => exact shapeAll_eq_map children

theorem child?_shape (t : Tree) (role : Role) : t.shape.child? role = (t.child? role).map shape := by
  unfold child?
  rw [children_shape, List.find?_map]
  congr 2
  funext child
  exact congrArg (· == some role) (role_shape child)

/-- Two trees of one kind whose parts have the same shapes; their roles may differ. -/
structure Alike (s t : Tree) : Prop where
  kind : s.kind = t.kind
  children : s.children.map shape = t.children.map shape

namespace Alike

variable {s t : Tree}

theorem of_shape (h : s.shape = t.shape) : Alike s t where
  kind := by rw [← kind_shape s, h, kind_shape]
  children := by rw [← children_shape s, h, children_shape]

theorem child? (h : Alike s t) (role : Role) : (s.child? role).map shape = (t.child? role).map shape := by
  have hfind (u : Tree) : (u.child? role).map shape =
      (u.children.map shape).find? fun child => child.label.role == some role := by
    rw [← child?_shape, Tree.child?, children_shape]
  rw [hfind, hfind, h.children]

theorem filterMap {β : Type} (h : Alike s t) (f : Tree → Option β) (hf : ∀ u, f u.shape = f u) :
    s.children.filterMap f = t.children.filterMap f := by
  have hmap (u : Tree) : u.children.filterMap f = (u.children.map shape).filterMap f := by
    rw [List.filterMap_map]
    exact List.filterMap_congr fun child _ => (hf child).symm
  rw [hmap, hmap, h.children]

theorem any (h : Alike s t) (p : Tree → Bool) (hp : ∀ u, p u.shape = p u) :
    s.children.any p = t.children.any p := by
  have hmap (u : Tree) : u.children.any p = (u.children.map shape).any p := by
    rw [List.any_map]
    exact congrArg u.children.any (funext fun child => (hp child).symm)
  rw [hmap, hmap, h.children]

theorem of_map_shape {s t : Option Tree} (h : s.map shape = t.map shape) :
    s = none ∧ t = none ∨ ∃ a b, s = some a ∧ t = some b ∧ Alike a b := by
  cases s with
  | none => exact Or.inl ⟨rfl, Option.map_eq_none_iff.1 h.symm⟩
  | some a =>
      obtain ⟨b, rfl, hshape⟩ := Option.map_eq_some_iff.1 h.symm
      exact Or.inr ⟨a, b, rfl, rfl, .of_shape hshape.symm⟩

end Alike

end Script.Tree

open Script

namespace TopLevel

variable {s t statement : Tree} {d : Declared}

/-! ## Names -/

theorem ownName_alike (h : s.Alike t) : ownName s = ownName t := by
  have hname (u : Tree) : ownName u = ((u.child? .name).map Tree.shape).map (·.text) := by
    rw [Option.map_map]
    exact congrArg (Option.map · (u.child? .name)) (funext fun name => (Tree.text_shape name).symm)
  rw [hname, hname, h.child?]

def functionName? (declarator : Tree) : Option (Option String) := do
  if declarator.kind != .variableDeclarator then none
  let name ← declarator.child? .name
  let value ← declarator.child? .value
  if name.kind != .identifier || !value.kind.isFunctionValue then none else some (some name.text)

theorem functionName?_shape (declarator : Tree) :
    functionName? declarator.shape = functionName? declarator := by
  unfold functionName?
  rw [Tree.child?_shape, Tree.child?_shape, Tree.kind_shape]
  cases declarator.child? .name <;> cases declarator.child? .value <;> simp

theorem names_functionsOf_function (h : t.kind = .functionDeclaration ∨ t.kind = .generatorDeclaration)
    (exported : Bool) : (functionsOf t exported).map (·.name) = [ownName t] := by
  rcases h with h | h <;> simp [functionsOf, h]

theorem names_functionsOf_variables (h : t.kind = .lexicalDeclaration ∨ t.kind = .variableDeclaration)
    (exported : Bool) : (functionsOf t exported).map (·.name) = t.children.filterMap functionName? := by
  rcases h with h | h
  all_goals
    simp only [functionsOf, h]
    rw [List.map_filterMap, List.filterMap_filter]
    refine List.filterMap_congr fun declarator _ => ?_
    unfold functionName?
    cases declarator.child? .name <;> cases declarator.child? .value <;> grind

theorem functionsOf_eq_nil (hfunction : ¬ (t.kind = .functionDeclaration ∨ t.kind = .generatorDeclaration))
    (hvariables : ¬ (t.kind = .lexicalDeclaration ∨ t.kind = .variableDeclaration)) (exported : Bool) :
    functionsOf t exported = [] := by
  rw [not_or] at hfunction hvariables
  unfold functionsOf
  split
  case h_1 hkind => exact absurd hkind hfunction.1
  case h_2 hkind => exact absurd hkind hfunction.2
  case h_3 hkind => exact absurd hkind hvariables.1
  case h_4 hkind => exact absurd hkind hvariables.2
  case h_5 => rfl

theorem names_functionsOf_alike (h : s.Alike t) (exported exported' : Bool) :
    (functionsOf s exported).map (·.name) = (functionsOf t exported').map (·.name) := by
  by_cases hfunction : t.kind = .functionDeclaration ∨ t.kind = .generatorDeclaration
  · rw [names_functionsOf_function hfunction, names_functionsOf_function (by rwa [h.kind]), ownName_alike h]
  · by_cases hvariables : t.kind = .lexicalDeclaration ∨ t.kind = .variableDeclaration
    · rw [names_functionsOf_variables hvariables, names_functionsOf_variables (by rwa [h.kind]),
        h.filterMap _ functionName?_shape]
    · rw [functionsOf_eq_nil hfunction hvariables, functionsOf_eq_nil (by rwa [h.kind]) (by rwa [h.kind])]

theorem names_functions_alike (h : s.Alike t) :
    (functions s).map (·.name) = (functions t).map (·.name) := by
  have hkeyword : s.children.any (·.kind == .keyword) = t.children.any (·.kind == .keyword) :=
    h.any _ fun u => by rw [Tree.kind_shape]
  unfold functions
  rw [h.kind, hkeyword]
  split
  · split
    · have htarget : ((s.child? .declaration).or (s.child? .value)).map Tree.shape =
          ((t.child? .declaration).or (t.child? .value)).map Tree.shape := by
        rw [Option.map_or, Option.map_or, h.child?, h.child?]
      rcases Tree.Alike.of_map_shape htarget with ⟨hs, ht⟩ | ⟨a, b, hs, ht, hsame⟩
      · simp [hs, ht]
      · simp only [hs, ht, Tree.isFunction, hsame.kind]
        by_cases hfunction : b.kind.isFunction = true
        · simp [hfunction, ownName_alike hsame]
        · simp [hfunction]
    · rcases Tree.Alike.of_map_shape (h.child? .declaration) with ⟨hs, ht⟩ | ⟨a, b, hs, ht, hsame⟩
      · simp [hs, ht]
      · simp only [hs, ht]
        exact names_functionsOf_alike hsame true true
  · exact names_functionsOf_alike h false false

/-! ## The declaration of a statement -/

/-- What a statement declares: an export that is no default declares what it exports. -/
def declaration (statement : Tree) : Tree :=
  if statement.kind == .exportStatement && !statement.children.any (·.kind == .keyword) then
    (statement.child? .declaration).getD statement
  else statement

theorem functions_cases_declaration (hd : d ∈ functions statement) :
    (∃ exported, functions statement = functionsOf (declaration statement) exported ∧
        (declaration statement).kind ≠ .exportStatement) ∨
      declaration statement = statement ∧ functions statement = [d] ∧ d.start = statement.start ∧
        d.stop = statement.stop := by
  by_cases hexport : (statement.kind == .exportStatement) = true
  · by_cases hkeyword : statement.children.any (·.kind == .keyword) = true
    · right
      refine ⟨by simp [declaration, hexport, hkeyword], ?_⟩
      simp only [functions, hexport, hkeyword, if_true] at hd ⊢
      cases htarget : (statement.child? .declaration).or (statement.child? .value) with
      | none =>
          rw [htarget] at hd
          cases hd
      | some target =>
          simp only [htarget] at hd ⊢
          split at hd
          · next hfunction =>
              obtain rfl := List.mem_singleton.1 hd
              exact ⟨if_pos hfunction, rfl, rfl⟩
          · cases hd
    · left
      rw [Bool.not_eq_true] at hkeyword
      cases hinner : statement.child? .declaration with
      | none => simp [functions, hexport, hkeyword, hinner] at hd
      | some inner =>
          have hdeclaration : declaration statement = inner := by
            simp [declaration, hexport, hkeyword, hinner]
          have hfunctions : functions statement = functionsOf inner true := by
            simp [functions, hexport, hkeyword, hinner]
          rw [hdeclaration]
          refine ⟨true, hfunctions, ?_⟩
          -- an export within an export has no functions
          intro hkind
          simp [hfunctions, functionsOf, hkind] at hd
  · left
    have hdeclaration : declaration statement = statement := by simp [declaration, hexport]
    rw [hdeclaration]
    exact ⟨false, by simp [functions, hexport], by simpa using hexport⟩

theorem names_declaration (hd : d ∈ functions statement) :
    (functions statement).map (·.name) = (functions (declaration statement)).map (·.name) := by
  rcases functions_cases_declaration hd with ⟨exported, hfunctions, hkind⟩ | ⟨hdeclaration, -⟩
  · have hown : functions (declaration statement) = functionsOf (declaration statement) false := by
      simp [functions, hkind]
    rw [hfunctions, hown]
    exact names_functionsOf_alike (.of_shape rfl) exported false
  · rw [hdeclaration]

/-! ## Spans -/

theorem declaration_within {low high : Nat} (h : statement.Within low high) :
    (declaration statement).Within low high := by
  unfold declaration
  split
  · cases hinner : statement.child? .declaration with
    | none => exact h
    | some inner => exact (h.child? hinner).mono h.bounds.1 h.bounds.2.2
  · exact h

/-- A declaration of one variable at most, and one that ends with the body of its function. -/
structure Single (t : Tree) : Prop where
  declarators : (t.children.filter (·.kind == .variableDeclarator)).length ≤ 1
  ends : t.kind = .functionDeclaration ∨ t.kind = .generatorDeclaration → bodyEnd t = t.stop

theorem functionsOf_single (h : Single t) {exported : Bool} (hd : d ∈ functionsOf t exported) :
    functionsOf t exported = [d] ∧ d.start = t.start ∧ d.stop = t.stop := by
  unfold functionsOf at hd ⊢
  split at hd
  case h_1 hkind =>
    obtain rfl := List.mem_singleton.1 hd
    exact ⟨rfl, rfl, h.ends (Or.inl hkind)⟩
  case h_2 hkind =>
    obtain rfl := List.mem_singleton.1 hd
    exact ⟨rfl, rfl, h.ends (Or.inr hkind)⟩
  case h_5 => cases hd
  all_goals
    obtain ⟨declarator, hdeclarators⟩ : ∃ declarator,
        t.children.filter (·.kind == .variableDeclarator) = [declarator] := by
      obtain ⟨declarator, hmem, -⟩ := List.mem_filterMap.1 hd
      exact List.length_eq_one_iff.1 (Nat.le_antisymm h.declarators (List.length_pos_of_mem hmem))
    simp only [hdeclarators, List.length_singleton, if_true] at hd ⊢
    obtain ⟨_, hmem, hsome⟩ := List.mem_filterMap.1 hd
    obtain rfl := List.mem_singleton.1 hmem
    rw [List.filterMap_cons, hsome]
    simp only [bind, Option.bind_eq_some_iff] at hsome
    obtain ⟨name, -, value, -, hsome⟩ := hsome
    split at hsome
    · cases hsome
    · obtain rfl := Option.some.inj hsome
      exact ⟨rfl, rfl, rfl⟩

/-- The function of a single declaration has the span of the declaration. -/
theorem functions_single (h : Single (declaration statement)) (hd : d ∈ functions statement) :
    functions statement = [d] ∧ d.start = (declaration statement).start ∧
      d.stop = (declaration statement).stop := by
  rcases functions_cases_declaration hd with ⟨exported, hfunctions, -⟩ | ⟨hdeclaration, hown⟩
  · rw [hfunctions] at hd ⊢
    exact functionsOf_single h hd
  · rwa [hdeclaration]

end TopLevel

end ScriptSplit
