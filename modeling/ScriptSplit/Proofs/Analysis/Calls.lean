import Mathlib.Data.List.Flatten
import ScriptSplit.Proofs.Analysis.Invariants
import ScriptSplit.Proofs.Analysis.Open

/-!
# Calls and the functions around them

With the calls of nested functions all calls of a body are listed, without them those that no function lies around. Only
the body itself does not count as a function here, although the analysis of names enters no body that is one.
-/

namespace ScriptSplit

open Script

namespace Script.Tree

variable {t node : Tree}

/-! ## The order of the text -/

theorem Within.own {low high : Nat} (h : t.Within low high) : t.Within t.start t.stop := by
  cases h with
  | node _ hspan _ hchildren => exact .node (le_refl _) hspan (le_refl _) hchildren

theorem Within.of_mem_preorder {low high : Nat} (h : t.Within low high) (hnode : node ∈ t.preorder) :
    node.Within low high := by
  induction t using of_children generalizing low high with
  | h t ih =>
      rw [preorder_eq, List.mem_cons, List.mem_flatMap] at hnode
      rcases hnode with rfl | ⟨inner, hinner, hnode⟩
      · exact h
      · obtain ⟨hlow, -, hhigh⟩ := h.bounds
        exact (ih inner hinner (h.child hinner) hnode).mono hlow hhigh

theorem preorder_rises {low high : Nat} (h : t.Within low high)
    (hbehind : ∀ node ∈ t.preorder, node.children.Pairwise fun left right => left.stop ≤ right.start) :
    t.preorder.Pairwise fun former latter => former.start ≤ latter.start := by
  induction t using of_children generalizing low high with
  | h t ih =>
      rw [preorder_eq] at hbehind ⊢
      rw [List.forall_mem_cons] at hbehind
      rw [List.pairwise_cons, List.pairwise_flatMap]
      refine ⟨?_, ?_, ?_⟩
      · intro node hnode
        obtain ⟨inner, hinner, hnode⟩ := List.mem_flatMap.1 hnode
        exact ((h.child hinner).of_mem_preorder hnode).bounds.1
      · intro inner hinner
        exact ih inner hinner (h.child hinner) fun node hnode =>
          hbehind.2 node (List.mem_flatMap.2 ⟨inner, hinner, hnode⟩)
      · refine hbehind.1.imp_of_mem ?_
        intro left right hleft hright hle former hformer latter hlatter
        obtain ⟨-, hspan, hstop⟩ := ((h.child hleft).own.of_mem_preorder hformer).bounds
        obtain ⟨hstart, -, -⟩ := ((h.child hright).own.of_mem_preorder hlatter).bounds
        exact hspan.trans (hstop.trans (hle.trans hstart))

/-! ## Callees -/

def ownCallees (t : Tree) : List String :=
  if t.kind == .call then calleeName t.children else []

theorem ownCallees_of_isFunction (h : t.isFunction = true) : t.ownCallees = [] := by
  have hkind : t.kind ≠ .call := fun hcall => by
    rw [isFunction, hcall] at h
    cases h
  rw [ownCallees, if_neg (by simpa using hkind)]

theorem calleesAll_eq (closures : Bool) (trees : List Tree) :
    calleesAll closures trees = trees.flatMap (callees closures) := by
  induction trees with
  | nil => rfl
  | cons t rest ih => rw [calleesAll, ih, List.flatMap_cons]

theorem callees_eq (closures : Bool) (t : Tree) : t.callees closures =
    if t.isFunction && !closures then [] else t.ownCallees ++ t.children.flatMap (callees closures) := by
  cases t with
  | node label children =>
      rw [callees, calleesAll_eq, ownCallees, isFunction, kind, Tree.label.eq_1, Tree.children.eq_1]
      split
      · rfl
      · split
        · rfl
        · rw [List.nil_append]

theorem callees_true (t : Tree) : t.callees true = t.preorder.flatMap ownCallees := by
  induction t using of_children with
  | h t ih =>
      rw [callees_eq, Bool.not_true, Bool.and_false, if_neg Bool.false_ne_true, preorder_eq, List.flatMap_cons,
        List.flatMap_assoc]
      exact congrArg (t.ownCallees ++ ·) (List.flatMap_congr ih)

theorem callees_false (t : Tree) :
    t.callees false = t.ownCallees ++ if t.isFunction then [] else t.children.flatMap (callees false) := by
  rw [callees_eq, Bool.not_false, Bool.and_true]
  cases hfunction : t.isFunction with
  | true => simp [ownCallees_of_isFunction hfunction]
  | false => rfl

theorem calleesAll_false (roots : List Tree) : calleesAll false roots = (openNodes roots).flatMap ownCallees := by
  rw [calleesAll_eq, flatMap_collect callees_false]

theorem bodyCallees_eq (closures : Bool) (function : Tree) : function.bodyCallees closures =
    (function.child? .body).toList.flatMap fun body => body.ownCallees ++ calleesAll closures body.children := by
  unfold bodyCallees
  cases function.child? .body with
  | none => rfl
  | some body => simp [ownCallees]

/-- What a function's body adds to the list if it is no function, and what it would add if it were entered. -/
theorem openCallees_singleton (body : Tree) : (openNodes [body]).flatMap ownCallees =
    if body.isFunction then [] else body.ownCallees ++ (openNodes body.children).flatMap ownCallees := by
  rw [← calleesAll_false, ← calleesAll_false, calleesAll_eq, calleesAll_eq, List.flatMap_singleton, callees_eq,
    Bool.not_false, Bool.and_true]

/-- The nodes of a function whose calls are listed without those of nested functions: its body, whatever that is, and
what lies in no function below it. -/
def searchedNodes (function : Tree) : List Tree :=
  (function.child? .body).toList.flatMap fun body => body :: openNodes body.children

theorem bodyCallees_true (function : Tree) :
    function.bodyCallees true = (preorderAll (function.child? .body).toList).flatMap ownCallees := by
  rw [bodyCallees_eq, preorderAll_eq, List.flatMap_assoc]
  refine List.flatMap_congr fun body _ => ?_
  rw [← callees_true, callees_eq, calleesAll_eq, Bool.not_true, Bool.and_false, if_neg Bool.false_ne_true]

theorem bodyCallees_false (function : Tree) :
    function.bodyCallees false = function.searchedNodes.flatMap ownCallees := by
  rw [bodyCallees_eq, searchedNodes, List.flatMap_assoc]
  refine List.flatMap_congr fun body _ => ?_
  rw [calleesAll_false, List.flatMap_cons]

theorem searchedNodes_sublist (function : Tree) :
    function.searchedNodes.Sublist (preorderAll (function.child? .body).toList) := by
  rw [searchedNodes, preorderAll_eq]
  refine List.Sublist.flatMap_right _ fun body _ => ?_
  rw [preorder_eq, ← preorderAll_eq]
  exact (openNodes_sublist _).cons_cons body

/-- Only for a body that is a function and makes calls itself does it matter that every body is entered. -/
theorem bodyCallees_false_eq_iff (function : Tree) :
    function.bodyCallees false = (openNodes (function.child? .body).toList).flatMap ownCallees ↔
      ∀ body ∈ function.child? .body, body.isFunction = true → (openNodes body.children).flatMap ownCallees = [] := by
  rw [bodyCallees_false, searchedNodes]
  cases function.child? .body with
  | none => simp [openNodes, occurrencesAll]
  | some body =>
      simp only [Option.toList_some, List.flatMap_cons, List.flatMap_nil, List.append_nil, openCallees_singleton,
        Option.mem_some_iff, forall_eq']
      cases hfunction : body.isFunction with
      | true => simp [ownCallees_of_isFunction hfunction]
      | false => simp

/-- The calls of a function in the order of the text, once for every call. With those of nested functions they are the
calls of all nodes of the body, and without them the calls of some of these: the body and the nodes that lie in no
function below it. These are the calls of the nodes that the analysis of names reaches in the body, unless the body is a
function that makes calls itself, outside of the functions in it. -/
theorem closure_calls_left_out (function : Tree) :
    let body := (function.child? .body).toList
    function.bodyCallees true = (preorderAll body).flatMap ownCallees ∧
      function.bodyCallees false = function.searchedNodes.flatMap ownCallees ∧
      function.searchedNodes.Sublist (preorderAll body) ∧
      (function.bodyCallees false).Sublist (function.bodyCallees true) ∧
      (∀ node, node ∈ openNodes body ↔ Reached body node) ∧
      (function.bodyCallees false = (openNodes body).flatMap ownCallees ↔ ∀ root ∈ function.child? .body,
        root.isFunction = true → (openNodes root.children).flatMap ownCallees = []) ∧
      ∀ root ∈ function.child? .body, ∀ low high, root.Within low high →
        (∀ node ∈ root.preorder, node.children.Pairwise fun left right => left.stop ≤ right.start) →
        (preorderAll body).Pairwise fun former latter => former.start ≤ latter.start := by
  intro body
  have hsearched := function.searchedNodes_sublist
  refine ⟨function.bodyCallees_true, function.bodyCallees_false, hsearched, ?_, fun node => mem_openNodes,
    function.bodyCallees_false_eq_iff, ?_⟩
  · rw [function.bodyCallees_true, function.bodyCallees_false]
    exact hsearched.flatMap ownCallees
  · intro root hroot low high hwithin hbehind
    have hbody : body = [root] := by
      rw [Option.mem_def] at hroot
      simp only [body, hroot, Option.toList_some]
    rw [hbody, preorderAll_eq, List.flatMap_singleton]
    exact preorder_rises hwithin hbehind

/-- The function `x => y => g(y)`, whose body is a function that makes a call. -/
def curried : Tree :=
  let leaf (kind : Kind) (role : Option Role) (start stop : Nat) (text : String) : Tree :=
    .node { kind, role, start, stop, text } []
  let inner (kind : Kind) (role : Option Role) (start stop : Nat) (children : List Tree) : Tree :=
    .node { kind, role, start, stop, text := "" } children
  inner .arrowFunction none 0 14
    [leaf .identifier (some .parameter) 0 1 "x",
      inner .arrowFunction (some .body) 5 14
        [leaf .identifier (some .parameter) 5 6 "y",
          inner .call (some .body) 10 14
            [leaf .identifier (some .function) 10 11 "g",
              inner .arguments none 11 14 [leaf .identifier none 12 13 "y"]]]]

/-- The call is listed although the analysis of names does not come to it. -/
theorem closure_calls_left_out_curried :
    curried.bodyCallees false = ["g"] ∧ (openNodes (curried.child? .body).toList).flatMap ownCallees = [] ∧
      (curried.bodyCallees false).Sublist (curried.bodyCallees true) ∧
      (preorderAll (curried.child? .body).toList).Pairwise fun former latter => former.start ≤ latter.start := by
  obtain ⟨-, -, -, hsublist, -, -, hrises⟩ := closure_calls_left_out curried
  refine ⟨by decide, by decide, hsublist, hrises _ rfl 5 14 (within_of_liesWithin (by decide)) (by decide)⟩

end Script.Tree

end ScriptSplit
