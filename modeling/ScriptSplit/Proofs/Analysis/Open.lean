import Mathlib.Data.List.Basic
import ScriptSplit.Script.Tree

/-!
# Nodes outside of functions

The nodes of a tree in the order of the text, each with the nodes that it lies in. The open ones among them lie in no
function: they are the ends of the paths that go through no function, and a traversal that enters no function collects
what they have, in their order.
-/

namespace ScriptSplit

namespace Script.Tree

/-! ## Trees -/

mutual

theorem of_children {P : Tree → Prop} (h : ∀ t, (∀ inner ∈ t.children, P inner) → P t) : ∀ t, P t
  | .node label children => h (.node label children) (all_of_children h children)

theorem all_of_children {P : Tree → Prop} (h : ∀ t, (∀ inner ∈ t.children, P inner) → P t) :
    ∀ trees : List Tree, ∀ t ∈ trees, P t
  | [] => nofun
  | t :: rest => List.forall_mem_cons.2 ⟨of_children h t, all_of_children h rest⟩

end

variable {t inner node : Tree} {around roots : List Tree}

theorem preorderAll_eq (trees : List Tree) : preorderAll trees = trees.flatMap preorder := by
  induction trees with
  | nil => rfl
  | cons t rest ih => rw [preorderAll, ih, List.flatMap_cons]

theorem preorder_eq (t : Tree) : t.preorder = t :: t.children.flatMap preorder := by
  cases t with
  | node label children => rw [preorder, preorderAll_eq, Tree.children.eq_1]

/-! ## Paths through no function -/

/-- The nodes at and below some trees that are not inside of a function there. -/
inductive Reached (roots : List Tree) : Tree → Prop where
  | root {t : Tree} : t ∈ roots → Reached roots t
  | child {t inner : Tree} : Reached roots t → t.isFunction = false → inner ∈ t.children → Reached roots inner

theorem Reached.of_children (hroot : t ∈ roots) (hopen : t.isFunction = false) (h : Reached t.children node) :
    Reached roots node := by
  induction h with
  | root hmem => exact .child (.root hroot) hopen hmem
  | child _ hfunction hmem ih => exact .child ih hfunction hmem

/-! ## Nodes with what lies around them -/

/-- A node of a tree together with the nodes that it lies in, the nearest first. -/
structure Occurrence where
  node : Tree
  around : List Tree

def Occurrence.isOpen (o : Occurrence) : Bool :=
  o.around.all (!·.isFunction)

mutual

/-- A node and all nodes below it in the order of the text. The nodes in `around` lie around it. -/
def occurrences (around : List Tree) : Tree → List Occurrence
  | .node label children =>
    { node := .node label children, around } :: occurrencesAll (.node label children :: around) children

def occurrencesAll (around : List Tree) : List Tree → List Occurrence
  | [] => []
  | t :: rest => occurrences around t ++ occurrencesAll around rest

end

theorem occurrencesAll_eq (around : List Tree) (trees : List Tree) :
    occurrencesAll around trees = trees.flatMap (occurrences around) := by
  induction trees with
  | nil => rfl
  | cons t rest ih => rw [occurrencesAll, ih, List.flatMap_cons]

theorem occurrences_eq (around : List Tree) (t : Tree) :
    occurrences around t = { node := t, around } :: t.children.flatMap (occurrences (t :: around)) := by
  cases t with
  | node label children => rw [occurrences, occurrencesAll_eq, Tree.children.eq_1]

theorem map_node_occurrences (around : List Tree) (t : Tree) :
    (occurrences around t).map (·.node) = t.preorder := by
  induction t using of_children generalizing around with
  | h t ih =>
      rw [occurrences_eq, preorder_eq, List.map_cons, List.map_flatMap]
      exact congrArg (t :: ·) (List.flatMap_congr fun inner hinner => ih inner hinner _)

/-- What lies around a tree lies around every node of it. -/
theorem isOpen_around {o : Occurrence} (ho : o ∈ occurrences around t) (hopen : o.isOpen = true) :
    around.all (!·.isFunction) = true := by
  induction t using of_children generalizing around with
  | h t ih =>
      rw [occurrences_eq, List.mem_cons, List.mem_flatMap] at ho
      rcases ho with rfl | ⟨inner, hinner, ho⟩
      · exact hopen
      · have hall := ih inner hinner ho
        rw [List.all_cons, Bool.and_eq_true] at hall
        exact hall.2

theorem reached_of_isOpen {o : Occurrence} (ho : o ∈ occurrences around t) (hopen : o.isOpen = true)
    (ht : t ∈ roots) : Reached roots o.node := by
  induction t using of_children generalizing around roots with
  | h t ih =>
      rw [occurrences_eq, List.mem_cons, List.mem_flatMap] at ho
      rcases ho with rfl | ⟨inner, hinner, ho⟩
      · exact .root ht
      · have hall := isOpen_around ho hopen
        rw [List.all_cons, Bool.and_eq_true, Bool.not_eq_true'] at hall
        exact (ih inner hinner ho hinner).of_children ht hall.1

theorem child_mem_occurrences {o : Occurrence} (ho : o ∈ occurrences around t) (hinner : inner ∈ o.node.children) :
    { node := inner, around := o.node :: o.around } ∈ occurrences around t := by
  induction t using of_children generalizing around with
  | h t ih =>
      rw [occurrences_eq, List.mem_cons, List.mem_flatMap] at ho ⊢
      rcases ho with rfl | ⟨child, hchild, ho⟩
      · refine Or.inr ⟨inner, hinner, ?_⟩
        rw [occurrences_eq]
        exact List.mem_cons_self
      · exact Or.inr ⟨child, hchild, ih child hchild ho⟩

/-! ## Open nodes -/

def openNodes (roots : List Tree) : List Tree :=
  ((occurrencesAll [] roots).filter (·.isOpen)).map (·.node)

theorem mem_openNodes_iff_exists : node ∈ openNodes roots ↔
    ∃ root ∈ roots, ∃ o ∈ occurrences [] root, o.isOpen = true ∧ o.node = node := by
  simp only [openNodes, occurrencesAll_eq, List.mem_map, List.mem_filter, List.mem_flatMap]
  constructor
  · rintro ⟨o, ⟨⟨root, hroot, ho⟩, hopen⟩, hnode⟩
    exact ⟨root, hroot, o, ho, hopen, hnode⟩
  · rintro ⟨root, hroot, o, ho, hopen, hnode⟩
    exact ⟨o, ⟨⟨root, hroot, ho⟩, hopen⟩, hnode⟩

/-- The open nodes are the ends of the paths that go through no function. -/
theorem mem_openNodes : node ∈ openNodes roots ↔ Reached roots node := by
  rw [mem_openNodes_iff_exists]
  constructor
  · rintro ⟨root, hroot, o, ho, hopen, rfl⟩
    exact reached_of_isOpen ho hopen hroot
  · intro h
    induction h with
    | @root t ht =>
        refine ⟨t, ht, { node := t, around := [] }, ?_, rfl, rfl⟩
        rw [occurrences_eq]
        exact List.mem_cons_self
    | @child t inner _ hfunction hinner ih =>
        obtain ⟨root, hroot, o, ho, hopen, rfl⟩ := ih
        refine ⟨root, hroot, _, child_mem_occurrences ho hinner, ?_, rfl⟩
        rw [Occurrence.isOpen, List.all_cons, hfunction]
        exact hopen

theorem openNodes_sublist (roots : List Tree) : (openNodes roots).Sublist (preorderAll roots) := by
  have hnodes : (occurrencesAll [] roots).map (·.node) = preorderAll roots := by
    rw [occurrencesAll_eq, preorderAll_eq, List.map_flatMap]
    exact List.flatMap_congr fun root _ => map_node_occurrences [] root
  rw [← hnodes]
  exact List.filter_sublist.map _

section Collect

variable {α : Type} {own collect : Tree → List α}

theorem collect_eq (hcollect : ∀ t, collect t = own t ++ if t.isFunction then [] else t.children.flatMap collect)
    (t : Tree) (h : around.all (!·.isFunction) = true) :
    collect t = ((occurrences around t).filter (·.isOpen)).flatMap (own ·.node) := by
  induction t using of_children generalizing around with
  | h t ih =>
      have hopen : ({ node := t, around } : Occurrence).isOpen = true := h
      rw [hcollect, occurrences_eq, List.filter_cons, if_pos hopen, List.flatMap_cons, List.filter_flatMap,
        List.flatMap_assoc]
      refine congrArg (own t ++ ·) ?_
      cases hfunction : t.isFunction with
      | true =>
          rw [if_pos rfl, eq_comm, List.flatMap_eq_nil_iff]
          intro inner _
          rw [List.flatMap_eq_nil_iff]
          intro o ho
          obtain ⟨hmem, hinside⟩ := List.mem_filter.1 ho
          have hall := isOpen_around hmem hinside
          rw [List.all_cons, hfunction] at hall
          cases hall
      | false =>
          have hall : (t :: around).all (!·.isFunction) = true := by
            rw [List.all_cons, hfunction]
            exact h
          rw [if_neg Bool.false_ne_true]
          exact List.flatMap_congr fun inner hinner => ih inner hinner hall

theorem flatMap_collect (hcollect : ∀ t, collect t = own t ++ if t.isFunction then [] else t.children.flatMap collect)
    (roots : List Tree) : roots.flatMap collect = (openNodes roots).flatMap own := by
  rw [openNodes, occurrencesAll_eq, List.filter_flatMap, List.flatMap_map, List.flatMap_assoc]
  exact List.flatMap_congr fun root _ => collect_eq hcollect root rfl

theorem mem_collected {a : α}
    (hcollect : ∀ t, collect t = own t ++ if t.isFunction then [] else t.children.flatMap collect)
    (roots : List Tree) : a ∈ roots.flatMap collect ↔ ∃ node, Reached roots node ∧ a ∈ own node := by
  rw [flatMap_collect hcollect, List.mem_flatMap]
  simp only [mem_openNodes]

end Collect

end Script.Tree

end ScriptSplit
