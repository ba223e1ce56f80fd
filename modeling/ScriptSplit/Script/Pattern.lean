import ScriptSplit.Script.Tree

/-!
# Binding and assignment patterns

A destructuring pattern is first read as the literal it looks like and turned into a pattern when
an arrow, an equals sign or a parameter list shows what it is. The conversion refuses literals that
are no patterns.
-/

namespace ScriptSplit.Script

namespace Tree

/-- Whether a node may stand left of a plain assignment as it is. -/
def isSimpleTarget (t : Tree) : Bool :=
  match t.kind with
  | .identifier | .undefined | .member | .subscript => true
  | _ => false

mutual

def toPattern? : Tree → Option Tree
  | .node label children =>
    match label.kind with
    | .identifier | .undefined | .member | .subscript => some (.node label children)
    | .object => (toProperties? children).map (.node { label with kind := .objectPattern })
    | .array => (toElements? children).map (.node { label with kind := .arrayPattern })
    | _ => none

/-- The element of a pattern or parameter list that an item stands for: a pattern, perhaps with a
default value, or a rest. -/
def toElement? : Tree → Option Tree
  | .node label children =>
    match label.kind with
    | .assignment =>
      if children.head?.any (·.kind == .parenthesized) then none
      else some (.node { label with kind := .assignmentPattern } children)
    | .spread => (toPatterns? children).map (.node { label with kind := .restPattern })
    | .identifier | .undefined | .member | .subscript => some (.node label children)
    | .object => (toProperties? children).map (.node { label with kind := .objectPattern })
    | .array => (toElements? children).map (.node { label with kind := .arrayPattern })
    | _ => none

/-- The property of an object pattern that a member of an object stands for. -/
def toProperty? : Tree → Option Tree
  | .node label children =>
    match label.kind with
    | .shorthandProperty => some (.node { label with kind := .shorthandPattern } children)
    | .coverInitializer => some (.node { label with kind := .objectAssignmentPattern } children)
    | .spread => (toPatterns? children).map (.node { label with kind := .restPattern })
    | .pair =>
      match children with
      | [key, value] =>
        (toElement? value).map fun v => .node { label with kind := .pairPattern } [key, v]
      | _ => none
    | _ => none

def toPatterns? : List Tree → Option (List Tree)
  | [] => some []
  | t :: rest =>
    match toPattern? t, toPatterns? rest with
    | some t, some rest => some (t :: rest)
    | _, _ => none

def toElements? : List Tree → Option (List Tree)
  | [] => some []
  | t :: rest =>
    match toElement? t, toElements? rest with
    | some t, some rest => some (t :: rest)
    | _, _ => none

def toProperties? : List Tree → Option (List Tree)
  | [] => some []
  | t :: rest =>
    match toProperty? t, toProperties? rest with
    | some t, some rest => some (t :: rest)
    | _, _ => none

end

def toTarget? (t : Tree) : Option Tree :=
  if t.kind == .parenthesized then some t else t.toPattern?

end Tree

end ScriptSplit.Script
