import ScriptSplit.Script.Tree

/-!
# Calls made by a function

The names of the functions that a body calls, one per call and in the order of the text. Calls
inside nested functions count only where that is asked for.
-/

namespace ScriptSplit.Script.Tree

/-- The name by which a call's target is known: `foo` for `foo()` and for `a.b.foo()`. -/
def calleeName (children : List Tree) : List String :=
  match children.find? (·.label.role == some .function) with
  | none => []
  | some target =>
    match target.kind with
    | .identifier => nonempty target.text
    | .member =>
      match target.child? .property with
      | some property =>
        if property.kind == .propertyName || property.kind == .privateName then
          nonempty property.text
        else []
      | none => []
    | _ => []
where
  /-- A name if it has characters. -/
  nonempty (name : String) : List String := if name == "" then [] else [name]

mutual

def callees (closures : Bool) : Tree → List String
  | .node label children =>
    if label.kind.isFunction && !closures then []
    else if label.kind == .call then calleeName children ++ calleesAll closures children
    else calleesAll closures children

def calleesAll (closures : Bool) : List Tree → List String
  | [] => []
  | t :: rest => callees closures t ++ calleesAll closures rest

end

/-- The names of the calls in a function's body, which counts even where it is a function
itself. -/
def bodyCallees (closures : Bool) (function : Tree) : List String :=
  match function.child? .body with
  | none => []
  | some body =>
    (if body.kind == .call then calleeName body.children else []) ++
      calleesAll closures body.children

end ScriptSplit.Script.Tree
