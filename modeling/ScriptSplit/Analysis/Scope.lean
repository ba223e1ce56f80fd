import ScriptSplit.Script.Tree
import ScriptSplit.Text.Names

/-!
# Names used and bound by a function

What one function uses and binds, nested functions left aside: they are functions in their own
right, and only the name of a nested declaration belongs to the scope around it.
-/

namespace ScriptSplit

open Script

/-- The names that every module can reach without importing them. -/
def builtins : List String :=
  ["Math", "Date", "JSON", "console", "Object", "Array", "Number", "String", "Boolean", "Promise",
    "Set", "Map", "WeakMap", "WeakSet", "Symbol", "Reflect", "BigInt", "RegExp", "Error",
    "TypeError", "RangeError", "SyntaxError", "ReferenceError", "Intl", "URL", "URLSearchParams",
    "TextEncoder", "TextDecoder", "AbortController", "fetch", "Headers", "Request", "Response",
    "Buffer", "require", "module", "exports", "process", "__dirname", "__filename", "global",
    "globalThis", "window", "document", "navigator", "undefined", "NaN", "Infinity", "arguments",
    "parseInt", "parseFloat", "isNaN", "isFinite", "encodeURIComponent", "decodeURIComponent",
    "encodeURI", "decodeURI", "setTimeout", "clearTimeout", "setInterval", "clearInterval",
    "setImmediate", "queueMicrotask", "structuredClone", "ArrayBuffer", "DataView", "Uint8Array",
    "Int32Array", "Float64Array", "Proxy", "eval"]

namespace Script.Tree

mutual

/-- The names that a declarator or parameter pattern binds, in order. Default values bind
nothing. -/
def boundNames : Tree → List String
  | .node label children =>
    match label.kind with
    | .identifier | .shorthandPattern => [label.text]
    | .assignmentPattern | .objectAssignmentPattern => boundNamesAt .left children
    | .pairPattern => boundNamesAt .value children
    | .restPattern | .objectPattern | .arrayPattern | .parameters => boundNamesAll children
    | _ => []

def boundNamesAt (role : Role) : List Tree → List String
  | [] => []
  | t :: rest => if t.label.role == some role then boundNames t else boundNamesAt role rest

def boundNamesAll : List Tree → List String
  | [] => []
  | t :: rest => boundNames t ++ boundNamesAll rest

end

/-- The names that a function's parameters bind, in order and with repetitions. -/
def parameterNames (function : Tree) : List String :=
  match function.child? .parameters with
  | some parameters => parameters.boundNames
  | none =>
    match function.child? .parameter with
    | some parameter => parameter.boundNames
    | none => []

def isReference (t : Tree) : Bool :=
  t.kind == .identifier || t.kind == .shorthandProperty

mutual

/-- The names referred to below a node, nested functions left aside. -/
def references : Tree → List String
  | .node label children =>
    if label.kind.isFunction then []
    else if label.kind == .identifier || label.kind == .shorthandProperty then
      label.text :: referencesAll children
    else referencesAll children

def referencesAll : List Tree → List String
  | [] => []
  | t :: rest => references t ++ referencesAll rest

end

def declaredName (children : List Tree) : List String :=
  match children.find? (·.label.role == some .name) with
  | some name => [name.text]
  | none => []

/-- The names that a nested function declares in the scope around it. -/
def nestedName (kind : Kind) (children : List Tree) : List String :=
  if kind == .functionDeclaration || kind == .generatorDeclaration then
    (declaredName children).filter (· != "")
  else []

mutual

def declarations : Tree → List String
  | .node label children =>
    if label.kind.isFunction then nestedName label.kind children
    else
      let own :=
        match label.kind with
        | .variableDeclarator => boundNamesAt .name children
        | .catchClause => boundNamesAt .parameter children
        | .classDeclaration => declaredName children
        | _ => []
      own ++ declarationsAll children

def declarationsAll : List Tree → List String
  | [] => []
  | t :: rest => declarations t ++ declarationsAll rest

end

/-- The parts of a function that are searched: its parameter list and its body. -/
def scopeRoots (function : Tree) : List Tree :=
  (function.child? .parameters).toList ++ (function.child? .body).toList

end Script.Tree

structure Scope where
  used : List String
  params : List String
  locals : List String
  deriving DecidableEq, Repr

namespace Scope

def ofFunction (function : Tree) : Scope :=
  let params := Names.ofList function.parameterNames
  { used := Names.ofList (Tree.referencesAll function.scopeRoots)
    params
    locals := Names.diff (Names.ofList (Tree.declarationsAll function.scopeRoots)) params }

/-- The names used that are neither declared here nor built in nor exempt. -/
def free (scope : Scope) (exempt : List String) : List String :=
  scope.used.filter fun name =>
    !(scope.params.contains name || scope.locals.contains name || builtins.contains name ||
      exempt.contains name)

end Scope

end ScriptSplit
