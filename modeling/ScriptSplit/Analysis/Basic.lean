import ScriptSplit.Analysis.Calls
import ScriptSplit.Analysis.Candidate
import ScriptSplit.Analysis.Scope
import ScriptSplit.Facts.Index
import ScriptSplit.Script.Mend
import ScriptSplit.Warning

/-!
# Analysis of a script

The functions at the top level of a script with the names they use and the calls they make. They
are taken from the syntax tree; where the tree cannot be trusted, from patterns in the text.
-/

namespace ScriptSplit

open Script

namespace TopLevel

def declaredNames (statement : Tree) : List String :=
  let statement :=
    if statement.kind == .exportStatement then (statement.child? .declaration).getD statement
    else statement
  match statement.kind with
  | .functionDeclaration | .generatorDeclaration | .classDeclaration =>
    Tree.declaredName statement.children
  | .lexicalDeclaration | .variableDeclaration =>
    statement.children.flatMap fun d =>
      if d.kind == .variableDeclarator then Tree.boundNamesAt .name d.children else []
  | _ => []

def listedNames (statement : Tree) : List String :=
  if statement.kind == .exportStatement && (statement.child? .declaration).isNone &&
      (statement.child? .source).isNone then
    statement.children.flatMap fun clause =>
      if clause.kind == .exportClause then
        clause.children.flatMap fun specifier =>
          if specifier.kind == .exportSpecifier then Tree.declaredName specifier.children else []
      else []
  else []

/-- A function at the top level: its node, its name and the span of its declaration. -/
structure Declared where
  function : Tree
  name : Option String
  start : Nat
  stop : Nat
  exported : Bool

def bodyEnd (function : Tree) : Nat :=
  ((function.child? .body).getD function).stop

def ownName (function : Tree) : Option String :=
  (function.child? .name).map (·.text)

/-- The functions that a statement other than an export declares. -/
def functionsOf (statement : Tree) (exported : Bool) : List Declared :=
  match statement.kind with
  | .functionDeclaration | .generatorDeclaration =>
    [{ function := statement, name := ownName statement, start := statement.start,
       stop := bodyEnd statement, exported }]
  | .lexicalDeclaration | .variableDeclaration =>
    let declarators := statement.children.filter (·.kind == .variableDeclarator)
    declarators.filterMap fun d => do
      let name ← d.child? .name
      let value ← d.child? .value
      if name.kind != .identifier || !value.kind.isFunctionValue then none
      else if declarators.length = 1 then
        some { function := value, name := some name.text, start := statement.start,
               stop := statement.stop, exported }
      else
        some { function := value, name := some name.text, start := d.start,
               stop := bodyEnd value, exported }
  | _ => []

/-- The functions that a statement declares. A default export is kept whole, since its value has no
other name. -/
def functions (statement : Tree) : List Declared :=
  if statement.kind == .exportStatement then
    let declaration := statement.child? .declaration
    if statement.children.any (·.kind == .keyword) then
      match declaration.or (statement.child? .value) with
      | some target =>
        if target.isFunction then
          [{ function := target, name := ownName target, start := statement.start,
             stop := statement.stop, exported := true }]
        else []
      | none => []
    else
      match declaration with
      | some inner => functionsOf inner true
      | none => []
  else functionsOf statement false

end TopLevel

structure SymbolTable where
  topLevel : List String
  exported : List String

namespace SymbolTable

def ofProgram (program : Tree) : SymbolTable where
  topLevel := Names.ofList (program.children.flatMap TopLevel.declaredNames)
  exported := Names.ofList (program.children.flatMap TopLevel.listedNames)

end SymbolTable

def Candidate.ofDeclared (reader : Reader) (text : Text) (table : SymbolTable) (closureCalls : Bool)
    (d : TopLevel.Declared) : Candidate :=
  let name := d.name.getD anonymousName
  let start := (docCommentStart text d.start).getD d.start
  let scope := Scope.ofFunction d.function
  let free := scope.free (name :: table.topLevel)
  { name, start
    stop := validateEnd text start d.stop (some reader.isProgram)
    exported := d.exported || table.exported.contains name
    moveable := free.isEmpty
    used := scope.used
    free
    params := scope.params
    locals := scope.locals
    callees := d.function.bodyCallees closureCalls }

def Candidate.ofProgram (reader : Reader) (text : Text) (program : Tree) (closureCalls : Bool) :
    List Candidate :=
  let table := SymbolTable.ofProgram program
  (program.children.flatMap TopLevel.functions).map
    (Candidate.ofDeclared reader text table closureCalls)

/-- The id of the `n`-th function: `f` and at least four digits. -/
def functionId (n : Nat) : String :=
  let digits := toString n
  "f" ++ String.ofList (List.replicate (4 - digits.length) '0') ++ digits

def Candidate.record (n : Nat) (c : Candidate) : FunctionRecord where
  id := functionId n
  name := c.name
  start := c.start
  stop := c.stop
  exported := c.exported
  moveable := c.moveable
  used := c.used
  free := c.free
  params := c.params
  locals := c.locals

def Candidate.calls (n : Nat) (c : Candidate) : List CallEdge :=
  c.callees.map fun callee => { caller := functionId n, callee }

structure Analysis where
  facts : Facts
  usedFallback : Bool
  warnings : List Warning

inductive AnalysisError where
  | noFunctions (path : String)
  | sourceNotSet
  | sourceNotFound (path : String)
  | unreadableSource (path reason : String)
  | shimWithoutBackup (path basename : String)
  deriving DecidableEq, Repr

def AnalysisError.message : AnalysisError → String
  | .noFunctions path =>
    "no functions detected in " ++ path ++ "; refusing to build an empty plan"
  | .sourceNotSet => "source_path is not set"
  | .sourceNotFound path => "source file not found: " ++ path
  | .unreadableSource path reason => "cannot read source " ++ path ++ ": " ++ reason
  | .shimWithoutBackup path basename =>
    path ++ " is an atomizer shim and no " ++ basename ++
      "_old backup was found; restore the original source first"

def degradedParse : Warning where
  stage := .analyze
  kind := .parseDegradation
  message := "syntax tree has statement-level errors; using regex scanner"

def topLevelNames (program : Option Tree) (candidates : List Candidate) : List String :=
  match program with
  | some program => (SymbolTable.ofProgram program).topLevel
  | none => Names.ofList (candidates.map (·.name))

/-- The candidates of a syntax tree, or, where there is none, of patterns in the text. -/
def Candidate.ofText (reader : Reader) (text : Text) (program : Option Tree)
    (closureCalls : Bool) : List Candidate :=
  match program with
  | some program => Candidate.ofProgram reader text program closureCalls
  | none => PatternScan.candidates text

/-- Analyses the text of the script at `path`, which has the given syntax tree if any. -/
def analyzeTree (reader : Reader) (program : Option Tree) (text : Text) (path : String)
    (closureCalls : Bool) : Except AnalysisError Analysis :=
  let candidates := Candidate.ofText reader text program closureCalls
  match Candidate.dedupe candidates with
  | [] => .error (.noFunctions path)
  | kept =>
    .ok {
      facts := {
        source := path
        functions := kept.mapIdx Candidate.record
        calls := (kept.mapIdx Candidate.calls).flatten
        imports := scanImports text
        topLevel := topLevelNames program candidates }
      usedFallback := program.isNone
      warnings := if program.isNone then [degradedParse] else [] }

/-- Analyses the text of the script at `path`. With `closureCalls` the calls inside nested functions
count as calls of the function around them. -/
def analyze (text : Text) (path : String) (closureCalls : Bool) (reader : Reader := .ofGrammar) :
    Except AnalysisError Analysis :=
  analyzeTree reader (reader.tree? text) text path closureCalls

end ScriptSplit
