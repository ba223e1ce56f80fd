import ScriptSplit.Text.Lines

/-!
# Syntax trees

A syntax tree of a script keeps what the analyses ask for: the kind of every node, the role it
plays in its parent, its span in the text, the text of its leaves, and its children in the order
of the text. Punctuation leaves no trace.
-/

namespace ScriptSplit.Script

inductive Kind where
  | program
  | error
  -- names
  | identifier
  | undefined
  | propertyName
  | privateName
  | shorthandProperty
  | shorthandPattern
  -- expressions
  | literal
  | template
  | parenthesized
  | operation
  | sequence
  | assignment
  | object
  | array
  | pair
  | spread
  | coverInitializer
  | computedName
  | member
  | subscript
  | call
  | construct
  | arguments
  | markup
  -- patterns
  | assignmentPattern
  | objectAssignmentPattern
  | objectPattern
  | arrayPattern
  | pairPattern
  | restPattern
  -- functions and classes
  | functionDeclaration
  | generatorDeclaration
  | functionExpression
  | generatorFunction
  | arrowFunction
  | methodDefinition
  | parameters
  | classDeclaration
  | classExpression
  | classBody
  | classField
  | staticBlock
  | decorator
  -- statements
  | block
  | statement
  | expressionStatement
  | labeledStatement
  | emptyStatement
  | forIn
  | catchClause
  | lexicalDeclaration
  | variableDeclaration
  | usingDeclaration
  | variableDeclarator
  | importStatement
  | exportStatement
  | exportClause
  | exportSpecifier
  | keyword
  deriving DecidableEq, Repr

/-- The name of a kind that opens a function scope of its own; the other kinds have none. -/
def Kind.functionName : Kind → String
  | .functionDeclaration => "function_declaration"
  | .generatorDeclaration => "generator_function_declaration"
  | .functionExpression => "function_expression"
  | .generatorFunction => "generator_function"
  | .arrowFunction => "arrow_function"
  | .methodDefinition => "method_definition"
  | _ => ""

def Kind.isFunction (kind : Kind) : Bool := !kind.functionName.isEmpty

/-- The initial values that make a variable declaration a function. -/
def Kind.isFunctionValue : Kind → Bool
  | .functionExpression | .generatorFunction | .arrowFunction => true
  | _ => false

inductive Role where
  | name
  | value
  | left
  | right
  | kind
  | parameters
  | parameter
  | body
  | declaration
  | source
  | function
  | property
  deriving DecidableEq, Repr

/-- What is known of a node apart from its children. `text` is the text of a leaf. -/
structure Label where
  kind : Kind
  role : Option Role
  start : Nat
  stop : Nat
  text : String
  deriving DecidableEq, Repr

inductive Tree where
  | node (label : Label) (children : List Tree)
  deriving Repr

namespace Tree

def label : Tree → Label
  | .node label _ => label

def children : Tree → List Tree
  | .node _ children => children

def kind (t : Tree) : Kind := t.label.kind

def start (t : Tree) : Nat := t.label.start

def stop (t : Tree) : Nat := t.label.stop

def text (t : Tree) : String := t.label.text

def isFunction (t : Tree) : Bool := t.kind.isFunction

def withRole (role : Role) : Tree → Tree
  | .node label children => .node { label with role := some role } children

def withKind (kind : Kind) : Tree → Tree
  | .node label children => .node { label with kind } children

def child? (t : Tree) (role : Role) : Option Tree :=
  t.children.find? fun child => child.label.role == some role

mutual

/-- The node and everything below it, each node before its children. -/
def preorder : Tree → List Tree
  | .node label children => .node label children :: preorderAll children

def preorderAll : List Tree → List Tree
  | [] => []
  | t :: rest => preorder t ++ preorderAll rest

end

end Tree

end ScriptSplit.Script
