import ScriptSplit.Script.Parse

/-!
# Trees of faulty texts

A text with one fault still has a tree worth using if the fault lies inside a statement. The text is
mended by the cheapest edit that makes it a program: a closing bracket or a name is supplied in
front of the lexeme that does not fit, or a few lexemes around that place are passed over. Lexemes
that are passed over stay in the tree below an error node. If they lie between the statements of
the program, the statements cannot be told apart.
-/

namespace ScriptSplit.Script

inductive Edit where
  /-- Supplies `text` at an offset. -/
  | supply (offset : Nat) (text : String)
  /-- Passes over the lexemes in a span. -/
  | pass (start stop : Nat)

namespace Edit

/-- The text after the change. Lexemes that are passed over become blanks, so that offsets stay as
they are. -/
def apply (text : Text) : Edit → Text
  | .supply offset piece => text.take offset ++ piece.toList ++ text.drop offset
  | .pass start stop =>
    text.take start ++ List.replicate (min stop text.length - start) ' ' ++ text.drop stop

def supplyCost : Nat := 610

/-- What the change costs: for lexemes passed over by their number and characters. -/
def passCost (lexemes chars : Nat) : Nat := 500 + 100 * lexemes + chars

end Edit

def nextLexeme? (text : Text) (offset : Nat) : Option (Nat × Nat) :=
  let rest := text.drop offset
  let start := offset + Lexeme.trivia false rest
  match text.drop start with
  | [] => none
  | c :: more =>
    let here := c :: more
    let length :=
      match Lexeme.name? here, Lexeme.number? here, Lexeme.string? here with
      | some n, _, _ => n
      | none, some n, _ => n
      | none, none, some n => n
      | none, none, none => max 1 (Lexeme.punctuator here).length
    some (start, start + length)

def lexemesBefore (text : Text) (limit : Nat) : Nat → Nat → List (Nat × Nat)
  | _, 0 => []
  | offset, fuel + 1 =>
    match nextLexeme? text offset with
    | some (start, stop) =>
      if start < limit then (start, stop) :: lexemesBefore text limit stop fuel else []
    | none => []

def lexemesFrom (text : Text) (offset : Nat) : Nat → List (Nat × Nat)
  | 0 => []
  | count + 1 =>
    match nextLexeme? text offset with
    | some (start, stop) => (start, stop) :: lexemesFrom text stop count
    | none => []

def maxPassed : Nat := 3

def passOver (lexemes : List (Nat × Nat)) : List (Nat × Edit) :=
  match lexemes.head?, lexemes.getLast? with
  | some (start, _), some (_, stop) =>
    [(Edit.passCost lexemes.length (stop - start), .pass start stop)]
  | _, _ => []

/-- The changes worth trying where a text goes wrong at an offset, cheaper ones first. -/
def edits (text : Text) (wrong : Nat) : List Edit :=
  let before := lexemesBefore text wrong 0 text.length
  let after := lexemesFrom text wrong maxPassed
  let counts := List.range' 1 maxPassed
  let passes :=
    counts.flatMap (fun n => if n ≤ after.length then passOver (after.take n) else []) ++
      counts.flatMap fun n =>
        if n ≤ before.length then passOver (before.drop (before.length - n)) else []
  let previous := (before.getLast?.map (·.2)).getD 0
  let supplied := if after.isEmpty then ["\x7d"] else [")", "]", "\x7d", "_"]
  let supplies := supplied.map fun piece => (Edit.supplyCost, Edit.supply previous piece)
  ((passes ++ supplies).mergeSort fun a b => a.1 ≤ b.1).map (·.2)

namespace Tree

mutual

/-- The tree with every offset changed by `f`, and the leaf at `supplied` without text. -/
def remap (f : Nat → Nat) (supplied : Nat) : Tree → Tree
  | .node label children =>
    let text := if label.start == supplied && label.text == "_" then "" else label.text
    .node { label with start := f label.start, stop := f label.stop, text }
      (remapAll f supplied children)

def remapAll (f : Nat → Nat) (supplied : Nat) : List Tree → List Tree
  | [] => []
  | t :: rest => remap f supplied t :: remapAll f supplied rest

end

mutual

/-- Hangs a node below the innermost node whose span holds its own. -/
def hang (error : Tree) : Tree → Tree
  | .node label children =>
    match hangBelow error children with
    | some children => .node label children
    | none => .node label (children.filter (·.start < error.start) ++
        error :: children.filter (error.start ≤ ·.start))

def hangBelow (error : Tree) : List Tree → Option (List Tree)
  | [] => none
  | t :: rest =>
    if t.label.start < error.start && error.stop < t.label.stop then some (hang error t :: rest)
    else (hangBelow error rest).map (t :: ·)

end

end Tree

def namesIn (text : Text) (start stop : Nat) : List Tree :=
  (lexemesFrom text start (stop - start)).filterMap fun (a, b) =>
    let word := text.slice a b
    if b ≤ stop && (Lexeme.name? word).isSome && !Parser.isReserved (String.ofList word) then
      some (.node { kind := .identifier, role := none, start := a, stop := b,
                    text := String.ofList word } [])
    else none

/-- A function that was never closed is no declaration. -/
def undeclare (program : Tree) : Tree :=
  match program.children.getLast? with
  | some last =>
    let kind? : Option Kind :=
      match last.kind with
      | .functionDeclaration => some .functionExpression
      | .generatorDeclaration => some .generatorFunction
      | _ => none
    match kind? with
    | some kind =>
      .node program.label (program.children.dropLast ++
        [.node { last.label with kind := .expressionStatement } [last.withKind kind]])
    | none => program
  | none => program

/-- The tree of a text that one change makes a program, if its statements can be told apart. -/
def mendedTree? (text : Text) (edit : Edit) (program : Tree) : Option Tree :=
  match edit with
  | .supply offset piece =>
    let back (n : Nat) : Nat := if n ≤ offset then n else max offset (n - piece.length)
    let t := program.remap back offset
    some (if (nextLexeme? text offset).isNone then undeclare t else t)
  | .pass start stop =>
    if program.children.any fun s => s.start < start && stop < s.stop then
      let error := Tree.node { kind := .error, role := none, start, stop, text := "" }
        (namesIn text start stop)
      some (Tree.hang error program)
    else none

/-- The syntax tree of a text whose statements can be told apart. -/
def parse? (text : Text) : Option Tree :=
  match readProgram text with
  | .ok t => some t
  | .error wrong =>
    let mended := (edits text wrong).findSome? fun edit =>
      match readProgram (edit.apply text) with
      | .ok t => some (mendedTree? text edit t)
      | .error _ => none
    mended.join

/-- What a reader of scripts can say of a text. -/
structure Reader where
  /-- The syntax tree, if the statements can be told apart. -/
  tree? : Text → Option Tree
  isProgram : Text → Bool

/-- The reader by the grammar, which leaves out some old forms of the language, such as an initial value in the head of
a loop over members. -/
def Reader.ofGrammar : Reader where
  tree? := parse?
  isProgram := Script.isProgram

end ScriptSplit.Script
