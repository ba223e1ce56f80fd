import ScriptSplit.Text.Search

/-!
# References

Where a text mentions a name, as a whole word and not inside quotes that opened on the same line.
-/

namespace ScriptSplit

namespace Reference

def occursAt (name : Text) (before : Option Char) (text : Text) : Bool :=
  !before.any Text.isNamePart && name.isPrefixOf text &&
    !(text.drop name.length).head?.any Text.isNamePart

/-- The offsets at which a name occurs without overlaps in a text that begins at `offset`, once `skip`
more characters have been passed. -/
def occurrencesFrom (name : Text) (offset : Nat) (before : Option Char) (skip : Nat) :
    Text → List Nat
  | [] => if skip = 0 && occursAt name before [] then [offset] else []
  | c :: rest =>
    if 0 < skip then occurrencesFrom name (offset + 1) (some c) (skip - 1) rest
    else if occursAt name before (c :: rest) then
      offset :: occurrencesFrom name (offset + 1) (some c) (name.length - 1) rest
    else occurrencesFrom name (offset + 1) (some c) 0 rest

/-- Whether an odd number of quotes of one kind stands before a place on its line. -/
def insideQuotes (lineBefore : Text) : Bool :=
  ['"', '\'', '\x60'].any fun quote => lineBefore.count quote % 2 == 1

end Reference

def firstReference? (text name : Text) : Option Nat :=
  (Reference.occurrencesFrom name 0 none 0 text).find? fun offset =>
    !Reference.insideQuotes (text.slice (text.lineStart offset) offset)

end ScriptSplit
