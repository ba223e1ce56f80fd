import ScriptSplit.Bridge.Render
import ScriptSplit.Proofs.CommonJs.Clause

/-!
# What a bridge says

The lines that a bridge is made of say which names it takes from which module, under which names it has them,
and which of them it gives to others under which public names. The two kinds of bridge say this in different
words. What a line was written to say is read from it.
-/

namespace ScriptSplit

structure Binding where
  specifier : String
  name : String
  shown : String
  deriving DecidableEq, Repr

/-- What a bridge says. -/
structure BridgeContent where
  bindings : List Binding
  /-- The public names, each with the name that the bridge itself has. -/
  publics : Table String

namespace BridgeContent

def locals (content : BridgeContent) : List String :=
  content.bindings.map (·.shown)

/-- Where a public name comes from: the module by its specifier, and the name there. -/
def origin? (content : BridgeContent) (shown : String) : Option (String × String) := do
  let own ← content.publics.get? shown
  let binding ← content.bindings.find? (·.shown == own)
  return (binding.specifier, binding.name)

end BridgeContent

/-- The words of a kind of bridge. -/
structure BridgeWords where
  /-- Before the names that are taken from a module. -/
  takes : String
  /-- Before and after the specifier of the module. -/
  source : String × String
  /-- Before the public names. -/
  gives : String
  /-- Between the two sides of an entry. -/
  mark : String
  /-- Whether the public name is the first side of an entry. -/
  publicFirst : Bool

namespace BridgeWords

def modules : BridgeWords where
  takes := "import "
  source := (" from '", "';")
  gives := "export "
  mark := " as "
  publicFirst := false

def require : BridgeWords where
  takes := "const "
  source := (" = require('", "');")
  gives := "module.exports = "
  mark := ": "
  publicFirst := true

variable (words : BridgeWords)

def sides (entry : Text) : String × String :=
  match Text.find? entry words.mark.toList with
  | some n => (String.ofList (entry.take n), String.ofList (entry.drop (n + words.mark.length)))
  | none => (String.ofList entry, String.ofList entry)

/-- The entries between braces that follow some words, and what stands behind them. -/
def listAfter? (opening : String) (line : Text) : Option (List (String × String) × Text) := do
  let rest ← Text.afterWord? opening line
  let (clause, rest) ← CommonJs.bracedList? rest
  return ((Text.commaList clause).map words.sides, rest)

def specifier? (rest : Text) : Option String := do
  let rest ← Text.afterWord? words.source.1 rest
  if words.source.2.toList.isSuffixOf rest then
    return String.ofList (rest.take (rest.length - words.source.2.length))
  else none

def bindings? (line : Text) : Option (List Binding) := do
  let (entries, rest) ← words.listAfter? words.takes line
  let specifier ← words.specifier? rest
  return entries.map fun (name, shown) => { specifier, name, shown }

def publics? (line : Text) : Option (Table String) := do
  let (entries, rest) ← words.listAfter? words.gives line
  if rest = [';'] then return if words.publicFirst then entries else entries.map Prod.swap else none

def content? (takes : List Text) (gives : Text) : Option BridgeContent := do
  return { bindings := (← takes.mapM words.bindings?).flatten, publics := ← words.publics? gives }

/-! ## Reading what was written -/

def entry (pair : String × String) : Text :=
  if pair.2 = pair.1 then pair.1.toList else pair.1.toList ++ words.mark.toList ++ pair.2.toList

structure Marked : Prop where
  first : ∃ c mark, words.mark.toList = c :: mark ∧ Text.isNamePart c = false
  listed : ',' ∉ words.mark.toList ∧ '\x7d' ∉ words.mark.toList

theorem modules_marked : modules.Marked :=
  ⟨⟨' ', ['a', 's', ' '], by decide, by decide⟩, by decide⟩

theorem require_marked : require.Marked :=
  ⟨⟨':', [' '], by decide, by decide⟩, by decide⟩

variable {words}

def Named (pair : String × String) : Prop :=
  Text.isName pair.1.toList = true ∧ Text.isName pair.2.toList = true

theorem Marked.sides_entry (h : words.Marked) {pair : String × String} (hpair : Named pair) :
    words.sides (words.entry pair) = pair := by
  obtain ⟨c, mark, hmark, hc⟩ := h.first
  have hfirst := Text.not_mem_of_isName hpair.1 hc
  unfold entry sides
  rw [hmark]
  by_cases hsame : pair.2 = pair.1
  · rw [if_pos hsame, Text.find?_eq_none hfirst]
    simp only [String.ofList_toList]
    exact Prod.ext rfl hsame.symm
  · have hlength : words.mark.length = (c :: mark).length := by
      rw [← hmark, String.length_toList]
    rw [if_neg hsame, List.append_assoc, Text.find?_append hfirst]
    simp only [hlength]
    rw [List.take_left, ← List.append_assoc, List.drop_left' (by simp), String.ofList_toList,
      String.ofList_toList]

theorem Marked.isEntry (h : words.Marked) {pair : String × String} (hpair : Named pair) :
    Text.IsEntry (words.entry pair) ∧ '\x7d' ∉ words.entry pair := by
  have hclose {name : String} (hname : Text.isName name.toList = true) : '\x7d' ∉ name.toList :=
    Text.not_mem_of_isName hname (by decide)
  unfold entry
  split
  · exact ⟨Text.isEntry_of_isName hpair.1, hclose hpair.1⟩
  · refine ⟨Text.isEntry_pair hpair.1 hpair.2 h.listed.1, ?_⟩
    simp only [List.mem_append, not_or]
    exact ⟨⟨hclose hpair.1, h.listed.2⟩, hclose hpair.2⟩

theorem Marked.listAfter?_eq (h : words.Marked) {pairs : List (String × String)}
    (hpairs : ∀ pair ∈ pairs, Named pair) (opening : String) (rest : Text) :
    words.listAfter? opening
      (opening.toList ++ (CommonJs.braces (pairs.map words.entry) ++ rest)) = some (pairs, rest) := by
  obtain ⟨clause, hclause, hentries⟩ := CommonJs.bracedList?_braces
    (List.forall_mem_map.2 fun pair hpair => h.isEntry (hpairs pair hpair))
  have hsides : (pairs.map words.entry).map words.sides = pairs := by
    rw [List.map_map]
    conv_rhs => rw [← List.map_id pairs]
    exact List.map_congr_left fun pair hpair => h.sides_entry (hpairs pair hpair)
  simp only [listAfter?, Text.afterWord?_append, hclause, hentries, hsides, Option.bind_eq_bind,
    Option.bind_some]
  rfl

theorem specifier?_eq (words : BridgeWords) (specifier : String) :
    words.specifier? (words.source.1.toList ++ (specifier.toList ++ words.source.2.toList)) =
      some specifier := by
  have hsuffix : words.source.2.toList.isSuffixOf (specifier.toList ++ words.source.2.toList) = true := by
    simp
  simp only [BridgeWords.specifier?, Text.afterWord?_append, Option.bind_eq_bind, Option.bind_some]
  rw [if_pos hsuffix, List.length_append, String.length_toList, String.length_toList,
    Nat.add_sub_cancel, ← String.length_toList, List.take_left, String.ofList_toList]
  rfl

def takesLine (words : BridgeWords) (pairs : List (String × String)) (specifier : String) : Text :=
  words.takes.toList ++ (CommonJs.braces (pairs.map words.entry) ++
    (words.source.1.toList ++ (specifier.toList ++ words.source.2.toList)))

def givesLine (words : BridgeWords) (pairs : List (String × String)) : Text :=
  words.gives.toList ++ (CommonJs.braces (pairs.map words.entry) ++ [';'])

theorem Marked.bindings?_takesLine (h : words.Marked) {pairs : List (String × String)}
    (hpairs : ∀ pair ∈ pairs, Named pair) (specifier : String) :
    words.bindings? (words.takesLine pairs specifier) =
      some (pairs.map fun pair => { specifier, name := pair.1, shown := pair.2 }) := by
  simp only [bindings?, takesLine, h.listAfter?_eq hpairs, specifier?_eq, Option.bind_eq_bind,
    Option.bind_some]
  rfl

theorem Marked.publics?_givesLine (h : words.Marked) {pairs : List (String × String)}
    (hpairs : ∀ pair ∈ pairs, Named pair) :
    words.publics? (words.givesLine pairs) =
      some (if words.publicFirst then pairs else pairs.map Prod.swap) := by
  simp only [publics?, givesLine, h.listAfter?_eq hpairs, Option.bind_eq_bind, Option.bind_some]
  rfl

end BridgeWords

end ScriptSplit
