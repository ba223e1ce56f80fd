import ScriptSplit.Proofs.CommonJs.Conversion

/-!
# The names that a module offers

A module in its CommonJS form offers the keys of the object in its last line. They are the names that the module
exports, and the name that its default has in the module itself.
-/

namespace ScriptSplit

open Text (IsEntry commaList isBlank isName isNamePart unlines)

namespace CommonJs

def lastRow (text : Text) : Text :=
  (text.reverse.tail.takeWhile (· != '\n')).reverse

def keyOf (property : Text) : Text := property.takeWhile (· != ':')

/-- The keys of the object that is written in the last line of a text. -/
def offeredKeys (text : Text) : List String :=
  match bracedList? ((lastRow text).dropWhile (· != '\x7b')) with
  | some (clause, _) => (commaList clause).map fun property => String.ofList (keyOf property)
  | none => []

theorem lastRow_unlines (body : Text) {row : Text} (hrow : '\n' ∉ row) :
    lastRow (body ++ unlines [[], row]) = row := by
  have htext : (body ++ unlines [[], row]).reverse.tail = row.reverse ++ '\n' :: body.reverse := by
    simp [unlines]
  have hall : ∀ c ∈ row.reverse, (c != '\n') = true := by
    intro c hc
    rw [bne_iff_ne]
    rintro rfl
    exact hrow (List.mem_reverse.1 hc)
  rw [lastRow, htext, List.takeWhile_append_of_pos hall, List.takeWhile_cons_of_neg (by simp),
    List.append_nil, List.reverse_reverse]

theorem moduleExports_toList (properties : List String) : (moduleExports properties).toList =
    "module.exports = ".toList ++ (braces (properties.map String.toList) ++ [';']) := by
  have hopen : "module.exports = \x7b ".toList = "module.exports = ".toList ++ "\x7b ".toList := by simp
  have hclose : " \x7d;".toList = " \x7d".toList ++ [';'] := rfl
  rw [← braces_toList]
  unfold moduleExports
  simp only [String.toList_append, hopen, hclose, List.append_assoc]

theorem offeredKeys_moduleExports (body : Text) {properties : List String}
    (h : ∀ property ∈ properties, IsEntry property.toList ∧ '\x7d' ∉ property.toList ∧
      '\n' ∉ property.toList) :
    offeredKeys (body ++ unlines [[], (moduleExports properties).toList]) =
      properties.map fun property => String.ofList (keyOf property.toList) := by
  have hfeed : '\n' ∉ (moduleExports properties).toList := by
    rw [moduleExports_toList, braces]
    intro hmem
    simp only [List.mem_append, List.mem_cons, List.not_mem_nil, or_false] at hmem
    rcases hmem with hmem | (heq | heq | hmem | heq | heq) | heq
    · exact absurd hmem (by decide)
    · exact absurd heq (by decide)
    · exact absurd heq (by decide)
    · rcases Text.mem_intercalate_comma hmem with heq | heq | ⟨entry, hentry, hmem⟩
      · exact absurd heq (by decide)
      · exact absurd heq (by decide)
      · obtain ⟨property, hproperty, rfl⟩ := List.mem_map.1 hentry
        exact (h property hproperty).2.2 hmem
    · exact absurd heq (by decide)
    · exact absurd heq (by decide)
    · exact absurd heq (by decide)
  have hopen : (moduleExports properties).toList.dropWhile (· != '\x7b') =
      braces (properties.map String.toList) ++ [';'] := by
    rw [moduleExports_toList, List.dropWhile_append_of_pos (by simp)]
    rfl
  have hfits : ∀ entry ∈ properties.map String.toList, IsEntry entry ∧ '\x7d' ∉ entry := by
    intro entry hentry
    obtain ⟨property, hproperty, rfl⟩ := List.mem_map.1 hentry
    exact ⟨(h property hproperty).1, (h property hproperty).2.1⟩
  obtain ⟨clause, hclause, hentries⟩ := bracedList?_braces hfits
  rw [offeredKeys, lastRow_unlines body hfeed, hopen, hclause]
  simp only [hentries, List.map_map]
  rfl

end CommonJs

namespace EsModule

open CommonJs (keyOf offeredKeys)

def Entry.exported : Entry → Text
  | plain name => name.text
  | renamed _ _ _ other => other.text

def Statement.exported : Statement → List String
  | list l => l.clause.entries.map fun entry => String.ofList entry.exported
  | declaration d => d.declared.name?.toList.map String.ofList
  | byDefault _ => ["default"]
  | _ => []

/-- Whether a statement exports its names as they are in the module: a list has no aliases and is of the module itself,
and a declaration has a name in the place of a pattern. -/
def Statement.Plain : Statement → Prop
  | list l => l.passesOn = false ∧ ∀ entry ∈ l.clause.entries, ∃ name, entry = .plain name
  | declaration d => d.declared.name?.isSome = true
  | _ => True

/-! ## Names -/

theorem mem_map_ofList {texts : List Text} {name : String} :
    name ∈ texts.map String.ofList ↔ name.toList ∈ texts := by
  rw [List.mem_map]
  exact ⟨fun ⟨text, htext, heq⟩ => by rwa [← heq, String.toList_ofList],
    fun htext => ⟨name.toList, htext, String.ofList_toList⟩⟩

theorem Declared.isName_of_name? {d : Declared} {name : Text} (h : d.name? = some name) : isName name = true := by
  cases d with
  | function head =>
      obtain rfl : head.name.text = name := Option.some.inj h
      exact head.name.isName
  | binding keyword hkeyword gap other =>
      obtain rfl : other.text = name := Option.some.inj h
      exact other.isName
  | pattern => cases h

theorem Value.isName_of_name? {value : Value} {name : Text} (h : value.name? = some name) :
    isName name = true := by
  cases value with
  | function head =>
      obtain rfl : head.name.text = name := Option.some.inj h
      exact head.name.isName
  | «class» gap other =>
      obtain rfl : other.text = name := Option.some.inj h
      exact other.isName
  | nameless => cases h

namespace Statement

variable {s : Statement} {name : Text}

theorem isName_of_mem_defaults (h : some name ∈ s.defaults) : isName name = true := by
  cases s with
  | byDefault d => exact Value.isName_of_name? (List.mem_singleton.1 h).symm
  | _ => cases h

theorem isName_of_mem_declared (h : name ∈ s.declared) : isName name = true := by
  cases s with
  | declaration d => exact Declared.isName_of_name? (Option.mem_toList.1 h)
  | _ => cases h

/-- A list without aliases gives its names to the module. -/
theorem Plain.listed_eq {l : ExportList} (h : (list l).Plain) :
    (list l).listed = l.clause.entries.map Entry.exported := by
  simp only [listed, h.1, Bool.false_eq_true, if_false]
  refine List.map_congr_left fun entry hentry => ?_
  obtain ⟨name, rfl⟩ := h.2 entry hentry
  rw [Entry.text, Text.splitAlias?_name name.isName]
  rfl

theorem Plain.isName_of_mem_listed (h : s.Plain) (hname : name ∈ s.listed) : isName name = true := by
  cases s with
  | list l =>
      rw [h.listed_eq] at hname
      obtain ⟨entry, hentry, rfl⟩ := List.mem_map.1 hname
      obtain ⟨other, rfl⟩ := h.2 entry hentry
      exact other.isName
  | _ => cases hname

theorem Plain.mem_exported_iff (h : s.Plain) {name : String} : name ∈ s.exported ↔
    name.toList ∈ s.declared ∨ name.toList ∈ s.listed ∨ s.defaults ≠ [] ∧ name = "default" := by
  cases s with
  | list l =>
      have hlisted := h.listed_eq
      have hexported : (list l).exported = (l.clause.entries.map Entry.exported).map String.ofList := by
        rw [List.map_map]
        rfl
      rw [hexported, mem_map_ofList, ← hlisted]
      simp [declared, defaults]
  | declaration d =>
      rw [exported, mem_map_ofList]
      simp [declared, listed, defaults]
  | byDefault d => simp [exported, declared, listed, defaults]
  | row row => simp [exported, declared, listed, defaults]
  | named i => simp [exported, declared, listed, defaults]

end Statement

/-! ## Keys -/

inductive Property : Text → Prop where
  | name {name : Text} (hname : isName name = true) : Property name
  | default {name : Text} (hname : isName name = true) : Property ("default: ".toList ++ name)

namespace Property

variable {property : Text}

theorem isEntry (h : Property property) : IsEntry property := by
  cases h with
  | name hname => exact Text.isEntry_of_isName hname
  | default hname =>
      exact Text.isEntry_pair (show isName "default".toList = true by decide) hname
        (show ',' ∉ ": ".toList by decide)

theorem not_mem (h : Property property) {c : Char} (hc : isNamePart c = false) (hmark : c ∉ [':', ' ']) :
    c ∉ property := by
  cases h with
  | name hname => exact Text.not_mem_of_isName hname hc
  | default hname =>
      have hword : c ∉ "default".toList := Text.not_mem_of_isName (by decide) hc
      have hname := Text.not_mem_of_isName hname hc
      simp only [List.mem_cons, List.not_mem_nil, or_false, not_or] at hmark
      show c ∉ "default".toList ++ ([':', ' '] ++ _)
      simp only [List.mem_append, List.mem_cons, List.not_mem_nil, or_false, not_or]
      exact ⟨hword, hmark, hname⟩

end Property

theorem keyOf_name {name : Text} (hname : isName name = true) : keyOf name = name := by
  refine List.takeWhile_eq_self_iff.2 fun c hc => ?_
  rw [bne_iff_ne]
  rintro rfl
  exact Text.not_mem_of_isName hname (by decide) hc

variable {m : EsModule}

theorem mem_namesOf {name : String} : name ∈ namesOf m.all ↔
    some name.toList ∈ m.all.flatMap Statement.defaults ∨ name.toList ∈ m.all.flatMap Statement.declared ∨
      name.toList ∈ m.all.flatMap Statement.listed := by
  rw [namesOf, List.mem_eraseDups, mem_map_ofList, List.mem_append, List.mem_append, or_assoc]
  simp

theorem isName_of_mem_namesOf (h : ∀ s ∈ m.all, s.Plain) {name : String} (hname : name ∈ namesOf m.all) :
    isName name.toList = true := by
  rcases mem_namesOf.1 hname with hname | hname | hname
  · obtain ⟨s, -, hname⟩ := List.mem_flatMap.1 hname
    exact Statement.isName_of_mem_defaults hname
  · obtain ⟨s, -, hname⟩ := List.mem_flatMap.1 hname
    exact Statement.isName_of_mem_declared hname
  · obtain ⟨s, hs, hname⟩ := List.mem_flatMap.1 hname
    exact (h s hs).isName_of_mem_listed hname

theorem defaultProperty_cases (m : EsModule) :
    (m.all.flatMap Statement.defaults = [] ∧ m.defaultProperty = []) ∨
      (m.all.flatMap Statement.defaults ≠ [] ∧ ∃ name, isName name = true ∧
        m.defaultProperty.map String.toList = ["default: ".toList ++ name]) := by
  unfold defaultProperty
  cases hdefaults : m.all.flatMap Statement.defaults with
  | nil => exact Or.inl ⟨rfl, rfl⟩
  | cons first others =>
      refine Or.inr ⟨by simp, ?_⟩
      cases first with
      | none => exact ⟨CommonJs.defaultBinding.toList, by decide, by simp⟩
      | some name =>
          have hmem : some name ∈ m.all.flatMap Statement.defaults := by simp [hdefaults]
          obtain ⟨s, -, hs⟩ := List.mem_flatMap.1 hmem
          exact ⟨name, Statement.isName_of_mem_defaults hs, by simp⟩

theorem keyOf_default {name : Text} : keyOf ("default: ".toList ++ name) = "default".toList := by
  rfl

/-- The keys that a module offers are the collected names, and `default` if it has one. -/
theorem mem_offeredKeys_names (h : ∀ s ∈ m.all, s.Plain) {key : String} :
    key ∈ offeredKeys (CommonJs.ofModule m.text).1 ↔
      key ∈ namesOf m.all ∨ m.all.flatMap Statement.defaults ≠ [] ∧ key = "default" := by
  have hkey : ∀ {name : String}, name ∈ namesOf m.all → String.ofList (keyOf name.toList) = name := by
    intro name hname
    rw [keyOf_name (isName_of_mem_namesOf h hname), String.ofList_toList]
  have hnames : ∀ property ∈ namesOf m.all, Property property.toList :=
    fun property hproperty => .name (isName_of_mem_namesOf h hproperty)
  have hrow : ∀ properties : List String, (∀ property ∈ properties, Property property.toList) →
      ∀ body, offeredKeys (body ++ unlines [[], (CommonJs.moduleExports properties).toList]) =
        properties.map fun property => String.ofList (keyOf property.toList) := by
    intro properties hproperties body
    refine CommonJs.offeredKeys_moduleExports body fun property hproperty => ?_
    have hproperty := hproperties property hproperty
    exact ⟨hproperty.isEntry, hproperty.not_mem (by decide) (by decide),
      hproperty.not_mem (by decide) (by decide)⟩
  have hkeys : (namesOf m.all).map (fun property => String.ofList (keyOf property.toList)) = namesOf m.all := by
    rw [List.map_congr_left fun name hname => hkey hname, List.map_id']
  rw [ofModule_text]
  rcases m.defaultProperty_cases with ⟨hnone, hproperty⟩ | ⟨hsome, name, hname, hproperty⟩
  · rw [hproperty, List.append_nil, hrow _ hnames, hkeys, hnone]
    simp
  · obtain ⟨property, hsingle⟩ : ∃ property, m.defaultProperty = [property] :=
      List.length_eq_one_iff.1 (by simpa using congrArg List.length hproperty)
    have htext : property.toList = "default: ".toList ++ name := by simpa [hsingle] using hproperty
    have hall : ∀ other ∈ namesOf m.all ++ [property], Property other.toList :=
      List.forall_mem_append.2 ⟨hnames, List.forall_mem_singleton.2 (htext ▸ .default hname)⟩
    rw [hsingle, hrow _ hall, List.map_append, hkeys, List.map_singleton, htext, keyOf_default]
    simp [hsome]

/-- The keys that a module offers in its CommonJS form are the names that it exports, and the name that its default has in
the module itself. -/
theorem mem_offeredKeys_iff (h : ∀ s ∈ m.all, s.Plain) {key : String} :
    key ∈ offeredKeys (CommonJs.ofModule m.text).1 ↔
      key ∈ m.all.flatMap Statement.exported ∨ some key.toList ∈ m.all.flatMap Statement.defaults := by
  have hdefault : m.all.flatMap Statement.defaults ≠ [] ↔ ∃ s ∈ m.all, s.defaults ≠ [] := by
    simp [List.flatMap_eq_nil_iff]
  have hexported : key ∈ m.all.flatMap Statement.exported ↔
      key.toList ∈ m.all.flatMap Statement.declared ∨ key.toList ∈ m.all.flatMap Statement.listed ∨
        m.all.flatMap Statement.defaults ≠ [] ∧ key = "default" := by
    simp only [List.mem_flatMap, hdefault]
    constructor
    · rintro ⟨s, hs, hkey⟩
      rcases (h s hs).mem_exported_iff.1 hkey with hkey | hkey | ⟨hsome, hkey⟩
      · exact Or.inl ⟨s, hs, hkey⟩
      · exact Or.inr (Or.inl ⟨s, hs, hkey⟩)
      · exact Or.inr (Or.inr ⟨⟨s, hs, hsome⟩, hkey⟩)
    · rintro (⟨s, hs, hkey⟩ | ⟨s, hs, hkey⟩ | ⟨⟨s, hs, hsome⟩, hkey⟩)
      · exact ⟨s, hs, (h s hs).mem_exported_iff.2 (Or.inl hkey)⟩
      · exact ⟨s, hs, (h s hs).mem_exported_iff.2 (Or.inr (Or.inl hkey))⟩
      · exact ⟨s, hs, (h s hs).mem_exported_iff.2 (Or.inr (Or.inr ⟨hsome, hkey⟩))⟩
  rw [mem_offeredKeys_names h, mem_namesOf, hexported]
  tauto

def mainDefault : DefaultExport where
  indent := noGap
  gap := space.toParting
  second := space.toParting
  value := .function ⟨none, .blanks space.toParting, ⟨"main".toList, by decide⟩⟩
  behind := "() \x7b\x7d".toList
  noFeed := by decide +kernel
  ends := by simp; decide
  continues := continues_of_not_mem (by decide +kernel)

def lineBreak : Parting := ⟨⟨"\n  ".toList, by simp [isBlank]⟩, by simp⟩

/-- A module with an export of every kind, two of them over several lines. -/
def sample : EsModule where
  statements := [
    .byDefault mainDefault,
    .row (.ofText "// export const count = 1;".toList (by simp) (by decide +kernel)),
    .declaration (.ofDeclared noGap lineBreak
      (.binding "const" (by decide) space.toParting ⟨"limit".toList, by decide⟩) " = 1;".toList (by simp)
      (by simp; decide) (by simp [Declared.name?])),
    .list ⟨noGap, space.toBlanks, ⟨[⟨lineBreak.toBlanks, .plain ⟨"helper".toList, by decide⟩,
      ⟨[], by simp⟩⟩], .inr ⟨['\n'], by simp [isBlank]⟩⟩, [';'], by simp⟩]
  last := .row noRow

theorem mem_offeredKeys_sample : (∀ s ∈ sample.all, s.Plain) ∧
    ∀ key, key ∈ offeredKeys (CommonJs.ofModule sample.text).1 ↔
      key ∈ ["default", "limit", "helper"] ∨ key = "main" := by
  have hplain : ∀ s ∈ sample.all, s.Plain := by
    simp only [sample, all, List.cons_append, List.nil_append, List.forall_mem_cons, Statement.Plain]
    refine ⟨trivial, trivial, rfl, ⟨by decide +kernel, ?_⟩, trivial, by simp⟩
    simp [Clause.entries]
  refine ⟨hplain, fun key => ?_⟩
  have hmain : key.toList = ['m', 'a', 'i', 'n'] ↔ key = "main" := by
    rw [← String.toList_inj]
    rfl
  rw [mem_offeredKeys_iff hplain]
  simp [hmain, sample, all, Statement.exported, Statement.defaults, Clause.entries, Entry.exported, mainDefault,
    Declaration.ofDeclared, Declared.name?, Value.name?]

def lone : EsModule where
  statements := [.byDefault mainDefault]
  last := .row noRow

/-- A module offers the name of its default too, which it does not export under that name. -/
theorem offeredKeys_lone : lone.text = "export default function main() \x7b\x7d\n".toList ∧
    (∀ s ∈ lone.all, s.Plain) ∧ "main" ∈ offeredKeys (CommonJs.ofModule lone.text).1 ∧
      "main" ∉ lone.all.flatMap Statement.exported := by
  have hplain : ∀ s ∈ lone.all, s.Plain := by simp [all, lone, Statement.Plain]
  refine ⟨by decide +kernel, hplain, ?_, ?_⟩
  · rw [mem_offeredKeys_names hplain, mem_namesOf]
    simp [all, lone, Statement.defaults, mainDefault, Value.name?]
  · simp [all, lone, Statement.exported]

end EsModule

end ScriptSplit
