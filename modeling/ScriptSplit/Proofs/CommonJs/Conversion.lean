import ScriptSplit.Proofs.CommonJs.Declarations

/-!
# The CommonJS form by statements

Every step on the way to the CommonJS form changes the statements of one kind and leaves all others as they are. So
the whole form is known statement by statement: what is left of each, and the names that it exports.
-/

namespace ScriptSplit

open Text (Recogniser Scans atLineStart commaList isBlank isIndent isName isNamePart scan skipBlanks unlines)

namespace EsModule

variable {α : Type} {recognise : Recogniser α} {put : α → Text}

/-! ## Small parts -/

def space : Spaces where
  toGap := .ofText [' '] (by simp [Text.isIndent])
  nonempty := by simp [Gap.ofText]

def noGap : Gap := .ofText [] (by simp)

def Row.ofText (text : Text) (noFeed : '\n' ∉ text)
    (h : ∀ word ∈ ["import", "export"], Text.startsWithWord word (text.dropWhile Text.isIndent) = false) : Row :=
  ⟨text, noFeed, quiet_of_not_startsWithWord h⟩

def noRow : Row := .ofText [] (by simp) (by decide +kernel)

/-! ## A `require` as a line -/

theorem strip_subset (text : Text) : Text.strip text ⊆ text := by
  intro c hc
  simp only [Text.strip, Text.stripRight, Text.stripLeft, List.mem_reverse] at hc
  exact (List.dropWhile_suffix _).subset (List.mem_reverse.1 ((List.dropWhile_suffix _).subset hc))

theorem splitAlias?_subset {item name binding : Text} (h : Text.splitAlias? item = some (name, binding)) :
    name ⊆ item ∧ binding ⊆ item := by
  obtain ⟨n, -, hn⟩ := Option.map_eq_some_iff.1 h
  obtain ⟨hname, hbinding⟩ := Prod.ext_iff.1 hn
  subst hname hbinding
  exact ⟨fun c hc => List.mem_of_mem_take (strip_subset _ hc), fun c hc => List.mem_of_mem_drop (strip_subset _ hc)⟩

theorem destructure_noFeed (clause : Clause) : '\n' ∉ CommonJs.destructure (skipBlanks clause.text) := by
  intro hfeed
  rw [CommonJs.destructure, commaList_skipBlanks, commaList_clause, List.map_map] at hfeed
  rcases Text.mem_intercalate_comma hfeed with heq | heq | ⟨part, hpart, hfeed⟩
  · exact absurd heq (by decide)
  · exact absurd heq (by decide)
  · obtain ⟨entry, -, rfl⟩ := List.mem_map.1 hpart
    have hnone : '\n' ∉ entry.text := entry.not_mem (by decide) (by decide)
    rw [Function.comp_apply] at hfeed
    split at hfeed
    · next name binding hsplit =>
        obtain ⟨hname, hbinding⟩ := splitAlias?_subset hsplit
        simp only [List.mem_append, List.mem_cons, List.not_mem_nil, or_false] at hfeed
        rcases hfeed with (hfeed | heq | heq) | hfeed
        · exact hnone (hname hfeed)
        · exact absurd heq (by decide)
        · exact absurd heq (by decide)
        · exact hnone (hbinding hfeed)
    · exact hnone hfeed

theorem requireSpecifier_noFeed {specifier : Text} (h : '\n' ∉ specifier) :
    '\n' ∉ (CommonJs.requireSpecifier (String.ofList specifier)).toList := by
  rw [CommonJs.requireSpecifier]
  simp only [String.toList_ofList]
  split
  · simp only [String.toList_append, String.toList_ofList, List.mem_append, not_or]
    exact ⟨fun hfeed => h (List.mem_of_mem_take hfeed), by decide⟩
  · rwa [String.toList_ofList]

def NamedImport.row (i : NamedImport) : Row where
  text := i.require ++ i.left
  noFeed := by
    have hspecifier := requireSpecifier_noFeed fun h => absurd (i.plain _ h) (by decide)
    simp [NamedImport.require, i.indent.feed_not_mem, destructure_noFeed, hspecifier, i.left_noFeed]
  quiet := by
    obtain ⟨rest, hrest⟩ : ∃ rest, i.require ++ i.left = i.indent.text ++ ("const".toList ++ ' ' :: rest) :=
      ⟨'\x7b' :: ' ' :: (CommonJs.destructure (skipBlanks i.clause.text) ++ (" \x7d = require('".toList ++
        ((CommonJs.requireSpecifier (String.ofList i.specifier)).toList ++ ("');".toList ++ i.left)))),
        by simp [NamedImport.require]⟩
    rw [hrest]
    refine quiet_of_name "const".toList (' ' :: rest) (by decide) (by decide) ?_
      (by simp; decide)
    rw [List.dropWhile_append_of_pos i.indent.indent]
    rfl

/-! ## One step -/

/-- What a step makes of a statement: the values of its finds, the text that takes the place of the statement with its
line feed, and the one that takes its place at the end of a module. -/
structure Turns (recognise : Recogniser α) (put : α → Text) (text : Text) (values : List α)
    (line last : Text) : Prop where
  exists_reads : ∃ atLine atLast, Reads recognise text atLine atLast ∧
    atLine.filterMap Sum.getLeft? = values ∧ atLast.filterMap Sum.getLeft? = values ∧
    atLine.flatMap (Sum.elim put fun c => [c]) = line ∧ atLast.flatMap (Sum.elim put fun c => [c]) = last

theorem Reads.turns_passed {text : Text}
    (h : Reads recognise text ((text ++ ['\n']).map .inr) (text.map .inr)) :
    Turns recognise put text [] (text ++ ['\n']) text :=
  ⟨_, _, h, CommonJs.filterMap_map_inr _, CommonJs.filterMap_map_inr _, CommonJs.flatMap_map_inr put _,
    CommonJs.flatMap_map_inr put _⟩

theorem Reads.turns_found {text left : Text} {value : α}
    (h : Reads recognise text (.inl value :: (left ++ ['\n']).map .inr) (.inl value :: left.map .inr)) :
    Turns recognise put text [value] (put value ++ left ++ ['\n']) (put value ++ left) := by
  refine ⟨_, _, h, ?_, ?_, ?_, ?_⟩
  · rw [List.filterMap_cons, CommonJs.filterMap_map_inr]
    rfl
  · rw [List.filterMap_cons, CommonJs.filterMap_map_inr]
    rfl
  · rw [List.flatMap_cons, CommonJs.flatMap_map_inr, List.append_assoc]
    rfl
  · rw [List.flatMap_cons, CommonJs.flatMap_map_inr]
    rfl

end EsModule

namespace EsModule

def all (m : EsModule) : List Statement := m.statements ++ [m.last]

/-- The text of a module with other texts in the places of its statements. -/
def textBy (m : EsModule) (text : Statement → Text) : Text :=
  m.statements.flatMap (fun s => text s ++ ['\n']) ++ text m.last

theorem text_eq_textBy (m : EsModule) : m.text = m.textBy Statement.text := rfl

variable {α : Type} {recognise : Recogniser α} {put : α → Text} {m : EsModule}

/-- A step that is known at every statement is known for the whole module. -/
theorem turned {text : Statement → Text} {values : Statement → List α} {line last : Statement → Text}
    (h : ∀ s ∈ m.all, Turns recognise put (text s) (values s) (line s) (last s)) :
    (Text.findAll recognise (m.textBy text)).map (·.value) = m.all.flatMap values ∧
      Text.replaceAll (recognise.putting put) (m.textBy text) = m.statements.flatMap line ++ last m.last := by
  have hstatements : ∃ result, Scans recognise (m.statements.flatMap fun s => text s ++ ['\n']) result ∧
      result.filterMap Sum.getLeft? = m.statements.flatMap values ∧
      result.flatMap (Sum.elim put fun c => [c]) = m.statements.flatMap line := by
    have hall : ∀ s ∈ m.statements, Turns recognise put (text s) (values s) (line s) (last s) :=
      fun s hs => h s (List.mem_append_left _ hs)
    generalize m.statements = statements at hall
    induction statements with
    | nil => exact ⟨[], Scans.nil, rfl, rfl⟩
    | cons s statements ih =>
        obtain ⟨hs, hall⟩ := List.forall_mem_cons.1 hall
        obtain ⟨result, hscans, hvalues, htexts⟩ := ih hall
        obtain ⟨atLine, atLast, hreads, hvaluesHere, -, htextHere, -⟩ := hs.exists_reads
        exact ⟨atLine ++ result, hreads.line.append hscans,
          by rw [List.filterMap_append, hvaluesHere, hvalues]; rfl,
          by rw [List.flatMap_append, htextHere, htexts]; rfl⟩
  obtain ⟨result, hscans, hvalues, htexts⟩ := hstatements
  obtain ⟨atLine, atLast, hreads, -, hvaluesLast, -, htextLast⟩ :=
    (h m.last (by simp [all])).exists_reads
  obtain ⟨before, hbefore, hscan⟩ := hscans none (text m.last) rfl
  rw [hreads.last before hbefore] at hscan
  constructor
  · rw [Text.map_value_findAll, textBy, hscan, List.filterMap_append, hvalues, hvaluesLast, all,
      List.flatMap_append, List.flatMap_singleton]
  · rw [Text.replaceAll_putting, textBy, hscan, List.flatMap_append, htexts, htextLast]

/-! ## The four steps -/

namespace Statement

def withoutDefault : Statement → Text
  | byDefault d => d.kept
  | s => s.text

def withoutExport : Statement → Text
  | declaration d => d.kept
  | s => s.withoutDefault

def withRequire : Statement → Text
  | named i => i.row.text
  | s => s.withoutExport

/-- A list that is exported from the module itself goes: what is left is the CommonJS form of a statement. -/
def left : Statement → Text
  | list l => if l.passesOn then l.text else l.left
  | s => s.withRequire

def gone : Statement → Bool
  | list l => !l.passesOn && l.left.isEmpty
  | _ => false

def line (s : Statement) : Text :=
  if s.gone then [] else s.left ++ ['\n']

def defaults : Statement → List (Option Text)
  | byDefault d => [d.value.name?]
  | _ => []

def declared : Statement → List Text
  | declaration d => d.declared.name?.toList
  | _ => []

def listed : Statement → List Text
  | list l => if l.passesOn then [] else
      l.clause.entries.map fun entry => ((Text.splitAlias? entry.text).map (·.1)).getD entry.text
  | _ => []

end Statement

theorem find_defaultExport (m : EsModule) :
    (Text.findAll CommonJs.defaultExport m.text).map (·.value.2) = m.all.flatMap Statement.defaults ∧
      Text.replaceAll (CommonJs.replacing CommonJs.defaultExport) m.text =
        m.textBy Statement.withoutDefault := by
  rw [m.text_eq_textBy]
  have hturns : ∀ s ∈ m.all, Turns CommonJs.defaultExport (·.1) s.text
      (match s with | .byDefault d => [(d.binding, d.value.name?)] | _ => [])
      (s.withoutDefault ++ ['\n']) s.withoutDefault := by
    intro s _
    cases s with
    | row row => exact (row.reads findsStatements_defaultExport).turns_passed
    | named i => exact i.reads_defaultExport.turns_passed
    | list l => exact l.reads_defaultExport.turns_passed
    | declaration d => exact d.reads_defaultExport.turns_passed
    | byDefault d => exact d.reads_defaultExport.turns_found
  obtain ⟨hvalues, htext⟩ := m.turned hturns
  refine ⟨?_, by rw [CommonJs.replacing_eq]; exact htext⟩
  have hmap : (Text.findAll CommonJs.defaultExport (m.textBy Statement.text)).map (·.value.2) =
      ((Text.findAll CommonJs.defaultExport (m.textBy Statement.text)).map (·.value)).map (·.2) := by
    rw [List.map_map]
    rfl
  rw [hmap, hvalues, List.map_flatMap]
  refine List.flatMap_congr fun s _ => ?_
  cases s <;> rfl

theorem find_inlineExport (m : EsModule) :
    (Text.findAll CommonJs.inlineExport (m.textBy Statement.withoutDefault)).filterMap (·.value.2) =
        m.all.flatMap Statement.declared ∧
      Text.replaceAll (CommonJs.replacing CommonJs.inlineExport) (m.textBy Statement.withoutDefault) =
        m.textBy Statement.withoutExport := by
  have hturns : ∀ s ∈ m.all, Turns CommonJs.inlineExport (·.1) s.withoutDefault
      (match s with | .declaration d => [(d.indent.text, d.declared.name?)] | _ => [])
      (s.withoutExport ++ ['\n']) s.withoutExport := by
    intro s _
    cases s with
    | row row => exact (row.reads findsStatements_inlineExport).turns_passed
    | named i => exact i.reads_inlineExport.turns_passed
    | list l => exact l.reads_inlineExport.turns_passed
    | declaration d => exact d.reads_inlineExport.turns_found
    | byDefault d => exact (d.reads_kept findsStatements_inlineExport).turns_passed
  obtain ⟨hvalues, htext⟩ := m.turned hturns
  refine ⟨?_, by rw [CommonJs.replacing_eq]; exact htext⟩
  have hmap : (Text.findAll CommonJs.inlineExport (m.textBy Statement.withoutDefault)).filterMap (·.value.2) =
      ((Text.findAll CommonJs.inlineExport (m.textBy Statement.withoutDefault)).map (·.value)).filterMap (·.2) := by
    rw [List.filterMap_map]
    rfl
  rw [hmap, hvalues, List.filterMap_flatMap]
  refine List.flatMap_congr fun s _ => ?_
  cases s with
  | declaration d => cases h : d.declared.name? <;> simp [Statement.declared, h]
  | _ => rfl

theorem replaceAll_namedImport (m : EsModule) :
    Text.replaceAll CommonJs.namedImport (m.textBy Statement.withoutExport) = m.textBy Statement.withRequire := by
  have hturns : ∀ s ∈ m.all, Turns CommonJs.namedImport id s.withoutExport
      (match s with | .named i => [i.require] | _ => [])
      (s.withRequire ++ ['\n']) s.withRequire := by
    intro s _
    cases s with
    | row row => exact (row.reads findsStatements_namedImport).turns_passed
    | named i => exact i.reads_namedImport.turns_found
    | list l => exact l.reads_namedImport.turns_passed
    | declaration d => exact (d.reads_kept findsStatements_namedImport).turns_passed
    | byDefault d => exact (d.reads_kept findsStatements_namedImport).turns_passed
  have htext := (m.turned hturns).2
  rw [CommonJs.putting_id] at htext
  exact htext

theorem find_exportList (m : EsModule) :
    (Text.findAll CommonJs.exportList (m.textBy Statement.withRequire)).flatMap (fun found =>
        (commaList found.value).map fun item => ((Text.splitAlias? item).map (·.1)).getD item) =
        m.all.flatMap Statement.listed ∧
      Text.replaceAll (fun before rest => (CommonJs.exportList before rest).map fun (_, n) => ([], n))
        (m.textBy Statement.withRequire) = m.statements.flatMap Statement.line ++ m.last.left := by
  have hturns : ∀ s ∈ m.all, Turns CommonJs.exportList (fun _ => []) s.withRequire
      (match s with | .list l => if l.passesOn then [] else [skipBlanks l.clause.text] | _ => [])
      s.line s.left := by
    intro s _
    cases s with
    | row row => exact (row.reads findsStatements_exportList).turns_passed
    | named i => exact (i.row.reads findsStatements_exportList).turns_passed
    | list l =>
        by_cases hpasses : l.passesOn = true
        · simp only [Statement.line, Statement.gone, Statement.left, hpasses, if_true, Bool.not_true, Bool.false_and,
            Bool.false_eq_true, if_false]
          exact (l.reads_exportList_passed hpasses).turns_passed
        · rw [Bool.not_eq_true] at hpasses
          simp only [Statement.line, Statement.gone, Statement.left, hpasses, Bool.not_false, Bool.true_and,
            Bool.false_eq_true, if_false]
          refine ⟨_, _, l.reads_exportList hpasses, ?_, ?_, ?_, ?_⟩
          · cases l.left.isEmpty with
            | true => rfl
            | false => simp
          · simp
          · cases l.left.isEmpty with
            | true => rfl
            | false => simpa using CommonJs.flatMap_map_inr (fun _ : Text => []) (l.left ++ ['\n'])
          · simpa using CommonJs.flatMap_map_inr (fun _ : Text => []) l.left
    | declaration d => exact (d.reads_kept findsStatements_exportList).turns_passed
    | byDefault d => exact (d.reads_kept findsStatements_exportList).turns_passed
  obtain ⟨hvalues, htext⟩ := m.turned hturns
  refine ⟨?_, htext⟩
  rw [← List.flatMap_map (fun found : Text.Found Text => found.value) fun clause =>
    (commaList clause).map fun item => ((Text.splitAlias? item).map (·.1)).getD item, hvalues,
    List.flatMap_assoc]
  refine List.flatMap_congr fun s _ => ?_
  cases s with
  | list l =>
      cases hpasses : l.passesOn with
      | true => simp [Statement.listed, hpasses]
      | false =>
          simp [Statement.listed, hpasses, commaList_skipBlanks, commaList_clause, List.map_map,
            Function.comp_def]
  | _ => rfl

/-! ## All steps -/

def left (m : EsModule) : Text :=
  m.statements.flatMap Statement.line ++ m.last.left

def namesOf (statements : List Statement) : List String :=
  (((statements.flatMap Statement.defaults).filterMap id ++ statements.flatMap Statement.declared ++
    statements.flatMap Statement.listed).map String.ofList).eraseDups

/-- What stands behind the names in the object that a module exports. -/
def defaultProperty (m : EsModule) : List String :=
  match m.all.flatMap Statement.defaults with
  | [] => []
  | first :: _ => ["default: " ++ (first.map String.ofList).getD CommonJs.defaultBinding]

/-- The CommonJS form of a module is what is left of its statements, with all names in the last line. -/
theorem ofModule_text (m : EsModule) : CommonJs.ofModule m.text =
    (m.left ++ (if m.left.getLast? == some '\n' then [] else ['\n']) ++
      unlines [[], (CommonJs.moduleExports (namesOf m.all ++ m.defaultProperty)).toList], namesOf m.all) := by
  obtain ⟨hdefaults, hwithoutDefault⟩ := find_defaultExport m
  obtain ⟨hdeclared, hwithoutExport⟩ := find_inlineExport m
  obtain ⟨hlisted, hleft⟩ := find_exportList m
  simp only [CommonJs.ofModule, hdefaults, hwithoutDefault, hdeclared, hwithoutExport, replaceAll_namedImport,
    hlisted, hleft]
  rfl

end EsModule

end ScriptSplit
