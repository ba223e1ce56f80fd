import ScriptSplit.Proofs.Analysis.Candidate
import ScriptSplit.Proofs.Analysis.Scope
import ScriptSplit.Proofs.Link.Bindings
import ScriptSplit.Proofs.Link.Declared
import ScriptSplit.Stage.Write

/-!
# What the module that keeps the source exports

The module holds the whole source. Words `export` directly before its functions are cut out of it, and an export list
takes their place; what the source exports in another way stays. Together every function is exported once, as long
as the patterns that find those words and the default exports see what the tree has.
-/

namespace ScriptSplit

open Script

/-! ## What a script exports -/

namespace TopLevel

def inlineNames (statement : Tree) : List String :=
  if statement.kind == .exportStatement && (statement.child? .declaration).isSome &&
      !statement.children.any (·.kind == .keyword) then declaredNames statement
  else []

def clauseEntries (statement : Tree) : List (String × String) :=
  if statement.kind == .exportStatement && (statement.child? .declaration).isNone then
    statement.children.flatMap fun clause =>
      if clause.kind == .exportClause then
        clause.children.flatMap fun specifier =>
          if specifier.kind == .exportSpecifier then
            (Tree.declaredName specifier.children).map fun name =>
              (name, (specifier.children.getLast?.map (·.text)).getD name)
          else []
      else []
  else []

def isDefault (statement : Tree) : Bool :=
  statement.kind == .exportStatement && statement.children.any (·.kind == .keyword)

def defaultNames (statement : Tree) : List String :=
  if isDefault statement then (functions statement).filterMap (·.name) else []

def exportedNames (statement : Tree) : List String :=
  inlineNames statement ++ (clauseEntries statement).map (·.2) ++
    if isDefault statement then ["default"] else []

def sourceExports (program : Tree) : List String :=
  program.children.flatMap exportedNames

/-- What is left of them without the words `export` that begin where a cut does. -/
def exportsLeft (cuts : List (Nat × Nat)) (program : Tree) : List String :=
  (program.children.filter fun statement => !cuts.any (·.1 == statement.start)).flatMap exportedNames

theorem exportsLeft_sublist (cuts : List (Nat × Nat)) (program : Tree) :
    (exportsLeft cuts program).Sublist (sourceExports program) :=
  List.Sublist.flatMap List.filter_sublist _

variable {statement program : Tree} {name : String} {d : Declared}

/-- What is listed are the names of the script itself in its clauses. -/
theorem listedNames_eq (statement : Tree) : listedNames statement =
    if (statement.child? .source).isNone then (clauseEntries statement).map (·.1) else [] := by
  unfold listedNames clauseEntries
  split
  · next hlists =>
      simp only [Bool.and_eq_true] at hlists
      simp only [hlists.1.1, hlists.1.2, hlists.2, Bool.and_self, if_true, List.map_flatMap]
      congr 1
      funext clause
      split
      · rw [List.map_flatMap]
        congr 1
        funext specifier
        split
        · simp [Function.comp_def]
        · rfl
      · rfl
  · next hlists =>
      split
      · next hsource =>
          rw [if_neg (fun hboth => hlists (by rw [hboth, hsource]; rfl))]
          rfl
      · rfl

theorem exportedNames_of_inline (h : inlineNames statement ≠ []) :
    exportedNames statement = inlineNames statement := by
  have hinline : (statement.kind == .exportStatement && (statement.child? .declaration).isSome &&
      !statement.children.any (·.kind == .keyword)) = true := by
    by_contra hother
    rw [inlineNames, if_neg hother] at h
    exact h rfl
  simp only [Bool.and_eq_true, Bool.not_eq_true'] at hinline
  have hclauses : clauseEntries statement = [] := by
    rw [clauseEntries, if_neg (by simp [Option.isSome_iff_ne_none.1 hinline.1.2])]
  have hdefault : isDefault statement = false := by rw [isDefault, hinline.2, Bool.and_false]
  simp [exportedNames, hclauses, hdefault]

theorem mem_exportedNames : name ∈ exportedNames statement ↔ name ∈ inlineNames statement ∨
    (∃ own, (own, name) ∈ clauseEntries statement) ∨ isDefault statement = true ∧ name = "default" := by
  unfold exportedNames
  rw [List.mem_append, List.mem_append, or_assoc]
  refine or_congr_right (or_congr ?_ ?_)
  · simp
  · split <;> simp_all

/-! ### Functions and declared names -/

def ownNames (statement : Tree) : List String :=
  match statement.kind with
  | .functionDeclaration | .generatorDeclaration | .classDeclaration => Tree.declaredName statement.children
  | .lexicalDeclaration | .variableDeclaration =>
    statement.children.flatMap fun d =>
      if d.kind == .variableDeclarator then Tree.boundNamesAt .name d.children else []
  | _ => []

theorem declaredNames_eq (statement : Tree) : declaredNames statement = ownNames
    (if statement.kind == .exportStatement then (statement.child? .declaration).getD statement
      else statement) := rfl

theorem declaredName_eq (statement : Tree) :
    Tree.declaredName statement.children = (ownName statement).toList := by
  unfold Tree.declaredName ownName Tree.child?
  cases statement.children.find? (·.label.role == some .name) <;> rfl

theorem boundNames_identifier {t : Tree} (ht : t.kind = .identifier) : t.boundNames = [t.text] := by
  obtain ⟨label, children⟩ := t
  have hkind : label.kind = .identifier := ht
  simp only [Tree.boundNames, hkind]
  rfl

/-- What a statement other than an export declares as a function: itself, or the value of a variable. -/
theorem functionsOf_cases {exported : Bool} (hd : d ∈ functionsOf statement exported) :
    d.exported = exported ∧
      ((statement.kind = .functionDeclaration ∨ statement.kind = .generatorDeclaration) ∧
          d.name = ownName statement ∨
        (statement.kind = .lexicalDeclaration ∨ statement.kind = .variableDeclaration) ∧
          ∃ declarator ∈ statement.children, declarator.kind = .variableDeclarator ∧
            ∃ t, declarator.child? .name = some t ∧ t.kind = .identifier ∧ d.name = some t.text) := by
  unfold functionsOf at hd
  split at hd
  · next hkind =>
      rw [List.mem_singleton.1 hd]
      exact ⟨rfl, Or.inl ⟨Or.inl hkind, rfl⟩⟩
  · next hkind =>
      rw [List.mem_singleton.1 hd]
      exact ⟨rfl, Or.inl ⟨Or.inr hkind, rfl⟩⟩
  case h_5 => cases hd
  all_goals
    obtain ⟨declarator, hmem, hd⟩ := List.mem_filterMap.1 hd
    obtain ⟨hmem, hdeclarator⟩ := List.mem_filter.1 hmem
    simp only [Option.bind_eq_bind, Option.bind_eq_some_iff, Option.ite_none_left_eq_some,
      Bool.or_eq_true, not_or, bne_iff_ne, ne_eq, not_not] at hd
    obtain ⟨t, ht, value, -, ⟨hidentifier, -⟩, hd⟩ := hd
    have hboth : d.exported = exported ∧ d.name = some t.text := by
      split at hd <;> (obtain rfl := Option.some.inj hd; exact ⟨rfl, rfl⟩)
    exact ⟨hboth.1, Or.inr ⟨by simp_all, declarator, hmem, by simpa using hdeclarator, t, ht,
      hidentifier, hboth.2⟩⟩

theorem name_mem_of_functionsOf {exported : Bool} (hd : d ∈ functionsOf statement exported)
    (hname : d.name = some name) : name ∈ ownNames statement := by
  unfold ownNames
  rcases (functionsOf_cases hd).2 with ⟨hkind, hown⟩ | ⟨hkind, declarator, hmem, hdeclarator, t, ht, hidentifier, hown⟩
  · have hmem : name ∈ Tree.declaredName statement.children := by
      rw [declaredName_eq, Option.mem_toList, ← hname, hown]
    rcases hkind with hkind | hkind <;> (rw [hkind]; exact hmem)
  · obtain rfl : t.text = name := Option.some.inj (hown.symm.trans hname)
    have hfound : declarator.children.find? (·.label.role == some .name) = some t := ht
    have hbound : t.text ∈ statement.children.flatMap fun d =>
        if d.kind == .variableDeclarator then Tree.boundNamesAt .name d.children else [] := by
      refine List.mem_flatMap.2 ⟨declarator, hmem, ?_⟩
      rw [if_pos (by simp [hdeclarator]), Tree.boundNamesAt_eq, hfound]
      simp [boundNames_identifier hidentifier]
    rcases hkind with hkind | hkind <;> (rw [hkind]; exact hbound)

theorem functions_cases (hd : d ∈ functions statement) (hname : d.name = some name) :
    name ∈ defaultNames statement ∧ d.exported = true ∨
      isDefault statement = false ∧ name ∈ declaredNames statement ∧
        (d.exported = true → name ∈ inlineNames statement) ∧
        (inlineNames statement ≠ [] → d.exported = true) := by
  have hown := hd
  unfold functions at hd
  unfold defaultNames isDefault
  by_cases hexport : statement.kind == .exportStatement
  · by_cases hkeyword : statement.children.any (·.kind == .keyword)
    · left
      simp only [hexport, hkeyword, if_true, Bool.and_self] at hd ⊢
      refine ⟨List.mem_filterMap.2 ⟨d, hown, hname⟩, ?_⟩
      split at hd
      · split at hd
        · rw [List.mem_singleton.1 hd]
        · cases hd
      · cases hd
    · right
      simp only [hexport, hkeyword, if_true, Bool.false_eq_true, if_false] at hd
      split at hd
      · next inner hinner =>
          have hdeclared : name ∈ declaredNames statement := by
            rw [declaredNames_eq, if_pos hexport, hinner]
            exact name_mem_of_functionsOf hd hname
          refine ⟨by simp [hkeyword], hdeclared, fun _ => ?_, fun _ => (functionsOf_cases hd).1⟩
          rw [inlineNames, if_pos (by simp_all)]
          exact hdeclared
      · cases hd
  · right
    simp only [hexport, Bool.false_eq_true, if_false] at hd
    refine ⟨by simp [hexport], ?_, fun htrue => ?_, fun hne => ?_⟩
    · rw [declaredNames_eq, if_neg hexport]
      exact name_mem_of_functionsOf hd hname
    · rw [(functionsOf_cases hd).1] at htrue
      cases htrue
    · simp [inlineNames, hexport] at hne

end TopLevel

/-! ## What is cut out -/

namespace InlineExport

variable {source : Text} {records : List FunctionRecord} {f : FunctionRecord}

def cuts (source : Text) (records : List FunctionRecord) : List (Nat × Nat) :=
  ((found source records).map (·.2)).mergeSort later

def body (source : Text) (records : List FunctionRecord) : Text :=
  (cuts source records).foldl (fun text cut => text.take cut.1 ++ text.drop cut.2) source

def IsWord (source : Text) (span : Nat × Nat) : Prop :=
  ∃ blanks, source.take span.2 = source.take span.1 ++ ("export".toList ++ blanks) ∧
    blanks ≠ [] ∧ ∀ c ∈ blanks, Text.isBlank c = true

theorem wordBefore?_eq_some {offset start : Nat} (h : wordBefore? source offset = some start) :
    IsWord source (start, offset) := by
  unfold wordBefore? at h
  generalize hbefore : (source.take offset).reverse = before at h
  simp only at h
  split at h
  · next earlier hearlier =>
      simp only [Option.ite_none_left_eq_some, Option.some.injEq, Bool.or_eq_true, not_or,
        decide_eq_true_eq] at h
      obtain ⟨⟨⟨hblanks, -⟩, -⟩, rfl⟩ := h
      unfold Text.afterWord? at hearlier
      simp only [Option.ite_none_right_eq_some, Option.some.injEq, List.isPrefixOf_iff_prefix] at hearlier
      obtain ⟨⟨rest, hrest⟩, hdrop⟩ := hearlier
      have hlength : "tropxe".length = "tropxe".toList.length := rfl
      rw [← hrest, hlength, List.drop_left] at hdrop
      subst hdrop
      have hblank : before.take (before.takeWhile Text.isBlank).length = before.takeWhile Text.isBlank :=
        (List.prefix_iff_eq_take.1 (List.takeWhile_prefix _)).symm
      have hall : ∀ c ∈ before.takeWhile Text.isBlank, Text.isBlank c = true :=
        fun c hc => List.mem_takeWhile_imp hc
      generalize before.takeWhile Text.isBlank = blanks at *
      have hsplit : source.take offset = rest.reverse ++ ("export".toList ++ blanks.reverse) := by
        rw [← List.reverse_reverse (source.take offset), hbefore,
          ← List.take_append_drop blanks.length before, ← hrest, hblank]
        simp
      have hshort : rest.length ≤ offset := by
        have htake := congrArg List.length hsplit
        rw [List.length_append, List.length_reverse] at htake
        exact (by omega : rest.length ≤ (source.take offset).length).trans (List.length_take_le _ _)
      have hstart : source.take rest.length = rest.reverse := by
        rw [← Nat.min_eq_left hshort, ← List.take_take, hsplit, ← List.length_reverse, List.take_left]
      refine ⟨_, by rw [hstart]; exact hsplit, ?_, fun c hc => ?_⟩
      · simpa using hblanks
      · exact hall c (List.mem_reverse.1 hc)
  · cases h

theorem getElem?_of_take {start stop i : Nat} {word : Text}
    (h : source.take stop = source.take start ++ word) (hword : word ≠ []) (hstart : start ≤ i) (hstop : i < stop) :
    source[i]? = word[i - start]? := by
  have hlength := congrArg List.length h
  have hpos := List.length_pos_iff.2 hword
  rw [List.length_append, List.length_take, List.length_take] at hlength
  rw [← List.getElem?_take_of_lt hstop, h, List.getElem?_append_right (by rw [List.length_take]; omega),
    List.length_take, Nat.min_eq_left (by omega)]

/-- No word begins inside another: none of the characters behind the first is an `e`. -/
theorem IsWord.stop_le {a b : Nat × Nat} (ha : IsWord source a) (hb : IsWord source b) (hab : b.1 < a.1) :
    b.2 ≤ a.1 := by
  by_contra! hinside
  obtain ⟨blanks, hfirst, -, -⟩ := ha
  obtain ⟨blanks', hother, -, hall⟩ := hb
  have hstart : a.1 < a.2 := by
    have hlength := congrArg List.length hfirst
    have hword : "export".toList.length = 6 := rfl
    rw [List.length_append, List.length_append, List.length_take, List.length_take] at hlength
    omega
  have hletter : source[a.1]? = some 'e' := by
    rw [getElem?_of_take hfirst (by simp) le_rfl hstart, Nat.sub_self]
    rfl
  rw [getElem?_of_take hother (by simp) hab.le hinside] at hletter
  obtain ⟨n, hn⟩ := Nat.exists_eq_add_of_lt hab
  rw [hn, show b.1 + n + 1 - b.1 = n + 1 by omega] at hletter
  have hmem : 'e' ∈ "xport".toList ++ blanks' := List.mem_of_getElem? (i := n) hletter
  rcases List.mem_append.1 hmem with hword | hblank
  · revert hword
    decide
  · exact absurd (hall 'e' hblank) (by decide)

theorem mem_cuts {cut : Nat × Nat} : cut ∈ cuts source records ↔
    ∃ f ∈ records, f.exported = true ∧ cut.2 = f.start.toNat ∧
      wordBefore? source f.start.toNat = some cut.1 := by
  simp only [cuts, List.mem_mergeSort, found, List.mem_map, List.mem_filterMap,
    List.mem_filter, Option.map_eq_some_iff]
  constructor
  · rintro ⟨_, ⟨f, ⟨hf, hexported⟩, start, hstart, rfl⟩, rfl⟩
    exact ⟨f, hf, hexported, rfl, hstart⟩
  · rintro ⟨f, hf, hexported, hstop, hstart⟩
    exact ⟨_, ⟨f, ⟨hf, hexported⟩, cut.1, hstart, rfl⟩, Prod.ext rfl hstop.symm⟩

theorem isWord_of_mem_cuts {cut : Nat × Nat} (hcut : cut ∈ cuts source records) : IsWord source cut := by
  obtain ⟨f, -, -, hstop, hstart⟩ := mem_cuts.1 hcut
  have hword := wordBefore?_eq_some hstart
  rwa [← hstop] at hword

/-- What is cut out is apart: later words come first. -/
theorem cuts_apart (hnodup : ((cuts source records).map (·.1)).Nodup) :
    (cuts source records).Pairwise fun later earlier => earlier.2 ≤ later.1 := by
  have hsorted : (cuts source records).Pairwise fun a b => later a b = true := by
    apply List.pairwise_mergeSort
    · intro a b c
      unfold later
      grind
    · intro a b
      unfold later
      grind
  refine (hsorted.and (List.pairwise_map.1 hnodup)).imp_of_mem fun {a b} ha hb ⟨hlater, hne⟩ => ?_
  refine (isWord_of_mem_cuts ha).stop_le (isWord_of_mem_cuts hb) ?_
  simpa [later, hne] using hlater

end InlineExport

/-! ## Records and the tree -/

section Records

variable {reader : Reader} {program : Tree} {text : Text} {path : String} {closureCalls : Bool} {analysis : Analysis}

/-- A record of a tree is that of a function of some statement. It counts as exported where that is an export, or
where a clause lists its name. -/
theorem record_of_tree (hanalysis : analyzeTree reader (some program) text path closureCalls = .ok analysis)
    {f : FunctionRecord} (hf : f ∈ analysis.facts.functions) :
    ∃ statement ∈ program.children, ∃ d ∈ TopLevel.functions statement,
      f.name = d.name.getD anonymousName ∧ (f.exported = true ↔
        d.exported = true ∨ ∃ s ∈ program.children, f.name ∈ TopLevel.listedNames s) := by
  unfold analyzeTree at hanalysis
  simp only at hanalysis
  split at hanalysis
  · cases hanalysis
  · obtain rfl := Except.ok.inj hanalysis
    obtain ⟨n, hn, rfl⟩ := List.mem_mapIdx.1 hf
    obtain ⟨d, hd, hcandidate⟩ := List.mem_map.1 (Candidate.mem_of_mem_dedupe (List.getElem_mem hn))
    obtain ⟨statement, hstatement, hd⟩ := List.mem_flatMap.1 hd
    refine ⟨statement, hstatement, d, hd, ?_, ?_⟩
    · rw [Candidate.record, ← hcandidate, Candidate.ofDeclared]
    · rw [Candidate.record, ← hcandidate]
      simp [Candidate.ofDeclared, SymbolTable.ofProgram, Names.mem_ofList]

theorem mem_functions_of_records {facts : Facts} {m : ModuleSpec} {f : FunctionRecord}
    (hf : f ∈ Emission.records facts m) : f ∈ facts.functions := by
  obtain ⟨id, -, hfound⟩ := List.mem_filterMap.1 hf
  exact List.mem_reverse.1 (List.mem_of_find?_eq_some hfound)

end Records

/-! ## Every name once -/

/-- Whether nothing obscures the exports of some functions: the tree says the same about them as the patterns that
are used to emit them. -/
structure PlainExports (text : Text) (program : Tree) (records : List FunctionRecord) : Prop where
  /-- No statement begins where another does. -/
  starts : (program.children.map (·.start)).Nodup
  /-- What can be exported is declared once. -/
  declared : ∀ f ∈ records, isExportable f.name = true →
    (program.children.flatMap TopLevel.declaredNames).count f.name ≤ 1
  /-- No clause renames a function or gives its name to anything else. -/
  clauses : ∀ f ∈ records, ∀ statement ∈ program.children, ∀ entry ∈ TopLevel.clauseEntries statement,
    (statement.child? .source).isNone = true ∧ entry.1 = f.name ∨ entry.2 = f.name →
      (statement.child? .source).isNone = true ∧ entry.1 = entry.2
  /-- Default exports are seen as such, and they have no other export. -/
  defaults : ∀ f ∈ records, isExportable f.name = true →
    (isDefaultExport text f = true ↔ f.name ∈ program.children.flatMap TopLevel.defaultNames) ∧
      (isDefaultExport text f = true → f.name ∉ TopLevel.sourceExports program)
  /-- A word that is cut out exports the function behind it, and nothing else. -/
  words : ∀ f ∈ records, f.exported = true → ∀ start,
    InlineExport.wordBefore? text f.start.toNat = some start →
      ∃ statement ∈ program.children, statement.start = start ∧ TopLevel.inlineNames statement = [f.name]
  /-- No word is cut out twice. -/
  once : ((InlineExport.cuts text records).map (·.1)).Nodup

/-- Whether a text is a source with some words `export` cut out of it and an export list behind it, and exports
every name of some functions once. -/
structure ExportsOnce (program : Tree) (banner source : Text) (records : List FunctionRecord) (text : Text)
    (listed : List String) : Prop where
  text_eq : text = renderOriginal banner (InlineExport.body source records) listed
  words : ∀ cut ∈ InlineExport.cuts source records, InlineExport.IsWord source cut
  apart : (InlineExport.cuts source records).Pairwise fun later earlier => earlier.2 ≤ later.1
  distinct : (TopLevel.exportsLeft (InlineExport.cuts source records) program ++ listed).Nodup
  once : ∀ name ∈ exportNames records,
    (TopLevel.exportsLeft (InlineExport.cuts source records) program ++ listed).count name = 1

theorem eq_of_count_flatMap_le_one {α β : Type} [BEq β] [LawfulBEq β] {list : List α} {part : α → List β}
    {x : β} (hcount : (list.flatMap part).count x ≤ 1) {a b : α} (ha : a ∈ list) (hb : b ∈ list)
    (hxa : x ∈ part a) (hxb : x ∈ part b) : a = b := by
  induction list with
  | nil => cases ha
  | cons first rest ih =>
      rw [List.flatMap_cons, List.count_append] at hcount
      have hrest : ∀ c ∈ rest, x ∈ part c → 0 < (rest.flatMap part).count x := fun c hc hxc =>
        List.count_pos_iff.2 (List.mem_flatMap.2 ⟨c, hc, hxc⟩)
      rcases List.mem_cons.1 ha with hfirst | ha' <;> rcases List.mem_cons.1 hb with hother | hb'
      · rw [hfirst, hother]
      · have hone := List.count_pos_iff.2 (hfirst ▸ hxa)
        have htwo := hrest b hb' hxb
        omega
      · have hone := List.count_pos_iff.2 (hother ▸ hxb)
        have htwo := hrest a ha' hxa
        omega
      · exact ih (by omega) ha' hb'

theorem isExportable_ne {name : String} (h : isExportable name = true) :
    name ≠ anonymousName ∧ name ≠ "default" := by
  constructor <;>
  · rintro rfl
    revert h
    decide

namespace PlainExports

variable {reader : Reader} {program : Tree} {text : Text} {path : String} {closureCalls : Bool} {analysis : Analysis}
  {records : List FunctionRecord} {f : FunctionRecord} {name : String}

section Tree

variable (h : PlainExports text program records)
variable (hanalysis : analyzeTree reader (some program) text path closureCalls = .ok analysis)
variable (hof : ∀ f ∈ records, f ∈ analysis.facts.functions) (hf : f ∈ records) (hexportable : isExportable f.name = true)

include hanalysis hof hf hexportable in
theorem exists_statement : ∃ statement ∈ program.children, ∃ d : TopLevel.Declared,
    (f.name ∈ TopLevel.defaultNames statement ∧ d.exported = true ∨
      f.name ∈ TopLevel.declaredNames statement ∧
        (d.exported = true → f.name ∈ TopLevel.inlineNames statement) ∧
        (TopLevel.inlineNames statement ≠ [] → d.exported = true)) ∧
      (f.exported = true ↔ d.exported = true ∨ ∃ s ∈ program.children, f.name ∈ TopLevel.listedNames s) := by
  obtain ⟨statement, hstatement, d, hd, hname, hexported⟩ :=
    record_of_tree hanalysis (hof f hf)
  have hown : d.name = some f.name := by
    cases hdeclared : d.name with
    | none =>
        rw [hdeclared] at hname
        exact absurd hname (isExportable_ne hexportable).1
    | some name =>
        rw [hdeclared] at hname
        rw [hname]
        rfl
  refine ⟨statement, hstatement, d, ?_, hexported⟩
  exact (TopLevel.functions_cases hd hown).imp_right fun ⟨_, hdeclared⟩ => hdeclared

include h hanalysis hof hf hexportable

theorem exported_of_mem (hmem : f.name ∈ TopLevel.sourceExports program) :
    f.exported = true ∧ isDefaultExport text f = false := by
  obtain ⟨statement, hstatement, d, hd, hexported⟩ := exists_statement hanalysis hof hf hexportable
  obtain ⟨hdefaults, halone⟩ := h.defaults f hf hexportable
  refine ⟨hexported.2 ?_, Bool.eq_false_iff.2 fun hdefault => halone hdefault hmem⟩
  obtain ⟨s, hs, hshown⟩ := List.mem_flatMap.1 hmem
  rcases TopLevel.mem_exportedNames.1 hshown with hinline | ⟨own, hentry⟩ | ⟨-, hword⟩
  · -- the statement that exports the name is the one that declares the function
    left
    rcases hd with ⟨hdefault, -⟩ | ⟨hdeclared, -, hback⟩
    · exact absurd hmem (halone (hdefaults.2 (List.mem_flatMap.2 ⟨statement, hstatement, hdefault⟩)))
    · have hsame : s = statement := by
        apply eq_of_count_flatMap_le_one (h.declared f hf hexportable) hs hstatement _ hdeclared
        unfold TopLevel.inlineNames at hinline
        split at hinline
        · exact hinline
        · cases hinline
      exact hback (hsame ▸ List.ne_nil_of_mem hinline)
  · right
    obtain ⟨hhere, hsame⟩ := h.clauses f hf s hs _ hentry (Or.inr rfl)
    refine ⟨s, hs, ?_⟩
    rw [TopLevel.listedNames_eq, if_pos hhere]
    exact List.mem_map.2 ⟨_, hentry, hsame⟩
  · exact absurd hword (isExportable_ne hexportable).2

theorem mem_of_exported (htrue : f.exported = true) (hplain : isDefaultExport text f = false) :
    f.name ∈ TopLevel.sourceExports program := by
  obtain ⟨statement, hstatement, d, hd, hexported⟩ := exists_statement hanalysis hof hf hexportable
  rcases hexported.1 htrue with hinline | ⟨s, hs, hlisted⟩
  · rcases hd with ⟨hdefault, -⟩ | ⟨-, hforth, -⟩
    · have hseen := (h.defaults f hf hexportable).1.2
        (List.mem_flatMap.2 ⟨statement, hstatement, hdefault⟩)
      rw [hplain] at hseen
      cases hseen
    · exact List.mem_flatMap.2 ⟨statement, hstatement,
        TopLevel.mem_exportedNames.2 (Or.inl (hforth hinline))⟩
  · rw [TopLevel.listedNames_eq] at hlisted
    split at hlisted
    · next hhere =>
        obtain ⟨entry, hentry, hfirst⟩ := List.mem_map.1 hlisted
        obtain ⟨-, hsame⟩ := h.clauses f hf s hs entry hentry (Or.inl ⟨hhere, hfirst⟩)
        have hboth : entry = (f.name, f.name) := Prod.ext hfirst (hsame.symm.trans hfirst)
        exact List.mem_flatMap.2 ⟨s, hs,
          TopLevel.mem_exportedNames.2 (Or.inr (Or.inl ⟨f.name, hboth ▸ hentry⟩))⟩
    · cases hlisted

end Tree

/-! ### The export list -/

theorem mem_stripped : name ∈ (stripInlineExports text records).2 ↔
    ∃ f ∈ records, f.exported = true ∧ f.name = name ∧
      ∃ start, InlineExport.wordBefore? text f.start.toNat = some start := by
  have hstripped : (stripInlineExports text records).2 =
      Names.ofList ((InlineExport.found text records).map (·.1)) := rfl
  simp only [hstripped, Names.mem_ofList, InlineExport.found, List.mem_map, List.mem_filterMap,
    List.mem_filter, Option.map_eq_some_iff]
  constructor
  · rintro ⟨_, ⟨f, ⟨hf, hexported⟩, start, hstart, rfl⟩, rfl⟩
    exact ⟨f, hf, hexported, rfl, start, hstart⟩
  · rintro ⟨f, hf, hexported, rfl, start, hstart⟩
    exact ⟨_, ⟨f, ⟨hf, hexported⟩, start, hstart, rfl⟩, rfl⟩

theorem mem_listedNames {stripped : List String} :
    name ∈ Emission.listedNames text records stripped ↔ name ∈ exportNames records ∧
      ∀ f ∈ records, f.name = name → f.exported = true → name ∉ stripped →
        isDefaultExport text f = true := by
  unfold Emission.listedNames
  simp only [List.mem_filter, Bool.not_eq_true', List.contains_eq_mem, decide_eq_false_iff_not,
    List.mem_map, Bool.and_eq_true, Bool.not_eq_true', not_exists, not_and]
  refine and_congr_right fun _ => ⟨fun hkept f hf hname hexported hstripped => ?_, ?_⟩
  · by_contra hplain
    exact hkept f ⟨hf, ⟨hexported, hname ▸ hstripped⟩, by simpa using hplain⟩ hname
  · rintro hseen f ⟨hf, ⟨hexported, hstripped⟩, hplain⟩ hname
    have hdefault := hseen f hf hname hexported (hname ▸ hstripped)
    rw [hplain] at hdefault
    cases hdefault

section Once

variable (h : PlainExports text program records)
variable (hanalysis : analyzeTree reader (some program) text path closureCalls = .ok analysis)
variable (hof : ∀ f ∈ records, f ∈ analysis.facts.functions)
variable (hdistinct : (TopLevel.sourceExports program).Nodup)

include h hdistinct

/-- A cut takes away the export of one name: that of the function behind it. -/
theorem mem_exportsLeft (hname : name ∈ TopLevel.sourceExports program) :
    name ∈ TopLevel.exportsLeft (InlineExport.cuts text records) program ↔
      name ∉ (stripInlineExports text records).2 := by
  obtain ⟨s, hs, hshown⟩ := List.mem_flatMap.1 hname
  have honce : (TopLevel.sourceExports program).count name ≤ 1 := List.nodup_iff_count_le_one.1 hdistinct name
  rw [mem_stripped]
  constructor
  · rintro hleft ⟨f, hf, hexported, rfl, start, hstart⟩
    obtain ⟨t, ht, hshown⟩ := List.mem_flatMap.1 hleft
    obtain ⟨ht, huncut⟩ := List.mem_filter.1 ht
    obtain ⟨statement, hstatement, hbegins, hnames⟩ := h.words f hf hexported start hstart
    have hsame : t = statement := eq_of_count_flatMap_le_one honce ht hstatement hshown
      (TopLevel.mem_exportedNames.2 (Or.inl (by simp [hnames])))
    have hcut : (start, f.start.toNat) ∈ InlineExport.cuts text records :=
      InlineExport.mem_cuts.2 ⟨f, hf, hexported, rfl, hstart⟩
    simp only [Bool.not_eq_true', List.any_eq_false, beq_iff_eq] at huncut
    exact huncut _ hcut (by rw [hsame, hbegins])
  · intro hkept
    refine List.mem_flatMap.2 ⟨s, List.mem_filter.2 ⟨hs, ?_⟩, hshown⟩
    simp only [Bool.not_eq_true', List.any_eq_false, beq_iff_eq]
    rintro cut hcut hbegins
    obtain ⟨f, hf, hexported, -, hstart⟩ := InlineExport.mem_cuts.1 hcut
    obtain ⟨statement, hstatement, hother, hnames⟩ := h.words f hf hexported cut.1 hstart
    have hsame : s = statement := List.inj_on_of_nodup_map h.starts hs hstatement (by rw [← hbegins, hother])
    rw [hsame, TopLevel.exportedNames_of_inline (by simp [hnames]), hnames, List.mem_singleton] at hshown
    exact hkept ⟨f, hf, hexported, hshown.symm, cut.1, hstart⟩

include hanalysis hof in
/-- A name of the module is listed exactly if the copy of the source does not export it. -/
theorem mem_exportsLeft_iff (hname : name ∈ exportNames records) :
    name ∈ TopLevel.exportsLeft (InlineExport.cuts text records) program ↔
      name ∉ Emission.listedNames text records
        (stripInlineExports text records).2 := by
  obtain ⟨hexportable, f, hf, hown⟩ := mem_exportNames.1 hname
  by_cases hsource : name ∈ TopLevel.sourceExports program
  · rw [mem_exportsLeft h hdistinct hsource, not_iff_not, mem_listedNames]
    constructor
    · exact fun hstripped => ⟨hname, fun _ _ _ _ hkept => absurd hstripped hkept⟩
    · rintro ⟨-, hdefaults⟩
      by_contra hkept
      obtain ⟨hexported, hplain⟩ := exported_of_mem h hanalysis hof hf (hown ▸ hexportable) (hown ▸ hsource)
      rw [hdefaults f hf hown hexported hkept] at hplain
      cases hplain
  · refine iff_of_false (fun hleft => hsource ((TopLevel.exportsLeft_sublist _ _).subset hleft)) ?_
    rw [not_not, mem_listedNames]
    refine ⟨hname, fun g hg hother hexported _ => ?_⟩
    by_contra hplain
    exact hsource (hother ▸ mem_of_exported h hanalysis hof hg (hother ▸ hexportable) hexported (by simpa using hplain))

include hanalysis hof in
theorem exportsOnce {m : ModuleSpec} (horiginal : m.isOriginal = true) (banner : Text) :
    ExportsOnce program banner text records (Emission.moduleText reader banner text m records).1
      (Emission.listedNames text records (stripInlineExports text records).2) := by
  have hlisted {name : String} (hname : name ∈ exportNames records) :=
    mem_exportsLeft_iff h hanalysis hof hdistinct hname
  have honce : (TopLevel.exportsLeft (InlineExport.cuts text records) program ++
      Emission.listedNames text records (stripInlineExports text records).2).Nodup := by
    refine List.nodup_append'.2 ⟨hdistinct.sublist (TopLevel.exportsLeft_sublist _ program),
      (nodup_eraseDups _).filter _, fun name hleft hmem => ?_⟩
    exact (hlisted (mem_listedNames.1 hmem).1).1 hleft hmem
  refine ⟨?_, fun _ => InlineExport.isWord_of_mem_cuts, InlineExport.cuts_apart h.once, honce, fun name hname => ?_⟩
  · rw [Emission.moduleText, if_pos horiginal]
    rfl
  · refine List.count_eq_one_of_mem honce (List.mem_append.2 ?_)
    by_cases hmem : name ∈ Emission.listedNames text records (stripInlineExports text records).2
    · exact Or.inr hmem
    · exact Or.inl ((hlisted hname).2 hmem)

end Once

end PlainExports

/-- The module that keeps a source exports each of its names once: those that the copy of the source still exports
are not listed, and all others are. The names that bridges and other modules look for in it are among them. -/
theorem original_exports_once {reader : Reader} {program : Tree} {text : Text} {path : String}
    {closureCalls : Bool} {analysis : Analysis}
    (hanalysis : analyzeTree reader (some program) text path closureCalls = .ok analysis)
    (hdistinct : (TopLevel.sourceExports program).Nodup) {plan : Plan}
    (hslugs : (plan.modules.map (·.slug)).Nodup) {m : ModuleSpec} (hm : m ∈ plan.modules)
    (horiginal : m.isOriginal = true)
    (hplain : PlainExports text program (Emission.records analysis.facts m)) (banner : Text)
    (directory : Path) (basename : String) :
    (∃ listed, ExportsOnce program banner text (Emission.records analysis.facts m)
        (Emission.moduleText reader banner text m (Emission.records analysis.facts m)).1 listed) ∧
      ∀ name, (Layout.ofPlan plan analysis.facts directory basename).moduleOfName.get? name = some m.slug →
        name ∈ exportNames (Emission.records analysis.facts m) := by
  refine ⟨⟨_, hplain.exportsOnce hanalysis (fun _ => mem_functions_of_records) hdistinct horiginal banner⟩, fun name hfound => ?_⟩
  have hdeclared := (Layout.ofPlan_named plan analysis.facts directory basename).declared _ _ hfound
  obtain ⟨m', hm', hslug, hname⟩ := Layout.mem_names_ofPlan.1 hdeclared
  rwa [List.inj_on_of_nodup_map hslugs hm' hm hslug.symm] at hname

/-- A constant and a function that nothing can be said about, both exported. -/
def beside : Text :=
  "export const k = 1;\nexport function a() \x7b return q; \x7d\n".toList

def besideTree : Tree :=
  let leaf (kind : Kind) (role : Option Role) (start stop : Nat) (text : String) : Tree :=
    .node { kind, role, start, stop, text } []
  .node { kind := .program, role := none, start := 0, stop := 54, text := "" }
    [.node { kind := .exportStatement, role := none, start := 0, stop := 19, text := "" }
      [.node { kind := .lexicalDeclaration, role := some .declaration, start := 7, stop := 19, text := "" }
        [.node { kind := .variableDeclarator, role := none, start := 13, stop := 18, text := "" }
          [leaf .identifier (some .name) 13 14 "k", leaf .literal (some .value) 17 18 ""]]],
      .node { kind := .exportStatement, role := none, start := 20, stop := 53, text := "" }
        [.node { kind := .functionDeclaration, role := some .declaration, start := 27, stop := 53, text := "" }
          [leaf .identifier (some .name) 36 37 "a", leaf .parameters (some .parameters) 37 39 "",
            .node { kind := .block, role := some .body, start := 40, stop := 53, text := "" }
              [.node { kind := .statement, role := none, start := 42, stop := 51, text := "" }
                [leaf .identifier none 49 50 "q"]]]]]

def besideRecord : FunctionRecord where
  id := "f0000"
  name := "a"
  start := 27
  stop := 53
  exported := true
  used := ["q"]
  free := ["q"]

def besideModule : ModuleSpec where
  name := "original"
  slug := "original"
  functions := ["f0000"]

private theorem records_beside : ((Candidate.dedupe (Candidate.ofText .ofGrammar beside (some besideTree) false)).mapIdx
    Candidate.record) = [besideRecord] := by
  obtain ⟨c, hc⟩ : ∃ c, Candidate.ofText .ofGrammar beside (some besideTree) false = [c] :=
    List.length_eq_one_iff.1 (by decide +kernel)
  have hsorted : (Candidate.ofText .ofGrammar beside (some besideTree) false).Pairwise
      fun a b => Candidate.before a b = true := by
    rw [hc]
    exact List.pairwise_singleton _ _
  unfold Candidate.dedupe
  rw [List.mergeSort_of_pairwise hsorted]
  decide +kernel

theorem original_exports_beside : ∃ analysis,
    analyzeTree .ofGrammar (some besideTree) beside "beside.js" false = .ok analysis ∧
      (TopLevel.sourceExports besideTree).Nodup ∧ (([besideModule] : List ModuleSpec).map (·.slug)).Nodup ∧
      besideModule.isOriginal = true ∧
      PlainExports beside besideTree (Emission.records analysis.facts besideModule) ∧
      exportNames (Emission.records analysis.facts besideModule) = ["a"] ∧
      ∃ listed, ExportsOnce besideTree [] beside (Emission.records analysis.facts besideModule)
        (Emission.moduleText .ofGrammar [] beside besideModule (Emission.records analysis.facts besideModule)).1 listed := by
  obtain ⟨analysis, hrun⟩ : ∃ analysis,
      analyzeTree .ofGrammar (some besideTree) beside "beside.js" false = .ok analysis := by
    unfold analyzeTree
    simp only
    split
    · next hnone =>
        have hrecords := records_beside
        rw [hnone] at hrecords
        cases hrecords
    · exact ⟨_, rfl⟩
  have hfunctions : analysis.facts.functions = [besideRecord] :=
    (facts_of_analyzeTree hrun).1.trans records_beside
  have hmember : Emission.records analysis.facts besideModule = [besideRecord] := by
    have hfound : analysis.facts.function? "f0000" = some besideRecord := by
      rw [Facts.function?, hfunctions]
      decide
    simp [Emission.records, besideModule, hfound]
  have hplain : PlainExports beside besideTree (Emission.records analysis.facts besideModule) := by
    rw [hmember]
    constructor
    · decide
    · decide +kernel
    · decide +kernel
    · decide +kernel
    · intro f hf _ start hstart
      have hfound : InlineExport.wordBefore? beside besideRecord.start.toNat = some 20 := by decide +kernel
      rw [List.mem_singleton.1 hf, hfound] at hstart
      rw [List.mem_singleton.1 hf, ← Option.some.inj hstart]
      decide
    · have hfound : InlineExport.found beside [besideRecord] = [("a", 20, 27)] := by decide +kernel
      simp [InlineExport.cuts, hfound]
  have horiginal : besideModule.isOriginal = true := by decide +kernel
  refine ⟨analysis, hrun, by decide, by decide, horiginal, hplain, ?_, ?_⟩
  · rw [hmember]
    decide +kernel
  · have hslugs : ((Plan.mk [besideModule]).modules.map (·.slug)).Nodup := by decide
    exact (original_exports_once hrun (by decide) hslugs List.mem_cons_self horiginal hplain []
      { slashes := 1, parts := ["out"] } "beside").1

end ScriptSplit
