import ScriptSplit.Proofs.Analysis.Declaration
import ScriptSplit.Proofs.Emit.Original
import ScriptSplit.Proofs.Source.Grammar
import ScriptSplit.Proofs.Source.Trusted

/-!
# What an emitted module declares

A function that is moved is cut out of the source with the doc comment in front of it. Where its statement declares
nothing else, the cut is the whole declaration, and the module that it is moved to declares the name it exports.
-/

namespace ScriptSplit

open Script

/-! ## Doc comments -/

namespace Text

variable {text needle : Text} {n : Nat}

theorem find?_eq_some (h : find? text needle = some n) :
    needle <+: text.drop n ∧ ∀ m < n, ¬ needle <+: text.drop m := by
  induction text generalizing n with
  | nil =>
      unfold find? at h
      split at h
      · next hempty =>
          obtain rfl := Option.some.inj h
          rw [List.isEmpty_iff.1 hempty]
          exact ⟨List.nil_prefix, fun m hm => absurd hm (Nat.not_lt_zero m)⟩
      · cases h
  | cons c rest ih =>
      unfold find? at h
      split at h
      · next hstarts =>
          obtain rfl := Option.some.inj h
          exact ⟨List.isPrefixOf_iff_prefix.1 hstarts, fun m hm => absurd hm (Nat.not_lt_zero m)⟩
      · next hnot =>
          obtain ⟨inside, hinside, rfl⟩ := Option.map_eq_some_iff.1 h
          obtain ⟨hhere, hbefore⟩ := ih hinside
          refine ⟨hhere, fun m hm => ?_⟩
          cases m with
          | zero => exact fun hstarts => hnot (List.isPrefixOf_iff_prefix.2 hstarts)
          | succ m => exact hbefore m (Nat.lt_of_succ_lt_succ hm)

theorem prefix_of_findLast? (h : findLast? text needle = some n) : needle <+: text.drop n := by
  induction text generalizing n with
  | nil =>
      unfold findLast? at h
      split at h
      · next hempty =>
          rw [List.isEmpty_iff.1 hempty]
          exact List.nil_prefix
      · cases h
  | cons c rest ih =>
      unfold findLast? at h
      split at h
      · next found hfound =>
          obtain rfl := Option.some.inj h
          exact ih hfound
      · split at h
        · next hstarts =>
            obtain rfl := Option.some.inj h
            exact List.isPrefixOf_iff_prefix.1 hstarts
        · cases h

end Text

/-- What may stand in front of a declaration that is cut out: nothing, or a comment with blanks behind it. -/
inductive Lead : Text → Prop where
  | nothing : Lead []
  | comment {body blanks : Text} : ¬ ['*', '/'] <:+: body ++ ['*'] → (∀ c ∈ blanks, Text.isBlank c = true) →
      Lead ('/' :: '*' :: (body ++ '*' :: '/' :: blanks))

variable {text : Text} {start stop offset pos : Nat}

theorem slice_of_found {opener closer : Text} {close : Nat} (hopener : opener.length = 3)
    (hcloser : closer = ['*', '/']) (hoffset : offset ≤ text.length)
    (hstarts : opener <+: text.slice pos offset) (hclose : text.findFrom? closer (pos + 3) = some close)
    (hinside : close + 2 ≤ offset) :
    pos ≤ offset ∧ ∃ body, text.slice pos offset =
      opener ++ (body ++ (closer ++ text.slice (close + 2) offset)) ∧ ¬ closer <:+: body ++ ['*'] := by
  obtain ⟨hbounds, -⟩ := Text.findFrom?_bounds hclose
  have hpos : pos + 3 ≤ offset := by omega
  -- the opening mark is what the first three characters are
  have hopening : text.slice pos (pos + 3) = opener := by
    rw [← hopener]
    exact Text.slice_of_prefix (hstarts.trans (Text.slice_prefix text pos offset))
  obtain ⟨hfound, hfirst⟩ : closer <+: text.drop close ∧
      ∀ m < close - (pos + 3), ¬ closer <+: text.drop (pos + 3 + m) := by
    unfold Text.findFrom? at hclose
    split at hclose
    · cases hclose
    · obtain ⟨inside, hfind, rfl⟩ := Option.map_eq_some_iff.1 hclose
      obtain ⟨hhere, hbefore⟩ := Text.find?_eq_some hfind
      rw [List.drop_drop, Nat.add_comm] at hhere
      rw [Nat.add_sub_cancel]
      exact ⟨hhere, fun m hm => by rw [← List.drop_drop]; exact hbefore m hm⟩
  have hclosing : text.slice close (close + 2) = closer := by
    subst hcloser
    exact Text.slice_of_prefix hfound
  refine ⟨by omega, text.slice (pos + 3) close, ?_, ?_⟩
  · rw [← hopening, ← hclosing, Text.slice_append_slice (by omega) hinside hoffset,
      Text.slice_append_slice hbounds (by omega) hoffset, Text.slice_append_slice (by omega) hpos hoffset]
  · rintro ⟨front, back, heq⟩
    have hlength := congrArg List.length heq
    simp only [List.length_append, hcloser, List.length_cons, List.length_nil,
      Text.length_slice (show close ≤ text.length by omega)] at hlength
    refine hfirst front.length (by omega) ?_
    obtain ⟨rest, hrest⟩ := hfound
    have hbehind : text.drop (pos + 3) = front ++ (closer ++ (back ++ '/' :: rest)) := by
      calc text.drop (pos + 3) = text.slice (pos + 3) close ++ text.drop close :=
            Text.drop_eq_slice_append hbounds (by omega)
        _ = text.slice (pos + 3) close ++ ['*'] ++ '/' :: rest := by rw [← hrest, hcloser]; simp
        _ = front ++ (closer ++ (back ++ '/' :: rest)) := by rw [← heq]; simp
    rw [← List.drop_drop, hbehind, List.drop_left]
    exact List.prefix_append _ _

theorem docCommentStart_eq_some (h : docCommentStart text offset = some pos) (hoffset : offset ≤ text.length) :
    pos ≤ offset ∧ ∃ body blanks,
      text.slice pos offset = "/**".toList ++ (body ++ ("*/".toList ++ blanks)) ∧
        ¬ "*/".toList <:+: body ++ ['*'] ∧ ∀ c ∈ blanks, Text.isBlank c = true := by
  have hopener : "/**".toList.length = 3 := by decide
  have hcloser : "*/".toList = ['*', '/'] := by decide
  unfold docCommentStart at h
  generalize "/**".toList = opener, "*/".toList = closer at hopener hcloser h ⊢
  dsimp only at h
  split at h
  · cases h
  · next distance hlast =>
      split at h
      · cases h
      · next close hclose =>
          split at h
          · cases h
          · next hinside =>
              split at h
              · next hblank =>
                  obtain rfl := Option.some.inj h
                  have hstarts := Text.prefix_of_findLast? hlast
                  rw [Text.slice, List.drop_drop, ← Text.slice] at hstarts
                  obtain ⟨hpos, body, hslice, hbody⟩ :=
                    slice_of_found hopener hcloser hoffset hstarts hclose (Nat.le_of_not_lt hinside)
                  exact ⟨hpos, body, _, hslice, hbody, List.all_eq_true.1 hblank⟩
              · cases h

/-- A declaration is cut out behind a lead, unless the stars that open its doc comment close it as well. -/
theorem lead_of_docCommentStart (hoffset : offset ≤ text.length)
    (hopen : ∀ pos, docCommentStart text offset = some pos → text[pos + 3]? ≠ some '/') :
    (docCommentStart text offset).getD offset ≤ offset ∧
      Lead (text.slice ((docCommentStart text offset).getD offset) offset) := by
  cases hdoc : docCommentStart text offset with
  | none =>
      rw [Option.getD_none, Text.slice_self]
      exact ⟨le_refl offset, .nothing⟩
  | some pos =>
      obtain ⟨hpos, body, blanks, hslice, hbody, hblanks⟩ := docCommentStart_eq_some hdoc hoffset
      have hbehind : text.drop pos = '/' :: '*' :: '*' :: (body ++ ('*' :: '/' :: (blanks ++ text.drop offset))) := by
        rw [Text.drop_eq_slice_append hpos hoffset, hslice]
        simp
      have hnext : text[pos + 3]? = (body ++ ('*' :: '/' :: (blanks ++ text.drop offset))).head? := by
        rw [← List.getElem?_drop, hbehind, List.head?_eq_getElem?]
        rfl
      have hnested : ¬ ['*', '/'] <:+: '*' :: body ++ ['*'] := by
        rw [List.cons_append, List.infix_cons_iff, not_or]
        refine ⟨fun hclosed => ?_, hbody⟩
        rw [List.cons_prefix_cons] at hclosed
        refine hopen pos hdoc ?_
        rw [hnext]
        cases body with
        | nil => simp at hclosed
        | cons c body =>
            obtain rfl := (List.cons_prefix_cons.1 hclosed.2).1
            rfl
      rw [Option.getD_some, hslice]
      have hlead : "/**".toList ++ (body ++ ("*/".toList ++ blanks)) =
          '/' :: '*' :: ('*' :: body ++ '*' :: '/' :: blanks) := by simp
      rw [hlead]
      exact ⟨hpos, .comment hnested hblanks⟩

/-! ## Leads and balance -/

namespace Lexer

section Code

variable {depth : Int} {negative : Bool} {quote : Option Char} {saved : List Int} {rest : Text} {target : Nat}

theorem advanceTo_blanks {blanks : Text} (hblanks : ∀ c ∈ blanks, Text.isBlank c = true)
    (htarget : pos + blanks.length ≤ target) :
    advanceTo ⟨⟨.code, depth, negative, quote, saved⟩, pos, blanks ++ rest⟩ target =
      advanceTo ⟨⟨.code, depth, negative, quote, saved⟩, pos + blanks.length, rest⟩ target := by
  induction blanks generalizing pos with
  | nil => rfl
  | cons c blanks ih =>
      rw [List.forall_mem_cons] at hblanks
      rw [List.length_cons] at htarget
      have hother : c ∉ ['"', '\'', '\x60', '\x7b', '\x7d', '/'] := by
        intro hc
        simp only [List.mem_cons, List.not_mem_nil, or_false] at hc
        rcases hc with rfl | rfl | rfl | rfl | rfl | rfl <;> exact absurd hblanks.1 (by decide)
      simp only [List.mem_cons, List.not_mem_nil, or_false, not_or] at hother
      have hpair : State.takesPair ⟨.code, depth, negative, quote, saved⟩ c (blanks ++ rest).head? = false := by
        simp [State.takesPair, hother]
      rw [List.cons_append, advanceTo_step (show pos < target by omega) (List.cons_ne_nil _ _), step_single rfl hpair,
        Source.after_other (by simp [hother]) (fun hslash => absurd hslash hother.2.2.2.2.2)]
      rw [ih hblanks.2 (show pos + 1 + blanks.length ≤ target by omega), List.length_cons, Nat.add_assoc,
        Nat.add_comm 1]

theorem advanceTo_comment {body : Text} (hbody : ¬ ['*', '/'] <:+: body ++ ['*'])
    (htarget : pos + (body.length + 2) ≤ target) :
    advanceTo ⟨⟨.blockComment, depth, negative, quote, saved⟩, pos, body ++ '*' :: '/' :: rest⟩ target =
      advanceTo ⟨⟨.code, depth, negative, quote, saved⟩, pos + (body.length + 2), rest⟩ target := by
  induction body generalizing pos with
  | nil =>
      rw [List.nil_append, advanceTo_step (show pos < target by omega) (List.cons_ne_nil _ _), step_pair rfl rfl]
      rfl
  | cons c body ih =>
      rw [List.cons_append, List.infix_cons_iff, not_or] at hbody
      rw [List.length_cons] at htarget
      have hopen : (c == '*' && (body ++ '*' :: '/' :: rest).head? == some '/') = false := by
        rw [Bool.and_eq_false_imp]
        intro hc
        cases body with
        | nil => rfl
        | cons next body =>
            by_contra hnext
            simp_all
      have hafter : State.after ⟨.blockComment, depth, negative, quote, saved⟩ c (body ++ '*' :: '/' :: rest).head? =
          ⟨.blockComment, depth, negative, quote, saved⟩ := by
        simp only [State.after, hopen]
        rfl
      rw [List.cons_append, advanceTo_step (show pos < target by omega) (List.cons_ne_nil _ _),
        step_single rfl (by simpa [State.takesPair] using hopen), hafter]
      rw [ih hbody.2 (show pos + 1 + (body.length + 2) ≤ target by omega), List.length_cons, Nat.add_assoc,
        Nat.add_comm 1, Nat.add_right_comm]

end Code

end Lexer

/-- A lead in front of a span does not decide whether the span is balanced. -/
theorem isBalanced_lead {lead : Text} (hlead : Lead lead) (htext : text.drop pos = lead ++ text.drop start)
    (hstart : start = pos + lead.length) (hstop : start ≤ stop) :
    isBalanced text pos stop = isBalanced text start stop := by
  have hadvance : (Lexer.start text pos).advanceTo stop = (Lexer.start text start).advanceTo stop := by
    cases hlead with
    | nothing =>
        rw [List.length_nil, Nat.add_zero] at hstart
        rw [hstart]
    | @comment body blanks hbody hblanks =>
        simp only [List.length_cons, List.length_append] at hstart
        unfold Lexer.start
        rw [htext, List.cons_append, List.cons_append, List.append_assoc, List.cons_append, List.cons_append,
          Lexer.advanceTo_step (show pos < stop by omega) (List.cons_ne_nil _ _), Lexer.step_pair rfl rfl]
        refine (Lexer.advanceTo_comment hbody (show pos + 2 + (body.length + 2) ≤ stop by omega)).trans ?_
        refine (Lexer.advanceTo_blanks hblanks
          (show pos + 2 + (body.length + 2) + blanks.length ≤ stop by omega)).trans ?_
        rw [show start = pos + 2 + (body.length + 2) + blanks.length by omega]
        rfl
  unfold isBalanced
  rw [hadvance]

/-! ## What is cut out -/

def FunctionRecord.cut (reader : Reader) (source : Text) (f : FunctionRecord) : Text :=
  let kept := repairSpan source f.start.toNat f.stop.toNat (some reader.isProgram)
  source.slice kept.start kept.stop

theorem sliceFunctions_fst (reader : Reader) (source : Text) (slug : String) (records : List FunctionRecord) :
    (sliceFunctions source slug records reader).1 = records.map (·.cut reader source) := by
  simp only [sliceFunctions, List.map_map]
  rfl

/-- A text that a declaration may be cut out as: its own text behind a lead that stands in front of it. -/
def IsCut (text : Text) (t : Tree) (piece : Text) : Prop :=
  ∃ lead, Lead lead ∧ lead <:+ text.take t.start ∧ piece = lead ++ text.slice t.start t.stop

/-- What is expected of a parser: a declaration reads the same by itself, with or without a comment in front of it, and
its own text is balanced or reads without a fault. -/
structure ReadsAlone (reader : Reader) (text : Text) (t : Tree) : Prop where
  alike : ∀ piece, IsCut text t piece → ∃ program s, reader.tree? piece = some program ∧ program.children = [s] ∧ s.Alike t
  faultless : isBalanced text t.start t.stop = true ∨ ∀ piece, IsCut text t piece → reader.isProgram piece = true

/-- A declaration that is cut out as a whole: it declares one variable at most, its text does not close more braces
than it opens, comments and strings included, and its doc comment is not closed by the stars that open it. -/
structure Separable (text : Text) (t : Tree) : Prop extends TopLevel.Single t where
  braces : ∀ piece, IsCut text t piece → piece.count '\x7d' ≤ piece.count '\x7b'
  doc : ∀ pos, docCommentStart text t.start = some pos → text[pos + 3]? ≠ some '/'

def Declares (reader : Reader) (closureCalls : Bool) (name : String) (piece : Text) : Prop :=
  ∀ path, ∃ analysis, analyzeTree reader (reader.tree? piece) piece path closureCalls = .ok analysis ∧
    analysis.usedFallback = false ∧ analysis.facts.functions.map (·.name) = [name]

section Cut

variable {reader : Reader} {t statement : Tree} {d : TopLevel.Declared} {table : SymbolTable}
  {closureCalls : Bool} {path : String} {n : Nat}

/-- The record of a declaration that can be cut out as a whole gives back the declaration with its doc
comment: no repair changes its span. -/
theorem ofDeclared_cut (hreads : ReadsAlone reader text t) (hseparable : Separable text t)
    (hstart : d.start = t.start) (hstop : d.stop = t.stop) (hspan : t.start ≤ t.stop)
    (hlimit : t.stop ≤ text.length) :
    IsCut text t (((Candidate.ofDeclared reader text table closureCalls d).record n).cut reader text) := by
  obtain ⟨hle, hlead⟩ := lead_of_docCommentStart (hspan.trans hlimit) hseparable.doc
  generalize hbegin : (docCommentStart text t.start).getD t.start = begin at hle hlead
  have hlength : (text.slice begin t.start).length = t.start - begin := Text.length_slice (hspan.trans hlimit)
  have hcut : IsCut text t (text.slice begin t.stop) :=
    ⟨_, hlead, List.drop_suffix _ _, (Text.slice_append_slice hle hspan hlimit).symm⟩
  have haccepted : Repair.accepted text (some reader.isProgram) begin t.stop = true := by
    rcases hreads.faultless with hbalanced | hprogram
    · refine Repair.accepted_iff.2 (Or.inl ?_)
      rwa [isBalanced_lead hlead (Text.drop_eq_slice_append hle (hspan.trans hlimit)) (by omega) hspan]
    · exact Repair.accepted_iff.2 (Or.inr ⟨reader.isProgram, rfl, hprogram _ hcut⟩)
  have hend : validateEnd text begin t.stop (some reader.isProgram) = t.stop :=
    validateEnd_of_accepted hlimit (hseparable.braces _ hcut) haccepted
  simp only [FunctionRecord.cut, Candidate.record, Candidate.ofDeclared, hstart, hstop, hbegin, hend, Int.toNat_natCast,
    repairSpan_of_accepted (hle.trans hspan) hlimit haccepted]
  exact hcut

theorem analyzeTree_of_single {program : Tree} (h : program.children.flatMap TopLevel.functions = [d]) :
    ∃ analysis, analyzeTree reader (some program) text path closureCalls = .ok analysis ∧
      analysis.usedFallback = false ∧ analysis.facts.functions =
        [(Candidate.ofDeclared reader text (SymbolTable.ofProgram program) closureCalls d).record 0] := by
  have hkept : Candidate.dedupe (Candidate.ofText reader text (some program) closureCalls) =
      [Candidate.ofDeclared reader text (SymbolTable.ofProgram program) closureCalls d] := by
    simp [Candidate.ofText, Candidate.ofProgram, h, Candidate.dedupe, Candidate.keepOuter]
  unfold analyzeTree
  simp only [hkept]
  exact ⟨_, rfl, rfl, rfl⟩

theorem declares_of_isCut (hreads : ReadsAlone reader text (TopLevel.declaration statement))
    (hsingle : TopLevel.Single (TopLevel.declaration statement)) (hd : d ∈ TopLevel.functions statement)
    {name : String} (hname : d.name = some name) {piece : Text}
    (hcut : IsCut text (TopLevel.declaration statement) piece) : Declares reader closureCalls name piece := by
  intro path
  obtain ⟨program, s, hparse, hchildren, halike⟩ := hreads.alike piece hcut
  have hnames : (TopLevel.functions s).map (·.name) = [some name] := by
    calc (TopLevel.functions s).map (·.name)
        = (TopLevel.functions (TopLevel.declaration statement)).map (·.name) :=
          TopLevel.names_functions_alike halike
      _ = (TopLevel.functions statement).map (·.name) := (TopLevel.names_declaration hd).symm
      _ = [some name] := by rw [(TopLevel.functions_single hsingle hd).1, List.map_singleton, hname]
  obtain ⟨own, hfunctions⟩ := List.length_eq_one_iff.1 (by simpa using congrArg List.length hnames)
  rw [hfunctions, List.map_singleton, List.singleton_inj] at hnames
  have hsole : program.children.flatMap TopLevel.functions = [own] := by
    rw [hchildren, List.flatMap_singleton, hfunctions]
  obtain ⟨analysis, hrun, htree, hrecords⟩ := analyzeTree_of_single hsole
  refine ⟨analysis, by rw [hparse]; exact hrun, htree, ?_⟩
  rw [hrecords, List.map_singleton, Candidate.record, Candidate.ofDeclared, hnames, Option.getD_some]

end Cut

/-! ## What a module declares -/

section Module

variable {reader : Reader} {program : Tree} {path : String} {closureCalls : Bool} {analysis : Analysis}
  {m : ModuleSpec} {name : String}

/-- A module that does not keep the source declares what it exports: the text of each function of that name, cut out of
the source, is a declaration by itself. -/
theorem exported_name_declared (hparse : reader.tree? text = some program) (hplaced : program.Placed text)
    (hrun : analyzeTree reader (reader.tree? text) text path closureCalls = .ok analysis) (hother : m.isOriginal = false)
    (hname : name ∈ exportNames (Emission.records analysis.facts m))
    (hcut : ∀ statement ∈ program.children, ∀ d ∈ TopLevel.functions statement, d.name = some name →
      ReadsAlone reader text (TopLevel.declaration statement) ∧
        Separable text (TopLevel.declaration statement)) (banner : Text) :
    let records := Emission.records analysis.facts m
    (Emission.moduleText reader banner text m records).1 =
        renderModule banner (records.map (·.cut reader text)) (exportNames records) ∧
      (∃ f ∈ records, f.name = name) ∧
        ∀ f ∈ records, f.name = name → Declares reader closureCalls name (f.cut reader text) := by
  intro records
  obtain ⟨hexportable, hrecord⟩ := mem_exportNames.1 hname
  refine ⟨?_, hrecord, ?_⟩
  · simp only [Emission.moduleText, hother, Bool.false_eq_true, if_false, sliceFunctions_fst]
  · intro f hf hnamed
    rw [hparse] at hrun
    have hmem := mem_functions_of_records hf
    rw [(facts_of_analyzeTree hrun).1] at hmem
    obtain ⟨n, hn, rfl⟩ := List.mem_mapIdx.1 hmem
    obtain ⟨d, hd, hcandidate⟩ := List.mem_map.1 (Candidate.mem_of_mem_dedupe (List.getElem_mem hn))
    rw [← hcandidate] at hnamed ⊢
    obtain ⟨statement, hstatement, hd⟩ := List.mem_flatMap.1 hd
    -- the name is no stand-in for a missing one
    have hown : d.name = some name := by
      cases hdname : d.name with
      | some own =>
          rw [Candidate.record, Candidate.ofDeclared, hdname] at hnamed
          exact congrArg some hnamed
      | none =>
          rw [Candidate.record, Candidate.ofDeclared, hdname] at hnamed
          exact absurd hnamed.symm (isExportable_ne hexportable).1
    obtain ⟨hreads, hseparable⟩ := hcut statement hstatement d hd hown
    obtain ⟨-, hstart, hstop⟩ := TopLevel.functions_single hseparable.toSingle hd
    obtain ⟨-, hspan, hlimit⟩ := (TopLevel.declaration_within (hplaced.child hstatement)).bounds
    exact declares_of_isCut hreads hseparable.toSingle hd hown <|
      ofDeclared_cut hreads hseparable hstart hstop hspan (hlimit.trans hplaced.bounds.2.2)

end Module

def documented : Text :=
  "/** Adds. */\nfunction add(a, b) \x7b return a + b; \x7d\n".toList

def documentedFunction (offset : Nat) : Tree :=
  let leaf (role : Option Role) (start stop : Nat) (text : String) : Tree :=
    .node { kind := .identifier, role, start := offset + start, stop := offset + stop, text } []
  let inner (kind : Kind) (role : Option Role) (start stop : Nat) (children : List Tree) : Tree :=
    .node { kind, role, start := offset + start, stop := offset + stop, text := "" } children
  inner .functionDeclaration none 0 36
    [leaf (some .name) 9 12 "add",
      inner .parameters (some .parameters) 12 18 [leaf none 13 14 "a", leaf none 16 17 "b"],
      inner .block (some .body) 19 36
        [inner .statement none 21 34
          [inner .operation none 28 33 [leaf none 28 29 "a", leaf none 32 33 "b"]]]]

def documentedTree (offset length : Nat) : Tree :=
  .node { kind := .program, role := none, start := 0, stop := length, text := "" } [documentedFunction offset]

def documentedTree? (text : Text) : Option Tree :=
  if text = documented then some (documentedTree 13 50)
  else if text = documented.slice 0 49 then some (documentedTree 13 49)
  else if text = documented.slice 13 49 then some (documentedTree 0 36)
  else none

/-- A reader that knows that function, with and without its comment. -/
def documentedReader : Reader where
  tree? := documentedTree?
  isProgram text := (documentedTree? text).isSome

def documentedModule : ModuleSpec where
  name := "add"
  slug := "add"
  functions := ["f0000"]

theorem cuts_documented {piece : Text} (h : IsCut documented (documentedFunction 13) piece) :
    piece = documented.slice 0 49 ∨ piece = documented.slice 13 49 := by
  obtain ⟨lead, hlead, hsuffix, rfl⟩ := h
  cases hlead with
  | nothing => exact Or.inr rfl
  | @comment body blanks =>
      left
      -- no comment begins within the comment
      have honly : ∀ k < 14, ['/', '*'].isPrefixOf ((documented.take 13).drop k) = true → k = 0 := by decide
      have hdrop := List.suffix_iff_eq_drop.1 hsuffix
      generalize (documented.take (documentedFunction 13).start).length -
        ('/' :: '*' :: (body ++ '*' :: '/' :: blanks)).length = k at hdrop
      have hstarts : ['/', '*'].isPrefixOf ((documented.take 13).drop k) = true := by
        rw [show (documented.take 13).drop k = _ from hdrop.symm]
        simp
      have hbound : k < 14 := by
        by_contra hk
        have hlength : (documented.take 13).length = 13 := by decide
        rw [List.drop_eq_nil_of_le (by omega)] at hstarts
        cases hstarts
      rw [hdrop, honly k hbound hstarts]
      rfl

theorem exported_name_declared_documented :
    ∃ analysis,
      analyzeTree documentedReader (documentedReader.tree? documented) documented "add.js" false = .ok analysis ∧
      "add" ∈ exportNames (Emission.records analysis.facts documentedModule) ∧
        ∀ f ∈ Emission.records analysis.facts documentedModule, f.name = "add" →
          Declares documentedReader false "add" (f.cut documentedReader documented) := by
  have hknown : documentedReader.tree? = documentedTree? := rfl
  have hparse : documentedReader.tree? documented = some (documentedTree 13 50) := by
    rw [hknown, documentedTree?, if_pos rfl]
  have hplaced : (documentedTree 13 50).Placed documented := Tree.within_of_liesWithin (by decide)
  have hsole : (documentedTree 13 50).children.flatMap TopLevel.functions =
      [⟨documentedFunction 13, some "add", 13, 49, false⟩] := rfl
  obtain ⟨analysis, hrun, -, hfunctions⟩ :=
    @analyzeTree_of_single documented documentedReader _ false "add.js" _ hsole
  rw [← hparse] at hrun
  have hreads : ReadsAlone documentedReader documented (documentedFunction 13) := {
    alike := by
      intro piece hpiece
      rcases cuts_documented hpiece with rfl | rfl
      · refine ⟨documentedTree 13 49, documentedFunction 13, ?_, rfl, rfl, rfl⟩
        rw [hknown, documentedTree?, if_neg (by decide), if_pos rfl]
      · refine ⟨documentedTree 0 36, documentedFunction 0, ?_, rfl, rfl, rfl⟩
        rw [hknown, documentedTree?, if_neg (by decide), if_neg (by decide), if_pos rfl]
    faultless := Or.inl (by decide +kernel) }
  have hseparable : Separable documented (documentedFunction 13) := {
    declarators := by decide
    ends := fun _ => rfl
    braces := by
      intro piece hpiece
      rcases cuts_documented hpiece with rfl | rfl <;> decide
    doc := by
      intro pos hdoc
      have hpos : docCommentStart documented 13 = some 0 := by decide +kernel
      obtain rfl := Option.some.inj (hpos.symm.trans hdoc)
      decide }
  have hname : "add" ∈ exportNames (Emission.records analysis.facts documentedModule) := by
    have hfound : analysis.facts.function? "f0000" = analysis.facts.functions.head? := by
      rw [Facts.function?, hfunctions]
      rfl
    rw [hfunctions] at hfound
    exact mem_exportNames.2
      ⟨by decide +kernel, _, List.mem_filterMap.2 ⟨"f0000", List.mem_singleton_self _, hfound⟩, rfl⟩
  have hcut : ∀ statement ∈ (documentedTree 13 50).children, ∀ d ∈ TopLevel.functions statement,
      d.name = some "add" → ReadsAlone documentedReader documented (TopLevel.declaration statement) ∧
        Separable documented (TopLevel.declaration statement) := by
    intro statement hstatement _ _ _
    obtain rfl := List.mem_singleton.1 hstatement
    exact ⟨hreads, hseparable⟩
  exact ⟨analysis, hrun, hname, (exported_name_declared hparse hplaced hrun rfl hname hcut []).2.2⟩

end ScriptSplit
