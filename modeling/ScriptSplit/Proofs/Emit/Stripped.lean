import ScriptSplit.Proofs.Analysis.Calls
import ScriptSplit.Proofs.Analysis.Invariants
import ScriptSplit.Proofs.Emit.Slices
import ScriptSplit.Proofs.Source.Pieces

/-!
# Words that are cut out of a source

The words `export` before functions are looked for in the text alone. What is cut out is such a word with the blanks
behind it, and everything else stays; but only the tree can tell whether the word is an export. Where an export
begins with it, nothing but blanks and a comment stands between the word and the function, so this export declares the
function and no other.
-/

namespace ScriptSplit

open Script

/-! ## Texts without some spans -/

namespace Text

variable {kept kept' : Nat → Bool} {offset : Nat} {text front back : Text}

def keepFrom (kept : Nat → Bool) (offset : Nat) : Text → Text
  | [] => []
  | c :: rest => if kept offset then c :: keepFrom kept (offset + 1) rest else keepFrom kept (offset + 1) rest

def without (spans : List (Nat × Nat)) (text : Text) : Text :=
  keepFrom (fun i => !spans.any fun span => span.1 ≤ i && i < span.2) 0 text

theorem keepFrom_append : keepFrom kept offset (front ++ back) =
    keepFrom kept offset front ++ keepFrom kept (offset + front.length) back := by
  induction front generalizing offset with
  | nil => rfl
  | cons c front ih =>
      simp only [List.cons_append, keepFrom, ih, List.length_cons]
      rw [Nat.add_right_comm offset 1, Nat.add_assoc]
      split <;> rfl

theorem keepFrom_congr (h : ∀ i, offset ≤ i → i < offset + text.length → kept i = kept' i) :
    keepFrom kept offset text = keepFrom kept' offset text := by
  induction text generalizing offset with
  | nil => rfl
  | cons c text ih =>
      rw [List.length_cons] at h
      have hrest : keepFrom kept (offset + 1) text = keepFrom kept' (offset + 1) text :=
        ih fun i hi hlast => h i (by omega) (by omega)
      rw [keepFrom, keepFrom, h offset (le_refl _) (by omega), hrest]

theorem keepFrom_eq_self (h : ∀ i, offset ≤ i → i < offset + text.length → kept i = true) :
    keepFrom kept offset text = text := by
  induction text generalizing offset with
  | nil => rfl
  | cons c text ih =>
      rw [List.length_cons] at h
      rw [keepFrom, if_pos (h offset (le_refl _) (by omega)), ih fun i hi hlast => h i (by omega) (by omega)]

theorem keepFrom_eq_nil (h : ∀ i, offset ≤ i → i < offset + text.length → kept i = false) :
    keepFrom kept offset text = [] := by
  induction text generalizing offset with
  | nil => rfl
  | cons c text ih =>
      rw [List.length_cons] at h
      rw [keepFrom, if_neg (by simp [h offset (le_refl _) (by omega)]), ih fun i hi hlast => h i (by omega) (by omega)]

/-- A span behind all others can be cut out before them. -/
theorem without_cut {span : Nat × Nat} {spans : List (Nat × Nat)} (hspan : span.1 ≤ span.2)
    (hstop : span.2 ≤ text.length) (hbefore : ∀ other ∈ spans, other.2 ≤ span.1) :
    without spans (text.take span.1 ++ text.drop span.2) = without (span :: spans) text := by
  have hbehind : ∀ i, span.1 ≤ i → (spans.any fun other => other.1 ≤ i && i < other.2) = false := by
    intro i hi
    simp only [List.any_eq_false, Bool.and_eq_true, decide_eq_true_eq, not_and, not_lt]
    intro other hother _
    have hle := hbefore other hother
    omega
  have hfront : (text.take span.1).length = span.1 := by
    rw [List.length_take]
    omega
  have hsplit : text = text.take span.1 ++ (text.slice span.1 span.2 ++ text.drop span.2) := by
    rw [← drop_eq_slice_append hspan hstop, List.take_append_drop]
  have hlength : (text.slice span.1 span.2).length = span.2 - span.1 := length_slice hstop
  conv_rhs => rw [hsplit]
  unfold without
  rw [keepFrom_append, keepFrom_append, keepFrom_append, hfront, hlength, Nat.zero_add]
  -- in front of the span the others decide, the span itself goes, and what is behind it stays
  congr 1
  · refine keepFrom_congr fun i _ hi => ?_
    have hless : ¬ span.1 ≤ i := by omega
    simp [hless]
  · have hgone : keepFrom (fun i => !(span :: spans).any fun other => other.1 ≤ i && i < other.2) span.1
        (text.slice span.1 span.2) = [] := by
      refine keepFrom_eq_nil fun i hi hlast => ?_
      have hinside : i < span.2 := by omega
      simp [hi, hinside]
    rw [hgone, List.nil_append, keepFrom_eq_self fun i hi _ => by rw [hbehind i hi]; rfl]
    refine (keepFrom_eq_self fun i hi _ => ?_).symm
    have hpast : ¬ i < span.2 := by omega
    rw [List.any_cons, hbehind i (by omega)]
    simp [hpast]

/-- Spans that are apart are cut out one after the other, the last one first. -/
theorem foldl_cut_eq_without {spans : List (Nat × Nat)}
    (hapart : spans.Pairwise fun later earlier => earlier.2 ≤ later.1)
    (hplaced : ∀ span ∈ spans, span.1 ≤ span.2 ∧ span.2 ≤ text.length) :
    spans.foldl (fun text span => text.take span.1 ++ text.drop span.2) text = without spans text := by
  induction spans generalizing text with
  | nil => exact (keepFrom_eq_self fun _ _ _ => rfl).symm
  | cons span spans ih =>
      obtain ⟨hfirst, hrest⟩ := List.pairwise_cons.1 hapart
      obtain ⟨⟨hspan, hstop⟩, hinside⟩ := List.forall_mem_cons.1 hplaced
      have hshorter : span.1 ≤ (text.take span.1 ++ text.drop span.2).length := by
        rw [List.length_append, List.length_take]
        omega
      rw [List.foldl_cons, ← without_cut hspan hstop hfirst]
      exact ih hrest fun other hother => ⟨(hinside other hother).1, (hfirst other hother).trans hshorter⟩

end Text

/-! ## Words before functions -/

namespace InlineExport

variable {source : Text} {start stop offset : Nat}

theorem IsWord.bounds (h : IsWord source (start, stop)) : start + 6 < stop ∧ start ≤ source.length := by
  obtain ⟨blanks, htake, hblanks, -⟩ := h
  have hlength := congrArg List.length htake
  have hpos := List.length_pos_iff.2 hblanks
  have hword : "export".toList.length = 6 := rfl
  simp only [List.length_append, List.length_take, hword] at hlength
  omega

theorem IsWord.slice_eq (h : IsWord source (start, stop)) : ∃ blanks,
    source.slice start stop = "export".toList ++ blanks ∧ ∀ c ∈ blanks, Text.isBlank c = true := by
  obtain ⟨-, hstart⟩ := h.bounds
  obtain ⟨blanks, htake, -, hall⟩ := h
  have hlength : (source.take start).length = start := by
    rw [List.length_take]
    omega
  refine ⟨blanks, ?_, hall⟩
  rw [Text.slice, htake]
  exact List.drop_left' hlength

theorem IsWord.isBlank {c : Char} (h : IsWord source (start, stop)) (hbehind : start + 6 ≤ offset)
    (hoffset : offset < stop) (hc : source[offset]? = some c) : Text.isBlank c = true := by
  obtain ⟨blanks, htake, -, hall⟩ := h
  have hword : "export".toList.length = 6 := rfl
  rw [getElem?_of_take htake (by simp) (by omega) hoffset, List.getElem?_append_right (by omega)] at hc
  exact hall c (List.mem_of_getElem? hc)

theorem wordBefore?_of_isWord (h : IsWord source (start, offset)) : wordBefore? source offset =
    if (source.take start).getLast?.any Text.isWord || start < offset - lookback then none else some start := by
  obtain ⟨-, hstart⟩ := h.bounds
  obtain ⟨blanks, htake, hsome, hall⟩ := h
  have hlength : (source.take start).length = start := by
    rw [List.length_take]
    omega
  have hreverse : (source.take offset).reverse =
      blanks.reverse ++ ("tropxe".toList ++ (source.take start).reverse) := by
    rw [show source.take offset = _ from htake]
    simp
  have hall' : ∀ c ∈ blanks.reverse, Text.isBlank c = true := fun c hc => hall c (List.mem_reverse.1 hc)
  have hword : ("tropxe".toList ++ (source.take start).reverse).takeWhile Text.isBlank = [] := rfl
  have hblanks : (source.take offset).reverse.takeWhile Text.isBlank = blanks.reverse := by
    rw [hreverse, List.takeWhile_append_of_pos hall', hword, List.append_nil]
  have hearlier : Text.afterWord? "tropxe" ("tropxe".toList ++ (source.take start).reverse) =
      some (source.take start).reverse := by
    rw [Text.afterWord?, if_pos (List.isPrefixOf_iff_prefix.2 (List.prefix_append _ _))]
    rfl
  unfold wordBefore?
  simp only [hblanks]
  rw [hreverse, List.drop_left, hearlier]
  simp [hlength, hsome]

theorem wordBefore?_eq_some_iff : wordBefore? source offset = some start ↔
    IsWord source (start, offset) ∧ (∀ c ∈ (source.take start).getLast?, Text.isWord c = false) ∧
      offset ≤ start + lookback := by
  have hmeans : ((source.take start).getLast?.any Text.isWord || start < offset - lookback) = false ↔
      (∀ c ∈ (source.take start).getLast?, Text.isWord c = false) ∧ offset ≤ start + lookback := by
    rw [Bool.or_eq_false_iff, decide_eq_false_iff_not]
    refine and_congr ?_ (by omega)
    cases (source.take start).getLast? <;> simp
  rw [← hmeans]
  constructor
  · intro h
    have hword := wordBefore?_eq_some h
    rw [wordBefore?_of_isWord hword, Option.ite_none_left_eq_some, Bool.not_eq_true] at h
    exact ⟨hword, h.1⟩
  · rintro ⟨hword, hfound⟩
    rw [wordBefore?_of_isWord hword, hfound]
    rfl

theorem cuts_single {f : FunctionRecord} (hexported : f.exported = true) : cuts source [f] =
    ((wordBefore? source f.start.toNat).map fun start => (start, f.start.toNat)).toList := by
  cases hword : wordBefore? source f.start.toNat <;> simp [cuts, found, hexported, hword]

end InlineExport

/-! ## Where words stand in a script -/

/-- What is expected of a parser: where the words of declarations and the comments between them stand. -/
structure Script.Tree.Spelled (text : Text) (program : Tree) : Prop where
  /-- Statements follow one another. -/
  ordered : program.children.Pairwise fun first second => first.stop ≤ second.start
  /-- A declaration begins with a word, so with no blank and no comment. -/
  begins : ∀ s ∈ program.children, ∀ d ∈ TopLevel.functions s,
    (∃ c, text[d.start]? = some c ∧ Text.isBlank c = false) ∧ ¬ ['/', '*'] <+: text.drop d.start
  /-- An export goes on behind its word and the blanks and the comment there, and so does what it declares. -/
  exports : ∀ s ∈ program.children, s.kind = .exportStatement → ∀ blanks lead stop,
    (∀ c ∈ blanks, Text.isBlank c = true) → Lead lead → stop ≤ text.length →
      text.slice s.start stop = "export".toList ++ (blanks ++ lead) →
        stop < s.stop ∧ ∀ inner, s.child? .declaration = some inner → stop ≤ inner.start
  /-- A variable stands behind the word that declares it. -/
  declarators : ∀ s ∈ program.children, ∀ declarator ∈ (TopLevel.declaration s).children,
    declarator.kind = .variableDeclarator → (TopLevel.declaration s).start < declarator.start
  /-- A default export goes on behind its words. -/
  defaults : ∀ s ∈ program.children, ∀ d ∈ TopLevel.functions s, ∀ blanks,
    (∀ c ∈ blanks, Text.isBlank c = true) → "export".toList ++ (blanks ++ "default".toList) <+: text.drop d.start →
      d.start + (blanks.length + 13) < d.stop

theorem Script.Tree.Spelled.apart {text : Text} {program s t : Tree} (h : program.Spelled text)
    (hs : s ∈ program.children) (ht : t ∈ program.children) (hother : s ≠ t) :
    s.stop ≤ t.start ∨ t.stop ≤ s.start := by
  have hboth : program.children.Pairwise fun first second => first.stop ≤ second.start ∨ second.stop ≤ first.start :=
    h.ordered.imp Or.inl
  have hsymm : Std.Symm fun first second : Tree => first.stop ≤ second.start ∨ second.stop ≤ first.start :=
    ⟨fun _ _ => Or.symm⟩
  exact hboth.forall hs ht hother

/-- Whether the doc comment in front of an offset, if there is one, is not closed by the stars that open it. -/
def OpenDoc (text : Text) (offset : Nat) : Prop :=
  ∀ pos, docCommentStart text offset = some pos → text[pos + 3]? ≠ some '/'

namespace TopLevel

/-- Whether an export that is no default declares a single function, and the function begins where the declaration
does. -/
structure Wraps (statement : Tree) (d : Declared) : Prop where
  isExport : statement.kind = .exportStatement
  plain : isDefault statement = false
  single : functions statement = [d]
  inner : ∃ inner, statement.child? .declaration = some inner ∧ d.start = inner.start

variable {statement : Tree} {d : Declared}

theorem functionsOf_start {t : Tree} {exported : Bool} (hd : d ∈ functionsOf t exported) :
    d.start = t.start ∧ functionsOf t exported = [d] ∨
      ∃ declarator ∈ t.children, declarator.kind = .variableDeclarator ∧ d.start = declarator.start := by
  unfold functionsOf at hd ⊢
  split at hd
  case h_1 | h_2 =>
    obtain rfl := List.mem_singleton.1 hd
    exact Or.inl ⟨rfl, rfl⟩
  case h_5 => cases hd
  all_goals
    obtain ⟨declarator, hmem, hsome⟩ := List.mem_filterMap.1 hd
    have hkind := List.mem_filter.1 hmem
    by_cases hsingle : (t.children.filter (·.kind == .variableDeclarator)).length = 1
    · left
      obtain ⟨only, honly⟩ := List.length_eq_one_iff.1 hsingle
      simp only [honly, List.length_singleton, if_true] at hmem hsome ⊢
      obtain rfl := List.mem_singleton.1 hmem
      rw [List.filterMap_cons, hsome]
      simp only [bind, Option.bind_eq_some_iff] at hsome
      obtain ⟨name, -, value, -, hsome⟩ := hsome
      split at hsome
      · cases hsome
      · obtain rfl := Option.some.inj hsome
        exact ⟨rfl, rfl⟩
    · right
      simp only [hsingle, if_false, bind, Option.bind_eq_some_iff] at hsome
      obtain ⟨name, -, value, -, hsome⟩ := hsome
      split at hsome
      · cases hsome
      · obtain rfl := Option.some.inj hsome
        exact ⟨declarator, hkind.1, by simpa using hkind.2, rfl⟩

theorem declaration_of_export (hexport : statement.kind = .exportStatement)
    (hkind : (declaration statement).kind ≠ .exportStatement) :
    isDefault statement = false ∧ statement.child? .declaration = some (declaration statement) := by
  unfold declaration at hkind ⊢
  unfold isDefault
  by_cases hkeyword : statement.children.any (·.kind == .keyword) = true
  · simp [hexport, hkeyword] at hkind
  · rw [Bool.not_eq_true] at hkeyword
    simp only [hexport, hkeyword, beq_self_eq_true, Bool.not_false, Bool.and_self, if_true, Bool.and_false] at hkind ⊢
    cases hinner : statement.child? .declaration with
    | none =>
        rw [hinner] at hkind
        exact absurd hexport hkind
    | some inner => exact ⟨trivial, rfl⟩

theorem start_le_of_functions {low high : Nat} (h : statement.Within low high) (hd : d ∈ functions statement) :
    statement.start ≤ d.start := by
  rcases functions_cases_declaration hd with ⟨exported, hfunctions, -⟩ | ⟨-, -, hstart, -⟩
  · have hinner := declaration_within h.own
    rw [hfunctions] at hd
    refine hinner.bounds.1.trans ?_
    rcases functionsOf_start hd with ⟨hstart, -⟩ | ⟨declarator, hdeclarator, -, hstart⟩
    · exact hstart.ge
    · rw [hstart]
      exact (hinner.child hdeclarator).bounds.1
  · exact hstart.ge

end TopLevel

/-- Whether a record is that of a function which a statement declares. -/
structure FunctionRecord.IsOf (reader : Reader) (text : Text) (program : Tree) (closureCalls : Bool) (f : FunctionRecord)
    (statement : Tree) (d : TopLevel.Declared) : Prop where
  child : statement ∈ program.children
  declared : d ∈ TopLevel.functions statement
  record : ∃ n, f = (Candidate.ofDeclared reader text (SymbolTable.ofProgram program) closureCalls d).record n

section Records

variable {reader : Reader} {program statement s : Tree} {text : Text} {path : String} {closureCalls : Bool} {analysis : Analysis}
  {f g : FunctionRecord} {d : TopLevel.Declared}

theorem exists_isOf (hrun : analyzeTree reader (some program) text path closureCalls = .ok analysis)
    (hf : f ∈ analysis.facts.functions) : ∃ statement d, f.IsOf reader text program closureCalls statement d := by
  rw [(facts_of_analyzeTree hrun).1] at hf
  obtain ⟨n, hn, rfl⟩ := List.mem_mapIdx.1 hf
  obtain ⟨d, hd, hcandidate⟩ := List.mem_map.1 (Candidate.mem_of_mem_dedupe (List.getElem_mem hn))
  obtain ⟨statement, hstatement, hd⟩ := List.mem_flatMap.1 hd
  exact ⟨statement, d, hstatement, hd, n, by rw [hcandidate]⟩

theorem FunctionRecord.IsOf.start_eq (h : f.IsOf reader text program closureCalls statement d) :
    f.start.toNat = (docCommentStart text d.start).getD d.start := by
  obtain ⟨n, rfl⟩ := h.record
  simp only [Candidate.record, Candidate.ofDeclared, Int.toNat_natCast]

/-- A record begins with a word or with a comment. -/
theorem FunctionRecord.IsOf.begins (h : f.IsOf reader text program closureCalls statement d) (hplaced : program.Placed text)
    (hspelled : program.Spelled text) : ∃ c, text[f.start.toNat]? = some c ∧ Text.isBlank c = false := by
  obtain ⟨hspan, hstop⟩ := TopLevel.functions_placed (hplaced.child h.child) h.declared
  rw [h.start_eq]
  cases hdoc : docCommentStart text d.start with
  | none => exact (hspelled.begins statement h.child d h.declared).1
  | some pos =>
      obtain ⟨hpos, body, blanks, hslice, -⟩ :=
        docCommentStart_eq_some hdoc (hspan.trans (hstop.trans hplaced.bounds.2.2))
      refine ⟨'/', ?_, by decide⟩
      have hopens : "/**".toList <+: text.drop pos :=
        (List.prefix_append _ _).trans (hslice ▸ Text.slice_prefix text pos d.start)
      obtain ⟨rest, hrest⟩ := hopens
      rw [Option.getD_some, ← List.head?_drop, ← hrest]
      rfl

theorem eq_of_start_eq (hplaced : program.Placed text)
    (hrun : analyzeTree reader (some program) text path closureCalls = .ok analysis) (hf : f ∈ analysis.facts.functions)
    (hg : g ∈ analysis.facts.functions) (h : f.start.toNat = g.start.toNat) : f = g := by
  have hsound := sound_of_analyzeTree (by simpa using hplaced) hrun
  have hdistinct : (analysis.facts.functions.map (·.start)).Nodup :=
    List.pairwise_map.2 (hsound.rising.imp fun hrising => hrising.1.ne)
  have hfirst := (hsound.placed f hf).1
  have hsecond := (hsound.placed g hg).1
  exact List.inj_on_of_nodup_map hdistinct hf hg (by omega)

theorem wraps_of_isWord (hplaced : program.Placed text) (hspelled : program.Spelled text)
    (hof : f.IsOf reader text program closureCalls statement d) (hdoc : OpenDoc text d.start) (hs : s ∈ program.children)
    (hexport : s.kind = .exportStatement) (hword : InlineExport.IsWord text (s.start, f.start.toNat)) :
    statement = s ∧ TopLevel.Wraps s d := by
  have hwithin := hplaced.child hof.child
  have hlow := TopLevel.start_le_of_functions hwithin hof.declared
  obtain ⟨hspan, hstop⟩ := TopLevel.functions_placed hwithin.own hof.declared
  have hlimit : d.start ≤ text.length := hspan.trans (hstop.trans (hwithin.bounds.2.2.trans hplaced.bounds.2.2))
  obtain ⟨hle, hlead⟩ := lead_of_docCommentStart hlimit hdoc
  rw [← hof.start_eq] at hle hlead
  obtain ⟨hshort, -⟩ := hword.bounds
  obtain ⟨blanks, hslice, hall⟩ := hword.slice_eq
  -- the word, blanks and the comment of the function stand in front of it
  have hfront : text.slice s.start d.start = "export".toList ++ (blanks ++ text.slice f.start.toNat d.start) := by
    rw [← List.append_assoc, ← hslice, Text.slice_append_slice (by omega) hle hlimit]
  obtain ⟨hinside, hinner⟩ := hspelled.exports s hs hexport blanks _ d.start hall hlead hlimit hfront
  obtain rfl : statement = s := by
    by_contra hother
    rcases hspelled.apart hof.child hs hother with hbefore | hbehind <;> omega
  refine ⟨rfl, ?_⟩
  rcases TopLevel.functions_cases_declaration hof.declared with ⟨exported, hfunctions, hkind⟩ | ⟨-, -, hstart, -⟩
  · obtain ⟨hplain, hchild⟩ := TopLevel.declaration_of_export hexport hkind
    have hd := hof.declared
    rw [hfunctions] at hd
    rcases TopLevel.functionsOf_start hd with ⟨hstart, hsingle⟩ | ⟨declarator, hdeclarator, hvariable, hstart⟩
    · exact ⟨hexport, hplain, hfunctions.trans hsingle, _, hchild, hstart⟩
    · -- one of several variables stands behind the word of their declaration
      have hbehind := hspelled.declarators statement hs declarator hdeclarator hvariable
      have hbefore := hinner _ hchild
      omega
  · -- a default export begins with its own word
    omega

section Once

variable (hplaced : program.Placed text) (hspelled : program.Spelled text)
variable (hrun : analyzeTree reader (some program) text path closureCalls = .ok analysis)

include hplaced hspelled hrun

/-- No word stands before two records. -/
theorem eq_of_isWord {start : Nat} (hf : f ∈ analysis.facts.functions) (hg : g ∈ analysis.facts.functions)
    (hfirst : InlineExport.IsWord text (start, f.start.toNat))
    (hsecond : InlineExport.IsWord text (start, g.start.toNat)) : f = g := by
  have hnot {f g : FunctionRecord} (hf : f ∈ analysis.facts.functions)
      (hfirst : InlineExport.IsWord text (start, f.start.toNat))
      (hsecond : InlineExport.IsWord text (start, g.start.toNat)) : ¬ f.start.toNat < g.start.toNat := by
    intro hless
    obtain ⟨statement, d, hof⟩ := exists_isOf hrun hf
    obtain ⟨c, hc, hblank⟩ := hof.begins hplaced hspelled
    rw [hsecond.isBlank (by have hshort := hfirst.bounds.1; omega) hless hc] at hblank
    cases hblank
  have hle := hnot hf hfirst hsecond
  have hge := hnot hg hsecond hfirst
  exact eq_of_start_eq hplaced hrun hf hg (by omega)

theorem nodup_starts_cuts {records : List FunctionRecord} (hof : ∀ f ∈ records, f ∈ analysis.facts.functions)
    (hdistinct : records.Nodup) : ((InlineExport.cuts text records).map (·.1)).Nodup := by
  have hfound : (InlineExport.found text records).Pairwise fun a b => a.2.1 ≠ b.2.1 := by
    rw [InlineExport.found, List.pairwise_filterMap]
    refine (hdistinct.filter _).imp_of_mem fun {f g} hf hg hother a ha b hb hsame => hother ?_
    obtain ⟨start, hstart, rfl⟩ := Option.map_eq_some_iff.1 ha
    obtain ⟨start', hstart', rfl⟩ := Option.map_eq_some_iff.1 hb
    obtain rfl : start = start' := hsame
    exact eq_of_isWord hplaced hspelled hrun (hof f (List.mem_filter.1 hf).1) (hof g (List.mem_filter.1 hg).1)
      (InlineExport.wordBefore?_eq_some hstart) (InlineExport.wordBefore?_eq_some hstart')
  have hsorted := (List.mergeSort_perm ((InlineExport.found text records).map (·.2)) InlineExport.later).map (·.1)
  rw [InlineExport.cuts, hsorted.nodup_iff, List.map_map]
  exact List.pairwise_map.2 hfound

end Once

end Records

/-! ## What the lexer knows -/

/-- Whether a text is balanced in pieces from an offset on: each statement and what stands before it. -/
def InPieces (text : Text) : Nat → List Tree → Prop
  | _, [] => True
  | offset, s :: rest =>
    isBalanced text offset s.start = true ∧ isBalanced text s.start s.stop = true ∧ InPieces text s.stop rest

theorem isBalanced_of_inPieces {text : Text} {offset : Nat} {statements : List Tree} {s : Tree}
    (h : InPieces text offset statements) (hs : s ∈ statements) : isBalanced text offset s.start = true := by
  induction statements generalizing offset with
  | nil => cases hs
  | cons t rest ih =>
      obtain ⟨hbefore, hown, hrest⟩ := h
      rcases List.mem_cons.1 hs with rfl | hs
      · exact hbefore
      · have hbehind := ih hrest hs
        have hstop := start_le_of_isBalanced hown
        have hstart := start_le_of_isBalanced hbehind
        rw [isBalanced_behind hbefore (hstop.trans hstart), isBalanced_behind hown hstart]
        exact hbehind

/-- The lexer that starts at the head of a text reaches each statement in code. -/
theorem mode_of_inPieces {text : Text} {statements : List Tree} {s : Tree} (h : InPieces text 0 statements)
    (hs : s ∈ statements) : ((Lexer.start text 0).advanceTo s.start).pos = s.start ∧
      ((Lexer.start text 0).advanceTo s.start).mode = .code := by
  obtain ⟨hpos, hbalanced⟩ := stop_of_isBalanced (isBalanced_of_inPieces h hs)
  exact ⟨hpos, (Lexer.State.Agrees.of_balanced hbalanced).mode⟩

/-! ## What is cut out and what stays -/

/-- What is left of a source, and what is said about it, when words `export` before some records are cut out. -/
structure CutsWords (text : Text) (records : List FunctionRecord) (stripped : Text × List String) : Prop where
  /-- All other characters stay, in their order. -/
  text_eq : stripped.1 = text.without (InlineExport.cuts text records)
  apart : (InlineExport.cuts text records).Pairwise fun later earlier => earlier.2 ≤ later.1
  /-- Exactly those words are cut out that stand before an exported record, with the blanks behind them: no letter
  before the word, and the record not too far away. -/
  words : ∀ start stop, (start, stop) ∈ InlineExport.cuts text records ↔
    (∃ f ∈ records, f.exported = true ∧ f.start.toNat = stop) ∧ InlineExport.IsWord text (start, stop) ∧
      (∀ c ∈ (text.take start).getLast?, Text.isWord c = false) ∧ stop ≤ start + InlineExport.lookback
  names : ∀ name, name ∈ stripped.2 ↔
    ∃ f ∈ records, f.name = name ∧ ∃ start, (start, f.start.toNat) ∈ InlineExport.cuts text records

/-- Whether the words that are cut out before some records are exports of these records and of nothing else. -/
structure CutsExports (reader : Reader) (text : Text) (program : Tree) (closureCalls : Bool)
    (records : List FunctionRecord) : Prop where
  /-- Every word that is cut out begins an export that wraps the function behind it. -/
  wraps : ∀ f ∈ records, ∀ start, (start, f.start.toNat) ∈ InlineExport.cuts text records →
    ∃ statement d, f.IsOf reader text program closureCalls statement d ∧ statement.start = start ∧
      TopLevel.Wraps statement d
  /-- Nothing is cut out before a function that no export wraps: one that a clause exports, or one of several
  variables. -/
  untouched : ∀ f ∈ records, ∀ statement d, f.IsOf reader text program closureCalls statement d →
    ¬ TopLevel.Wraps statement d → ∀ start, (start, f.start.toNat) ∉ InlineExport.cuts text records
  /-- Every word that is cut out begins in code, as far as the lexer is not misled before it. -/
  code : InPieces text 0 program.children → ∀ cut ∈ InlineExport.cuts text records,
    ((Lexer.start text 0).advanceTo cut.1).pos = cut.1 ∧ ((Lexer.start text 0).advanceTo cut.1).mode = .code

/-- What is cut out of a source are words `export` before exported functions, and nothing else is lost. These words are
the exports that wrap the functions, and all other functions are left untouched, exactly if no word is found that begins
no export, such as the last one of a comment. -/
theorem stripInlineExports_words {reader : Reader} {program : Tree} {text : Text} {path : String} {closureCalls : Bool}
    {analysis : Analysis} {records : List FunctionRecord} (hplaced : program.Placed text)
    (hspelled : program.Spelled text) (hrun : analyzeTree reader (some program) text path closureCalls = .ok analysis)
    (hof : ∀ f ∈ records, f ∈ analysis.facts.functions) (hdistinct : records.Nodup) :
    CutsWords text records (stripInlineExports text records) ∧
      ((∀ f ∈ records, ∀ statement d, f.IsOf reader text program closureCalls statement d → OpenDoc text d.start) →
        (CutsExports reader text program closureCalls records ↔ ∀ cut ∈ InlineExport.cuts text records,
          ∃ s ∈ program.children, s.kind = .exportStatement ∧ s.start = cut.1)) := by
  have hlength : ∀ f ∈ records, f.start.toNat ≤ text.length := fun f hf => by
    have hbounds := (sound_of_analyzeTree (by simpa using hplaced) hrun).placed f (hof f hf)
    omega
  have hapart := InlineExport.cuts_apart (nodup_starts_cuts hplaced hspelled hrun hof hdistinct)
  refine ⟨⟨?_, hapart, ?_, ?_⟩, fun hdocs => ⟨fun hcuts cut hcut => ?_, fun hexports => ?_⟩⟩
  · refine Text.foldl_cut_eq_without hapart fun cut hcut => ?_
    obtain ⟨f, hf, -, hstop, -⟩ := InlineExport.mem_cuts.1 hcut
    have hshort := (InlineExport.isWord_of_mem_cuts hcut).bounds.1
    exact ⟨by omega, hstop ▸ hlength f hf⟩
  · intro start stop
    rw [InlineExport.mem_cuts]
    constructor
    · rintro ⟨f, hf, hexported, hstop, hstart⟩
      obtain rfl : stop = f.start.toNat := hstop
      exact ⟨⟨f, hf, hexported, rfl⟩, InlineExport.wordBefore?_eq_some_iff.1 hstart⟩
    · rintro ⟨⟨f, hf, hexported, rfl⟩, hword⟩
      exact ⟨f, hf, hexported, rfl, InlineExport.wordBefore?_eq_some_iff.2 hword⟩
  · intro name
    rw [PlainExports.mem_stripped]
    constructor
    · rintro ⟨f, hf, hexported, hname, start, hstart⟩
      exact ⟨f, hf, hname, start, InlineExport.mem_cuts.2 ⟨f, hf, hexported, rfl, hstart⟩⟩
    · rintro ⟨f, hf, hname, start, hcut⟩
      obtain ⟨g, hg, hexported, hstop, hstart⟩ := InlineExport.mem_cuts.1 hcut
      obtain rfl : f = g := eq_of_start_eq hplaced hrun (hof f hf) (hof g hg) hstop
      exact ⟨f, hf, hexported, hname, start, hstart⟩
  · obtain ⟨f, hf, -, hstop, -⟩ := InlineExport.mem_cuts.1 hcut
    obtain ⟨statement, d, hrecord, hstart, hwraps⟩ := hcuts.wraps f hf cut.1 (by rwa [← hstop])
    exact ⟨statement, hrecord.child, hwraps.isExport, hstart⟩
  · -- the export that begins with the word is the statement of the record
    have hwraps : ∀ f ∈ records, ∀ start, (start, f.start.toNat) ∈ InlineExport.cuts text records →
        ∀ statement d, f.IsOf reader text program closureCalls statement d →
          statement.start = start ∧ TopLevel.Wraps statement d := by
      intro f hf start hcut statement d hrecord
      obtain ⟨s, hs, hexport, hbegins⟩ := hexports _ hcut
      obtain rfl : s.start = start := hbegins
      obtain ⟨rfl, hwraps⟩ := wraps_of_isWord hplaced hspelled hrecord (hdocs f hf statement d hrecord) hs hexport
        (InlineExport.isWord_of_mem_cuts hcut)
      exact ⟨rfl, hwraps⟩
    constructor
    · intro f hf start hcut
      obtain ⟨statement, d, hrecord⟩ := exists_isOf hrun (hof f hf)
      exact ⟨statement, d, hrecord, hwraps f hf start hcut statement d hrecord⟩
    · intro f hf statement d hrecord hnot start hcut
      exact hnot (hwraps f hf start hcut statement d hrecord).2
    · intro hpieces cut hcut
      obtain ⟨s, hs, -, hbegins⟩ := hexports cut hcut
      rw [← hbegins]
      exact mode_of_inPieces hpieces hs

/-- The last word of a comment goes as well. -/
example : stripInlineExports "// our main export\nfunction f() \x7b\x7d\n".toList
    [{ id := "f0000", name := "f", start := 19, stop := 34, exported := true }] =
      ("// our main function f() \x7b\x7d\n".toList, ["f"]) := by decide +kernel

/-- What stands behind the word of an export ends where something else begins. -/
theorem stop_le_of_lead {text blanks lead : Text} {start stop next : Nat} {c : Char}
    (hblanks : ∀ c ∈ blanks, Text.isBlank c = true) (hlead : Lead lead) (hlength : stop ≤ text.length)
    (hslice : text.slice start stop = "export".toList ++ (blanks ++ lead)) (hnext : start + 6 ≤ next)
    (hbefore : ∀ c ∈ text.slice (start + 6) next, Text.isBlank c = true) (hc : text[next]? = some c)
    (hother : Text.isBlank c = false ∧ c ≠ '/') : stop ≤ next := by
  by_contra! hbehind
  have hword : (text.slice start (start + 6)).length = "export".toList.length := by
    rw [Text.length_slice (by omega), Nat.add_sub_cancel_left]
    rfl
  obtain ⟨more, hmore⟩ : ∃ more, text.slice next stop = c :: more := by
    obtain ⟨hlt, hget⟩ := List.getElem?_eq_some_iff.1 hc
    refine ⟨text.slice (next + 1) stop, ?_⟩
    rw [← Text.slice_append_slice (Nat.le_succ next) hbehind hlength, Text.slice_succ le_rfl hc, Text.slice_self]
    rfl
  rw [← Text.slice_append_slice (Nat.le_add_right start 6) (by omega) hlength] at hslice
  obtain ⟨-, hsplit⟩ := List.append_inj hslice hword
  rw [← Text.slice_append_slice hnext hbehind.le hlength, hmore] at hsplit
  -- both sides begin with the same blanks
  have hfirst := congrArg (List.takeWhile Text.isBlank) hsplit
  rw [List.takeWhile_append_of_pos hbefore, List.takeWhile_append_of_pos hblanks,
    List.takeWhile_cons_of_neg (by simp [hother.1]), List.append_nil] at hfirst
  cases hlead with
  | nothing =>
      rw [List.takeWhile_nil, List.append_nil] at hfirst
      simp [hfirst] at hsplit
  | comment _ _ =>
      rw [List.takeWhile_cons_of_neg (by decide), List.append_nil] at hfirst
      rw [hfirst, List.append_right_inj, List.cons.injEq] at hsplit
      exact hother.2 hsplit.1

/-- Where a script has one function only, it is enough to look at the character where the function begins and at those
behind the words of exports. -/
theorem spelled_of_single {text : Text} {program : Tree} {d : TopLevel.Declared} {c : Char}
    (hfunctions : program.children.flatMap TopLevel.functions = [d]) (hc : text[d.start]? = some c)
    (hword : Text.isBlank c = false ∧ c ≠ '/' ∧ c ≠ 'e')
    (hordered : program.children.Pairwise fun first second => first.stop ≤ second.start)
    (hdeclarators : ∀ s ∈ program.children, ∀ declarator ∈ (TopLevel.declaration s).children,
      declarator.kind = .variableDeclarator → (TopLevel.declaration s).start < declarator.start)
    (hexports : ∀ s ∈ program.children, s.kind = .exportStatement → ∃ next c, s.start + 6 ≤ next ∧ next < s.stop ∧
      (∀ c ∈ text.slice (s.start + 6) next, Text.isBlank c = true) ∧ text[next]? = some c ∧
        (Text.isBlank c = false ∧ c ≠ '/') ∧ ∀ inner, s.child? .declaration = some inner → next ≤ inner.start) :
    program.Spelled text := by
  have honly : ∀ s ∈ program.children, ∀ other ∈ TopLevel.functions s, other = d := by
    intro s hs other hother
    have hmem := List.mem_flatMap.2 ⟨s, hs, hother⟩
    rwa [hfunctions, List.mem_singleton] at hmem
  have hhead {first : Char} {rest : Text} (hbegins : first :: rest <+: text.drop d.start) : first = c := by
    obtain ⟨more, hmore⟩ := hbegins
    rw [← List.head?_drop, ← hmore] at hc
    exact Option.some.inj hc
  constructor
  · exact hordered
  · intro s hs other hother
    obtain rfl := honly s hs other hother
    exact ⟨⟨c, hc, hword.1⟩, fun hcomment => hword.2.1 (hhead hcomment).symm⟩
  · intro s hs hexport blanks lead stop hblanks hlead hlength hslice
    obtain ⟨next, c, hnext, hinside, hgap, hc, hother, hinner⟩ := hexports s hs hexport
    have hle := stop_le_of_lead hblanks hlead hlength hslice hnext hgap hc hother
    exact ⟨by omega, fun inner hchild => hle.trans (hinner inner hchild)⟩
  · exact hdeclarators
  · intro s hs other hother blanks _ hwords
    obtain rfl := honly s hs other hother
    exact absurd (hhead hwords).symm hword.2.2

/-- A pattern of one character, and a function that is exported. -/
def patterned (c : Char) : Text :=
  "const r = /".toList ++ c :: "/;\nexport function f() \x7b return 1; \x7d\n".toList

def patternedTree : Tree :=
  let leaf (kind : Kind) (role : Option Role) (start stop : Nat) (text : String) : Tree :=
    .node { kind, role, start, stop, text } []
  .node { kind := .program, role := none, start := 0, stop := 49, text := "" }
    [.node { kind := .lexicalDeclaration, role := none, start := 0, stop := 14, text := "" }
      [.node { kind := .variableDeclarator, role := none, start := 6, stop := 13, text := "" }
        [leaf .identifier (some .name) 6 7 "r", leaf .literal (some .value) 10 13 ""]],
      .node { kind := .exportStatement, role := none, start := 15, stop := 48, text := "" }
        [.node { kind := .functionDeclaration, role := some .declaration, start := 22, stop := 48, text := "" }
          [leaf .identifier (some .name) 31 32 "f", leaf .parameters (some .parameters) 32 34 "",
            .node { kind := .block, role := some .body, start := 35, stop := 48, text := "" }
              [.node { kind := .statement, role := none, start := 37, stop := 46, text := "" }
                [leaf .literal none 44 45 ""]]]]]

theorem functions_patterned : ∃ function, patternedTree.children.flatMap TopLevel.functions =
    [⟨function, some "f", 22, 48, true⟩] :=
  ⟨_, rfl⟩

theorem placed_patterned (c : Char) : patternedTree.Placed (patterned c) :=
  Tree.within_of_liesWithin rfl

theorem spelled_patterned (c : Char) : patternedTree.Spelled (patterned c) := by
  obtain ⟨function, hfunctions⟩ := functions_patterned
  have hgap : ∀ c ∈ [' '], Text.isBlank c = true := List.forall_mem_singleton.2 (by decide)
  refine @spelled_of_single _ _ _ 'f' hfunctions rfl (by decide) (by decide) (by decide) fun s hs hexport => ?_
  rcases List.mem_cons.1 hs with rfl | hs
  · cases hexport
  · obtain rfl := List.mem_singleton.1 hs
    exact ⟨22, 'f', by decide, by decide, hgap, rfl, by decide, fun inner hinner => (Option.some.inj hinner ▸ le_rfl)⟩

theorem analysis_patterned {c : Char} (hdoc : docCommentStart (patterned c) 22 = none) : ∃ analysis f,
    analyzeTree .ofGrammar (some patternedTree) (patterned c) "patterned.js" false = .ok analysis ∧
      analysis.facts.functions = [f] ∧ f.exported = true ∧ f.start.toNat = 22 := by
  obtain ⟨function, hfunctions⟩ := functions_patterned
  obtain ⟨analysis, hrun, -, hrecords⟩ := @analyzeTree_of_single (patterned c) .ofGrammar _ false "patterned.js" _ hfunctions
  refine ⟨analysis, _, hrun, hrecords, ?_, ?_⟩
  · simp only [Candidate.record, Candidate.ofDeclared, Bool.true_or]
  · simp only [Candidate.record, Candidate.ofDeclared, hdoc, Option.getD_none, Int.toNat_natCast]

/-- Without a quote in the pattern, the word that is cut out is the export of the function, and begins in code. -/
theorem stripInlineExports_patterned : ∃ analysis,
    analyzeTree .ofGrammar (some patternedTree) (patterned 'x') "patterned.js" false = .ok analysis ∧
      InPieces (patterned 'x') 0 patternedTree.children ∧
      InlineExport.cuts (patterned 'x') analysis.facts.functions = [(15, 22)] ∧
      CutsWords (patterned 'x') analysis.facts.functions
        (stripInlineExports (patterned 'x') analysis.facts.functions) ∧
      CutsExports .ofGrammar (patterned 'x') patternedTree false analysis.facts.functions := by
  have hdoc : docCommentStart (patterned 'x') 22 = none := by decide +kernel
  obtain ⟨analysis, f, hrun, hrecords, hexported, hstart⟩ := analysis_patterned hdoc
  have hcuts : InlineExport.cuts (patterned 'x') analysis.facts.functions = [(15, 22)] := by
    have hword : InlineExport.wordBefore? (patterned 'x') 22 = some 15 := by decide +kernel
    rw [hrecords, InlineExport.cuts_single hexported, hstart, hword]
    rfl
  obtain ⟨hwords, hexports⟩ := stripInlineExports_words (placed_patterned _) (spelled_patterned _) hrun
    (fun f hf => hf) (by rw [hrecords]; exact List.nodup_singleton _)
  refine ⟨analysis, hrun, ?_, hcuts, hwords, (hexports ?_).2 ?_⟩
  · have hfirst : isBalanced (patterned 'x') 0 0 = true ∧ isBalanced (patterned 'x') 0 14 = true := by decide +kernel
    have hsecond : isBalanced (patterned 'x') 14 15 = true ∧ isBalanced (patterned 'x') 15 48 = true := by
      decide +kernel
    exact ⟨hfirst.1, hfirst.2, hsecond.1, hsecond.2, trivial⟩
  · intro g _ statement d hrecord pos hpos
    obtain ⟨function, hfunctions⟩ := functions_patterned
    have hmem := List.mem_flatMap.2 ⟨statement, hrecord.child, hrecord.declared⟩
    rw [hfunctions] at hmem
    obtain rfl := List.mem_singleton.1 hmem
    rw [hdoc] at hpos
    cases hpos
  · rw [hcuts]
    exact List.forall_mem_singleton.2 ⟨_, List.mem_cons_of_mem _ List.mem_cons_self, rfl, rfl⟩

/-- With a quote in it the lexer takes the export for a part of a template, but the word is cut out nevertheless. -/
theorem cut_outside_code : ∃ analysis, patternedTree.Placed (patterned '\x60') ∧
    patternedTree.Spelled (patterned '\x60') ∧
      analyzeTree .ofGrammar (some patternedTree) (patterned '\x60') "patterned.js" false = .ok analysis ∧
        InlineExport.cuts (patterned '\x60') analysis.facts.functions = [(15, 22)] ∧
          ((Lexer.start (patterned '\x60') 0).advanceTo 15).mode = .template := by
  obtain ⟨analysis, f, hrun, hrecords, hexported, hstart⟩ :=
    analysis_patterned (by decide +kernel : docCommentStart (patterned '\x60') 22 = none)
  refine ⟨analysis, placed_patterned _, spelled_patterned _, hrun, ?_, by decide +kernel⟩
  have hword : InlineExport.wordBefore? (patterned '\x60') 22 = some 15 := by decide +kernel
  rw [hrecords, InlineExport.cuts_single hexported, hstart, hword]
  rfl

end ScriptSplit
