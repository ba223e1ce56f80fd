import ScriptSplit.Proofs.CommonJs.Recognise
import ScriptSplit.Proofs.Emit.Stripped

/-!
# Default exports as they are seen

Whether a function is a default export is told by the words at its head, behind its doc comment if it has one. The end
of the comment is any of the marks behind it, so that the words may as well be those of a later export behind another
comment. Apart from these, a default export is seen exactly where the span of the function begins with it.
-/

namespace ScriptSplit

open Script

/-! ## Words at the head of a text -/

def DefaultWords (text : Text) : Prop :=
  ∃ blanks rest, text = "export".toList ++ (blanks ++ ("default".toList ++ rest)) ∧ blanks ≠ [] ∧
    (∀ c ∈ blanks, Text.isBlank c = true) ∧ ∀ c ∈ rest.head?, Text.isWord c = false

def DefaultBehind (body text : Text) : Prop :=
  ∃ blanks rest, text = "/**".toList ++ (body ++ ("*/".toList ++ (blanks ++ rest))) ∧
    (∀ c ∈ blanks, Text.isBlank c = true) ∧ DefaultWords rest

/-- Whether a text begins with `export default`, or has that behind a doc comment which ends where it is first closed. -/
def OwnDefault (text : Text) : Prop :=
  DefaultWords text ∨ ∃ body, ¬ ['*', '/'] <:+: body ++ ['*'] ∧ DefaultBehind body text

/-- Whether a text begins with a doc comment and has `export default` behind the end of a later comment. -/
def StrayDefault (text : Text) : Prop :=
  ∃ body, ['*', '/'] <:+: body ++ ['*'] ∧ DefaultBehind body text

variable {text rest front back : Text}

theorem DefaultWords.head (h : DefaultWords text) : text.head? = some 'e' := by
  obtain ⟨blanks, rest, rfl, -⟩ := h
  rfl

theorem DefaultWords.skipBlanks (h : DefaultWords text) : Text.skipBlanks text = text := by
  refine Text.skipBlanks_of_head fun c hc => ?_
  rw [h.head] at hc
  obtain rfl := Option.some.inj hc
  decide

theorem startsDefaultExport_iff : startsDefaultExport text = true ↔ DefaultWords text := by
  unfold startsDefaultExport
  constructor
  · intro h
    split at h
    · next rest hrest =>
        obtain ⟨more, hmore, hblanks⟩ := Option.bind_eq_some_iff.1 hrest
        rw [EsModule.afterWord?_eq_some] at hmore
        obtain ⟨⟨c, hc, hblank⟩, rfl⟩ := EsModule.afterBlanks?_eq_some.1 hblanks
        obtain ⟨others, rfl⟩ : ∃ others, more = c :: others := List.head?_eq_some_iff.1 hc
        unfold Text.startsWithWord at h
        split at h
        · next tail htail =>
            rw [EsModule.afterWord?_eq_some] at htail
            refine ⟨(c :: others).takeWhile Text.isBlank, tail, ?_, ?_, fun d hd => List.mem_takeWhile_imp hd, ?_⟩
            · rw [hmore, ← htail, Text.skipBlanks, List.takeWhile_append_dropWhile]
            · simp [hblank]
            · intro d hd
              rw [Option.mem_def.1 hd] at h
              simpa using h
        · cases h
    · cases h
  · rintro ⟨blanks, rest, rfl, hsome, hblanks, hrest⟩
    obtain ⟨c, others, rfl⟩ := List.exists_cons_of_ne_nil hsome
    have hskip : Text.skipBlanks (c :: others ++ ("default".toList ++ rest)) = "default".toList ++ rest := by
      rw [EsModule.skipBlanks_append hblanks, EsModule.skipBlanks_word (by decide)]
    have hafter : Text.afterBlanks? (c :: others ++ ("default".toList ++ rest)) =
        some ("default".toList ++ rest) :=
      EsModule.afterBlanks?_eq_some.2 ⟨⟨c, rfl, hblanks c List.mem_cons_self⟩, hskip.symm⟩
    rw [Text.afterWord?_append, Option.bind_some, hafter]
    exact EsModule.startsWithWord_append hrest

/-- The words are looked for behind every mark that ends a comment. -/
theorem commentThenDefaultExport_iff : commentThenDefaultExport text = true ↔
    ∃ body blanks rest, text = body ++ ('*' :: '/' :: (blanks ++ rest)) ∧
      (∀ c ∈ blanks, Text.isBlank c = true) ∧ DefaultWords rest := by
  have hhere (rest : Text) : startsDefaultExport (Text.skipBlanks rest) = true ↔
      ∃ blanks more, rest = blanks ++ more ∧ (∀ c ∈ blanks, Text.isBlank c = true) ∧ DefaultWords more := by
    rw [startsDefaultExport_iff]
    constructor
    · intro hwords
      exact ⟨rest.takeWhile Text.isBlank, Text.skipBlanks rest, List.takeWhile_append_dropWhile.symm,
        fun c hc => List.mem_takeWhile_imp hc, hwords⟩
    · rintro ⟨blanks, more, rfl, hblanks, hwords⟩
      rwa [EsModule.skipBlanks_append hblanks, hwords.skipBlanks]
  fun_induction commentThenDefaultExport text with
  | case1 => simp
  | case2 rest ih =>
      rw [Bool.or_eq_true, hhere]
      refine (or_congr_right ih).trans ?_
      constructor
      · rintro (⟨blanks, more, rfl, hfound⟩ | ⟨body, blanks, more, htail, hfound⟩)
        · exact ⟨[], blanks, more, rfl, hfound⟩
        · exact ⟨'*' :: body, blanks, more, by rw [htail]; rfl, hfound⟩
      · rintro ⟨body, blanks, more, htext, hfound⟩
        cases body with
        | nil =>
            left
            simp only [List.nil_append, List.cons.injEq, true_and] at htext
            exact ⟨blanks, more, htext, hfound⟩
        | cons c body =>
            right
            exact ⟨body, blanks, more, (List.cons.inj htext).2, hfound⟩
  | case3 c rest hother ih =>
      refine Iff.trans ih ?_
      constructor
      · rintro ⟨body, blanks, more, rfl, hfound⟩
        exact ⟨c :: body, blanks, more, rfl, hfound⟩
      · rintro ⟨body, blanks, more, htext, hfound⟩
        cases body with
        | nil =>
            obtain ⟨rfl, rfl⟩ := List.cons.inj htext
            exact absurd rfl (hother _ rfl)
        | cons d body => exact ⟨body, blanks, more, (List.cons.inj htext).2, hfound⟩

theorem exists_defaultBehind_iff : (∃ body, DefaultBehind body text) ↔
    ∃ rest, Text.afterWord? "/**" text = some rest ∧ commentThenDefaultExport rest = true := by
  simp only [EsModule.afterWord?_eq_some, commentThenDefaultExport_iff]
  constructor
  · rintro ⟨body, blanks, rest, rfl, hfound⟩
    exact ⟨_, rfl, body, blanks, rest, rfl, hfound⟩
  · rintro ⟨_, rfl, body, blanks, rest, rfl, hfound⟩
    exact ⟨body, blanks, rest, rfl, hfound⟩

theorem isDefaultExport_iff_words {source : Text} {f : FunctionRecord} : isDefaultExport source f = true ↔
    OwnDefault (source.drop f.start.toNat) ∨ StrayDefault (source.drop f.start.toNat) := by
  have hboth : OwnDefault (source.drop f.start.toNat) ∨ StrayDefault (source.drop f.start.toNat) ↔
      DefaultWords (source.drop f.start.toNat) ∨ ∃ body, DefaultBehind body (source.drop f.start.toNat) := by
    unfold OwnDefault StrayDefault
    rw [or_assoc, ← exists_or]
    refine or_congr_right (exists_congr fun body => ?_)
    rw [← or_and_right]
    exact and_iff_right (em' _)
  rw [hboth, exists_defaultBehind_iff, isDefaultExport, Bool.or_eq_true, startsDefaultExport_iff]
  refine or_congr_right ?_
  cases Text.afterWord? "/**" (source.drop f.start.toNat) <;> simp

/-! ## Words of a function -/

theorem eq_of_first_close {body body' rest rest' : Text} (hbody : ¬ ['*', '/'] <:+: body ++ ['*'])
    (hbody' : ¬ ['*', '/'] <:+: body' ++ ['*']) (h : body ++ '*' :: '/' :: rest = body' ++ '*' :: '/' :: rest') :
    body = body' ∧ rest = rest' := by
  have hnot {body body' rest rest' : Text} (hbody' : ¬ ['*', '/'] <:+: body' ++ ['*'])
      (h : body ++ '*' :: '/' :: rest = body' ++ '*' :: '/' :: rest') : body'.length ≤ body.length := by
    by_contra! hlonger
    rcases List.append_eq_append_iff.1 h with ⟨more, rfl, hmore⟩ | ⟨more, rfl, -⟩
    · match more, hmore with
      | [], _ => simp at hlonger
      | [_], hmore => simp at hmore
      | _ :: _ :: more, hmore =>
          simp only [List.cons_append, List.cons.injEq] at hmore
          obtain ⟨rfl, rfl, -⟩ := hmore
          exact hbody' ⟨body, more ++ ['*'], by simp⟩
    · simp at hlonger
  have hle := hnot hbody' h
  have hge := hnot hbody h.symm
  obtain ⟨hsame, hrest⟩ := List.append_inj h (by omega)
  simp only [List.cons.injEq, true_and] at hrest
  exact ⟨hsame, hrest⟩

theorem ownDefault_doc_iff {body blanks : Text} (hbody : ¬ ['*', '/'] <:+: body ++ ['*'])
    (hblanks : ∀ c ∈ blanks, Text.isBlank c = true) (hhead : ∀ c ∈ rest.head?, Text.isBlank c = false) :
    OwnDefault ("/**".toList ++ (body ++ ("*/".toList ++ (blanks ++ rest)))) ↔ DefaultWords rest := by
  constructor
  · rintro (hwords | ⟨body', hbody', blanks', rest', htext, hblanks', hwords⟩)
    · cases hwords.head
    · have hclose : body ++ '*' :: '/' :: (blanks ++ rest) = body' ++ '*' :: '/' :: (blanks' ++ rest') :=
        List.append_cancel_left htext
      have hskip := congrArg Text.skipBlanks (eq_of_first_close hbody hbody' hclose).2
      rw [EsModule.skipBlanks_append hblanks, EsModule.skipBlanks_append hblanks',
        Text.skipBlanks_of_head hhead, hwords.skipBlanks] at hskip
      rwa [hskip]
  · exact fun hwords => Or.inr ⟨body, hbody, blanks, rest, rfl, hblanks, hwords⟩

theorem ownDefault_plain_iff (h : ¬ ['/', '*'] <+: text) : OwnDefault text ↔ DefaultWords text := by
  constructor
  · rintro (hwords | ⟨body, -, blanks, rest, rfl, -⟩)
    · exact hwords
    · exact absurd ⟨_, rfl⟩ h
  · exact Or.inl

theorem defaultWords_take_iff {n : Nat} (h : ∀ blanks, (∀ c ∈ blanks, Text.isBlank c = true) →
    "export".toList ++ (blanks ++ "default".toList) <+: text → blanks.length + 13 < n) :
    DefaultWords (text.take n) ↔ DefaultWords text := by
  have hlong (blanks : Text) : ("export".toList ++ (blanks ++ "default".toList)).length = blanks.length + 13 := by
    simp
  constructor
  · rintro ⟨blanks, rest, htake, hsome, hblanks, hrest⟩
    have hsplit := (List.take_append_drop n text).symm
    rw [htake] at hsplit
    simp only [List.append_assoc] at hsplit
    have hmore := h blanks hblanks ⟨rest ++ text.drop n, by simpa only [List.append_assoc] using hsplit.symm⟩
    refine ⟨blanks, rest ++ text.drop n, hsplit, hsome, hblanks, ?_⟩
    cases rest with
    | cons c rest => exact hrest
    | nil =>
        -- nothing follows the words
        have hlength := congrArg List.length htake
        rw [List.append_nil, hlong, List.length_take] at hlength
        rw [List.drop_eq_nil_of_le (by omega)]
        exact hrest
  · rintro ⟨blanks, rest, rfl, hsome, hblanks, hrest⟩
    have hmore := h blanks hblanks ⟨rest, by simp only [List.append_assoc]⟩
    obtain ⟨m, rfl⟩ : ∃ m, n = blanks.length + 13 + (m + 1) := ⟨n - (blanks.length + 14), by omega⟩
    refine ⟨blanks, rest.take (m + 1), ?_, hsome, hblanks, ?_⟩
    · have htake : (("export".toList ++ (blanks ++ "default".toList)) ++ rest).take
          (("export".toList ++ (blanks ++ "default".toList)).length + (m + 1)) =
            ("export".toList ++ (blanks ++ "default".toList)) ++ rest.take (m + 1) :=
        List.take_length_add_append _
      rw [hlong] at htake
      simpa only [List.append_assoc] using htake
    · cases rest with
      | nil => exact hrest
      | cons c rest => exact hrest

section Function

variable {reader : Reader} {program statement : Tree} {closureCalls : Bool} {f : FunctionRecord} {d : TopLevel.Declared}

/-- A record has the words of a default export where its function does. -/
theorem FunctionRecord.IsOf.ownDefault_iff (h : f.IsOf reader text program closureCalls statement d)
    (hplaced : program.Placed text) (hspelled : program.Spelled text) {stop : Nat} (hstart : d.stop ≤ stop)
    (hstop : stop ≤ text.length) :
    OwnDefault (text.slice f.start.toNat stop) ↔ DefaultWords (text.drop d.start) := by
  obtain ⟨hspan, -⟩ := TopLevel.functions_placed (hplaced.child h.child) h.declared
  obtain ⟨⟨c, hc, hblank⟩, hcomment⟩ := hspelled.begins statement h.child d h.declared
  have hwords : DefaultWords (text.slice d.start stop) ↔ DefaultWords (text.drop d.start) := by
    rw [Text.slice, List.drop_take]
    refine defaultWords_take_iff fun blanks hblanks hbegins => ?_
    have hinside := hspelled.defaults statement h.child d h.declared blanks hblanks hbegins
    omega
  rw [h.start_eq, ← hwords]
  cases hdoc : docCommentStart text d.start with
  | none =>
      rw [Option.getD_none]
      exact ownDefault_plain_iff fun hopens => hcomment (hopens.trans (Text.slice_prefix _ _ _))
  | some pos =>
      obtain ⟨hpos, body, blanks, hslice, hbody, hblanks⟩ :=
        docCommentStart_eq_some hdoc (hspan.trans (hstart.trans hstop))
      rw [Option.getD_some, ← Text.slice_append_slice hpos (hspan.trans hstart) hstop, hslice]
      simp only [List.append_assoc]
      refine ownDefault_doc_iff hbody hblanks fun c' hc' => ?_
      obtain ⟨more, hmore⟩ := Text.slice_prefix text d.start stop
      have hsame : (text.drop d.start).head? = some c' := by
        rw [← hmore, List.head?_append, Option.mem_def.1 hc', Option.some_or]
      rw [List.head?_drop, hc] at hsame
      obtain rfl := Option.some.inj hsame
      exact hblank

end Function

/-- A function is seen as a default export exactly if the words `export default` are at the head of its span, behind its
doc comment if it has one, or if it has a doc comment and the words stand behind the end of any later comment. -/
theorem isDefaultExport_iff {reader : Reader} {program : Tree} {text : Text} {path : String} {closureCalls : Bool}
    {analysis : Analysis}
    (hplaced : program.Placed text) (hspelled : program.Spelled text)
    (hrun : analyzeTree reader (some program) text path closureCalls = .ok analysis) {f : FunctionRecord}
    (hf : f ∈ analysis.facts.functions) : isDefaultExport text f = true ↔
      OwnDefault (text.slice f.start.toNat f.stop.toNat) ∨ StrayDefault (text.drop f.start.toNat) := by
  obtain ⟨statement, d, hof⟩ := exists_isOf hrun hf
  obtain ⟨-, hlimit⟩ := TopLevel.functions_placed (hplaced.child hof.child) hof.declared
  have hstop : d.stop ≤ text.length := hlimit.trans hplaced.bounds.2.2
  have hspan := validateEnd_bounds text ((docCommentStart text d.start).getD d.start) hstop (some reader.isProgram)
  have hend : f.stop.toNat = validateEnd text ((docCommentStart text d.start).getD d.start) d.stop (some reader.isProgram) := by
    obtain ⟨n, rfl⟩ := hof.record
    simp only [Candidate.record, Candidate.ofDeclared, Int.toNat_natCast]
  have hall : text.drop f.start.toNat = text.slice f.start.toNat text.length := by rw [Text.slice, List.take_length]
  rw [isDefaultExport_iff_words]
  refine or_congr_left ?_
  rw [hend, hof.ownDefault_iff hplaced hspelled hspan.1 hspan.2, hall,
    hof.ownDefault_iff hplaced hspelled hstop le_rfl]

/-- A function that is exported by a clause, and then as default as well. -/
def exportedTwice : Text :=
  "/** a */\nfunction f() \x7b\x7d\nexport \x7b f \x7d;\n/** b */\nexport default f;\n".toList

def exportedTwiceTree : Tree :=
  let leaf (kind : Kind) (role : Option Role) (start stop : Nat) (text : String) : Tree :=
    .node { kind, role, start, stop, text } []
  .node { kind := .program, role := none, start := 0, stop := 66, text := "" }
    [.node { kind := .functionDeclaration, role := none, start := 9, stop := 24, text := "" }
      [leaf .identifier (some .name) 18 19 "f", leaf .parameters (some .parameters) 19 21 "",
        leaf .block (some .body) 22 24 ""],
      .node { kind := .exportStatement, role := none, start := 25, stop := 38, text := "" }
        [.node { kind := .exportClause, role := none, start := 32, stop := 37, text := "" }
          [.node { kind := .exportSpecifier, role := none, start := 34, stop := 35, text := "" }
            [leaf .identifier (some .name) 34 35 "f"]]],
      .node { kind := .exportStatement, role := none, start := 48, stop := 65, text := "" }
        [leaf .keyword none 55 62 "default", leaf .identifier (some .value) 63 64 "f"]]

theorem functions_exportedTwice : ∃ function, exportedTwiceTree.children.flatMap TopLevel.functions =
    [⟨function, some "f", 9, 24, false⟩] :=
  ⟨_, rfl⟩

theorem spelled_exportedTwice : exportedTwiceTree.Spelled exportedTwice := by
  obtain ⟨function, hfunctions⟩ := functions_exportedTwice
  have hgap : ∀ c ∈ [' '], Text.isBlank c = true := List.forall_mem_singleton.2 (by decide)
  refine @spelled_of_single _ _ _ 'f' hfunctions rfl (by decide) (by decide) (by decide) fun s hs hexport => ?_
  rcases List.mem_cons.1 hs with rfl | hs
  · cases hexport
  · rcases List.mem_cons.1 hs with rfl | hs
    · exact ⟨32, '\x7b', by decide, by decide, hgap, rfl, by decide, nofun⟩
    · obtain rfl := List.mem_singleton.1 hs
      exact ⟨55, 'd', by decide, by decide, hgap, rfl, by decide, nofun⟩

/-- The words of the later export count as those of the function. -/
theorem isDefaultExport_exportedTwice : ∃ analysis f,
    analyzeTree .ofGrammar (some exportedTwiceTree) exportedTwice "exported.js" false = .ok analysis ∧
      analysis.facts.functions = [f] ∧ isDefaultExport exportedTwice f = true ∧
        ¬ OwnDefault (exportedTwice.slice f.start.toNat f.stop.toNat) ∧
          StrayDefault (exportedTwice.drop f.start.toNat) := by
  obtain ⟨function, hfunctions⟩ := functions_exportedTwice
  obtain ⟨analysis, hrun, -, hrecords⟩ :=
    @analyzeTree_of_single exportedTwice .ofGrammar _ false "exported.js" _ hfunctions
  have hplaced : exportedTwiceTree.Placed exportedTwice := Tree.within_of_liesWithin (by decide)
  generalize hf : Candidate.record 0 _ = f at hrecords
  have hdoc : docCommentStart exportedTwice 9 = some 0 := by decide +kernel
  have hend : validateEnd exportedTwice 0 24 (some (Reader.ofGrammar).isProgram) = 24 := by decide +kernel
  have hspan : f.start.toNat = 0 ∧ f.stop.toNat = 24 := by
    subst hf
    simp only [Candidate.record, Candidate.ofDeclared, hdoc, Option.getD_some, hend, Int.toNat_natCast]
    exact ⟨trivial, trivial⟩
  have hseen : isDefaultExport exportedTwice f = true := by
    rw [isDefaultExport, hspan.1]
    decide +kernel
  have hown : ¬ OwnDefault (exportedTwice.slice f.start.toNat f.stop.toNat) := by
    have hslice : exportedTwice.slice 0 24 = "/**".toList ++ (" a ".toList ++
        ("*/".toList ++ (['\n'] ++ "function f() \x7b\x7d".toList))) := rfl
    have hhead : ∀ c ∈ "function f() \x7b\x7d".toList.head?, Text.isBlank c = false := by
      intro c hc
      obtain rfl : 'f' = c := Option.some.inj hc
      decide
    rw [hspan.1, hspan.2, hslice, ownDefault_doc_iff (by decide) (List.forall_mem_singleton.2 (by decide)) hhead]
    exact fun hwords => absurd hwords.head (by decide)
  have hmem : f ∈ analysis.facts.functions := hrecords ▸ List.mem_cons_self
  have hboth := (isDefaultExport_iff hplaced spelled_exportedTwice hrun hmem).1 hseen
  exact ⟨analysis, f, hrun, hrecords, hseen, hown, hboth.resolve_left hown⟩

end ScriptSplit
