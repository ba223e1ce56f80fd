import ScriptSplit.Proofs.Run.FactsRoundTrip

/-!
# Facts whose storing stops on the way

Each of the six texts of facts replaces its file as a whole, but the six files are replaced one by one. Where a
write fails, the files before it hold the new facts, the files after it the old ones. The index is written
last and says nothing about the other five, so that old and new records are read together.
-/

namespace ScriptSplit

/-- Facts of which the first `count` of the six files have been replaced by those of other facts. -/
def Facts.overwritten (old new : Facts) (count : Nat) : Facts where
  source := old.source
  functions := if 0 < count then new.sorted.functions else old.functions
  imports := if 1 < count then new.imports else old.imports
  calls := if 2 < count then new.calls else old.calls
  topLevel := if 3 < count then new.sorted.topLevel else old.topLevel

namespace Storage

variable {α : Type} {files before between after : Files} {cause : Failure} {directory : Path}

/-! ## Several texts -/

namespace StoredText

variable {all written rest : List StoredText} {stored : StoredText} {current : Location}

def Separate (current : Location) (stored other : StoredText) : Prop :=
  stored.SparedBy current other ∧ other.SparedBy current stored

/-- How files stand when the first of several texts are written and the rest are not. -/
structure Left (written rest : List StoredText) (before after : Files) : Prop where
  current : after.current = before.current
  standing : ∀ path, before.Standing path → after.Standing path
  holds : ∀ stored ∈ written, after.textAt? stored.path = some stored.text
  kept : ∀ stored ∈ rest,
    after.entry? (stored.path.place before.current) = before.entry? (stored.path.place before.current)

structure Writable (all : List StoredText) (files : Files) : Prop where
  names : ∀ stored ∈ all, stored.name ≠ ".."
  standing : ∀ stored ∈ all, files.Standing stored.directory
  separate : all.Pairwise (Separate files.current)

theorem left_start (all : List StoredText) (files : Files) : Left [] all files files :=
  ⟨rfl, fun _ h => h, by simp, fun _ _ => rfl⟩

theorem place_not_mem_aside (hname : stored.name ≠ "..") (current : Location) :
    stored.path.place current ∉ ({asideOf stored.directory stored.name current} : Set Location) := by
  rw [path, Path.place_child hname, asideOf, Set.mem_singleton_iff]
  simpa using Path.ne_temporaryName stored.name

namespace Left

variable (h : Left written (stored :: rest) before between)
  (hall : Writable (written ++ stored :: rest) before)

include h hall

/-- A write that fails leaves all files of the texts as they are. -/
theorem stop (hrun : writeText stored.path stored.text between = .error cause after) :
    Left written (stored :: rest) before after := by
  have hmem : stored ∈ written ++ stored :: rest := by simp
  have hwrite := writeText_standing_changes (h.standing _ (hall.standing stored hmem))
    (hall.names stored hmem) stored.text
  rw [show stored.directory.child stored.name = stored.path from rfl, hrun, h.current] at hwrite
  have haside : {asideOf stored.directory stored.name before.current} ⊆
      touchedBy stored.directory stored.name before.current :=
    Set.singleton_subset_iff.2 (Or.inr rfl)
  obtain ⟨-, happart, hcross⟩ := List.pairwise_append.1 hall.separate
  refine ⟨hwrite.current.trans h.current, fun path hpath => hwrite.standing (h.standing path hpath),
    fun other hother => ?_, fun other hother => ?_⟩
  · refine hwrite.textAt?_eq_some ?_ (h.holds other hother)
    rw [h.current]
    exact fun hplace => (hcross other hother stored (by simp)).1 (haside hplace)
  · rw [hwrite.entry?_eq ?_ (Set.notMem_empty _), h.kept other hother]
    rcases List.mem_cons.1 hother with rfl | hlater
    · exact place_not_mem_aside (hall.names other hmem) _
    · exact fun hplace => ((List.pairwise_cons.1 happart).1 other hlater).2 (haside hplace)

theorem step (hrun : writeText stored.path stored.text between = .ok () after) :
    Left (written ++ [stored]) rest before after := by
  have hmem : stored ∈ written ++ stored :: rest := by simp
  have hwrite := writeText_standing_changes (h.standing _ (hall.standing stored hmem))
    (hall.names stored hmem) stored.text
  rw [show stored.directory.child stored.name = stored.path from rfl, hrun, h.current] at hwrite
  obtain ⟨hchanges, hat⟩ := hwrite
  obtain ⟨-, happart, hcross⟩ := List.pairwise_append.1 hall.separate
  refine ⟨hchanges.current.trans h.current,
    fun path hpath => hchanges.standing (h.standing path hpath), fun other hother => ?_,
    fun other hother => ?_⟩
  · rcases List.mem_append.1 hother with hother | hother
    · refine hchanges.textAt?_eq_some ?_ (h.holds other hother)
      rw [h.current]
      exact (hcross other hother stored (by simp)).1
    · obtain rfl := List.mem_singleton.1 hother
      exact Files.textAt?_of_at? hat
  · rw [hchanges.entry?_eq ((List.pairwise_cons.1 happart).1 other hother).2 (Set.notMem_empty _)]
    exact h.kept other (List.mem_cons_of_mem _ hother)

end Left

/-- Writing texts that stops leaves the texts before the one that it stops at. -/
theorem writeEach_eq_error (hleft : Left written rest before between)
    (hall : Writable (written ++ rest) before)
    (hrun : writeEach rest between = .error cause after) :
    ∃ more stored later, rest = more ++ stored :: later ∧
      (∃ stopped, writeEach more between = .ok () stopped) ∧
      writeEach (more ++ [stored]) between = .error cause after ∧
      Left (written ++ more) (stored :: later) before after := by
  induction rest generalizing written between with
  | nil => cases hrun
  | cons stored rest ih =>
      cases hwrite : writeText stored.path stored.text between with
      | error cause' after' =>
          have hfirst : ∀ others, writeEach (stored :: others) between = .error cause' after' := by
            intro others
            change EStateM.bind (writeText stored.path stored.text) _ between = _
            simp only [EStateM.bind, hwrite]
          rw [hfirst] at hrun
          cases hrun
          refine ⟨[], stored, rest, rfl, ⟨between, rfl⟩, hfirst [], ?_⟩
          rw [List.append_nil]
          exact hleft.stop hall hwrite
      | ok _ next =>
          have hnext : ∀ others, writeEach (stored :: others) between = writeEach others next :=
            fun others => by rw [writeEach, bind_eq hwrite]
          rw [hnext] at hrun
          obtain ⟨more, failed, later, hsplit, hmore, hfailed, hleft'⟩ :=
            ih (hleft.step hall hwrite) (by simpa using hall) hrun
          refine ⟨stored :: more, failed, later, by rw [hsplit]; rfl, ?_, ?_, by simpa using hleft'⟩
          · rwa [hnext]
          · rwa [List.cons_append, hnext]

end StoredText

/-! ## The parts that facts are read from -/

def recordFile (directory : Path) (kind : String) : Path :=
  (directory.child shardDirectory).child (kind ++ ".ndjson")

/-- The parts of facts as they are read one by one. There may be no functions. -/
structure Parts (directory : Path) (facts : Facts) (files : Files) : Prop where
  index : ∃ index, readIndex directory files = .ok index files ∧ index.source = facts.source ∧
    ∀ kind ∈ StoredFacts.recordKinds,
      shardPath directory index kind = pure (recordFile directory kind)
  functions : readRecords (recordFile directory "functions") FunctionRecord.docName
    FunctionRecord.ofDoc files = .ok facts.functions files
  calls : readRecords (recordFile directory "calls") CallEdge.docName CallEdge.ofDoc files =
    .ok facts.calls files
  imports : readRecords (recordFile directory "imports") ImportRecord.docName ImportRecord.ofDoc
    files = .ok facts.imports files
  topLevel : readTopLevel directory files = .ok facts.topLevel files

theorem Parts.readFacts {facts : Facts} (h : Parts directory facts files) :
    Storage.readFacts directory files =
      if facts.functions.isEmpty then .error (.artifact (.noFunctions directory)) files
      else .ok facts files := by
  obtain ⟨index, hindex, hsource, hpaths⟩ := h.index
  unfold Storage.readFacts
  rw [bind_eq hindex, hpaths _ (by simp [StoredFacts.recordKinds]), pure_bind, bind_eq h.functions]
  cases facts.functions.isEmpty with
  | true => rfl
  | false =>
      simp only [Bool.false_eq_true, if_false]
      rw [hpaths _ (by simp [StoredFacts.recordKinds]), pure_bind, bind_eq h.calls,
        hpaths _ (by simp [StoredFacts.recordKinds]), pure_bind, bind_eq h.imports,
        bind_eq h.topLevel, hsource]
      rfl

theorem shardPath_eq_pure {index : FactsIndex} (hindex : index.Standard) {kind : String}
    (hkind : kind ∈ StoredFacts.recordKinds) {path : Path}
    (hpath : shardPath directory index kind files = .ok path files) :
    shardPath directory index kind = pure (recordFile directory kind) := by
  have heq := shardPath_eq hindex hkind hpath
  unfold shardPath at hpath ⊢
  cases hshard : index.shard? kind with
  | none =>
      simp only [hshard] at hpath
      exact absurd hpath artifact_ne_ok
  | some shard =>
      simp only [hshard] at hpath
      simp only
      split at hpath
      · cases hpath
      · cases hpath
        rw [if_neg ‹_›]
        exact congrArg pure heq

theorem parts_of_readFacts {facts : Facts} (hrun : readFacts directory files = .ok facts files)
    (hindex : ∀ index, readIndex directory files = .ok index files → index.Standard) :
    Parts directory facts files := by
  have hrecords : ∀ {α β : Type} {kind what : String} {ofDoc : Json → Except ShapeFault α}
      {next : List α → Storage β} {index : FactsIndex} {b : β}, index.Standard →
        kind ∈ StoredFacts.recordKinds →
          (shardPath directory index kind >>= fun path =>
            readRecords path what ofDoc >>= next) files = .ok b files →
              shardPath directory index kind = pure (recordFile directory kind) ∧
                ∃ records, readRecords (recordFile directory kind) what ofDoc files =
                    .ok records files ∧ next records files = .ok b files := by
    intro α β kind what ofDoc next index b hstandard hkind hends
    obtain ⟨path, hpath, -⟩ := (shardPath_readOnly directory index kind).bind_eq_ok hends
    have hpure := shardPath_eq_pure hstandard hkind hpath
    rw [hpure, pure_bind] at hends
    exact ⟨hpure, (readRecords_readOnly _ what ofDoc).bind_eq_ok hends⟩
  unfold readFacts at hrun
  obtain ⟨index, hread, hrun⟩ := (readIndex_readOnly directory).bind_eq_ok hrun
  have hstandard := hindex index hread
  obtain ⟨hfirst, functions, hfunctions, hrun⟩ :=
    hrecords hstandard (by simp [StoredFacts.recordKinds]) hrun
  cases functions with
  | nil => cases hrun
  | cons f functions =>
      simp only [List.isEmpty_cons, Bool.false_eq_true, if_false] at hrun
      obtain ⟨hsecond, calls, hcalls, hrun⟩ :=
        hrecords hstandard (by simp [StoredFacts.recordKinds]) hrun
      obtain ⟨hthird, imports, himports, hrun⟩ :=
        hrecords hstandard (by simp [StoredFacts.recordKinds]) hrun
      obtain ⟨topLevel, htopLevel, hrun⟩ := (readTopLevel_readOnly directory).bind_eq_ok hrun
      cases hrun
      refine ⟨⟨index, hread, rfl, ?_⟩, hfunctions, hcalls, himports, htopLevel⟩
      simpa [StoredFacts.recordKinds] using ⟨hfirst, hsecond, hthird⟩

/-! ## Reading what is left -/

section Left

open StoredText (Left)

variable {written rest : List StoredText} (h : Left written rest before after)

include h

theorem StoredText.Left.file {stored : StoredText} {k : Nat}
    (hk : (written ++ rest)[k]? = some stored) :
    k < written.length ∧ after.textAt? stored.path = some stored.text ∨
      ¬ k < written.length ∧ after.entry? (stored.path.place before.current) =
        before.entry? (stored.path.place before.current) := by
  by_cases hlt : k < written.length
  · rw [List.getElem?_append_left hlt] at hk
    exact Or.inl ⟨hlt, h.holds stored (List.mem_of_getElem? hk)⟩
  · rw [List.getElem?_append_right (Nat.le_of_not_lt hlt)] at hk
    exact Or.inr ⟨hlt, h.kept stored (List.mem_of_getElem? hk)⟩

theorem StoredText.Left.agrees (hdirectory : before.Standing directory) {name : String}
    (hname : name ≠ "..")
    (hentry : after.entry? ((directory.child name).place before.current) =
      before.entry? ((directory.child name).place before.current)) :
    Agrees (readText (directory.child name)) before after := by
  rw [Path.place_child hname] at hentry
  exact readText_agrees hdirectory (h.standing _ hdirectory) hname h.current hentry

theorem readRecords_left {old new : List α} {toDoc : α → Json} {stored : α → α}
    {ofDoc : Json → Except ShapeFault α} {what kind : String} {k : Nat}
    (hkind : kind ∈ StoredFacts.recordKinds)
    (hshards : before.Standing (directory.child shardDirectory))
    (hk : (written ++ rest)[k]? = some
      { directory := directory.child shardDirectory, name := kind ++ ".ndjson",
        text := StoredFacts.recordLines (new.map toDoc) })
    (hreadable : ∀ record ∈ new, (toDoc record).Readable)
    (hread : ∀ record ∈ new, ofDoc (toDoc record) = .ok (stored record))
    (hold : readRecords (recordFile directory kind) what ofDoc before = .ok old before) :
    readRecords (recordFile directory kind) what ofDoc after =
      .ok (if k < written.length then new.map stored else old) after := by
  rcases h.file hk with ⟨hlt, htext⟩ | ⟨hge, hentry⟩
  · rw [if_pos hlt]
    exact readRecords_eq hreadable hread htext what
  · rw [if_neg hge]
    exact (readRecords_agrees (h.agrees hshards (recordFile_isName hkind).notUp hentry)
      what ofDoc).eq_ok hold

theorem readTopLevel_left {old names : List String} {k : Nat} (hdirectory : before.Standing directory)
    (hk : (written ++ rest)[k]? = some
      { directory, name := StoredFacts.namesFile,
        text := (Json.object [("names", .ofStrings names)]).pretty.toList ++ ['\n'] })
    (hold : readTopLevel directory before = .ok old before) :
    readTopLevel directory after = .ok (if k < written.length then names else old) after := by
  have hname : StoredFacts.namesFile ∈ StoredFacts.documents := by simp [StoredFacts.documents]
  rcases h.file hk with ⟨hlt, htext⟩ | ⟨hge, hentry⟩
  · rw [if_pos hlt]
    exact readTopLevel_eq htext
  · rw [if_neg hge]
    exact (readTopLevel_agrees hdirectory (h.standing _ hdirectory) h.current
      (by rwa [StoredText.path, Path.place_child (document_isName hname).notUp] at hentry)).eq_ok hold

end Left

end Storage

namespace StoredFacts

open Storage (StoredText)

theorem texts_directories {directory : Path} {files : Files} (hdirectory : files.Standing directory)
    (hshards : files.Standing (directory.child shardDirectory)) (facts : Facts) :
    ∀ stored ∈ texts directory facts, files.Standing stored.directory := by
  simp only [texts, List.forall_mem_cons]
  exact ⟨hshards, hshards, hshards, hdirectory, hdirectory, hdirectory, by simp⟩

theorem texts_separate (directory : Path) (facts : Facts) (current : Location) :
    (texts directory facts).Pairwise (StoredText.Separate current) := by
  have hshards : (directory.child shardDirectory).place current =
      directory.place current ++ [shardDirectory] := Path.place_child (by decide) current
  refine (texts_spared directory facts current).and ?_
  simp only [texts, List.pairwise_cons, List.forall_mem_cons, StoredText.SparedBy, StoredText.path,
    Storage.touchedBy, Storage.asideOf, Set.mem_insert_iff, Set.mem_singleton_iff, hshards,
    List.not_mem_nil, false_imp_iff, implies_true, List.Pairwise.nil, and_true]
  simp (disch := decide) only [Path.place_child, hshards, List.append_assoc,
    List.append_cancel_left_eq]
  simp only [indexFile]
  decide

end StoredFacts

namespace Storage

open StoredFacts (texts)

variable {files after : Files} {cause : Failure} {directory : Path} {old new : Facts}

/-- Whether the first `count` texts of facts can be written, and the next one fails. -/
def StopsAt (directory : Path) (facts : Facts) (count : Nat) (files : Files) (cause : Failure)
    (after : Files) : Prop :=
  (∃ between, StoredText.writeEach ((texts directory facts).take count) files = .ok () between) ∧
    StoredText.writeEach ((texts directory facts).take (count + 1)) files = .error cause after

/-- Where the storing of new facts has failed, the parts of the old ones are there as far as their files have
not been reached. -/
theorem parts_of_stopped (hold : readFacts directory files = .ok old files)
    (hindex : ∀ index, readIndex directory files = .ok index files → index.Standard)
    (hspans : ∀ f ∈ new.functions, 0 ≤ f.start ∧ f.start ≤ f.stop) (hprintable : new.Printable)
    (hrun : writeFacts directory new files = .error cause after) :
    ∃ count < 6, StopsAt directory new count files cause after ∧
      Parts directory (old.overwritten new count) after := by
  have hstored := readFacts_stored hold hindex
  have hparts := parts_of_readFacts hold hindex
  have hstart : StoredText.Left [] (texts directory new) files files := StoredText.left_start _ files
  have hwritable : StoredText.Writable ([] ++ texts directory new) files :=
    ⟨StoredFacts.texts_names directory new,
      StoredFacts.texts_directories hstored.standing hstored.shards new,
      StoredFacts.texts_separate directory new files.current⟩
  have hwrite : StoredText.writeEach (texts directory new) files = .error cause after := by
    rw [StoredFacts.writeFacts_eq] at hrun
    cases hwrite : StoredText.writeEach (texts directory new) files with
    | ok _ between =>
        rw [bind_eq hwrite] at hrun
        cases hrun
    | error cause' between =>
        change EStateM.bind (StoredText.writeEach _) _ files = _ at hrun
        simp only [EStateM.bind, hwrite] at hrun
        cases hrun
        rfl
  obtain ⟨written, stored, later, hsplit, hwritten, hfailed, hleft⟩ :=
    StoredText.writeEach_eq_error hstart hwritable hwrite
  rw [List.nil_append] at hleft
  have hnumber : (texts directory new)[written.length]? = some stored := by simp [hsplit]
  have hcount : written.length < 6 := (List.getElem?_eq_some_iff.1 hnumber).1
  refine ⟨written.length, hcount, ⟨?_, ?_⟩, ?_⟩
  · rwa [hsplit, List.take_left]
  · rwa [List.take_add_one, hnumber, hsplit, List.take_left]
  have hpart : ∀ {k : Nat} {text : StoredText}, (texts directory new)[k]? = some text →
      (written ++ stored :: later)[k]? = some text := fun h => hsplit ▸ h
  constructor
  · -- the index is the last of the texts, so its file is as it was
    obtain ⟨index, hread, hsource, hpaths⟩ := hparts.index
    have hname : StoredFacts.indexFile ∈ StoredFacts.documents := by simp [StoredFacts.documents]
    refine ⟨index, ?_, hsource, hpaths⟩
    rcases hleft.file (hpart (k := 5) rfl) with ⟨hlt, -⟩ | ⟨-, hentry⟩
    · omega
    · have htext := hleft.agrees hstored.standing (document_isName hname).notUp hentry
      rw [← Path.div_name _ (document_isName hname)] at htext
      exact ((readDocument_agrees htext _).bind fun _ _ => shaped_agrees _ _).eq_ok hread
  · exact readRecords_left hleft (by simp [StoredFacts.recordKinds]) hstored.shards
      (hpart (k := 0) rfl)
      (fun f hf => FunctionRecord.readable_toDoc (hspans f hf).1 (hspans f hf).2
        (hprintable.spans f hf))
      (fun f hf => FunctionRecord.ofDoc_toDoc (hspans f hf).1 (hspans f hf).2) hparts.functions
  · have hcalls := readRecords_left hleft (by simp [StoredFacts.recordKinds]) hstored.shards
      (hpart (k := 2) rfl) (fun edge _ => CallEdge.readable_toDoc edge)
      (fun edge _ => CallEdge.ofDoc_toDoc edge) hparts.calls
    rwa [List.map_id'] at hcalls
  · have himports := readRecords_left hleft (by simp [StoredFacts.recordKinds]) hstored.shards
      (hpart (k := 1) rfl) (fun record _ => ImportRecord.readable_toDoc record)
      (fun record _ => ImportRecord.ofDoc_toDoc record) hparts.imports
    rwa [List.map_id'] at himports
  · exact readTopLevel_left hleft hstored.standing (hpart (k := 3) rfl) hparts.topLevel

/-- Where the storing of new facts over old ones fails, what is read afterwards has the parts of both: the
files before the failed one are new, the files after it old. Only if there are no functions in it does the
reading fail; and it gives back the old facts only if nothing of it has changed. -/
theorem readFacts_of_stopped (hold : readFacts directory files = .ok old files)
    (hindex : ∀ index, readIndex directory files = .ok index files → index.Standard)
    (hspans : ∀ f ∈ new.functions, 0 ≤ f.start ∧ f.start ≤ f.stop) (hprintable : new.Printable)
    (hrun : writeFacts directory new files = .error cause after) :
    ∃ count < 6, StopsAt directory new count files cause after ∧
      let found := old.overwritten new count
      (readFacts directory after =
        if found.functions.isEmpty then .error (.artifact (.noFunctions directory)) after
        else .ok found after) ∧
      ((readFacts directory after = .ok old after ∨
          ∃ cause, readFacts directory after = .error (.artifact cause) after) ↔
        found = old ∨ found.functions = []) := by
  obtain ⟨count, hcount, hstops, hparts⟩ := parts_of_stopped hold hindex hspans hprintable hrun
  refine ⟨count, hcount, hstops, hparts.readFacts, ?_⟩
  rw [hparts.readFacts]
  cases hfunctions : (old.overwritten new count).functions with
  | nil => simp
  | cons f functions =>
      simp only [List.isEmpty_cons, Bool.false_eq_true, if_false, EStateM.Result.ok.injEq, and_true,
        reduceCtorEq, exists_false, or_false]

def loneFacts (name : String) : Facts where
  source := name ++ ".js"
  functions := [{ id := "f0000", name, start := 0, stop := 20 }]
  calls := [{ caller := "f0000", callee := name }]
  topLevel := [name]

/-- Stored facts with a directory in the place where the imports are put together. -/
def obstructed (facts : Facts) : Files where
  entries := [(["facts"], .directory), (["facts", shardDirectory], .directory),
      (["facts", shardDirectory, Path.temporaryName "imports.ndjson"], .directory)] ++
    (texts (Path.ofString "facts") facts).map fun stored =>
      (stored.path.place [], .file (.text stored.text))

/-- The new function is read with the old calls. -/
theorem readFacts_of_obstructed : ∃ cause after,
    readFacts (Path.ofString "facts") (obstructed (loneFacts "first")) =
        .ok (loneFacts "first") (obstructed (loneFacts "first")) ∧
      writeFacts (Path.ofString "facts") (loneFacts "second") (obstructed (loneFacts "first")) =
        .error cause after ∧
      readFacts (Path.ofString "facts") after = .ok { loneFacts "first" with
        functions := (loneFacts "second").functions } after := by
  have hdigits {n : Nat} (hn : n < 10 ^ 2) : n < 10 ^ Json.maxDigits :=
    lt_of_lt_of_le hn (Nat.pow_le_pow_right (by decide) (by decide))
  have hprintable (name : String) : (loneFacts name).Printable :=
    ⟨List.forall_mem_singleton.2 (hdigits (n := 20) (by decide)), hdigits (n := 1) (by decide),
      hdigits (n := 1) (by decide), hdigits (n := 0) (by decide)⟩
  have hspans (name : String) : ∀ f ∈ (loneFacts name).functions, 0 ≤ f.start ∧ f.start ≤ f.stop :=
    List.forall_mem_singleton.2 ⟨le_refl 0, Int.natCast_nonneg 20⟩
  have htexts : ∀ stored ∈ texts (Path.ofString "facts") (loneFacts "first"),
      (obstructed (loneFacts "first")).textAt? stored.path = some stored.text := by
    simp only [texts, List.forall_mem_cons, List.not_mem_nil, false_imp_iff, implies_true, and_true]
    refine ⟨?_, ?_, ?_, ?_, ?_, ?_⟩ <;> rfl
  have hsorted (name : String) : (loneFacts name).sorted = loneFacts name := by
    simp [Facts.sorted, FunctionRecord.sorted, Names.sort, loneFacts]
  have hold := readFacts_of_texts (by decide) (hspans "first") (hprintable "first") htexts
  rw [hsorted] at hold
  have hindex : ∀ index, readIndex (Path.ofString "facts") (obstructed (loneFacts "first")) =
      .ok index (obstructed (loneFacts "first")) → index.Standard := by
    intro index hread
    rw [readIndex_of_texts (hprintable "first") htexts] at hread
    cases hread
    exact Facts.index_standard _
  have hreached : ∀ count < 7, ((StoredText.writeEach
      ((texts (Path.ofString "facts") (loneFacts "second")).take count)).run'
      (obstructed (loneFacts "first"))).isSome = decide (count < 2) := by decide +kernel
  cases hrun : writeFacts (Path.ofString "facts") (loneFacts "second")
      (obstructed (loneFacts "first")) with
  | ok index after =>
      have hall : (texts (Path.ofString "facts") (loneFacts "second")).take 6 =
        texts (Path.ofString "facts") (loneFacts "second") := List.take_of_length_le (le_refl 6)
      have hlast := hreached 6 (by decide)
      rw [StoredFacts.writeFacts_eq] at hrun
      obtain ⟨_, between, hwrite, -⟩ := bind_eq_ok.1 hrun
      rw [hall, EStateM.run', EStateM.run, hwrite] at hlast
      cases hlast
  | error cause after =>
      obtain ⟨count, hcount, ⟨⟨between, hwritten⟩, hfailed⟩, hread, -⟩ :=
        readFacts_of_stopped hold hindex (hspans "second") (hprintable "second") hrun
      have hlt := hreached count (by omega)
      have hge := hreached (count + 1) (by omega)
      rw [EStateM.run', EStateM.run, hwritten] at hlt
      rw [EStateM.run', EStateM.run, hfailed] at hge
      obtain rfl : count = 1 := by
        simp only [Option.isSome_some, Option.isSome_none, true_eq_decide_iff,
          false_eq_decide_iff] at hlt hge
        omega
      refine ⟨cause, after, hold, rfl, hread.trans ?_⟩
      simp only [Facts.overwritten, hsorted]
      rfl

end Storage

end ScriptSplit
