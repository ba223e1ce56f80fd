import ScriptSplit.Proofs.Facts.Storing
import ScriptSplit.Proofs.Run.Reread

/-!
# Facts come back from the files

Facts are written as six texts, each into a file of its own, so that no write disturbs what an earlier one has
left. Whatever the files were before, the six texts are there afterwards, and reading them gives the facts.
-/

namespace ScriptSplit

namespace Storage

variable {files after : Files}

/-! ## Several texts -/

structure StoredText where
  directory : Path
  name : String
  text : Text

namespace StoredText

def path (stored : StoredText) : Path :=
  stored.directory.child stored.name

/-- Writing one text leaves the file of another one as it is. -/
def SparedBy (current : Location) (stored other : StoredText) : Prop :=
  stored.path.place current ∉ touchedBy other.directory other.name current

def writeEach : List StoredText → Storage Unit
  | [] => pure ()
  | stored :: rest => do
    writeText stored.path stored.text
    writeEach rest

theorem writeText_path_eq_ok {stored : StoredText} (hname : stored.name ≠ "..")
    (hrun : writeText stored.path stored.text files = .ok () after) :
    Files.Changes (touchedBy stored.directory stored.name files.current)
        (stored.directory.way files.current) files after ∧
      after.textAt? stored.path = some stored.text := by
  have hchanges := writeText_changes stored.directory hname stored.text files
  rw [path] at hrun
  rw [hrun] at hchanges
  exact ⟨hchanges.1, Files.textAt?_of_at? hchanges.2⟩

/-- A text that is spared by all that are written later stays. -/
theorem writeEach_spares {all : List StoredText} (hnames : ∀ stored ∈ all, stored.name ≠ "..")
    {path : Path} {text : Text} (htext : files.textAt? path = some text)
    (hspared : ∀ other ∈ all,
      path.place files.current ∉ touchedBy other.directory other.name files.current)
    (hrun : writeEach all files = .ok () after) : after.textAt? path = some text := by
  induction all generalizing files with
  | nil =>
      cases hrun
      exact htext
  | cons stored rest ih =>
      obtain ⟨hname, hnames⟩ := List.forall_mem_cons.1 hnames
      obtain ⟨hfirst, hspared⟩ := List.forall_mem_cons.1 hspared
      obtain ⟨_, between, hwrite, hrest⟩ := bind_eq_ok.1 hrun
      obtain ⟨hchanges, -⟩ := writeText_path_eq_ok hname hwrite
      refine ih hnames (hchanges.textAt?_eq_some hfirst htext) ?_ hrest
      rw [hchanges.current]
      exact hspared

theorem writeEach_eq_ok {all : List StoredText} (hnames : ∀ stored ∈ all, stored.name ≠ "..")
    (hspared : all.Pairwise (SparedBy files.current)) (hrun : writeEach all files = .ok () after) :
    ∀ stored ∈ all, after.textAt? stored.path = some stored.text := by
  induction all generalizing files with
  | nil => simp
  | cons stored rest ih =>
      obtain ⟨hname, hnames⟩ := List.forall_mem_cons.1 hnames
      obtain ⟨hfirst, hspared⟩ := List.pairwise_cons.1 hspared
      obtain ⟨_, between, hwrite, hrest⟩ := bind_eq_ok.1 hrun
      obtain ⟨hchanges, htext⟩ := writeText_path_eq_ok hname hwrite
      rw [← hchanges.current] at hfirst hspared
      exact List.forall_mem_cons.2
        ⟨writeEach_spares hnames htext hfirst hrest, ih hnames hspared hrest⟩

end StoredText

end Storage

namespace StoredFacts

open Storage (StoredText)

/-- The texts that facts are stored as, in the order in which they are written. -/
def texts (directory : Path) (facts : Facts) : List StoredText :=
  let records (kind : String) (docs : List Json) : StoredText :=
    { directory := directory.child shardDirectory, name := kind ++ ".ndjson", text := recordLines docs }
  let document (name : String) (doc : Json) : StoredText :=
    { directory, name, text := doc.pretty.toList ++ ['\n'] }
  [records "functions" (facts.functions.map FunctionRecord.toDoc),
    records "imports" (facts.imports.map ImportRecord.toDoc),
    records "calls" (facts.calls.map CallEdge.toDoc),
    document namesFile (.object [("names", .ofStrings (Names.sort facts.topLevel))]),
    document countsFile (.object [("functions", .ofNat facts.functions.length),
      ("imports", .ofNat facts.imports.length)]),
    document indexFile facts.index.toDoc]

theorem texts_names (directory : Path) (facts : Facts) :
    ∀ stored ∈ texts directory facts, stored.name ≠ ".." := by
  simp only [texts, List.forall_mem_cons]
  decide

/-- No file of stored facts is in the way of another one. -/
theorem texts_spared (directory : Path) (facts : Facts) (current : Location) :
    (texts directory facts).Pairwise (StoredText.SparedBy current) := by
  have hshards : (directory.child shardDirectory).place current =
      directory.place current ++ [shardDirectory] := Path.place_child (by decide) current
  simp only [texts, List.pairwise_cons, List.forall_mem_cons, StoredText.SparedBy, StoredText.path,
    Storage.touchedBy, Storage.asideOf, Set.mem_insert_iff, Set.mem_singleton_iff, hshards,
    List.not_mem_nil, false_imp_iff, implies_true, List.Pairwise.nil, and_true]
  -- below the directory of the facts every file has a place that depends on its name alone
  simp (disch := decide) only [Path.place_child, hshards, List.append_assoc,
    List.append_cancel_left_eq]
  simp only [indexFile]
  decide

theorem writeFacts_eq (directory : Path) (facts : Facts) :
    Storage.writeFacts directory facts = (do
      StoredText.writeEach (texts directory facts)
      return facts.index) := by
  unfold Storage.writeFacts texts
  simp only [StoredText.writeEach, bind_assoc, pure_bind]
  rfl

end StoredFacts

namespace Storage

variable {α : Type} {directory : Path} {facts : Facts} {files after : Files}

/-! ## Reading what was written -/

theorem readRecords_eq {records : List α} {toDoc : α → Json}
    {ofDoc : Json → Except ShapeFault α} {stored : α → α} {path : Path}
    (hreadable : ∀ record ∈ records, (toDoc record).Readable)
    (hread : ∀ record ∈ records, ofDoc (toDoc record) = .ok (stored record))
    (htext : files.textAt? path = some (StoredFacts.recordLines (records.map toDoc)))
    (what : String) : readRecords path what ofDoc files = .ok (records.map stored) files := by
  have htext := readText_eq_ok.2 ⟨rfl, htext⟩
  rw [readRecords, bind_eq (attempt_eq_ok htext)]
  simp only [StoredFacts.parseRecords_recordLines hreadable hread]
  rfl

/-- The index of facts leads to the files of their records. -/
theorem shardPath_index (directory : Path) (facts : Facts) {kind : String}
    (hkind : kind ∈ StoredFacts.recordKinds) (files : Files) :
    shardPath directory facts.index kind files =
      .ok ((directory.child shardDirectory).child (kind ++ ".ndjson")) files := by
  obtain ⟨path, hpath⟩ : ∃ path, shardPath directory facts.index kind files = .ok path files := by
    simp only [StoredFacts.recordKinds, List.mem_cons, List.not_mem_nil, or_false] at hkind
    have hnull : '\x00' ∉ (shardDirectory ++ "/" ++ kind ++ ".ndjson").toList := by
      rcases hkind with rfl | rfl | rfl <;> decide
    rcases hkind with rfl | rfl | rfl <;> exact ⟨_, congrFun (if_neg hnull) files⟩
  rw [hpath, shardPath_eq facts.index_standard hkind hpath]

theorem readTopLevel_eq {names : List String}
    (htext : files.textAt? (directory.child StoredFacts.namesFile) =
      some ((Json.object [("names", .ofStrings names)]).pretty.toList ++ ['\n'])) :
    readTopLevel directory files = .ok names files := by
  have hname : Path.IsName StoredFacts.namesFile :=
    document_isName (by simp [StoredFacts.documents])
  have hreadable : (Json.object [("names", .ofStrings names)]).Readable :=
    .object _ (by simp) (List.forall_mem_singleton.2 (Plan.readable_ofStrings names))
  have hhas : files.has (directory / StoredFacts.namesFile) = true := by
    obtain ⟨content, hat, -⟩ := Files.exists_of_textAt? htext
    rw [Path.div_name _ hname, Files.has, hat]
    rfl
  have hnames : (Json.object [("names", .ofStrings names)]).stringList "names" = .ok names :=
    Json.stringList_eq_ok.2 (.inl (by simp [Json.member?, Table.get?_cons]))
  unfold readTopLevel
  rw [bind_eq (show Storage.files files = .ok files files from rfl), if_pos hhas,
    bind_eq (readDocument_eq hname hreadable htext)]
  simp only [hnames]
  rfl

theorem readIndex_of_texts (hprintable : facts.Printable)
    (htexts : ∀ stored ∈ StoredFacts.texts directory facts,
      files.textAt? stored.path = some stored.text) :
    readIndex directory files = .ok facts.index files := by
  simp only [StoredFacts.texts, List.forall_mem_cons, StoredText.path] at htexts
  obtain ⟨-, -, -, -, -, hindex, -⟩ := htexts
  rw [readIndex, bind_eq (readDocument_eq (document_isName (by simp [StoredFacts.documents]))
    hprintable.readable_index hindex), FactsIndex.ofDoc_toDoc]
  rfl

theorem readFacts_of_texts (hfunctions : facts.functions ≠ [])
    (hspans : ∀ f ∈ facts.functions, 0 ≤ f.start ∧ f.start ≤ f.stop) (hprintable : facts.Printable)
    (htexts : ∀ stored ∈ StoredFacts.texts directory facts,
      files.textAt? stored.path = some stored.text) :
    readFacts directory files = .ok facts.sorted files := by
  have hreadIndex := readIndex_of_texts hprintable htexts
  simp only [StoredFacts.texts, List.forall_mem_cons, StoredText.path] at htexts
  obtain ⟨hfunctionLines, himportLines, hcallLines, hnames, -⟩ := htexts
  have hreadFunctions := readRecords_eq
    (fun f hf => FunctionRecord.readable_toDoc (hspans f hf).1 (hspans f hf).2
      (hprintable.spans f hf))
    (fun f hf => FunctionRecord.ofDoc_toDoc (hspans f hf).1 (hspans f hf).2)
    hfunctionLines FunctionRecord.docName
  have hreadCalls := readRecords_eq (fun edge _ => CallEdge.readable_toDoc edge)
    (fun edge _ => CallEdge.ofDoc_toDoc edge) hcallLines CallEdge.docName
  have hreadImports := readRecords_eq (fun record _ => ImportRecord.readable_toDoc record)
    (fun record _ => ImportRecord.ofDoc_toDoc record) himportLines ImportRecord.docName
  have hsome : (facts.functions.map FunctionRecord.sorted).isEmpty = false := by
    simpa using hfunctions
  unfold readFacts
  rw [bind_eq hreadIndex,
    bind_eq (shardPath_index directory facts (by simp [StoredFacts.recordKinds]) files),
    bind_eq hreadFunctions, hsome]
  simp only [Bool.false_eq_true, if_false]
  rw [bind_eq (shardPath_index directory facts (by simp [StoredFacts.recordKinds]) files),
    bind_eq hreadCalls,
    bind_eq (shardPath_index directory facts (by simp [StoredFacts.recordKinds]) files),
    bind_eq hreadImports, bind_eq (readTopLevel_eq hnames), List.map_id', List.map_id']
  rfl

/-- What is written of facts is read as the same facts with their lists of names in order, whatever the
directory held before. -/
theorem readFacts_writeFacts {index : FactsIndex} (hfunctions : facts.functions ≠ [])
    (hspans : ∀ f ∈ facts.functions, 0 ≤ f.start ∧ f.start ≤ f.stop) (hprintable : facts.Printable)
    (hwritten : writeFacts directory facts files = .ok index after) :
    readFacts directory after = .ok facts.sorted after := by
  rw [StoredFacts.writeFacts_eq] at hwritten
  obtain ⟨_, between, hwrite, hreturn⟩ := bind_eq_ok.1 hwritten
  cases hreturn
  exact readFacts_of_texts hfunctions hspans hprintable (StoredText.writeEach_eq_ok
    (StoredFacts.texts_names directory facts) (StoredFacts.texts_spared directory facts _) hwrite)

/-- Facts whose texts hold separators, quotes, escapes and a character that needs two escapes. -/
def separatedFacts : Facts where
  source := "a\u2028b.js"
  functions := [{ id := "f\n0", name := "x\x1c\u2029\"y\\", start := 3, stop := 3, used := ["z", "a\r"] }]
  calls := [{ caller := "f\n0", callee := "\u0085\x0b" }]
  imports := [{ source := "./\x0c\x1f.js", named := ["b", "😀"], kind := "\x00" }]
  topLevel := ["y", "\x1d", "x"]

/-- A directory with an index that was cut off and a list of names that is no text. -/
def spoiledFacts : Files where
  entries := [(["facts"], .directory), (["facts", StoredFacts.indexFile], .file (.text ['\x7b'])),
    (["facts", StoredFacts.namesFile], .file (.raw [0xFF]))]

theorem separatedFacts_read_back : ∃ index after,
    writeFacts (Path.ofString "facts") separatedFacts spoiledFacts = .ok index after ∧
      readFacts (Path.ofString "facts") after = .ok separatedFacts.sorted after := by
  have hwritten : (match writeFacts (Path.ofString "facts") separatedFacts spoiledFacts with
      | .ok _ _ => true
      | .error _ _ => false) = true := by decide +kernel
  have hdigits {n : Nat} (hn : n < 10) : n < 10 ^ Json.maxDigits :=
    lt_of_lt_of_le hn (Nat.le_self_pow (by decide) 10)
  have hprintable : separatedFacts.Printable :=
    ⟨List.forall_mem_singleton.2 (hdigits (by decide)), hdigits (by decide), hdigits (by decide),
      hdigits (by decide)⟩
  cases hrun : writeFacts (Path.ofString "facts") separatedFacts spoiledFacts with
  | ok index after =>
      exact ⟨index, after, rfl, readFacts_writeFacts (by decide) (by decide) hprintable hrun⟩
  | error cause after =>
      rw [hrun] at hwritten
      cases hwritten

end Storage

end ScriptSplit
