import ScriptSplit.Proofs.Facts.Reading
import ScriptSplit.Proofs.Run.Stored

/-!
# Corrupt facts

Whatever a directory holds, reading facts gives functions that stand at places of a text, or fails with an error in
the output of an earlier stage. There is one exception: a file of records whose bytes are no text, or whose name no
file can have. Only the files of one document are read with a check of that.
-/

namespace ScriptSplit

variable {α β : Type}

/-! ## Records that were accepted -/

theorem FunctionRecord.span_of_ofDoc {doc : Json} {f : FunctionRecord} (h : ofDoc doc = .ok f) :
    0 ≤ f.start ∧ f.start ≤ f.stop :=
  (ofDoc_eq_ok.1 h).ordered

theorem StoredFacts.exists_ofDoc {name what : String} {ofDoc : Json → Except ShapeFault α} {text : Text}
    {records : List α} (h : parseRecords name what ofDoc text = .ok records) {record : α}
    (hrecord : record ∈ records) : ∃ doc, ofDoc doc = .ok record := by
  obtain ⟨⟨n, line⟩, -, hline⟩ :=
    Refusable.exists_of_mem_right (Refusable.mapM_eq_ok.1 h) hrecord
  repeat' (split at hline <;> try contradiction)
  next hdoc =>
    cases hline
    exact ⟨_, hdoc⟩

namespace Storage

/-! ## Errors in the output of an earlier stage -/

/-- A task that fails in no other way than with an error in the output of an earlier stage. -/
def BlamesArtifact (task : Storage α) : Prop :=
  ∀ files cause after, task files = .error cause after → ∃ fault, cause = .artifact fault

namespace BlamesArtifact

theorem pure (a : α) : BlamesArtifact (Pure.pure a : Storage α) := by
  intro files cause after hrun
  cases hrun

theorem artifact (fault : ArtifactError) : BlamesArtifact (Storage.artifact fault : Storage α) := by
  intro files cause after hrun
  cases hrun
  exact ⟨fault, rfl⟩

theorem bind {task : Storage α} {next : α → Storage β} (htask : BlamesArtifact task)
    (hnext : ∀ a, BlamesArtifact (next a)) : BlamesArtifact (task >>= next) := by
  intro files cause after hrun
  rcases bind_eq_error.1 hrun with hfirst | ⟨a, between, -, hlast⟩
  · exact htask files cause after hfirst
  · exact hnext a between cause after hlast

theorem shaped (what : String) (read : Except ShapeFault α) : BlamesArtifact (Storage.shaped what read) := by
  cases read with
  | ok a => exact .pure a
  | error fault => exact .artifact _

theorem orArtifact (outcome : Except ArtifactError α) : BlamesArtifact (Storage.orArtifact outcome) := by
  cases outcome with
  | ok a => exact .pure a
  | error fault => exact .artifact fault

end BlamesArtifact

variable {directory path : Path} {files after : Files} {index : FactsIndex} {kind what : String}
  {ofDoc : Json → Except ShapeFault α} {cause : Failure}

theorem readDocument_blames (path : Path) (writer : Stage) : BlamesArtifact (readDocument path writer) := by
  intro files cause after hrun
  rcases (readText_readOnly path).attempt_bind_eq_error hrun with
    ⟨text, -, hrest⟩ | ⟨reason, hreason, hrest⟩
  · cases hdoc : Json.readDocument text with
    | ok doc =>
        simp only [hdoc] at hrest
        cases hrest
    | error refusal =>
        simp only [hdoc] at hrest
        exact BlamesArtifact.artifact _ _ _ _ hrest
  · rcases (readText_eq_error.1 hreason).2 with ⟨fault, -, rfl⟩ | ⟨content, fault, -, -, rfl⟩
    · simp only at hrest
      split at hrest <;> exact BlamesArtifact.artifact _ _ _ _ hrest
    · exact BlamesArtifact.artifact _ _ _ _ hrest

theorem readIndex_blames (directory : Path) : BlamesArtifact (readIndex directory) :=
  (readDocument_blames _ _).bind fun _ => .shaped _ _

theorem readTopLevel_blames (directory : Path) : BlamesArtifact (readTopLevel directory) := by
  have hfiles : BlamesArtifact Storage.files := by
    intro files cause after hrun
    cases hrun
  unfold readTopLevel
  refine hfiles.bind fun files => ?_
  split
  · refine (readDocument_blames _ _).bind fun doc => ?_
    cases doc with
    | object members => exact .shaped _ _
    | _ => exact .pure _
  · exact .pure _

/-! ## Records of one kind -/

def recordsOf (directory : Path) (index : FactsIndex) (kind what : String)
    (ofDoc : Json → Except ShapeFault α) : Storage (List α) := do
  readRecords (← shardPath directory index kind) what ofDoc

/-- Why the records of a kind cannot be taken for a text: the bytes of their file are none, or no file has a name
like theirs. -/
inductive Illegible (directory : Path) (files : Files) (index : FactsIndex) (kind : String) : Failure → Prop
  | bytes {shard : Shard} {content : Content} {cause : Utf8Error} (hshard : index.shard? kind = some shard)
      (hname : '\x00' ∉ shard.path.toList)
      (hfile : files.at? (directory / shard.path) = some (.file content))
      (hcause : content.decoded = .error cause) : Illegible directory files index kind (.undecodable cause)
  | name {shard : Shard} (hshard : index.shard? kind = some shard) (hname : '\x00' ∈ shard.path.toList) :
      Illegible directory files index kind (.nameless .nullCharacter)

theorem readRecords_eq_error (hrun : readRecords path what ofDoc files = .error cause after) :
    (∃ fault, cause = .artifact fault) ∨
      ∃ content reason, files.at? path = some (.file content) ∧ content.decoded = .error reason ∧
        cause = .undecodable reason := by
  rcases (readText_readOnly path).attempt_bind_eq_error hrun with
    ⟨text, -, hrest⟩ | ⟨reason, hreason, hrest⟩
  · exact Or.inl (BlamesArtifact.orArtifact _ _ _ _ hrest)
  · rcases (readText_eq_error.1 hreason).2 with ⟨fault, -, rfl⟩ | hbytes
    · simp only at hrest
      split at hrest
      · cases hrest
      · exact Or.inl (BlamesArtifact.artifact _ _ _ _ hrest)
    · obtain ⟨content, fault, hat, hdecoded, rfl⟩ := hbytes
      cases hrest
      exact Or.inr ⟨content, fault, hat, hdecoded, rfl⟩

theorem recordsOf_eq_error (hrun : recordsOf directory index kind what ofDoc files = .error cause after) :
    (∃ fault, cause = .artifact fault) ∨ Illegible directory files index kind cause := by
  unfold recordsOf shardPath at hrun
  cases hshard : index.shard? kind with
  | none =>
      rw [hshard] at hrun
      cases hrun
      exact Or.inl ⟨_, rfl⟩
  | some shard =>
      simp only [hshard] at hrun
      split at hrun
      · next hname =>
          cases hrun
          exact Or.inr (.name hshard hname)
      · next hname =>
          rw [pure_bind] at hrun
          rcases readRecords_eq_error hrun with hfault | ⟨content, reason, hat, hdecoded, rfl⟩
          · exact Or.inl hfault
          · exact Or.inr (.bytes hshard hname hat hdecoded)

theorem Illegible.recordsOf (h : Illegible directory files index kind cause) :
    Storage.recordsOf directory index kind what ofDoc files = .error cause files := by
  unfold Storage.recordsOf shardPath
  cases h with
  | bytes hshard hname hfile hcause =>
      have hread := readText_eq_error.2 ⟨rfl, Or.inr ⟨_, _, hfile, hcause, rfl⟩⟩
      simp only [hshard, if_neg hname, pure_bind]
      rw [readRecords, bind_eq (attempt_eq_error hread)]
      rfl
  | name hshard hname =>
      simp only [hshard, if_pos hname]
      rfl

theorem exists_ofDoc_of_recordsOf {records : List α}
    (hrun : recordsOf directory index kind what ofDoc files = .ok records after) {record : α}
    (hrecord : record ∈ records) : ∃ doc, ofDoc doc = .ok record := by
  obtain ⟨path, between, -, hread⟩ := bind_eq_ok.1 hrun
  obtain ⟨outcome, last, -, hrest⟩ := bind_eq_ok.1 hread
  split at hrest
  · next text =>
      cases hparse : StoredFacts.parseRecords path.name what ofDoc text with
      | error fault =>
          rw [hparse] at hrest
          cases hrest
      | ok found =>
          rw [hparse] at hrest
          cases hrest
          exact StoredFacts.exists_ofDoc hparse hrecord
  · split at hrest
    · cases hrest
      cases hrecord
    · cases hrest
  · cases hrest

/-! ## All facts -/

def functionsOf (directory : Path) (index : FactsIndex) : Storage (List FunctionRecord) := do
  let functions ← recordsOf directory index "functions" FunctionRecord.docName FunctionRecord.ofDoc
  if functions.isEmpty then artifact (.noFunctions directory) else return functions

theorem readFacts_eq (directory : Path) :
    readFacts directory = (do
      let index ← readIndex directory
      let functions ← functionsOf directory index
      let calls ← recordsOf directory index "calls" CallEdge.docName CallEdge.ofDoc
      let imports ← recordsOf directory index "imports" ImportRecord.docName ImportRecord.ofDoc
      let topLevel ← readTopLevel directory
      return { source := index.source, functions, calls, imports, topLevel }) := by
  simp only [readFacts, functionsOf, recordsOf, bind_assoc]
  refine bind_congr fun index => bind_congr fun path => bind_congr fun functions => ?_
  split <;> rfl

theorem functionsOf_eq_ok {functions : List FunctionRecord}
    (hrun : functionsOf directory index files = .ok functions after) :
    functions ≠ [] ∧ ∀ f ∈ functions, 0 ≤ f.start ∧ f.start ≤ f.stop := by
  obtain ⟨found, between, hfound, hrest⟩ := bind_eq_ok.1 hrun
  split at hrest
  · cases hrest
  · next hsome =>
      cases hrest
      refine ⟨fun hnil => hsome (List.isEmpty_iff.2 hnil), fun f hf => ?_⟩
      obtain ⟨doc, hdoc⟩ := exists_ofDoc_of_recordsOf hfound hf
      exact FunctionRecord.span_of_ofDoc hdoc

theorem functionsOf_eq_error (hrun : functionsOf directory index files = .error cause after) :
    (∃ fault, cause = .artifact fault) ∨ Illegible directory files index "functions" cause := by
  rcases bind_eq_error.1 hrun with hrecords | ⟨found, between, -, hrest⟩
  · exact recordsOf_eq_error hrecords
  · split at hrest
    · exact Or.inl (BlamesArtifact.artifact _ _ _ _ hrest)
    · cases hrest

theorem functions_of_readFacts {facts : Facts} (hrun : readFacts directory files = .ok facts after) :
    facts.functions ≠ [] ∧ ∀ f ∈ facts.functions, 0 ≤ f.start ∧ f.start ≤ f.stop := by
  rw [readFacts_eq] at hrun
  obtain ⟨index, _, -, hrun⟩ := bind_eq_ok.1 hrun
  obtain ⟨functions, _, hfunctions, hrun⟩ := bind_eq_ok.1 hrun
  obtain ⟨calls, _, -, hrun⟩ := bind_eq_ok.1 hrun
  obtain ⟨imports, _, -, hrun⟩ := bind_eq_ok.1 hrun
  obtain ⟨topLevel, _, -, hrun⟩ := bind_eq_ok.1 hrun
  cases hrun
  exact functionsOf_eq_ok hfunctions

/-- Whether the reader of facts comes to the records of a kind: the index can be read and all records before them. -/
inductive ComesTo (directory : Path) (files : Files) (index : FactsIndex) : String → Prop
  | functions (hindex : readIndex directory files = .ok index files) : ComesTo directory files index "functions"
  | calls {functions : List FunctionRecord} (hindex : readIndex directory files = .ok index files)
      (hfunctions : functionsOf directory index files = .ok functions files) :
      ComesTo directory files index "calls"
  | imports {functions : List FunctionRecord} {calls : List CallEdge}
      (hindex : readIndex directory files = .ok index files)
      (hfunctions : functionsOf directory index files = .ok functions files)
      (hcalls : recordsOf directory index "calls" CallEdge.docName CallEdge.ofDoc files = .ok calls files) :
      ComesTo directory files index "imports"

theorem recordsOf_readOnly (directory : Path) (index : FactsIndex) (kind what : String)
    (ofDoc : Json → Except ShapeFault α) : ReadOnly (recordsOf directory index kind what ofDoc) :=
  (shardPath_readOnly _ _ _).bind fun _ => readRecords_readOnly _ _ _

theorem functionsOf_readOnly (directory : Path) (index : FactsIndex) : ReadOnly (functionsOf directory index) := by
  refine (recordsOf_readOnly _ _ _ _ _).bind fun functions => ?_
  split
  · exact artifact_readOnly _
  · exact .pure _

/-- Reading facts fails because of what an earlier stage has left, or where it comes to records that cannot be taken
for a text. -/
theorem readFacts_eq_error (hrun : readFacts directory files = .error cause after) :
    (∃ fault, cause = .artifact fault) ∨
      ∃ index kind, ComesTo directory files index kind ∧ Illegible directory files index kind cause := by
  rw [readFacts_eq] at hrun
  rcases (readIndex_readOnly directory).bind_eq_error hrun with hindex | ⟨index, hindex, hrun⟩
  · exact Or.inl (readIndex_blames _ _ _ _ hindex)
  rcases (functionsOf_readOnly directory index).bind_eq_error hrun with hfails | ⟨functions, hfunctions, hrun⟩
  · exact (functionsOf_eq_error hfails).imp_right fun h => ⟨index, _, .functions hindex, h⟩
  rcases (recordsOf_readOnly directory index _ _ _).bind_eq_error hrun with hfails | ⟨calls, hcalls, hrun⟩
  · exact (recordsOf_eq_error hfails).imp_right fun h => ⟨index, _, .calls hindex hfunctions, h⟩
  rcases (recordsOf_readOnly directory index _ _ _).bind_eq_error hrun with hfails | ⟨imports, -, hrun⟩
  · exact (recordsOf_eq_error hfails).imp_right fun h => ⟨index, _, .imports hindex hfunctions hcalls, h⟩
  rcases (readTopLevel_readOnly directory).bind_eq_error hrun with hfails | ⟨topLevel, -, hrun⟩
  · exact Or.inl (readTopLevel_blames _ _ _ _ hfails)
  · cases hrun

/-- Records that cannot be taken for a text stop the reader that comes to them. -/
theorem ComesTo.readFacts (h : ComesTo directory files index kind)
    (hillegible : Illegible directory files index kind cause) :
    Storage.readFacts directory files = .error cause files := by
  rw [readFacts_eq]
  cases h with
  | functions hindex =>
      rw [bind_eq hindex, functionsOf, bind_assoc]
      exact bind_error hillegible.recordsOf
  | calls hindex hfunctions =>
      rw [bind_eq hindex, bind_eq hfunctions]
      exact bind_error hillegible.recordsOf
  | imports hindex hfunctions hcalls =>
      rw [bind_eq hindex, bind_eq hfunctions, bind_eq hcalls]
      exact bind_error hillegible.recordsOf

/-- Whatever a directory holds, reading its facts changes nothing. It gives at least one function and functions with
valid spans alone, or fails with an error in the output of an earlier stage, or else it has come to records that
cannot be taken for a text. These always stop it, and with another failure. Of the strings in the files, those that an
escape gives half of a surrogate pair are read with U+0000 in its place. -/
theorem readFacts_outcome (directory : Path) (files : Files) :
    (match Storage.readFacts directory files with
      | .ok facts after =>
        after = files ∧ facts.functions ≠ [] ∧ ∀ f ∈ facts.functions, 0 ≤ f.start ∧ f.start ≤ f.stop
      | .error cause after =>
        after = files ∧ ((∃ fault, cause = .artifact fault) ∨
          ∃ index kind, ComesTo directory files index kind ∧ Illegible directory files index kind cause)) ∧
    ∀ index kind cause, ComesTo directory files index kind → Illegible directory files index kind cause →
      Storage.readFacts directory files = .error cause files := by
  refine ⟨?_, fun index kind cause => ComesTo.readFacts⟩
  rcases readFacts_readOnly directory files with ⟨facts, hrun⟩ | ⟨cause, hrun⟩
  · rw [hrun]
    exact ⟨rfl, functions_of_readFacts hrun⟩
  · rw [hrun]
    exact ⟨rfl, readFacts_eq_error hrun⟩

end Storage

end ScriptSplit
