import Mathlib
import ScriptSplit.Proofs.Run.Stored

/-!
# Reading facts and plans again

Facts are read from six files at most. Where these are the same, the same facts are read, whatever else has
changed between.
-/

namespace ScriptSplit

/-! ## Where facts are stored -/

/-- Whether an index names the files that the analysis stores facts in. -/
def FactsIndex.Standard (index : FactsIndex) : Prop :=
  ∀ shard ∈ index.shards, shard.path = shardDirectory ++ "/" ++ shard.kind ++ ".ndjson"

instance (index : FactsIndex) : Decidable index.Standard :=
  inferInstanceAs (Decidable (∀ shard ∈ index.shards, _))

theorem Facts.index_standard (facts : Facts) : facts.index.Standard := by
  intro shard hshard
  simp only [Facts.index, List.mem_cons, List.not_mem_nil, or_false] at hshard
  rcases hshard with rfl | rfl | rfl <;> rfl

namespace StoredFacts

def documents : List String := [indexFile, namesFile]

def recordKinds : List String := ["functions", "calls", "imports"]

def places (directory : Path) (current : Location) : Set Location :=
  { location | (∃ name ∈ documents, location = directory.place current ++ [name]) ∨
    ∃ kind ∈ recordKinds,
      location = directory.place current ++ [shardDirectory] ++ [kind ++ ".ndjson"] }

end StoredFacts

namespace Storage

variable {α β : Type} {first again files : Files} {directory path : Path}

/-! ## What is read is the same -/

theorem Agrees.has {yes no : Storage α} (hsame : again.has path = first.has path)
    (hyes : Agrees yes first again) (hno : Agrees no first again) :
    Agrees (Storage.files >>= fun files => if files.has path = true then yes else no)
      first again := by
  unfold Agrees
  rw [bind_eq (show Storage.files first = .ok first first from rfl),
    bind_eq (show Storage.files again = .ok again again from rfl), hsame]
  split
  · exact hyes
  · exact hno

theorem artifact_agrees (cause : ArtifactError) : Agrees (artifact cause : Storage α) first again :=
  .throw _ _ _

theorem orArtifact_agrees (outcome : Except ArtifactError α) :
    Agrees (orArtifact outcome) first again := by
  cases outcome with
  | ok a => exact .pure a _ _
  | error cause => exact artifact_agrees cause

theorem shaped_agrees (what : String) (read : Except ShapeFault α) :
    Agrees (shaped what read) first again := by
  cases read with
  | ok a => exact .pure a _ _
  | error fault => exact artifact_agrees _

theorem readDocument_agrees (h : Agrees (readText path) first again) (writer : Stage) :
    Agrees (readDocument path writer) first again := by
  unfold readDocument
  apply h.attempt.bind
  intro outcome _
  split
  · split
    · exact .pure _ _ _
    · exact artifact_agrees _
  · split
    · exact artifact_agrees _
    · exact artifact_agrees _
  · exact artifact_agrees _
  · exact .throw _ _ _

theorem readRecords_agrees (h : Agrees (readText path) first again) (what : String)
    (ofDoc : Json → Except ShapeFault α) : Agrees (readRecords path what ofDoc) first again := by
  unfold readRecords
  apply h.attempt.bind
  intro outcome _
  split
  · exact orArtifact_agrees _
  · split
    · exact .pure _ _ _
    · exact artifact_agrees _
  · exact .throw _ _ _

/-! ## Plans -/

theorem planFile_isName : Path.IsName planFile :=
  ⟨by decide, by decide, by decide, by decide⟩

theorem readPlan_agrees (hfirst : first.Standing directory) (hagain : again.Standing directory)
    (hcurrent : again.current = first.current)
    (hentry : again.entry? (directory.place first.current ++ [planFile]) =
      first.entry? (directory.place first.current ++ [planFile])) :
    Agrees (readPlan directory) first again := by
  have htext := readText_agrees hfirst hagain planFile_isName.notUp hcurrent hentry
  rw [← Path.div_name _ planFile_isName] at htext
  unfold readPlan
  apply (readDocument_agrees htext _).bind
  intro doc _
  split
  · exact .pure _ _ _
  · exact .throw _ _ _

/-! ## Facts -/

theorem document_isName {name : String} (hname : name ∈ StoredFacts.documents) :
    Path.IsName name := by
  simp only [StoredFacts.documents, List.mem_cons, List.not_mem_nil, or_false] at hname
  rcases hname with rfl | rfl <;> exact ⟨by decide, by decide, by decide, by decide⟩

theorem recordFile_isName {kind : String} (hkind : kind ∈ StoredFacts.recordKinds) :
    Path.IsName (kind ++ ".ndjson") := by
  simp only [StoredFacts.recordKinds, List.mem_cons, List.not_mem_nil, or_false] at hkind
  rcases hkind with rfl | rfl | rfl <;> exact ⟨by decide, by decide, by decide, by decide⟩

theorem shardPath_eq {index : FactsIndex} (hindex : index.Standard) {kind : String}
    (hkind : kind ∈ StoredFacts.recordKinds) {path : Path}
    (hpath : shardPath directory index kind files = .ok path files) :
    path = (directory.child shardDirectory).child (kind ++ ".ndjson") := by
  unfold shardPath at hpath
  cases hshard : index.shard? kind with
  | none => simp [hshard, artifact, throw, throwThe, MonadExceptOf.throw, EStateM.throw] at hpath
  | some shard =>
      simp only [hshard] at hpath
      have hstart : path = directory / shard.path := by
        split at hpath
        · cases hpath
        · cases hpath
          rfl
      have hfound : shard.kind = kind := by simpa using List.find?_some hshard
      have hshardPath := hindex shard (List.mem_of_find?_eq_some hshard)
      rw [hstart, hshardPath, hfound]
      simp only [StoredFacts.recordKinds, List.mem_cons, List.not_mem_nil, or_false] at hkind
      have hparts : Path.ofString (shardDirectory ++ "/" ++ kind ++ ".ndjson") =
          { slashes := 0, parts := [shardDirectory, kind ++ ".ndjson"] } := by
        rcases hkind with rfl | rfl | rfl <;> decide
      show directory.join (Path.ofString _) = _
      rw [hparts]
      simp [Path.join, Path.isAbsolute, Path.child]

theorem shardPath_agrees (directory : Path) (index : FactsIndex) (kind : String) :
    Agrees (shardPath directory index kind) first again := by
  unfold shardPath
  split
  · split
    · exact .throw _ _ _
    · exact .pure _ _ _
  · exact artifact_agrees _

theorem readTopLevel_agrees (hfirst : first.Standing directory) (hagain : again.Standing directory)
    (hcurrent : again.current = first.current)
    (hentry : again.entry? (directory.place first.current ++ [StoredFacts.namesFile]) =
      first.entry? (directory.place first.current ++ [StoredFacts.namesFile])) :
    Agrees (readTopLevel directory) first again := by
  have hname : Path.IsName StoredFacts.namesFile :=
    document_isName (by simp [StoredFacts.documents])
  have htext := readText_agrees hfirst hagain hname.notUp hcurrent hentry
  have hhas : again.has (directory / StoredFacts.namesFile) =
      first.has (directory / StoredFacts.namesFile) := by
    rw [Path.div_name _ hname, Files.has, Files.has, hfirst.at?_child hname.notUp,
      hagain.at?_child hname.notUp, hcurrent, hentry]
  rw [← Path.div_name _ hname] at htext
  unfold readTopLevel
  apply Agrees.has hhas
  · apply (readDocument_agrees htext _).bind
    intro doc _
    split
    · exact shaped_agrees _ _
    · exact .pure _ _ _
  · exact .pure _ _ _

/-- Whether facts are stored alike in two states of the files. -/
structure FactsAlike (directory : Path) (first again : Files) : Prop where
  current : again.current = first.current
  standing : first.Standing directory ∧ again.Standing directory
  shards : first.Standing (directory.child shardDirectory) ∧
    again.Standing (directory.child shardDirectory)
  same : ∀ location ∈ StoredFacts.places directory first.current,
    again.entry? location = first.entry? location

namespace FactsAlike

variable (h : FactsAlike directory first again)

include h

theorem document_entry {name : String} (hname : name ∈ StoredFacts.documents) :
    again.entry? (directory.place first.current ++ [name]) =
      first.entry? (directory.place first.current ++ [name]) :=
  h.same _ (Or.inl ⟨name, hname, rfl⟩)

theorem document {name : String} (hname : name ∈ StoredFacts.documents) :
    Agrees (readText (directory / name)) first again := by
  rw [Path.div_name _ (document_isName hname)]
  exact readText_agrees h.standing.1 h.standing.2 (document_isName hname).notUp h.current
    (h.document_entry hname)

theorem records {kind : String} (hkind : kind ∈ StoredFacts.recordKinds) :
    Agrees (readText ((directory.child shardDirectory).child (kind ++ ".ndjson")))
      first again := by
  apply readText_agrees h.shards.1 h.shards.2 (recordFile_isName hkind).notUp h.current
  rw [Path.place_child (by decide)]
  exact h.same _ (Or.inr ⟨kind, hkind, rfl⟩)

theorem readIndex_agrees : Agrees (readIndex directory) first again :=
  (readDocument_agrees (h.document (by simp [StoredFacts.documents])) _).bind
    fun _ _ => shaped_agrees _ _

theorem readTopLevel_agrees : Agrees (readTopLevel directory) first again :=
  Storage.readTopLevel_agrees h.standing.1 h.standing.2 h.current
    (h.document_entry (by simp [StoredFacts.documents]))

theorem readFacts_agrees
    (hindex : ∀ index, readIndex directory first = .ok index first → index.Standard) :
    Agrees (readFacts directory) first again := by
  have hrecords : ∀ {α β : Type} (kind what : String) (ofDoc : Json → Except ShapeFault α)
      (next : List α → Storage β) (index : FactsIndex), index.Standard →
        kind ∈ StoredFacts.recordKinds → (∀ records, Agrees (next records) first again) →
          Agrees (shardPath directory index kind >>= fun path =>
            readRecords path what ofDoc >>= next) first again := by
    intro α β kind what ofDoc next index hstandard hkind hnext
    apply (shardPath_agrees directory index kind).bind
    intro path hpath
    obtain rfl := shardPath_eq hstandard hkind hpath
    exact (readRecords_agrees (h.records hkind) what ofDoc).bind fun records _ => hnext records
  unfold readFacts
  apply h.readIndex_agrees.bind
  intro index hread
  have hstandard := hindex index hread
  apply hrecords _ _ _ _ _ hstandard (by simp [StoredFacts.recordKinds])
  intro functions
  have hrest : Agrees (do
      let calls ← readRecords (← shardPath directory index "calls") CallEdge.docName CallEdge.ofDoc
      let imports ← readRecords (← shardPath directory index "imports")
        ImportRecord.docName ImportRecord.ofDoc
      let topLevel ← readTopLevel directory
      return ({ source := index.source, functions, calls, imports, topLevel } : Facts))
      first again := by
    apply hrecords _ _ _ _ _ hstandard (by simp [StoredFacts.recordKinds])
    intro calls
    apply hrecords _ _ _ _ _ hstandard (by simp [StoredFacts.recordKinds])
    intro imports
    apply h.readTopLevel_agrees.bind
    intro topLevel _
    exact .pure _ _ _
  split
  · exact (artifact_agrees _).bind fun _ _ => hrest
  · exact hrest

end FactsAlike

/-! ## What stands where facts have been read -/

theorem artifact_ne_ok {cause : ArtifactError} {a : α} {after : Files} :
    (artifact cause : Storage α) files ≠ .ok a after := by
  intro hrun
  cases hrun

theorem readDocument_eq_ok {writer : Stage} {doc : Json}
    (hrun : readDocument path writer files = .ok doc files) :
    ∃ text, readText path files = .ok text files := by
  unfold readDocument at hrun
  obtain ⟨outcome, houtcome, hrest⟩ := (readText_readOnly path).attempt.bind_eq_ok hrun
  rcases readText_readOnly path files with htext | ⟨cause, hcause⟩
  · exact htext
  · obtain rfl : outcome = .error cause := by
      simp only [attempt, hcause, EStateM.Result.ok.injEq, and_true] at houtcome
      exact houtcome.symm
    cases cause <;> simp only at hrest
    case system cause => split at hrest <;> exact absurd hrest artifact_ne_ok
    all_goals first
      | exact absurd hrest artifact_ne_ok
      | cases hrest

theorem readRecords_eq_ok {what : String} {ofDoc : Json → Except ShapeFault α} {records : List α}
    (hrun : readRecords path what ofDoc files = .ok records files) :
    (∃ text, readText path files = .ok text files) ∨
      records = [] ∧ ∃ cause, cause.kind = .notFound ∧
        readText path files = .error (.system cause) files := by
  unfold readRecords at hrun
  obtain ⟨outcome, houtcome, hrest⟩ := (readText_readOnly path).attempt.bind_eq_ok hrun
  rcases readText_readOnly path files with htext | ⟨cause, hcause⟩
  · exact Or.inl htext
  · obtain rfl : outcome = .error cause := by
      simp only [attempt, hcause, EStateM.Result.ok.injEq, and_true] at houtcome
      exact houtcome.symm
    cases cause with
    | system cause =>
        simp only at hrest
        split at hrest
        · next hkind =>
            cases hrest
            exact Or.inr ⟨rfl, cause, hkind, hcause⟩
        · exact absurd hrest artifact_ne_ok
    | _ => cases hrest

section Entries

variable {name : String} (hdirectory : files.Standing directory) (hname : name ≠ "..")

include hdirectory hname

theorem entry?_ne_directory {text : Text}
    (htext : readText (directory.child name) files = .ok text files) :
    files.entry? (directory.place files.current ++ [name]) ≠ some .directory := by
  intro hentry
  rw [readText_child hdirectory hname, hentry] at htext
  cases htext

theorem readRecords_entry {what : String} {ofDoc : Json → Except ShapeFault α} {records : List α}
    (hrun : readRecords (directory.child name) what ofDoc files = .ok records files) :
    files.entry? (directory.place files.current ++ [name]) ≠ some .directory := by
  rcases readRecords_eq_ok hrun with ⟨text, htext⟩ | ⟨-, cause, hkind, hcause⟩
  · exact entry?_ne_directory hdirectory hname htext
  · intro hentry
    rw [readText_child hdirectory hname, hentry] at hcause
    cases hcause
    cases hkind

end Entries

theorem standing_of_readText {name : String} {text : Text}
    (htext : readText (directory.child name) files = .ok text files) :
    files.Standing directory := by
  obtain ⟨content, hat, -⟩ := Files.exists_of_textAt? (readText_eq_ok.1 htext).2
  exact Files.standing_of_locate_child (Files.at?_eq_some.1 hat).1

theorem readIndex_entry {index : FactsIndex} (hdirectory : files.Standing directory)
    (hrun : readIndex directory files = .ok index files) :
    files.entry? (directory.place files.current ++ [StoredFacts.indexFile]) ≠ some .directory := by
  have hname : Path.IsName StoredFacts.indexFile :=
    document_isName (by simp [StoredFacts.documents])
  unfold readIndex at hrun
  obtain ⟨doc, hdoc, -⟩ := (readDocument_readOnly _ _).bind_eq_ok hrun
  obtain ⟨text, htext⟩ := readDocument_eq_ok hdoc
  rw [Path.div_name _ hname] at htext
  exact entry?_ne_directory hdirectory hname.notUp htext

theorem readTopLevel_entry {names : List String} (hdirectory : files.Standing directory)
    (hrun : readTopLevel directory files = .ok names files) :
    files.entry? (directory.place files.current ++ [StoredFacts.namesFile]) ≠ some .directory := by
  have hname : Path.IsName StoredFacts.namesFile :=
    document_isName (by simp [StoredFacts.documents])
  intro hentry
  have hhas : files.has (directory / StoredFacts.namesFile) = true := by
    rw [Path.div_name _ hname, Files.has, hdirectory.at?_child hname.notUp, hentry]
    rfl
  unfold readTopLevel at hrun
  rw [bind_eq (show Storage.files files = .ok files files from rfl), if_pos hhas] at hrun
  obtain ⟨doc, hdoc, -⟩ := (readDocument_readOnly _ _).bind_eq_ok hrun
  obtain ⟨text, htext⟩ := readDocument_eq_ok hdoc
  rw [Path.div_name _ hname] at htext
  exact entry?_ne_directory hdirectory hname.notUp htext hentry

structure FactsStored (directory : Path) (files : Files) : Prop where
  standing : files.Standing directory
  shards : files.Standing (directory.child shardDirectory)
  file : ∀ location ∈ StoredFacts.places directory files.current,
    files.entry? location ≠ some .directory

theorem readFacts_stored {facts : Facts} (hrun : readFacts directory files = .ok facts files)
    (hindex : ∀ index, readIndex directory files = .ok index files → index.Standard) :
    FactsStored directory files := by
  have hrecords : ∀ {α β : Type} {kind what : String} {ofDoc : Json → Except ShapeFault α}
      {next : List α → Storage β} {index : FactsIndex} {b : β}, index.Standard →
        kind ∈ StoredFacts.recordKinds →
          (shardPath directory index kind >>= fun path =>
            readRecords path what ofDoc >>= next) files = .ok b files →
              ∃ records, readRecords ((directory.child shardDirectory).child (kind ++ ".ndjson"))
                what ofDoc files = .ok records files ∧ next records files = .ok b files := by
    intro α β kind what ofDoc next index b hstandard hkind hends
    obtain ⟨path, hpath, hrest⟩ := (shardPath_readOnly directory index kind).bind_eq_ok hends
    obtain rfl := shardPath_eq hstandard hkind hpath
    exact (readRecords_readOnly _ what ofDoc).bind_eq_ok hrest
  unfold readFacts at hrun
  obtain ⟨index, hread, hrun⟩ := (readIndex_readOnly directory).bind_eq_ok hrun
  have hstandard := hindex index hread
  obtain ⟨functions, hfunctions, hrun⟩ := hrecords hstandard (by simp [StoredFacts.recordKinds]) hrun
  cases functions with
  | nil => cases hrun
  | cons f functions =>
      simp only [List.isEmpty_cons, Bool.false_eq_true, if_false] at hrun
      obtain ⟨calls, hcalls, hrun⟩ := hrecords hstandard (by simp [StoredFacts.recordKinds]) hrun
      obtain ⟨imports, himports, hrun⟩ :=
        hrecords hstandard (by simp [StoredFacts.recordKinds]) hrun
      obtain ⟨topLevel, htopLevel, -⟩ := (readTopLevel_readOnly directory).bind_eq_ok hrun
      have hshards : files.Standing (directory.child shardDirectory) := by
        rcases readRecords_eq_ok hfunctions with ⟨text, htext⟩ | ⟨hnil, -⟩
        · exact standing_of_readText htext
        · cases hnil
      have hstanding : files.Standing directory :=
        Files.standing_of_locate_child (Files.at?_eq_some.1 hshards).1
      have hkinds : ∀ kind ∈ StoredFacts.recordKinds,
          files.entry? (directory.place files.current ++ [shardDirectory] ++ [kind ++ ".ndjson"]) ≠
            some .directory := by
        have hplace : (directory.child shardDirectory).place files.current =
            directory.place files.current ++ [shardDirectory] := Path.place_child (by decide) _
        rw [← hplace]
        intro kind hkind
        have hname := (recordFile_isName hkind).notUp
        simp only [StoredFacts.recordKinds, List.mem_cons, List.not_mem_nil, or_false] at hkind
        rcases hkind with rfl | rfl | rfl
        · exact readRecords_entry hshards hname hfunctions
        · exact readRecords_entry hshards hname hcalls
        · exact readRecords_entry hshards hname himports
      refine ⟨hstanding, hshards, ?_⟩
      rintro location (⟨name, hname, rfl⟩ | ⟨kind, hkind, rfl⟩)
      · simp only [StoredFacts.documents, List.mem_cons, List.not_mem_nil, or_false] at hname
        rcases hname with rfl | rfl
        · exact readIndex_entry hstanding hread
        · exact readTopLevel_entry hstanding htopLevel
      · exact hkinds kind hkind

theorem readPlan_eq_ok {plan : Plan} (hrun : readPlan directory files = .ok plan files) :
    ∃ text, readText (directory.child planFile) files = .ok text files := by
  unfold readPlan at hrun
  obtain ⟨doc, hdoc, -⟩ := (readDocument_readOnly _ _).bind_eq_ok hrun
  rw [← Path.div_name _ planFile_isName]
  exact readDocument_eq_ok hdoc

theorem standing_of_readPlan {plan : Plan} (hrun : readPlan directory files = .ok plan files) :
    files.Standing directory := by
  obtain ⟨text, htext⟩ := readPlan_eq_ok hrun
  exact standing_of_readText htext

/-! ## Reading after changes -/

theorem FactsAlike.changes {last : Files} {touched made : Set Location}
    (h : FactsAlike directory first again) (hchanges : Files.Changes touched made again last)
    (htouched : ∀ location ∈ StoredFacts.places directory first.current, location ∉ touched)
    (hmade : ∀ location ∈ StoredFacts.places directory first.current, location ∉ made) :
    FactsAlike directory first last where
  current := hchanges.current.trans h.current
  standing := ⟨h.standing.1, hchanges.standing h.standing.2⟩
  shards := ⟨h.shards.1, hchanges.standing h.shards.2⟩
  same location hlocation := by
    rw [hchanges.entry?_eq (htouched location hlocation) (hmade location hlocation)]
    exact h.same location hlocation

section Changes

variable {touched made : Set Location} (hchanges : Files.Changes touched made first again)

include hchanges

theorem readText_after {name : String} (hname : name ≠ "..") {text : Text}
    (hrun : readText (directory.child name) first = .ok text first)
    (htouched : directory.place first.current ++ [name] ∉ touched) :
    readText (directory.child name) again = .ok text again := by
  have hstanding := standing_of_readText hrun
  obtain ⟨content, hat, -⟩ := Files.exists_of_textAt? (readText_eq_ok.1 hrun).2
  have hentry := (Files.at?_child_eq_some hname hat).2
  apply (readText_agrees hstanding (hchanges.standing hstanding) hname hchanges.current ?_).eq_ok hrun
  rw [hentry]
  exact hchanges.entry?_eq_some htouched hentry

/-- A plan is read again unless its file is touched. -/
theorem readPlan_after {plan : Plan} (hrun : readPlan directory first = .ok plan first)
    (htouched : directory.place first.current ++ [planFile] ∉ touched) :
    readPlan directory again = .ok plan again := by
  obtain ⟨text, htext⟩ := readPlan_eq_ok hrun
  have hstanding := standing_of_readText htext
  obtain ⟨content, hat, -⟩ := Files.exists_of_textAt? (readText_eq_ok.1 htext).2
  have hentry := (Files.at?_child_eq_some planFile_isName.notUp hat).2
  apply (readPlan_agrees hstanding (hchanges.standing hstanding) hchanges.current ?_).eq_ok hrun
  rw [hentry]
  exact hchanges.entry?_eq_some htouched hentry

variable (htouched : ∀ location ∈ StoredFacts.places directory first.current, location ∉ touched)

include htouched

theorem FactsStored.alike (h : FactsStored directory first)
    (hfile : ∀ location ∈ StoredFacts.places directory first.current,
      again.entry? location ≠ some .directory) : FactsAlike directory first again where
  current := hchanges.current
  standing := ⟨h.standing, hchanges.standing h.standing⟩
  shards := ⟨h.shards, hchanges.standing h.shards⟩
  same location hlocation := by
    rcases hchanges.kept location (htouched location hlocation) with hsame | ⟨-, hdirectory, -⟩
    · exact hsame
    · exact absurd hdirectory (hfile location hlocation)

/-- Two reads that both succeed find the same facts unless a file of theirs is touched between. -/
theorem readFacts_after {facts found : Facts} (hrun : readFacts directory first = .ok facts first)
    (hagain : readFacts directory again = .ok found again)
    (hindex : ∀ index, readIndex directory first = .ok index first → index.Standard) :
    found = facts ∧ FactsAlike directory first again := by
  have hstored := readFacts_stored hrun hindex
  have hdocument : StoredFacts.indexFile ∈ StoredFacts.documents := by simp [StoredFacts.documents]
  have hname := document_isName hdocument
  have hindexAgain : ∀ index, readIndex directory again = .ok index again → index.Standard := by
    intro index hread
    obtain ⟨index', hread', -⟩ := (readIndex_readOnly directory).bind_eq_ok hrun
    unfold readIndex at hread'
    obtain ⟨doc, hdoc, -⟩ := (readDocument_readOnly _ _).bind_eq_ok hread'
    obtain ⟨text, htext⟩ := readDocument_eq_ok hdoc
    rw [Path.div_name _ hname] at htext
    have htextAgain := readText_after hchanges hname.notUp htext
      (htouched _ (Or.inl ⟨_, hdocument, rfl⟩))
    have hagrees : Agrees (readText (directory / StoredFacts.indexFile)) first again := by
      rw [Path.div_name _ hname]
      exact Or.inl ⟨text, htext, htextAgain⟩
    have hsame : Agrees (readIndex directory) first again :=
      (readDocument_agrees hagrees _).bind fun _ _ => shaped_agrees _ _
    rcases hsame with ⟨index'', hfirst, hlast⟩ | ⟨cause, -, hlast⟩
    · rw [hread] at hlast
      cases hlast
      exact hindex index hfirst
    · rw [hread] at hlast
      cases hlast
  have hstoredAgain := readFacts_stored hagain hindexAgain
  have halike : FactsAlike directory first again := by
    apply hstored.alike hchanges htouched
    rw [← hchanges.current]
    exact hstoredAgain.file
  refine ⟨?_, halike⟩
  have heq := (halike.readFacts_agrees hindex).eq_ok hrun
  rw [hagain] at heq
  cases heq
  rfl

end Changes

end Storage

end ScriptSplit
