import ScriptSplit.Proofs.Files.Change
import ScriptSplit.Proofs.Path.Names
import ScriptSplit.Proofs.Run.Meets

/-!
# What tasks on files do

Reading changes nothing. Writing a text touches its file and the temporary beside it.
-/

namespace ScriptSplit

def Files.textAt? (files : Files) (path : Path) : Option Text :=
  match files.at? path with
  | some (.file content) => content.decoded.toOption
  | _ => none

theorem Files.read_eq_ok {files : Files} {path : Path} {content : Content} :
    files.read path = .ok content ↔ files.at? path = some (.file content) := by
  unfold Files.read Files.at?
  cases files.locate path with
  | error kind => simp
  | ok location =>
      simp only
      cases files.entry? location with
      | none => simp
      | some entry => cases entry <;> simp

theorem Files.textAt?_of_at? {files : Files} {path : Path} {text : Text}
    (hat : files.at? path = some (.file (.text text))) : files.textAt? path = some text := by
  rw [textAt?, hat]
  rfl

theorem Files.exists_of_textAt? {files : Files} {path : Path} {text : Text}
    (h : files.textAt? path = some text) :
    ∃ content, files.at? path = some (.file content) ∧ content.decoded = .ok text := by
  unfold textAt? at h
  split at h
  · next content hat =>
      refine ⟨content, hat, ?_⟩
      cases hdecoded : content.decoded with
      | error cause => simp [hdecoded, Except.toOption] at h
      | ok text' =>
          simp only [hdecoded, Except.toOption, Option.some.injEq] at h
          rw [h]
  · cases h

theorem Files.Changes.textAt?_eq_some {touched made : Set Location} {before after : Files}
    {path : Path} {text : Text} (h : Changes touched made before after)
    (hpath : path.place before.current ∉ touched) (htext : before.textAt? path = some text) :
    after.textAt? path = some text := by
  obtain ⟨content, hat, hdecoded⟩ := exists_of_textAt? htext
  rw [textAt?, h.at?_eq_some hpath hat]
  simp [hdecoded, Except.toOption]

namespace Storage

variable {α β : Type}

theorem temporary_child (directory : Path) (name : String) :
    temporary (directory.child name) = directory.child (Path.temporaryName name) := by
  simp [temporary, Path.extended, Path.child, Path.name, Path.temporaryName]

theorem temporaryName_ne_up (name : String) : Path.temporaryName name ≠ ".." := by
  intro heq
  have hlength := congrArg String.length heq
  have hending : (".tmp" : String).length = 4 := by decide
  have hup : (".." : String).length = 2 := by decide
  rw [Path.temporaryName, String.length_append] at hlength
  omega

theorem bind_eq {task : Storage α} {next : α → Storage β} {a : α} {files after : Files}
    (h : task files = .ok a after) : (task >>= next) files = next a after := by
  show EStateM.bind task next files = _
  simp only [EStateM.bind, h]

theorem bind_error {task : Storage α} {next : α → Storage β} {cause : Failure} {files after : Files}
    (h : task files = .error cause after) : (task >>= next) files = .error cause after := by
  show EStateM.bind task next files = _
  simp only [EStateM.bind, h]

theorem bind_eq_ok {task : Storage α} {next : α → Storage β} {b : β} {files after : Files} :
    (task >>= next) files = .ok b after ↔
      ∃ a between, task files = .ok a between ∧ next a between = .ok b after := by
  cases hrun : task files with
  | ok a between => simp [bind_eq hrun]
  | error cause failed => simp [bind_error hrun]

theorem bind_eq_error {task : Storage α} {next : α → Storage β} {cause : Failure} {files after : Files} :
    (task >>= next) files = .error cause after ↔
      task files = .error cause after ∨
        ∃ a between, task files = .ok a between ∧ next a between = .error cause after := by
  cases hrun : task files with
  | ok a between => simp [bind_eq hrun]
  | error cause failed => simp [bind_error hrun]

/-! ## Reading -/

def ReadOnly (task : Storage α) : Prop :=
  ∀ files, (∃ a, task files = .ok a files) ∨ ∃ cause, task files = .error cause files

theorem ReadOnly.meets {task : Storage α} (h : ReadOnly task) (before : Files → Prop) :
    Meets before task (fun _ => before) before := by
  constructor
  intro files hfiles
  rcases h files with ⟨a, hrun⟩ | ⟨cause, hrun⟩
  · rw [hrun]; exact hfiles
  · rw [hrun]; exact hfiles

def filesAfter (task : Storage α) (files : Files) : Files :=
  match task files with
  | .ok _ files => files
  | .error _ files => files

theorem ReadOnly.filesAfter {task : Storage α} (h : ReadOnly task) (files : Files) :
    Storage.filesAfter task files = files := by
  unfold Storage.filesAfter
  rcases h files with ⟨a, hrun⟩ | ⟨cause, hrun⟩ <;> rw [hrun]

theorem ReadOnly.pure (a : α) : ReadOnly (pure a : Storage α) :=
  fun _ => Or.inl ⟨a, rfl⟩

theorem ReadOnly.throw (cause : Failure) : ReadOnly (throw cause : Storage α) :=
  fun _ => Or.inr ⟨cause, rfl⟩

theorem ReadOnly.files : ReadOnly Storage.files :=
  fun files => Or.inl ⟨files, rfl⟩

theorem ReadOnly.bind {task : Storage α} {next : α → Storage β} (htask : ReadOnly task)
    (hnext : ∀ a, ReadOnly (next a)) : ReadOnly (task >>= next) := by
  intro files
  rcases htask files with ⟨a, hrun⟩ | ⟨cause, hrun⟩
  · rw [bind_eq hrun]
    exact hnext a files
  · exact Or.inr ⟨cause, bind_error hrun⟩

theorem ReadOnly.bind_eq_ok {task : Storage α} {next : α → Storage β} {b : β} {files after : Files}
    (htask : ReadOnly task) (hrun : (task >>= next) files = .ok b after) :
    ∃ a, task files = .ok a files ∧ next a files = .ok b after := by
  rcases htask files with ⟨a, hfirst⟩ | ⟨cause, hfirst⟩
  · rw [bind_eq hfirst] at hrun
    exact ⟨a, hfirst, hrun⟩
  · rw [bind_error hfirst] at hrun
    cases hrun

theorem ReadOnly.bind_eq_error {task : Storage α} {next : α → Storage β} {cause : Failure}
    {files after : Files} (htask : ReadOnly task) (hrun : (task >>= next) files = .error cause after) :
    task files = .error cause files ∨ ∃ a, task files = .ok a files ∧ next a files = .error cause after := by
  rcases htask files with ⟨a, hfirst⟩ | ⟨reason, hfirst⟩
  · rw [bind_eq hfirst] at hrun
    exact Or.inr ⟨a, hfirst, hrun⟩
  · rw [bind_error hfirst] at hrun
    cases hrun
    exact Or.inl hfirst

theorem attempt_eq_ok {task : Storage α} {a : α} {files after : Files} (h : task files = .ok a after) :
    attempt task files = .ok (.ok a) after := by
  rw [attempt, h]

theorem attempt_eq_error {task : Storage α} {cause : Failure} {files after : Files}
    (h : task files = .error cause after) : attempt task files = .ok (.error cause) after := by
  rw [attempt, h]

theorem ReadOnly.attempt {task : Storage α} (h : ReadOnly task) : ReadOnly (attempt task) := by
  intro files
  left
  rcases h files with ⟨a, hrun⟩ | ⟨cause, hrun⟩
  · exact ⟨.ok a, attempt_eq_ok hrun⟩
  · exact ⟨.error cause, attempt_eq_error hrun⟩

theorem ReadOnly.attempt_bind_eq_error {task : Storage α} {next : Except Failure α → Storage β}
    {cause : Failure} {files after : Files} (htask : ReadOnly task)
    (hrun : (Storage.attempt task >>= next) files = .error cause after) :
    (∃ a, task files = .ok a files ∧ next (.ok a) files = .error cause after) ∨
      ∃ reason, task files = .error reason files ∧ next (.error reason) files = .error cause after := by
  rcases htask files with ⟨a, ha⟩ | ⟨reason, hreason⟩
  · rw [bind_eq (attempt_eq_ok ha)] at hrun
    exact Or.inl ⟨a, ha, hrun⟩
  · rw [bind_eq (attempt_eq_error hreason)] at hrun
    exact Or.inr ⟨reason, hreason, hrun⟩

def value? (task : Storage α) (files : Files) : Option α :=
  match task files with
  | .ok a _ => some a
  | .error _ _ => none

theorem ReadOnly.eq_ok {task : Storage α} (h : ReadOnly task) {files : Files} {a : α}
    (hvalue : task.value? files = some a) : task files = .ok a files := by
  unfold value? at hvalue
  rcases h files with ⟨b, hrun⟩ | ⟨cause, hrun⟩
  · simp only [hrun, Option.some.injEq] at hvalue
    rw [hrun, hvalue]
  · simp [hrun] at hvalue

theorem ReadOnly.exists_ok {task : Storage α} (h : ReadOnly task) (files : Files) (check : α → Bool)
    (hcheck : (match task files with
      | .ok a _ => check a
      | .error _ _ => false) = true) : ∃ a, task files = .ok a files ∧ check a = true := by
  rcases h files with ⟨a, hrun⟩ | ⟨cause, hrun⟩
  · rw [hrun] at hcheck
    exact ⟨a, hrun, hcheck⟩
  · rw [hrun] at hcheck
    cases hcheck

theorem readText_eq_ok {files after : Files} {path : Path} {text : Text} :
    readText path files = .ok text after ↔ after = files ∧ files.textAt? path = some text := by
  unfold readText Files.textAt?
  cases hread : files.read path with
  | error cause =>
      have hnot : ∀ content, files.at? path ≠ some (.file content) := by
        intro content hat
        rw [Files.read_eq_ok.2 hat] at hread
        cases hread
      constructor
      · intro hok
        cases hok
      · rintro ⟨-, htext⟩
        split at htext
        · next content hat => exact absurd hat (hnot content)
        · cases htext
  | ok content =>
      rw [Files.read_eq_ok] at hread
      simp only [hread]
      cases hdecoded : content.decoded with
      | error cause => simp [Except.toOption]
      | ok text' =>
          simp only [EStateM.Result.ok.injEq, Except.toOption, Option.some.injEq]
          constructor
          · rintro ⟨rfl, rfl⟩
            exact ⟨rfl, rfl⟩
          · rintro ⟨rfl, rfl⟩
            exact ⟨rfl, rfl⟩

theorem readText_eq_error {files after : Files} {path : Path} {cause : Failure} :
    readText path files = .error cause after ↔ after = files ∧
      ((∃ reason, files.read path = .error reason ∧ cause = .system reason) ∨
        ∃ content reason, files.at? path = some (.file content) ∧ content.decoded = .error reason ∧
          cause = .undecodable reason) := by
  simp only [← Files.read_eq_ok]
  unfold readText
  cases hread : files.read path with
  | error reason => simp [eq_comm, and_comm]
  | ok content => cases hdecoded : content.decoded <;> simp [hdecoded, eq_comm, and_comm]

theorem readText_readOnly (path : Path) : ReadOnly (readText path) := by
  intro files
  unfold readText
  cases files.read path with
  | error cause => exact Or.inr ⟨_, rfl⟩
  | ok content =>
      simp only
      cases content.decoded with
      | error cause => exact Or.inr ⟨_, rfl⟩
      | ok text => exact Or.inl ⟨_, rfl⟩

theorem readText_child {files : Files} {directory : Path} {name : String}
    (h : files.Standing directory) (hname : name ≠ "..") :
    readText (directory.child name) files =
      match files.entry? (directory.place files.current ++ [name]) with
      | some (.file content) =>
        match content.decoded with
        | .ok text => .ok text files
        | .error cause => .error (.undecodable cause) files
      | some .directory =>
        .error (.system { kind := .isDirectory, path := directory.child name }) files
      | none => .error (.system { kind := .notFound, path := directory.child name }) files := by
  unfold readText Files.read
  rw [h.locate_child, Path.place_child hname]
  cases hentry : files.entry? (directory.place files.current ++ [name]) with
  | none => simp only [hentry]
  | some entry =>
      cases entry with
      | directory => simp only [hentry]
      | file content =>
          cases hdecoded : content.decoded <;> simp only [hentry, hdecoded]

/-- A task ends in the same way on two states of the files and changes neither. -/
def Agrees (task : Storage α) (first again : Files) : Prop :=
  (∃ a, task first = .ok a first ∧ task again = .ok a again) ∨
    ∃ cause, task first = .error cause first ∧ task again = .error cause again

theorem Agrees.pure (a : α) (first again : Files) :
    Agrees (Pure.pure a : Storage α) first again :=
  Or.inl ⟨a, rfl, rfl⟩

theorem Agrees.throw (cause : Failure) (first again : Files) :
    Agrees (MonadExcept.throw cause : Storage α) first again :=
  Or.inr ⟨cause, rfl, rfl⟩

/-- The second of two tasks has to agree for the values alone that the first gives. -/
theorem Agrees.bind {task : Storage α} {next : α → Storage β} {first again : Files}
    (htask : Agrees task first again)
    (hnext : ∀ a, task first = .ok a first → Agrees (next a) first again) :
    Agrees (task >>= next) first again := by
  rcases htask with ⟨a, hfirst, hagain⟩ | ⟨cause, hfirst, hagain⟩
  · unfold Agrees
    rw [bind_eq hfirst, bind_eq hagain]
    exact hnext a hfirst
  · exact Or.inr ⟨cause, bind_error hfirst, bind_error hagain⟩

theorem Agrees.attempt {task : Storage α} {first again : Files} (h : Agrees task first again) :
    Agrees (Storage.attempt task) first again := by
  left
  rcases h with ⟨a, hfirst, hagain⟩ | ⟨cause, hfirst, hagain⟩
  · exact ⟨.ok a, attempt_eq_ok hfirst, attempt_eq_ok hagain⟩
  · exact ⟨.error cause, attempt_eq_error hfirst, attempt_eq_error hagain⟩

theorem Agrees.eq_ok {task : Storage α} {first again : Files} {a : α}
    (h : Agrees task first again) (hfirst : task first = .ok a first) :
    task again = .ok a again := by
  rcases h with ⟨b, hrun, hagain⟩ | ⟨cause, hrun, -⟩
  · rw [hfirst] at hrun
    cases hrun
    exact hagain
  · rw [hfirst] at hrun
    cases hrun

theorem readText_agrees {first again : Files} {directory : Path} {name : String}
    (hfirst : first.Standing directory) (hagain : again.Standing directory) (hname : name ≠ "..")
    (hcurrent : again.current = first.current)
    (hentry : again.entry? (directory.place first.current ++ [name]) =
      first.entry? (directory.place first.current ++ [name])) :
    Agrees (readText (directory.child name)) first again := by
  unfold Agrees
  rw [readText_child hfirst hname, readText_child hagain hname, hcurrent, hentry]
  cases first.entry? (directory.place first.current ++ [name]) with
  | none => exact Or.inr ⟨_, rfl, rfl⟩
  | some entry =>
      cases entry with
      | directory => exact Or.inr ⟨_, rfl, rfl⟩
      | file content =>
          simp only
          cases content.decoded with
          | ok text => exact Or.inl ⟨_, rfl, rfl⟩
          | error cause => exact Or.inr ⟨_, rfl, rfl⟩

theorem readText_meets (path : Path) (before : Files → Prop) :
    Meets before (readText path)
      (fun text files => before files ∧ files.textAt? path = some text) before := by
  constructor
  intro files hfiles
  have hmeets := ((readText_readOnly path).meets before).ends files hfiles
  cases hrun : readText path files with
  | ok text after =>
      obtain ⟨rfl, htext⟩ := readText_eq_ok.1 hrun
      exact ⟨hfiles, htext⟩
  | error cause after =>
      rw [hrun] at hmeets
      exact hmeets

/-! ## Writing -/

variable {directory : Path} {name : String} {files : Files}

def asideOf (directory : Path) (name : String) (current : Location) : Location :=
  directory.place current ++ [Path.temporaryName name]

/-- The places that writing a text in a directory touches. -/
def touchedBy (directory : Path) (name : String) (current : Location) : Set Location :=
  {directory.place current ++ [name], asideOf directory name current}

theorem not_mem_touchedBy {name other : String} {current front : Location} (hname : other ≠ name)
    (htemporary : other ≠ Path.temporaryName name) :
    front ++ [other] ∉ touchedBy directory name current := by
  rintro (heq | heq)
  · exact hname (List.append_inj' heq rfl |>.2 |> List.cons.inj).1
  · exact htemporary (List.append_inj' heq rfl |>.2 |> List.cons.inj).1

theorem makeDirectories_standing (h : files.Standing directory) :
    makeDirectories directory files = .ok () files := by
  simp [makeDirectories, Files.makeDirectories_standing h]

theorem makeDirectories_meets (path : Path) (files : Files) :
    match makeDirectories path files with
    | .ok _ after => Files.Changes ∅ (path.way files.current) files after ∧ after.Standing path
    | .error _ after => Files.Changes ∅ (path.way files.current) files after := by
  have hchanges := files.makeDirectories_changes path (path.parts.length + 1)
  unfold makeDirectories
  cases hmake : files.makeDirectories path (path.parts.length + 1) with
  | mk outcome after =>
      rw [hmake] at hchanges
      cases outcome with
      | ok _ => exact ⟨hchanges, Files.makeDirectories_eq_ok hmake⟩
      | error cause => exact hchanges

theorem of_makeDirectories {path : Path} {files made : Files}
    (hrun : makeDirectories path files = .ok () made) :
    Files.Changes ∅ (path.way files.current) files made ∧ made.Standing path := by
  have hmeets := makeDirectories_meets path files
  rw [hrun] at hmeets
  exact hmeets

section Grandchild

variable {top : Path} {group : String}

def twoPlaces (top : Path) (name group : String) (current : Location) : Set Location :=
  {top.place current ++ [name], top.place current ++ [name] ++ [group]}

/-- Why a directory two levels down cannot be made: a file is in the way, and this is the cause. -/
def InTheWay (top : Path) (name group : String) (files : Files) (cause : Failure) : Prop :=
  let path := (top.child name).child group
  let upper := top.place files.current ++ [name]
  let lower := top.place files.current ++ [name] ++ [group]
  (∃ content, files.entry? upper = some (.file content) ∧
    cause = .system { kind := .notDirectory, path }) ∨
  files.entry? upper = some .directory ∧ ∃ content, files.entry? lower = some (.file content) ∧
    cause = .system { kind := .exists, path }

private theorem makeDirectories_grandchild_eq :
    makeDirectories ((top.child name).child group) files =
      match files.makeDirectories ((top.child name).child group) (top.parts.length + 1 + 2) with
      | (.ok (), files) => .ok () files
      | (.error cause, files) => .error (.system cause) files := by
  have hlength : ((top.child name).child group).parts.length + 1 = top.parts.length + 1 + 2 := by
    simp
  rcases hmade : files.makeDirectories ((top.child name).child group) (top.parts.length + 1 + 2)
    with ⟨_ | _, after⟩ <;> simp only [makeDirectories, hlength, hmade]

theorem makeDirectories_of_inTheWay (h : files.Standing top) (hname : name ≠ "..")
    (hgroup : group ≠ "..") {cause : Failure} (hcause : InTheWay top name group files cause) :
    makeDirectories ((top.child name).child group) files = .error cause files := by
  rw [makeDirectories_grandchild_eq,
    Files.makeDirectories_grandchild h hname hgroup (top.parts.length + 1)]
  rcases hcause with ⟨content, hupper, rfl⟩ | ⟨hupper, content, hlower, rfl⟩
  · simp only [hupper]
  · simp only [hupper, hlower]

theorem makeDirectories_grandchild_changes (h : files.Standing top) (hname : name ≠ "..")
    (hgroup : group ≠ "..") :
    match makeDirectories ((top.child name).child group) files with
    | .ok _ made => Files.Changes ∅ (twoPlaces top name group files.current) files made
    | .error cause made => Files.Changes ∅ (twoPlaces top name group files.current) files made ∧
        InTheWay top name group made cause := by
  have hupperPlace : top.place files.current ++ [name] ∈
      twoPlaces top name group files.current := Or.inl rfl
  have hlowerPlace : top.place files.current ++ [name] ++ [group] ∈
      twoPlaces top name group files.current := Or.inr rfl
  have hne : top.place files.current ++ [name] ≠ [] := by simp
  have hdiff : top.place files.current ++ [name] ++ [group] ≠ top.place files.current ++ [name] := by
    simp
  have hput : ∀ {before : Files} {location : Location}, before.entry? location = none →
      location ∈ twoPlaces top name group files.current →
        Files.Changes ∅ (twoPlaces top name group files.current) before
          (before.put location .directory) := by
    intro before location hnone hlocation
    exact (Files.put_directory_changes hnone).mono (Set.Subset.refl _)
      (Set.singleton_subset_iff.2 hlocation)
  rw [makeDirectories_grandchild_eq,
    Files.makeDirectories_grandchild h hname hgroup (top.parts.length + 1)]
  cases hupper : files.entry? (top.place files.current ++ [name]) with
  | some entry =>
      cases entry with
      | file content => exact ⟨.refl .., Or.inl ⟨content, hupper, rfl⟩⟩
      | directory =>
          simp only
          cases hlower : files.entry? (top.place files.current ++ [name] ++ [group]) with
          | none => exact hput hlower hlowerPlace
          | some entry =>
              cases entry with
              | directory => exact .refl ..
              | file content => exact ⟨.refl .., Or.inr ⟨hupper, content, hlower, rfl⟩⟩
  | none =>
      have hmade : Files.entry? (files.put (top.place files.current ++ [name]) .directory)
          (top.place files.current ++ [name]) = some .directory := by
        rw [Files.entry?_put files hne, if_pos rfl]
      have hkept : Files.entry? (files.put (top.place files.current ++ [name]) .directory)
          (top.place files.current ++ [name] ++ [group]) =
            files.entry? (top.place files.current ++ [name] ++ [group]) := by
        rw [Files.entry?_put files hne, if_neg hdiff]
      simp only
      cases hlower : files.entry? (top.place files.current ++ [name] ++ [group]) with
      | none => exact (hput hupper hupperPlace).trans (hput (hkept.trans hlower) hlowerPlace)
      | some entry =>
          cases entry with
          | directory => exact hput hupper hupperPlace
          | file content =>
              exact ⟨hput hupper hupperPlace, Or.inr ⟨hmade, content, hkept.trans hlower, rfl⟩⟩

end Grandchild

theorem makeDirectories_child_changes (h : files.Standing directory) (hname : name ≠ "..") :
    Files.Changes ∅ {directory.place files.current ++ [name]} files
      (filesAfter (makeDirectories (directory.child name)) files) := by
  have hmake := Files.makeDirectories_child h hname (directory.parts.length + 1)
  have hlength : (directory.child name).parts.length + 1 = directory.parts.length + 1 + 1 := by
    simp
  unfold filesAfter makeDirectories
  rw [hlength, hmake]
  cases hentry : files.entry? (directory.place files.current ++ [name]) with
  | none => exact Files.put_directory_changes hentry
  | some entry => cases entry <;> exact .refl ..

/-- Writing a text in a directory that stands: what is at the two places decides how it ends. -/
theorem writeText_standing (h : files.Standing directory) (hname : name ≠ "..") (text : Text) :
    writeText (directory.child name) text files =
      let path := directory.child name
      let temporary := directory.child (Path.temporaryName name)
      let target := directory.place files.current ++ [name]
      let aside := directory.place files.current ++ [Path.temporaryName name]
      if files.entry? aside = some .directory then
        .error (.system { kind := .isDirectory, path := temporary }) files
      else if files.entry? target = some .directory then
        .error (.system { kind := .isDirectory, path := temporary, target := some path })
          (files.put aside (.file (.text text)))
      else
        .ok () (((files.put aside (.file (.text text))).remove aside).put target
          (.file (.text text))) := by
  have hup := temporaryName_ne_up name
  have hdiff : directory.place files.current ++ [name] ≠
      directory.place files.current ++ [Path.temporaryName name] := by
    simp only [ne_eq, List.append_cancel_left_eq, List.cons.injEq, and_true]
    exact Path.ne_temporaryName name
  have haside : directory.place files.current ++ [Path.temporaryName name] ≠ [] := by simp
  have hwrite : files.write (directory.child (Path.temporaryName name)) (.text text) =
      if files.entry? (directory.place files.current ++ [Path.temporaryName name]) =
          some .directory then
        .error { kind := .isDirectory, path := directory.child (Path.temporaryName name) }
      else
        .ok (files.put (directory.place files.current ++ [Path.temporaryName name])
          (.file (.text text))) := by
    unfold Files.write
    rw [h.locate_child, Path.place_child hup]
    simp only [List.dropLast_concat, h.entry?]
    cases files.entry? (directory.place files.current ++ [Path.temporaryName name]) with
    | none => simp
    | some entry => cases entry <;> simp
  simp only [writeText, Path.child_parent, temporary_child]
  show EStateM.bind (makeDirectories directory) _ files = _
  simp only [EStateM.bind, makeDirectories_standing h]
  show EStateM.bind (change _) _ files = _
  simp only [EStateM.bind, change, hwrite]
  by_cases hdirectory : files.entry? (directory.place files.current ++
      [Path.temporaryName name]) = some .directory
  · simp [hdirectory]
  · simp only [if_neg hdirectory]
    have hput := (Files.put_file_changes hdirectory (.text text)).standing h
    unfold Files.replace
    rw [hput.locate_child, hput.locate_child, Path.place_child hup, Path.place_child hname]
    simp only [Files.current_put, Files.entry?_put _ haside, if_neg hdiff, if_true]
    cases files.entry? (directory.place files.current ++ [name]) with
    | none => simp
    | some entry => cases entry <;> simp

theorem copyFile_child {target : Path} {copy : String} (h : files.Standing directory)
    (htarget : files.Standing target) (hname : name ≠ "..") (hcopy : copy ≠ "..") :
    copyFile (directory.child name) (target.child copy) files =
      match files.entry? (directory.place files.current ++ [name]) with
      | some (.file content) =>
        if files.entry? (target.place files.current ++ [copy]) = some .directory then
          .error (.system { kind := .isDirectory, path := target.child copy }) files
        else .ok () (files.put (target.place files.current ++ [copy]) (.file content))
      | some .directory =>
        .error (.system { kind := .isDirectory, path := directory.child name }) files
      | none => .error (.system { kind := .notFound, path := directory.child name }) files := by
  unfold copyFile
  show EStateM.bind _ _ files = _
  simp only [EStateM.bind, Files.read, h.locate_child, Path.place_child hname]
  cases files.entry? (directory.place files.current ++ [name]) with
  | none => simp only
  | some entry =>
      cases entry with
      | directory => simp only
      | file content =>
          simp only [change, Files.write, htarget.locate_child, Path.place_child hcopy,
            List.dropLast_concat, htarget.entry?]
          cases files.entry? (target.place files.current ++ [copy]) with
          | none => simp
          | some entry => cases entry <;> simp

/-- A write that fails leaves what stands at its target. -/
theorem writeText_standing_changes (h : files.Standing directory) (hname : name ≠ "..")
    (text : Text) :
    match writeText (directory.child name) text files with
    | .ok _ after =>
      Files.Changes (touchedBy directory name files.current) ∅ files after ∧
        after.at? (directory.child name) = some (.file (.text text))
    | .error _ after => Files.Changes {asideOf directory name files.current} ∅ files after := by
  have hname' : directory.place files.current ++ [name] ∈
      touchedBy directory name files.current := Or.inl rfl
  have htmp : asideOf directory name files.current ∈
      touchedBy directory name files.current := Or.inr rfl
  have hne : asideOf directory name files.current ≠ [] := by simp [asideOf]
  rw [writeText_standing h hname]
  simp only
  rw [show directory.place files.current ++ [Path.temporaryName name] =
    asideOf directory name files.current from rfl]
  by_cases haside : files.entry? (asideOf directory name files.current) = some .directory
  · rw [if_pos haside]
  rw [if_neg haside]
  have hput := Files.put_file_changes haside (.text text)
  by_cases htarget : files.entry? (directory.place files.current ++ [name]) = some .directory
  · rw [if_pos htarget]
    exact hput
  rw [if_neg htarget]
  have hfile : Files.entry?
      (files.put (asideOf directory name files.current) (.file (.text text)))
      (asideOf directory name files.current) ≠ some .directory := by
    rw [Files.entry?_put _ hne, if_pos rfl]
    simp
  have hremove := Files.remove_changes hfile
  have hmoved : Files.entry? ((files.put (asideOf directory name files.current)
      (.file (.text text))).remove (asideOf directory name files.current))
        (directory.place files.current ++ [name]) ≠ some .directory := by
    rw [Files.entry?_remove _ hne, Files.entry?_put _ hne]
    split
    · simp
    · exact htarget
  have hfirst := (hput.trans hremove).mono (Set.singleton_subset_iff.2 htmp) (Set.Subset.refl _)
  have hlast := (Files.put_file_changes hmoved (.text text)).mono
    (Set.singleton_subset_iff.2 hname') (Set.Subset.refl _)
  have hall := hfirst.trans hlast
  refine ⟨hall, ?_⟩
  rw [(hall.standing h).at?_child hname]
  simp [Files.entry?_put]

theorem writeText_making (directory : Path) (name : String) (text : Text) :
    writeText (directory.child name) text =
      makeDirectories directory >>= fun _ => writeText (directory.child name) text := by
  funext files
  have hwrite : ∀ files, writeText (directory.child name) text files =
      EStateM.bind (makeDirectories directory) (fun _ => do
        change (·.write (temporary (directory.child name)) (.text text))
        change (·.replace (temporary (directory.child name)) (directory.child name))) files := by
    intro files
    simp only [writeText, Path.child_parent]
    rfl
  show _ = EStateM.bind (makeDirectories directory) _ files
  have hmeets := makeDirectories_meets directory files
  cases hrun : makeDirectories directory files with
  | ok _ made =>
      rw [hrun] at hmeets
      simp only [hwrite, EStateM.bind, hrun, makeDirectories_standing hmeets.2]
  | error cause made => simp only [hwrite, EStateM.bind, hrun]

theorem writeText_standing_ok (h : files.Standing directory) (hname : name ≠ "..")
    (htarget : files.entry? (directory.place files.current ++ [name]) ≠ some .directory)
    (haside : files.entry? (asideOf directory name files.current) ≠ some .directory)
    (text : Text) :
    ∃ after, writeText (directory.child name) text files = .ok () after ∧
      Files.Changes (touchedBy directory name files.current) ∅ files after ∧
        after.at? (directory.child name) = some (.file (.text text)) := by
  have hchanges := writeText_standing_changes h hname text
  have hrun := ((writeText_standing h hname text).trans (if_neg haside)).trans (if_neg htarget)
  rw [hrun] at hchanges
  exact ⟨_, hrun, hchanges⟩

theorem writeText_changes (directory : Path) (hname : name ≠ "..") (text : Text) (files : Files) :
    match writeText (directory.child name) text files with
    | .ok _ after =>
      Files.Changes (touchedBy directory name files.current) (directory.way files.current)
          files after ∧
        after.at? (directory.child name) = some (.file (.text text))
    | .error _ after =>
      Files.Changes {asideOf directory name files.current} (directory.way files.current)
        files after := by
  have hmake := makeDirectories_meets directory files
  cases hrun : makeDirectories directory files with
  | error cause after =>
      rw [hrun] at hmake
      have hwrite : writeText (directory.child name) text files = .error cause after := by
        simp only [writeText, Path.child_parent]
        exact bind_error hrun
      rw [hwrite]
      exact hmake.mono (Set.empty_subset _) (Set.Subset.refl _)
  | ok _ made =>
      rw [hrun] at hmake
      obtain ⟨hchanges, hstanding⟩ := hmake
      have hwrite : writeText (directory.child name) text files =
          writeText (directory.child name) text made := by
        simp only [writeText, Path.child_parent]
        rw [bind_eq hrun, bind_eq (makeDirectories_standing hstanding)]
      have hlast := writeText_standing_changes hstanding hname text
      rw [hwrite]
      rw [hchanges.current] at hlast
      cases hresult : writeText (directory.child name) text made with
      | ok _ after =>
          rw [hresult] at hlast
          exact ⟨(hchanges.mono (Set.empty_subset _) (Set.Subset.refl _)).trans
            (hlast.1.mono (Set.Subset.refl _) (Set.empty_subset _)), hlast.2⟩
      | error cause after =>
          rw [hresult] at hlast
          exact (hchanges.mono (Set.empty_subset _) (Set.Subset.refl _)).trans
            (hlast.mono (Set.Subset.refl _) (Set.empty_subset _))

/-! ## Properties that stay -/

/-- Whether a property of files with a certain current directory survives all changes at `touched`
places, whatever directories are made. -/
structure Stable (current : Location) (touched : Set Location) (property : Files → Prop) : Prop where
  current : ∀ files, property files → files.current = current
  changes : ∀ before after, Files.Changes touched Set.univ before after →
    property before → property after

variable {current : Location} {touched touched' : Set Location} {property : Files → Prop}

theorem Stable.mono (h : Stable current touched' property) (hsubset : touched ⊆ touched') :
    Stable current touched property where
  current := h.current
  changes before after hchanges :=
    h.changes before after (hchanges.mono hsubset (Set.Subset.refl _))

theorem makeDirectories_keeps (h : Stable current ∅ property) (path : Path) :
    Meets property (makeDirectories path) (fun _ => property) property := by
  constructor
  intro files hfiles
  have hmake := makeDirectories_meets path files
  cases hrun : makeDirectories path files with
  | ok _ after =>
      rw [hrun] at hmake
      exact h.changes _ _ (hmake.1.mono (Set.Subset.refl _) (Set.subset_univ _)) hfiles
  | error cause after =>
      rw [hrun] at hmake
      exact h.changes _ _ (hmake.mono (Set.Subset.refl _) (Set.subset_univ _)) hfiles

/-- A write that succeeds leads from one property to another, a write that fails keeps the first. -/
theorem writeText_meets (written : Files → Prop) (hname : name ≠ "..")
    (haside : Stable current {asideOf directory name current} property) {text : Text}
    (hwritten : ∀ before after,
      Files.Changes (touchedBy directory name current) Set.univ before after → property before →
        after.at? (directory.child name) = some (.file (.text text)) → written after) :
    Meets property (writeText (directory.child name) text) (fun _ => written) property := by
  constructor
  intro files hfiles
  have hwrite := writeText_changes directory hname text files
  rw [haside.current files hfiles] at hwrite
  cases hrun : writeText (directory.child name) text files with
  | ok _ after =>
      rw [hrun] at hwrite
      exact hwritten _ _ (hwrite.1.mono (Set.Subset.refl _) (Set.subset_univ _)) hfiles hwrite.2
  | error cause after =>
      rw [hrun] at hwrite
      exact haside.changes _ _ (hwrite.mono (Set.Subset.refl _) (Set.subset_univ _)) hfiles

theorem writeText_keeps (hname : name ≠ "..")
    (h : Stable current (touchedBy directory name current) property) (text : Text) :
    Meets property (writeText (directory.child name) text)
      (fun _ files => property files ∧
        files.at? (directory.child name) = some (.file (.text text))) property := by
  have haside : Stable current {asideOf directory name current} property := by
    apply h.mono
    rw [Set.singleton_subset_iff]
    exact Or.inr rfl
  apply writeText_meets _ hname haside
  · intro before after hchanges hbefore hat
    exact ⟨h.changes before after hchanges hbefore, hat⟩

end Storage

end ScriptSplit
