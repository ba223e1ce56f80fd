import ScriptSplit.Stage.Link

/-!
# What a run does to the files

A task meets a condition if it leads from files with one property to files with another, where the
property after a failure is a separate one: what was done before the failure stays done.
-/

namespace ScriptSplit

variable {α β : Type}

namespace Storage

/-- From files with `before`, a task ends with `after`, or it fails and leaves files with `failed`. -/
structure Meets (before : Files → Prop) (task : Storage α) (after : α → Files → Prop)
    (failed : Files → Prop) : Prop where
  ends : ∀ files, before files →
    match task files with
    | .ok a files => after a files
    | .error _ files => failed files

variable {before before' : Files → Prop} {task : Storage α} {after after' : α → Files → Prop}
  {failed failed' : Files → Prop}

theorem Meets.consequence (h : Meets before task after failed)
    (hbefore : ∀ files, before' files → before files)
    (hafter : ∀ a files, after a files → after' a files)
    (hfailed : ∀ files, failed files → failed' files) : Meets before' task after' failed' := by
  constructor
  intro files hfiles
  have hends := h.ends files (hbefore files hfiles)
  cases hrun : task files with
  | ok a files => rw [hrun] at hends; exact hafter a files hends
  | error cause files => rw [hrun] at hends; exact hfailed files hends

theorem Meets.pure {a : α} (h : ∀ files, before files → after a files) :
    Meets before (pure a : Storage α) after failed :=
  ⟨fun files hfiles => h files hfiles⟩

theorem Meets.throw {cause : Failure} (h : ∀ files, before files → failed files) :
    Meets before (throw cause : Storage α) after failed :=
  ⟨fun files hfiles => h files hfiles⟩

theorem Meets.bind {next : α → Storage β} {between : α → Files → Prop} {after : β → Files → Prop}
    (htask : Meets before task between failed)
    (hnext : ∀ a, Meets (between a) (next a) after failed) :
    Meets before (task >>= next) after failed := by
  constructor
  intro files hfiles
  have hends := htask.ends files hfiles
  show match EStateM.bind task next files with
    | .ok a files => after a files
    | .error _ files => failed files
  unfold EStateM.bind
  cases hrun : task files with
  | ok a files => rw [hrun] at hends; exact (hnext a).ends files hends
  | error cause files => rw [hrun] at hends; exact hends

theorem Meets.seq {next : α → Storage β} (between : α → Files → Prop) {after : β → Files → Prop}
    (htask : Meets before task between failed)
    (hnext : ∀ a, Meets (between a) (next a) after failed) :
    Meets before (task >>= next) after failed :=
  htask.bind hnext

theorem Meets.assume {known : Prop} (h : known → Meets before task after failed) :
    Meets (fun files => known ∧ before files) task after failed :=
  ⟨fun files hfiles => (h hfiles.1).ends files hfiles.2⟩

theorem Meets.bind_files {next : Files → Storage β} {after : β → Files → Prop}
    (h : ∀ found, Meets (fun files => found = files ∧ before files) (next found) after failed) :
    Meets before (Storage.files >>= next) after failed :=
  ⟨fun files hfiles => (h files).ends files ⟨rfl, hfiles⟩⟩

theorem Meets.attempt (h : Meets before task after failed) :
    Meets before (Storage.attempt task)
      (fun outcome files =>
        match outcome with
        | .ok a => after a files
        | .error _ => failed files) failed' := by
  constructor
  intro files hfiles
  have hends := h.ends files hfiles
  unfold Storage.attempt
  cases hrun : task files with
  | ok a files => rw [hrun] at hends; exact hends
  | error cause files => rw [hrun] at hends; exact hends

end Storage

namespace Run

/-- From files with `before`, a piece of a run ends with `after`, or it fails and leaves files with
`failed`. -/
structure Meets (surroundings : Surroundings) (before : Files → Prop) (task : Run α)
    (after : α → Files → Prop) (failed : Files → Prop) : Prop where
  ends : ∀ s, before s.files →
    match task surroundings s with
    | .ok a s => after a s.files
    | .error _ s => failed s.files

variable {surroundings : Surroundings} {before before' : Files → Prop} {task : Run α}
  {after after' : α → Files → Prop} {failed failed' : Files → Prop}

theorem Meets.consequence (h : Meets surroundings before task after failed)
    (hbefore : ∀ files, before' files → before files)
    (hafter : ∀ a files, after a files → after' a files)
    (hfailed : ∀ files, failed files → failed' files) :
    Meets surroundings before' task after' failed' := by
  constructor
  intro s hs
  have hends := h.ends s (hbefore s.files hs)
  cases hrun : task surroundings s with
  | ok a s => rw [hrun] at hends; exact hafter a s.files hends
  | error cause s => rw [hrun] at hends; exact hfailed s.files hends

theorem Meets.starting (h : Meets surroundings before task after failed)
    (hbefore : ∀ files, before' files → before files) :
    Meets surroundings before' task after failed :=
  h.consequence hbefore (fun _ _ hfiles => hfiles) fun _ hfiles => hfiles

theorem Meets.failing (h : Meets surroundings before task after failed)
    (hfailed : ∀ files, failed files → failed' files) :
    Meets surroundings before task after failed' :=
  h.consequence (fun _ hfiles => hfiles) (fun _ _ hfiles => hfiles) hfailed

theorem Meets.knowing {known : α → Prop} (h : Meets surroundings before task after failed)
    (hknown : ∀ s a s', task surroundings s = .ok a s' → known a) :
    Meets surroundings before task (fun a files => known a ∧ after a files) failed := by
  constructor
  intro s hs
  have hends := h.ends s hs
  cases hrun : task surroundings s with
  | ok a s' => rw [hrun] at hends; exact ⟨hknown s a s' hrun, hends⟩
  | error cause s' => rw [hrun] at hends; exact hends

theorem Meets.pure {a : α} (h : ∀ files, before files → after a files) :
    Meets surroundings before (pure a : Run α) after failed :=
  ⟨fun s hs => h s.files hs⟩

theorem Meets.throw {cause : Failure} (h : ∀ files, before files → failed files) :
    Meets surroundings before (throw cause : Run α) after failed :=
  ⟨fun s hs => h s.files hs⟩

theorem Meets.orFail {ε : Type} {property : Files → Prop} (failure : ε → Failure) (outcome : Except ε α) :
    Meets surroundings property (orFail failure outcome)
      (fun a files => outcome = .ok a ∧ property files) property := by
  cases outcome with
  | ok a => exact .pure fun _ hfiles => ⟨rfl, hfiles⟩
  | error cause => exact .throw fun _ hfiles => hfiles

theorem Meets.bind {next : α → Run β} {between : α → Files → Prop} {after : β → Files → Prop}
    (htask : Meets surroundings before task between failed)
    (hnext : ∀ a, Meets surroundings (between a) (next a) after failed) :
    Meets surroundings before (task >>= next) after failed := by
  constructor
  intro s hs
  have hends := htask.ends s hs
  show match EStateM.bind (task surroundings) (fun a => next a surroundings) s with
    | .ok a s => after a s.files
    | .error _ s => failed s.files
  unfold EStateM.bind
  cases hrun : task surroundings s with
  | ok a s => rw [hrun] at hends; exact (hnext a).ends s hends
  | error cause s => rw [hrun] at hends; exact hends

theorem Meets.seq {next : α → Run β} (between : α → Files → Prop) {after : β → Files → Prop}
    (htask : Meets surroundings before task between failed)
    (hnext : ∀ a, Meets surroundings (between a) (next a) after failed) :
    Meets surroundings before (task >>= next) after failed :=
  htask.bind hnext

theorem Meets.assume {known : Prop} (h : known → Meets surroundings before task after failed) :
    Meets surroundings (fun files => known ∧ before files) task after failed :=
  ⟨fun s hs => (h hs.1).ends s hs.2⟩

theorem Meets.storing {task : Storage α} (h : Storage.Meets before task after failed) :
    Meets surroundings before (storing task) after failed := by
  constructor
  intro s hs
  have hends := h.ends s.files hs
  unfold Run.storing
  cases hrun : task s.files with
  | ok a files => rw [hrun] at hends; exact hends
  | error cause files => rw [hrun] at hends; exact hends

theorem Meets.bind_files {next : Files → Run β} {after : β → Files → Prop}
    (h : ∀ found, Meets surroundings (fun files => found = files ∧ before files) (next found)
      after failed) :
    Meets surroundings before (Run.files >>= next) after failed :=
  ⟨fun s hs => (h s.files).ends s ⟨rfl, hs⟩⟩

theorem Meets.bind_anyFiles {next : Files → Run β} {after : β → Files → Prop}
    (h : ∀ found, Meets surroundings before (next found) after failed) :
    Meets surroundings before (Run.files >>= next) after failed :=
  .bind_files fun found => (h found).starting fun _ hfiles => hfiles.2

theorem Meets.bind_read {next : Surroundings → Run β} {after : β → Files → Prop}
    (h : Meets surroundings before (next surroundings) after failed) :
    Meets surroundings before (read >>= next) after failed :=
  ⟨h.ends⟩

theorem Meets.bind_get {next : RunState → Run β} {after : β → Files → Prop}
    (h : ∀ s, Meets surroundings before (next s) after failed) :
    Meets surroundings before (get >>= next) after failed :=
  ⟨fun s hs => (h s).ends s hs⟩

theorem Meets.bind_modify {change : RunState → RunState} {next : PUnit → Run β}
    {after : β → Files → Prop} (hchange : ∀ s, (change s).files = s.files)
    (h : Meets surroundings before (next ⟨⟩) after failed) :
    Meets surroundings before (modify change >>= next) after failed :=
  ⟨fun s hs => h.ends (change s) ((hchange s).symm ▸ hs)⟩

theorem Meets.bind_warn {source : String} {warning : Warning} {next : Unit → Run β}
    {after : β → Files → Prop} (h : Meets surroundings before (next ()) after failed) :
    Meets surroundings before (warn source warning >>= next) after failed :=
  Meets.bind_modify (fun _ => rfl) h

theorem Meets.attempt (h : Meets surroundings before task after failed) :
    Meets surroundings before (attempt task)
      (fun outcome files =>
        match outcome with
        | .ok a => after a files
        | .error _ => failed files) failed' := by
  constructor
  intro s hs
  have hends := h.ends s hs
  unfold Run.attempt
  cases hrun : task surroundings s with
  | ok a s => rw [hrun] at hends; exact hends
  | error cause s => rw [hrun] at hends; exact hends

/-- What a step that may fail leaves, whether it gives a value or none. -/
def BestEffort (after : α → Files → Prop) (failed : Files → Prop) (outcome : Option α × List Warning)
    (files : Files) : Prop :=
  match outcome.1 with
  | some a => after a files
  | none => failed files

theorem Meets.bestEffort {name : String} (h : Meets surroundings before task after failed) :
    Meets surroundings before (bestEffort name task) (BestEffort after failed) failed' := by
  unfold Run.bestEffort
  apply Meets.bind h.attempt
  intro outcome
  cases outcome with
  | ok a => exact .pure fun _ hfiles => hfiles
  | error cause => exact Meets.bind_warn (.pure fun _ hfiles => hfiles)

/-- A step that may fail keeps what holds both ways. -/
theorem Meets.bestEffort_always {name : String} {always : Files → Prop}
    (h : Meets surroundings before task (fun _ => always) always) :
    Meets surroundings before (Run.bestEffort name task) (fun _ => always) failed' := by
  apply h.bestEffort.consequence (fun _ hfiles => hfiles) _ fun _ hfiles => hfiles
  rintro ⟨outcome, warnings⟩ files hfiles
  cases outcome <;> exact hfiles

/-- A step that may fail leaves no warning only if it succeeds. -/
theorem Meets.bestEffort_quiet {name : String} {always : Files → Prop}
    (h : Meets surroundings before task after failed)
    (hafter : ∀ a files, after a files → always files)
    (hfailed : ∀ files, failed files → always files) :
    Meets surroundings before (Run.bestEffort name task)
      (fun outcome files => always files ∧
        (outcome.2 = [] → ∃ a, outcome.1 = some a ∧ after a files)) failed' := by
  unfold Run.bestEffort
  apply Meets.bind h.attempt
  intro outcome
  cases outcome with
  | ok a => exact .pure fun files hfiles => ⟨hafter a files hfiles, fun _ => ⟨a, rfl, hfiles⟩⟩
  | error cause =>
      exact Meets.bind_warn (.pure fun files hfiles => ⟨hfailed files hfiles, by simp⟩)

/-- A step fails as a trial wants it to, or it runs. -/
theorem Meets.step {kind : LinkStep} (h : Meets surroundings before task after failed)
    (hfailed : ∀ files, before files → failed files) :
    Meets surroundings before (step kind task) after failed := by
  unfold Run.step
  apply Meets.bind_read
  split
  · exact .throw hfailed
  · exact h

theorem Meets.step_pure {kind : LinkStep} (a : α) (property : Files → Prop) :
    Meets surroundings property (Run.step kind (Pure.pure a))
      (fun found files => found = a ∧ property files) property :=
  Meets.step (.pure fun _ hfiles => ⟨rfl, hfiles⟩) fun _ hfiles => hfiles

theorem storing_require_some (path found : Path) :
    Run.storing (Storage.require path (some found)) = Pure.pure found := rfl

theorem Meets.bind_require_none {path : Path} {next : Path → Run β} {after : β → Files → Prop}
    (h : ∀ files, before files → failed files) :
    Meets surroundings before (Run.storing (Storage.require path none) >>= next) after failed :=
  ⟨fun s hs => h s.files hs⟩

theorem Meets.foldlM {step : β → α → Run β} {list : List α} {start : β}
    (invariant : β → Files → Prop)
    (hstep : ∀ b, ∀ a ∈ list,
      Meets surroundings (invariant b) (step b a) invariant failed) :
    Meets surroundings (invariant start) (list.foldlM step start) invariant failed := by
  induction list generalizing start with
  | nil => exact .pure fun _ hfiles => hfiles
  | cons a list ih =>
      rw [List.foldlM_cons]
      exact Meets.bind (hstep start a (by simp))
        fun b => ih fun b' a' ha' => hstep b' a' (by simp [ha'])

theorem Meets.mapM {task : α → Run β} {list : List α} {invariant : Files → Prop}
    (hstep : ∀ a ∈ list,
      Meets surroundings invariant (task a) (fun _ => invariant) failed) :
    Meets surroundings invariant (list.mapM task) (fun _ => invariant) failed := by
  induction list with
  | nil => exact .pure fun _ hfiles => hfiles
  | cons a list ih =>
      rw [List.mapM_cons]
      apply Meets.bind (hstep a (by simp))
      intro b
      apply Meets.bind (ih fun a' ha' => hstep a' (by simp [ha']))
      intro bs
      exact .pure fun _ hfiles => hfiles

/-! ## Outcomes -/

variable {s s' : RunState}

theorem Meets.ok {a : α} (h : Meets surroundings before task after failed) (hs : before s.files)
    (hrun : task surroundings s = .ok a s') : after a s'.files := by
  have hends := h.ends s hs
  rw [hrun] at hends
  exact hends

theorem bind_eq {task : Run α} {next : α → Run β} {a : α} (h : task surroundings s = .ok a s') :
    (task >>= next) surroundings s = next a surroundings s' := by
  show EStateM.bind (task surroundings) (fun a => next a surroundings) s = _
  simp only [EStateM.bind, h]

theorem bind_eq_error {task : Run α} {next : α → Run β} {cause : Failure}
    (h : task surroundings s = .error cause s') :
    (task >>= next) surroundings s = .error cause s' := by
  show EStateM.bind (task surroundings) (fun a => next a surroundings) s = _
  simp only [EStateM.bind, h]

/-- What comes after a task matters only where the task leads. -/
theorem bind_congr_ok {next next' : α → Run β} (h : Meets surroundings before task after failed)
    (hs : before s.files)
    (hnext : ∀ a s', after a s'.files → next a surroundings s' = next' a surroundings s') :
    (task >>= next) surroundings s = (task >>= next') surroundings s := by
  cases hrun : task surroundings s with
  | ok a s' =>
      rw [bind_eq hrun, bind_eq hrun]
      exact hnext a s' (h.ok hs hrun)
  | error cause s' => rw [bind_eq_error hrun, bind_eq_error hrun]

theorem bind_read_eq (next : Surroundings → Run β) :
    (read >>= next) surroundings s = next surroundings surroundings s := rfl

theorem bind_get_eq (next : RunState → Run β) : (get >>= next) surroundings s = next s surroundings s :=
  rfl

theorem bind_files_eq (next : Files → Run β) :
    (files >>= next) surroundings s = next s.files surroundings s := rfl

theorem storing_eq {task : Storage α} {a : α} {files : Files} (h : task s.files = .ok a files) :
    storing task surroundings s = .ok a { s with files } := by
  simp only [storing, h]

theorem bind_eq_ok {task : Run α} {next : α → Run β} {b : β} {s'' : RunState} :
    (task >>= next) surroundings s = .ok b s'' ↔
      ∃ a s', task surroundings s = .ok a s' ∧ next a surroundings s' = .ok b s'' := by
  show EStateM.bind (task surroundings) (fun a => next a surroundings) s = _ ↔ _
  unfold EStateM.bind
  cases task surroundings s with
  | ok a s' =>
      constructor
      · exact fun hnext => ⟨a, s', rfl, hnext⟩
      · rintro ⟨_, _, ⟨⟩, hnext⟩
        exact hnext
  | error cause s' => simp

theorem storing_bind (task : Storage α) (next : α → Storage β) :
    storing (task >>= next) = storing task >>= fun a => storing (next a) := by
  funext surroundings s
  have hbind : (task >>= next) s.files = EStateM.bind task next s.files := rfl
  show storing (task >>= next) surroundings s =
    EStateM.bind (storing task surroundings) (fun a => storing (next a) surroundings) s
  simp only [storing, EStateM.bind, hbind]
  cases task s.files <;> rfl

theorem storing_eq_ok {task : Storage α} {a : α} :
    storing task surroundings s = .ok a s' ↔
      ∃ files, task s.files = .ok a files ∧ s' = { s with files } := by
  unfold storing
  cases task s.files with
  | ok b files =>
      constructor
      · rintro ⟨⟩
        exact ⟨files, rfl, rfl⟩
      · rintro ⟨_, ⟨⟩, rfl⟩
        rfl
  | error cause files => simp

/-! ## Completion -/

def Completes (task : Run α) (surroundings : Surroundings) (s s' : RunState) : Prop :=
  ∃ a, task surroundings s = .ok a s'

theorem completes_pure {a : α} : Completes (pure a) surroundings s s' ↔ s' = s := by
  constructor
  · rintro ⟨_, ⟨⟩⟩
    rfl
  · rintro rfl
    exact ⟨a, rfl⟩

theorem completes_bind {task : Run α} {next : α → Run β} {s'' : RunState} :
    Completes (task >>= next) surroundings s s'' ↔
      ∃ a s', task surroundings s = .ok a s' ∧ Completes (next a) surroundings s' s'' := by
  constructor
  · rintro ⟨b, hrun⟩
    obtain ⟨a, s', htask, hnext⟩ := bind_eq_ok.1 hrun
    exact ⟨a, s', htask, b, hnext⟩
  · rintro ⟨a, s', htask, b, hnext⟩
    exact ⟨b, bind_eq_ok.2 ⟨a, s', htask, hnext⟩⟩

theorem completes_bind_of {task : Run α} {next : α → Run β} {a : α} {s'' : RunState}
    (h : task surroundings s = .ok a s') :
    Completes (task >>= next) surroundings s s'' ↔ Completes (next a) surroundings s' s'' := by
  unfold Completes
  rw [bind_eq h]

theorem completes_bind_pure {task : Run α} {last : α → β} :
    Completes (task >>= fun a => pure (last a)) surroundings s s' ↔
      Completes task surroundings s s' := by
  rw [completes_bind]
  constructor
  · rintro ⟨a, s₁, htask, hlast⟩
    rw [completes_pure.1 hlast]
    exact ⟨a, htask⟩
  · rintro ⟨a, htask⟩
    exact ⟨a, s', htask, completes_pure.2 rfl⟩

def endsWell (task : Run α) (surroundings : Surroundings) (s : RunState) : Bool :=
  match task surroundings s with
  | .ok _ _ => true
  | .error _ _ => false

def stateAfter (task : Run α) (surroundings : Surroundings) (s : RunState) : RunState :=
  match task surroundings s with
  | .ok _ s' => s'
  | .error _ s' => s'

theorem completes_stateAfter {task : Run α} (h : endsWell task surroundings s = true) :
    Completes task surroundings s (stateAfter task surroundings s) := by
  unfold endsWell at h
  unfold stateAfter Completes
  cases hrun : task surroundings s with
  | ok a s' => exact ⟨a, rfl⟩
  | error cause s' => simp [hrun] at h

def filesAfter (task : Run α) (surroundings : Surroundings) (s : RunState) : Files :=
  match task surroundings s with
  | .ok _ s => s.files
  | .error _ s => s.files

theorem Meets.filesAfter {after : Files → Prop}
    (h : Meets surroundings before task (fun _ => after) after) (hs : before s.files) :
    after (filesAfter task surroundings s) := by
  have hends := h.ends s hs
  unfold Run.filesAfter
  cases hrun : task surroundings s with
  | ok a s => rw [hrun] at hends; exact hends
  | error cause s => rw [hrun] at hends; exact hends

end Run

end ScriptSplit
