import ScriptSplit.Proofs.Files.Follow
import ScriptSplit.Proofs.Run.Storage

/-!
# Running again

A task is made again if, on the files that a repetition has at the same point, it gives the same value or
fails for the same reason, and the files of the repetition go on following those of the first run.

What the first run does after the task matters as well: a directory that it makes later is there already
when the task is made again.
-/

namespace ScriptSplit

structure Reach where
  touched : Set Location
  made : Set Location

/-- A run and its repetition: what is around both, the directories that stand in both, and the places that
the repetition may touch. -/
structure Rerun where
  first : Surroundings
  again : Surroundings
  environment : again.environment = first.environment
  faults : again.faults = first.faults
  current : Location
  standing : Set Path
  touched : Set Location
  /-- Whether a failure of the first run is to be made again as well. -/
  failures : Prop

namespace Rerun

structure Ready (r : Rerun) (files : Files) : Prop where
  current : files.current = r.current
  standing : ∀ path ∈ r.standing, files.Standing path

theorem Ready.changes {r : Rerun} {touched made : Set Location} {before after : Files}
    (h : r.Ready before) (hchanges : Files.Changes touched made before after) : r.Ready after where
  current := hchanges.current.trans h.current
  standing path hpath := hchanges.standing (h.standing path hpath)

def within (r : Rerun) (path : Path) : Rerun :=
  { r with standing := insert path r.standing }

structure Writable (r : Rerun) (reach : Reach) (directory : Path) (name : String) : Prop where
  standing : directory ∈ r.standing
  isName : name ≠ ".."
  touched : Storage.touchedBy directory name r.current ⊆ reach.touched
  again : Storage.touchedBy directory name r.current ⊆ r.touched
  made : ∀ location ∈ Storage.touchedBy directory name r.current, location ∉ reach.made

end Rerun

namespace Run

variable {α β : Type} {surroundings : Surroundings} {s s' : RunState}

theorem filesAfter_ok {task : Run α} {a : α} (hrun : task surroundings s = .ok a s') :
    filesAfter task surroundings s = s'.files := by
  simp only [filesAfter, hrun]

theorem filesAfter_error {task : Run α} {cause : Failure}
    (hrun : task surroundings s = .error cause s') :
    filesAfter task surroundings s = s'.files := by
  simp only [filesAfter, hrun]

theorem bestEffort_ok {name : String} {task : Run α} {a : α}
    (hrun : task surroundings s = .ok a s') :
    bestEffort name task surroundings s = .ok (some a, []) s' := by
  have hattempt : attempt task surroundings s = .ok (.ok a) s' := by simp [attempt, hrun]
  unfold bestEffort
  rw [bind_eq hattempt]
  rfl

theorem bestEffort_error (name : String) {task : Run α} {cause : Failure}
    (hrun : task surroundings s = .error cause s') :
    ∃ log, bestEffort name task surroundings s =
      .ok (none, [linkWarning (name ++ " failed: " ++ cause.message)]) { s' with log } := by
  have hattempt : attempt task surroundings s = .ok (.error cause) s' := by simp [attempt, hrun]
  unfold bestEffort
  rw [bind_eq hattempt]
  exact ⟨_, rfl⟩

def warned (source : String) (warning : Warning) (s : RunState) : RunState :=
  { s with
    log := { level := .warning, source, text := warning.stage.name ++ ": " ++ warning.message } ::
      s.log }

/-- A task changes no more than its reach allows, and it is made again by a repetition for which the
rest of the first run stays within the same reach. Afterwards more may be known to be the same. -/
structure Again (r : Rerun) (reach : Reach) (known known' : Set Location) (task : Run α) : Prop where
  grows : known ⊆ known'
  changes : ∀ s, r.Ready s.files →
    Files.Changes reach.touched reach.made s.files (filesAfter task r.first s)
  repeats : ∀ s t last, r.Ready s.files → Files.Follows r.touched known last s.files t.files →
    Files.Changes reach.touched reach.made (filesAfter task r.first s) last →
      match task r.first s with
      | .ok a s' => ∃ t', task r.again t = .ok a t' ∧
          Files.Follows r.touched known' last s'.files t'.files
      | .error cause s' => r.failures → ∃ t', task r.again t = .error cause t' ∧
          Files.Follows r.touched known last s'.files t'.files

namespace Again

variable {r : Rerun} {reach : Reach} {known known' known'' : Set Location} {task : Run α}

theorem ok {a : α} {t : RunState} {last : Files} (h : Again r reach known known' task)
    (hrun : task r.first s = .ok a s') (hs : r.Ready s.files)
    (hfollows : Files.Follows r.touched known last s.files t.files)
    (hrest : Files.Changes reach.touched reach.made s'.files last) :
    ∃ t', task r.again t = .ok a t' ∧ Files.Follows r.touched known' last s'.files t'.files := by
  rw [← filesAfter_ok hrun] at hrest
  have hrepeats := h.repeats s t last hs hfollows hrest
  rw [hrun] at hrepeats
  exact hrepeats

theorem changes_ok {a : α} (h : Again r reach known known' task)
    (hrun : task r.first s = .ok a s') (hs : r.Ready s.files) :
    Files.Changes reach.touched reach.made s.files s'.files := by
  rw [← filesAfter_ok hrun]
  exact h.changes s hs

theorem pure (a : α) : Again r reach known known (pure a : Run α) where
  grows := Set.Subset.refl _
  changes _ _ := .refl ..
  repeats _ t _ _ hfollows _ := ⟨t, rfl, hfollows⟩

theorem throw (cause : Failure) : Again r reach known known (throw cause : Run α) where
  grows := Set.Subset.refl _
  changes _ _ := .refl ..
  repeats _ t _ _ hfollows _ _ := ⟨t, rfl, hfollows⟩

/-- The second of two steps has to be made again for the values alone that the first gives. -/
theorem bind {next : α → Run β} (htask : Again r reach known known' task)
    (hnext : ∀ a, (∃ s s', task r.first s = .ok a s') → Again r reach known' known'' (next a))
    (hgrows : known' ⊆ known'') : Again r reach known known'' (task >>= next) := by
  have hafter : ∀ s, r.Ready s.files → ∀ a s', task r.first s = .ok a s' → r.Ready s'.files := by
    intro s hs a s' hrun
    have hchanges := htask.changes s hs
    rw [filesAfter_ok hrun] at hchanges
    exact hs.changes hchanges
  have hfiles : ∀ s a s', task r.first s = .ok a s' →
      filesAfter (task >>= next) r.first s = filesAfter (next a) r.first s' := by
    intro s a s' hrun
    simp only [filesAfter, bind_eq hrun]
  constructor
  · exact htask.grows.trans hgrows
  · intro s hs
    have hfirst := htask.changes s hs
    cases hrun : task r.first s with
    | ok a s' =>
        rw [filesAfter_ok hrun] at hfirst
        rw [hfiles s a s' hrun]
        exact hfirst.trans ((hnext a ⟨s, s', hrun⟩).changes s' (hafter s hs a s' hrun))
    | error cause s' =>
        rw [filesAfter_error hrun] at hfirst
        rw [filesAfter_error (bind_eq_error hrun)]
        exact hfirst
  · intro s t last hs hfollows hrest
    have hfirst := htask.repeats s t last hs hfollows
    cases hrun : task r.first s with
    | ok a s' =>
        have hready := hafter s hs a s' hrun
        have hagain' := hnext a ⟨s, s', hrun⟩
        rw [hfiles s a s' hrun] at hrest
        rw [filesAfter_ok hrun, hrun] at hfirst
        obtain ⟨t', hagain, hbetween⟩ := hfirst ((hagain'.changes s' hready).trans hrest)
        have hsecond := hagain'.repeats s' t' last hready hbetween hrest
        rw [bind_eq hrun, bind_eq hagain]
        cases hlast : next a r.first s' with
        | ok b s'' => rw [hlast] at hsecond; exact hsecond
        | error cause s'' =>
            rw [hlast] at hsecond
            intro hfailures
            obtain ⟨t'', hrun'', hfollows''⟩ := hsecond hfailures
            exact ⟨t'', hrun'', hfollows''.mono (Set.Subset.refl _) htask.grows⟩
    | error cause s' =>
        rw [filesAfter_error (bind_eq_error hrun)] at hrest
        rw [filesAfter_error hrun, hrun] at hfirst
        rw [bind_eq_error hrun]
        intro hfailures
        obtain ⟨t', hagain, hbetween⟩ := hfirst hrest hfailures
        exact ⟨t', bind_eq_error hagain, hbetween⟩

theorem seq {next : α → Run β} (htask : Again r reach known known task)
    (hnext : ∀ a, Again r reach known known (next a)) :
    Again r reach known known (task >>= next) :=
  htask.bind (fun a _ => hnext a) (Set.Subset.refl _)

theorem forget (h : Again r reach known known' task) : Again r reach known known task where
  grows := Set.Subset.refl _
  changes := h.changes
  repeats s t last hs hfollows hrest := by
    have hrepeats := h.repeats s t last hs hfollows hrest
    cases hrun : task r.first s with
    | ok a s' =>
        rw [hrun] at hrepeats
        obtain ⟨t', hagain, hbetween⟩ := hrepeats
        exact ⟨t', hagain, hbetween.mono (Set.Subset.refl _) h.grows⟩
    | error cause s' =>
        rw [hrun] at hrepeats
        exact hrepeats

/-- A step that a trial makes fail fails in both runs. -/
theorem step {kind : LinkStep} (h : Again r reach known known' task) :
    Again r reach known known' (Run.step kind task) := by
  cases hfault : r.first.faults.lookup kind with
  | some reason =>
      have hstep : ∀ surroundings s, surroundings.faults.lookup kind = some reason →
          Run.step kind task surroundings s = .error (.injected reason) s := by
        intro surroundings s hlookup
        simp only [Run.step, bind_read_eq, hlookup]
        rfl
      constructor
      · exact h.grows
      · intro s _
        simp only [filesAfter, hstep _ _ hfault]
        exact .refl ..
      · intro s t last _ hfollows _
        rw [hstep _ _ hfault, hstep _ _ (r.faults ▸ hfault)]
        exact fun _ => ⟨t, rfl, hfollows⟩
  | none =>
      have hstep : ∀ surroundings s, surroundings.faults.lookup kind = none →
          Run.step kind task surroundings s = task surroundings s := by
        intro surroundings s hlookup
        simp only [Run.step, bind_read_eq, hlookup]
      constructor
      · exact h.grows
      · intro s hs
        have hchanges := h.changes s hs
        simp only [filesAfter, hstep _ _ hfault]
        exact hchanges
      · intro s t last hs hfollows hrest
        have hrepeats := h.repeats s t last hs hfollows
        simp only [filesAfter, hstep _ _ hfault] at hrest
        rw [hstep _ _ hfault, hstep _ _ (r.faults ▸ hfault)]
        exact hrepeats hrest

theorem step_pure {kind : LinkStep} (a : α) :
    Again r reach known known (Run.step kind (Pure.pure a)) :=
  (Again.pure a).step

theorem bind_warn {source : String} {warning : Warning} {next : Unit → Run β}
    (h : Again r reach known known' (next ())) :
    Again r reach known known' (warn source warning >>= next) where
  grows := h.grows
  changes s hs := h.changes (warned source warning s) hs
  repeats s t last hs hfollows hrest :=
    h.repeats (warned source warning s) (warned source warning t) last hs hfollows hrest

/-- A step that may fail fails in both runs or in none, and warns of the same. -/
theorem bestEffort {name : String} (h : Again r reach known known task) (hfailures : r.failures) :
    Again r reach known known (Run.bestEffort name task) := by
  have hfiles : ∀ s, filesAfter (Run.bestEffort name task) r.first s =
      filesAfter task r.first s := by
    intro s
    cases hrun : task r.first s with
    | ok a s' => rw [filesAfter_ok (bestEffort_ok hrun), filesAfter_ok hrun]
    | error cause s' =>
        obtain ⟨log, hbest⟩ := bestEffort_error name hrun
        rw [filesAfter_ok hbest, filesAfter_error hrun]
  constructor
  · exact h.grows
  · intro s hs
    rw [hfiles]
    exact h.changes s hs
  · intro s t last hs hfollows hrest
    rw [hfiles] at hrest
    have hrepeats := h.repeats s t last hs hfollows hrest
    cases hrun : task r.first s with
    | ok a s' =>
        rw [hrun] at hrepeats
        obtain ⟨t', hagain, hbetween⟩ := hrepeats
        rw [bestEffort_ok hrun]
        exact ⟨t', bestEffort_ok hagain, hbetween⟩
    | error cause s' =>
        rw [hrun] at hrepeats
        obtain ⟨t', hagain, hbetween⟩ := hrepeats hfailures
        obtain ⟨log, hbest⟩ := bestEffort_error name hrun
        obtain ⟨log', hbest'⟩ := bestEffort_error name hagain
        rw [hbest]
        exact ⟨_, hbest', hbetween⟩

theorem foldlM {step : β → α → Run β} {list : List α} {start : β}
    (hstep : ∀ b, ∀ a ∈ list, Again r reach known known (step b a)) :
    Again r reach known known (list.foldlM step start) := by
  induction list generalizing start with
  | nil => exact .pure start
  | cons a list ih =>
      rw [List.foldlM_cons]
      exact (hstep start a (by simp)).seq fun b => ih fun b' a' ha' => hstep b' a' (by simp [ha'])

/-- What each round learns is known after all of them. -/
theorem foldlM_learning {step : β → α → Run β} {place : α → Location} {list : List α} {start : β}
    (hstep : ∀ known b, ∀ a ∈ list, Again r reach known (insert (place a) known) (step b a)) :
    Again r reach known (known ∪ { location | ∃ a ∈ list, location = place a })
      (list.foldlM step start) := by
  induction list generalizing known start with
  | nil => simpa using Again.pure start
  | cons a list ih =>
      rw [List.foldlM_cons]
      have hall : known ∪ { location | ∃ b ∈ a :: list, location = place b } =
          insert (place a) known ∪ { location | ∃ b ∈ list, location = place b } := by
        ext location
        simp only [List.mem_cons, exists_eq_or_imp, Set.mem_union, Set.mem_ofPred_eq,
          Set.mem_insert_iff]
        tauto
      rw [hall]
      apply (hstep known start a (by simp)).bind _ Set.subset_union_left
      exact fun b _ => ih fun known b' a' ha' => hstep known b' a' (by simp [ha'])

theorem mapM {task : α → Run β} {list : List α}
    (hstep : ∀ a ∈ list, Again r reach known known (task a)) :
    Again r reach known known (list.mapM task) := by
  induction list with
  | nil => exact .pure []
  | cons a list ih =>
      rw [List.mapM_cons]
      apply (hstep a (by simp)).seq
      intro b
      apply (ih fun a' ha' => hstep a' (by simp [ha'])).seq
      intro bs
      exact .pure _

theorem look {γ : Type} {view : Files → γ} {next : γ → Run α}
    (hview : ∀ first last again touched made, r.Ready first → r.Ready again →
      Files.Changes touched made first last → Files.Follows r.touched known last first again →
        view again = view first)
    (hnext : ∀ c, Again r reach known known' (next c)) :
    Again r reach known known' (Run.files >>= fun files => next (view files)) where
  grows := (hnext (view {})).grows
  changes s hs := (hnext (view s.files)).changes s hs
  repeats s t last hs hfollows hrest := by
    have hlast := ((hnext (view s.files)).changes s hs).trans hrest
    have ht : r.Ready t.files := (hs.changes hlast).changes hfollows.changed
    have hsame := hview s.files last t.files _ _ hs ht hlast hfollows
    have hrepeats := (hnext (view s.files)).repeats s t last hs hfollows hrest
    rw [bind_files_eq, bind_files_eq, hsame]
    exact hrepeats

/-! ## Reading and writing again -/

theorem storing {task : Storage α} (hgrows : known ⊆ known')
    (hchanges : ∀ first, r.Ready first →
      Files.Changes reach.touched reach.made first (Storage.filesAfter task first))
    (hrepeats : ∀ first again last, r.Ready first → r.Ready again →
      Files.Changes reach.touched reach.made first last →
        Files.Follows r.touched known last first again →
          match task first with
          | .ok a first' => ∃ again', task again = .ok a again' ∧
              Files.Follows r.touched known' last first' again'
          | .error cause first' => r.failures → ∃ again', task again = .error cause again' ∧
              Files.Follows r.touched known last first' again') :
    Again r reach known known' (Run.storing task) where
  grows := hgrows
  changes s hs := by
    have hfirst := hchanges s.files hs
    unfold Storage.filesAfter at hfirst
    cases hrun : task s.files with
    | ok a files =>
        rw [hrun] at hfirst
        simp only [filesAfter, Run.storing, hrun]
        exact hfirst
    | error cause files =>
        rw [hrun] at hfirst
        simp only [filesAfter, Run.storing, hrun]
        exact hfirst
  repeats s t last hs hfollows hrest := by
    have hafter : filesAfter (Run.storing task) r.first s = Storage.filesAfter task s.files := by
      unfold filesAfter Run.storing Storage.filesAfter
      cases task s.files <;> rfl
    rw [hafter] at hrest
    have hlast := (hchanges s.files hs).trans hrest
    have ht : r.Ready t.files := (hs.changes hlast).changes hfollows.changed
    have hends := hrepeats s.files t.files last hs ht hlast hfollows
    cases hrun : task s.files with
    | ok a files =>
        rw [hrun] at hends
        obtain ⟨again', hagain, hbetween⟩ := hends
        simp only [Run.storing, hrun, hagain]
        exact ⟨_, rfl, hbetween⟩
    | error cause files =>
        rw [hrun] at hends
        simp only [Run.storing, hrun]
        intro hfailures
        obtain ⟨again', hagain, hbetween⟩ := hends hfailures
        simp only [hagain]
        exact ⟨_, rfl, hbetween⟩

theorem reading {task : Storage α}
    (hsame : ∀ first again, r.Ready first → r.Ready again →
      (∀ location ∈ known, again.entry? location = first.entry? location) →
        Storage.Agrees task first again) :
    Again r reach known known (Run.storing task) := by
  apply storing (Set.Subset.refl _)
  · intro first hfirst
    unfold Storage.filesAfter
    rcases hsame first first hfirst hfirst fun _ _ => rfl with ⟨a, hrun, -⟩ | ⟨cause, hrun, -⟩ <;>
      rw [hrun]
  · intro first again last hfirst hagain _ hfollows
    rcases hsame first again hfirst hagain hfollows.same with
      ⟨a, hrun, hends⟩ | ⟨cause, hrun, hends⟩
    · rw [hrun]
      exact ⟨again, hends, hfollows⟩
    · rw [hrun]
      exact fun _ => ⟨again, hends, hfollows⟩

variable {directory : Path} {name : String}

theorem readText (hdirectory : directory ∈ r.standing) (hname : name ≠ "..")
    (hknown : directory.place r.current ++ [name] ∈ known) :
    Again r reach known known (Run.storing (Storage.readText (directory.child name))) := by
  apply reading
  intro first again hfirst hagain hsame
  apply Storage.readText_agrees (hfirst.standing _ hdirectory) (hagain.standing _ hdirectory) hname
    (hagain.current.trans hfirst.current.symm)
  rw [hfirst.current]
  exact hsame _ hknown

theorem has (hdirectory : directory ∈ r.standing) (hname : name ≠ "..")
    (hknown : directory.place r.current ++ [name] ∈ known) {yes no : Run α}
    (hyes : Again r reach known known' yes) (hno : Again r reach known known' no) :
    Again r reach known known' (Run.files >>= fun files =>
      if files.has (directory.child name) = true then yes else no) := by
  have hview : ∀ first last again touched made, r.Ready first → r.Ready again →
      Files.Changes touched made first last → Files.Follows r.touched known last first again →
        again.has (directory.child name) = first.has (directory.child name) := by
    intro first last again touched made hfirst hagain _ hfollows
    have hentry := hfollows.same _ hknown
    rw [Files.has, Files.has, (hagain.standing _ hdirectory).at?_child hname,
      (hfirst.standing _ hdirectory).at?_child hname, hagain.current, hfirst.current, hentry]
  have hnext : ∀ c : Bool, Again r reach known known' (if c = true then yes else no) := by
    intro c
    cases c with
    | false => exact hno
    | true => exact hyes
  exact look hview hnext

theorem writeText (h : r.Writable reach directory name) (text : Text) :
    Again r reach known (insert (directory.place r.current ++ [name]) known)
      (Run.storing (Storage.writeText (directory.child name) text)) := by
  have htarget : directory.place r.current ++ [name] ∈
      Storage.touchedBy directory name r.current := Or.inl rfl
  have haside : Storage.asideOf directory name r.current ∈
      Storage.touchedBy directory name r.current := Or.inr rfl
  have hne : Storage.asideOf directory name r.current ≠ [] := by simp [Storage.asideOf]
  have hdiff : directory.place r.current ++ [name] ≠ Storage.asideOf directory name r.current := by
    simpa [Storage.asideOf] using Path.ne_temporaryName name
  apply storing (Set.subset_insert _ _)
  · intro first hfirst
    have hwrite := Storage.writeText_standing_changes (hfirst.standing _ h.standing) h.isName text
    rw [hfirst.current] at hwrite
    unfold Storage.filesAfter
    cases hrun : Storage.writeText (directory.child name) text first with
    | ok _ after =>
        rw [hrun] at hwrite
        exact hwrite.1.mono h.touched (Set.empty_subset _)
    | error cause after =>
        rw [hrun] at hwrite
        exact hwrite.mono (Set.singleton_subset_iff.2 (h.touched haside)) (Set.empty_subset _)
  · intro first again last hfirst hagain hlast hfollows
    have hwrite := Storage.writeText_standing (hfirst.standing _ h.standing) h.isName text
    have hwrite' := Storage.writeText_standing (hagain.standing _ h.standing) h.isName text
    rw [hfirst.current] at hwrite
    rw [hagain.current] at hwrite'
    simp only [show directory.place r.current ++ [Path.temporaryName name] =
      Storage.asideOf directory name r.current from rfl] at hwrite hwrite'
    have hasideSame := hfollows.directory_iff hlast (h.made _ haside)
    have htargetSame := hfollows.directory_iff hlast (h.made _ htarget)
    by_cases hblocked : first.entry? (Storage.asideOf directory name r.current) = some .directory
    · rw [if_pos hblocked] at hwrite
      rw [if_pos (hasideSame.2 hblocked)] at hwrite'
      rw [hwrite]
      exact fun _ => ⟨again, hwrite', hfollows⟩
    rw [if_neg hblocked] at hwrite
    rw [if_neg (mt hasideSame.1 hblocked)] at hwrite'
    have hput := hfollows.put_file (h.again haside) hblocked (mt hasideSame.1 hblocked)
      (.text text)
    by_cases hcovered : first.entry? (directory.place r.current ++ [name]) = some .directory
    · rw [if_pos hcovered] at hwrite
      rw [if_pos (htargetSame.2 hcovered)] at hwrite'
      rw [hwrite]
      exact fun _ => ⟨_, hwrite', hput.mono (Set.Subset.refl _) (Set.subset_insert _ _)⟩
    rw [if_neg hcovered] at hwrite
    rw [if_neg (mt htargetSame.1 hcovered)] at hwrite'
    rw [hwrite]
    refine ⟨_, hwrite', ?_⟩
    have hfile : Files.entry? (again.put (Storage.asideOf directory name r.current)
        (.file (.text text))) (Storage.asideOf directory name r.current) ≠ some .directory := by
      rw [Files.entry?_put _ hne, if_pos rfl]
      simp
    have hmoved : ∀ files : Files,
        files.entry? (directory.place r.current ++ [name]) ≠ some .directory →
          Files.entry? ((files.put (Storage.asideOf directory name r.current)
            (.file (.text text))).remove (Storage.asideOf directory name r.current))
              (directory.place r.current ++ [name]) ≠ some .directory := by
      intro files hfiles
      rw [Files.entry?_remove _ hne, if_neg hdiff, Files.entry?_put _ hne, if_neg hdiff]
      exact hfiles
    have hlastly := (hput.remove (h.again haside) hne hfile).put_file (h.again htarget)
      (hmoved _ hcovered) (hmoved _ (mt htargetSame.1 hcovered)) (.text text)
    exact hlastly.mono (Set.Subset.refl _) (Set.insert_subset_insert (Set.subset_insert _ _))

theorem copyFile {target : Path} {copy : String} (hdirectory : directory ∈ r.standing)
    (hname : name ≠ "..") (hknown : directory.place r.current ++ [name] ∈ known)
    (htarget : target ∈ r.standing) (hcopy : copy ≠ "..")
    (htouched : target.place r.current ++ [copy] ∈ reach.touched)
    (hagain : target.place r.current ++ [copy] ∈ r.touched)
    (hmade : target.place r.current ++ [copy] ∉ reach.made) :
    Again r reach known (insert (target.place r.current ++ [copy]) known)
      (Run.storing (Storage.copyFile (directory.child name) (target.child copy))) := by
  apply storing (Set.subset_insert _ _)
  · intro first hfirst
    unfold Storage.filesAfter
    rw [Storage.copyFile_child (hfirst.standing _ hdirectory) (hfirst.standing _ htarget) hname hcopy,
      hfirst.current]
    cases first.entry? (directory.place r.current ++ [name]) with
    | none => exact .refl ..
    | some entry =>
        cases entry with
        | directory => exact .refl ..
        | file content =>
            simp only
            by_cases hcovered : first.entry? (target.place r.current ++ [copy]) = some .directory
            · rw [if_pos hcovered]
            · rw [if_neg hcovered]
              exact (Files.put_file_changes hcovered _).mono
                (Set.singleton_subset_iff.2 htouched) (Set.empty_subset _)
  · intro first again last hfirst hagain' hlast hfollows
    have hsame := hfollows.directory_iff hlast hmade
    rw [Storage.copyFile_child (hfirst.standing _ hdirectory) (hfirst.standing _ htarget) hname hcopy,
      Storage.copyFile_child (hagain'.standing _ hdirectory) (hagain'.standing _ htarget) hname hcopy,
      hfirst.current, hagain'.current, hfollows.same _ hknown]
    cases first.entry? (directory.place r.current ++ [name]) with
    | none => exact fun _ => ⟨again, rfl, hfollows⟩
    | some entry =>
        cases entry with
        | directory => exact fun _ => ⟨again, rfl, hfollows⟩
        | file content =>
            simp only
            by_cases hcovered : first.entry? (target.place r.current ++ [copy]) = some .directory
            · rw [if_pos hcovered, if_pos (hsame.2 hcovered)]
              exact fun _ => ⟨again, rfl, hfollows⟩
            · rw [if_neg hcovered, if_neg (mt hsame.1 hcovered)]
              exact ⟨_, rfl, hfollows.put_file hagain hcovered (mt hsame.1 hcovered) content⟩

/-- A directory that the first run makes stands when the repetition comes to it. -/
theorem making {path : Path} {next : Unit → Run β}
    (hreach : ∀ first, r.Ready first →
      match Storage.makeDirectories path first with
      | .ok _ made => Files.Changes ∅ reach.made first made
      | .error _ made => Files.Changes ∅ reach.made first made)
    (hfailed : r.failures → ∀ first again last cause made, r.Ready first → r.Ready again →
      Storage.makeDirectories path first = .error cause made →
        Files.Changes reach.touched reach.made made last →
          Files.Follows r.touched known last first again →
            Storage.makeDirectories path again = .error cause again)
    (hnext : Again (r.within path) reach known known' (next ())) :
    Again r reach known known' (Run.storing (Storage.makeDirectories path) >>= next) := by
  have hfollowing : ∀ {first made last again : Files}, Files.Changes ∅ reach.made first made →
      Files.Changes reach.touched reach.made made last →
        Files.Follows r.touched known last first again →
          Files.Follows r.touched known last made again := by
    intro first made last again hmade hlast hfollows
    have hnew : ∀ location, made.entry? location = first.entry? location ∨
        made.entry? location = some .directory ∧ again.entry? location = some .directory ∧
          last.entry? location = some .directory := by
      intro location
      rcases hmade.kept location (by simp) with hsame | ⟨-, hdirectory, -⟩
      · exact Or.inl hsame
      · have hlastDirectory := hlast.directory location hdirectory
        exact Or.inr ⟨hdirectory, hfollows.changed.directory location hlastDirectory,
          hlastDirectory⟩
    apply hfollows.advance
    · intro location
      rcases hnew location with hsame | ⟨-, hagain, hlastDirectory⟩
      · exact Or.inl hsame
      · exact Or.inr (hagain.trans hlastDirectory.symm)
    · intro location hlocation
      rcases hnew location with hsame | ⟨hdirectory, hagain, -⟩
      · rw [hsame]
        exact hfollows.same location hlocation
      · exact hagain.trans hdirectory.symm
  have hready : ∀ {first made : Files}, r.Ready first →
      Storage.makeDirectories path first = .ok () made → (r.within path).Ready made := by
    intro first made hfirst hrun
    have hchanges := hreach first hfirst
    rw [hrun] at hchanges
    refine ⟨(hfirst.changes hchanges).current, ?_⟩
    rintro other (rfl | hother)
    · have hmeets := Storage.makeDirectories_meets other first
      rw [hrun] at hmeets
      exact hmeets.2
    · exact (hfirst.changes hchanges).standing other hother
  constructor
  · exact hnext.grows
  · intro s hs
    have hchanges := hreach s.files hs
    cases hrun : Storage.makeDirectories path s.files with
    | ok _ made =>
        rw [hrun] at hchanges
        have hbind : (Run.storing (Storage.makeDirectories path) >>= next) r.first s =
            next () r.first { s with files := made } := bind_eq (storing_eq hrun)
        simp only [filesAfter, hbind]
        exact (hchanges.mono (Set.empty_subset _) (Set.Subset.refl _)).trans
          (hnext.changes { s with files := made } (hready hs hrun))
    | error cause made =>
        rw [hrun] at hchanges
        have hbind : (Run.storing (Storage.makeDirectories path) >>= next) r.first s =
            .error cause { s with files := made } :=
          bind_eq_error (by simp only [Run.storing, hrun])
        rw [filesAfter_error hbind]
        exact hchanges.mono (Set.empty_subset _) (Set.Subset.refl _)
  · intro s t last hs hfollows hrest
    have hchanges := hreach s.files hs
    cases hrun : Storage.makeDirectories path s.files with
    | ok _ made =>
        rw [hrun] at hchanges
        have hmade := hready hs hrun
        have hbind : (Run.storing (Storage.makeDirectories path) >>= next) r.first s =
            next () r.first { s with files := made } := bind_eq (storing_eq hrun)
        have hafter := hnext.changes { s with files := made } hmade
        simp only [filesAfter, hbind] at hrest hafter
        have hlast := hafter.trans hrest
        have hstanding : t.files.Standing path := hfollows.changed.standing
          (hlast.standing (hmade.standing path (Set.mem_insert _ _)))
        have hagain : Run.storing (Storage.makeDirectories path) r.again t = .ok () t :=
          storing_eq (Storage.makeDirectories_standing hstanding)
        rw [hbind, bind_eq hagain]
        exact hnext.repeats { s with files := made } t last hmade
          (hfollowing hchanges hlast hfollows) hrest
    | error cause made =>
        rw [hrun] at hchanges
        have hbind : (Run.storing (Storage.makeDirectories path) >>= next) r.first s =
            .error cause { s with files := made } :=
          bind_eq_error (by simp only [Run.storing, hrun])
        rw [filesAfter_error hbind] at hrest
        rw [hbind]
        intro hfailures
        have hlast := (hchanges.mono (Set.empty_subset _) (Set.Subset.refl _)).trans hrest
        have ht : r.Ready t.files := (hs.changes hlast).changes hfollows.changed
        have hagain := hfailed hfailures s.files t.files last cause made hs ht hrun hrest hfollows
        exact ⟨t, bind_eq_error (by simp only [Run.storing, hagain]),
          hfollowing hchanges hrest hfollows⟩

end Again

end Run

end ScriptSplit
