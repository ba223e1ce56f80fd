import ScriptSplit.Proofs.Run.FactsRoundTrip

/-!
# What files hold

A stage leaves texts in files and files that are there for the next one. A write takes none of these away if
it goes elsewhere; and where it goes to a file that is there, a file is there afterwards as well.
-/

namespace ScriptSplit.Storage

variable {current : Location} {texts : List StoredText} {paths : List Path} {touched : Set Location}
  {before after files : Files} {directory : Path} {name : String}

/-- The current directory of files, texts that are stored in them, and paths that lead to a file. -/
structure Holds (current : Location) (texts : List StoredText) (paths : List Path) (files : Files) :
    Prop where
  current : files.current = current
  stored : ∀ stored ∈ texts, files.textAt? stored.path = some stored.text
  file : ∀ path ∈ paths, ∃ content, files.at? path = some (.file content)

namespace Holds

theorem weaken {texts' : List StoredText} {paths' : List Path} (h : Holds current texts paths files)
    (htexts : texts' ⊆ texts) (hpaths : paths' ⊆ paths) : Holds current texts' paths' files where
  current := h.current
  stored stored hstored := h.stored stored (htexts hstored)
  file path hpath := h.file path (hpaths hpath)

theorem changes (h : Holds current texts paths before)
    (hchanges : Files.Changes touched Set.univ before after)
    (hstored : ∀ stored ∈ texts, stored.path.place current ∉ touched)
    (hfile : ∀ path ∈ paths, path.place current ∈ touched →
      ∃ content, after.entry? (path.place current) = some (.file content)) :
    Holds current texts paths after where
  current := hchanges.current.trans h.current
  stored stored hmem :=
    hchanges.textAt?_eq_some (by rw [h.current]; exact hstored stored hmem) (h.stored stored hmem)
  file path hpath := by
    obtain ⟨content, hat⟩ := h.file path hpath
    by_cases htouched : path.place current ∈ touched
    · obtain ⟨content', hentry⟩ := hfile path hpath htouched
      refine ⟨content', Files.at?_eq_some.2 ⟨?_, ?_⟩⟩
      · rw [hchanges.current]
        exact hchanges.locate_eq_ok (Files.at?_eq_some.1 hat).1
      · rw [hchanges.current, h.current]
        exact hentry
    · exact ⟨content, hchanges.at?_eq_some (by rw [h.current]; exact htouched) hat⟩

end Holds

theorem holds_stable (hstored : ∀ stored ∈ texts, stored.path.place current ∉ touched)
    (hpaths : ∀ path ∈ paths, path.place current ∉ touched) :
    Stable current touched (Holds current texts paths) where
  current _ hfiles := hfiles.current
  changes _ _ hchanges hbefore :=
    hbefore.changes hchanges hstored fun path hpath htouched => absurd htouched (hpaths path hpath)

theorem holds_stable_empty : Stable current ∅ (Holds current texts paths) :=
  holds_stable (fun _ _ => Set.notMem_empty _) fun _ _ => Set.notMem_empty _

theorem writeText_holds (hname : name ≠ "..")
    (hstored : ∀ stored ∈ texts, stored.path.place current ∉ touchedBy directory name current)
    (hpaths : ∀ path ∈ paths, path.place current ≠ asideOf directory name current) (text : Text) :
    Meets (Holds current texts paths) (writeText (directory.child name) text)
      (fun _ => Holds current ({ directory, name, text } :: texts) (directory.child name :: paths))
      (Holds current texts paths) := by
  have haside : {asideOf directory name current} ⊆ touchedBy directory name current :=
    Set.singleton_subset_iff.2 (Or.inr rfl)
  refine writeText_meets _ hname (holds_stable ?_ ?_) ?_
  · exact fun stored hmem hplace => hstored stored hmem (haside hplace)
  · exact hpaths
  intro before after hchanges hbefore hat
  have hentry := (Files.at?_child_eq_some hname hat).2
  rw [hchanges.current, hbefore.current] at hentry
  have hkept : Holds current texts paths after := by
    apply hbefore.changes hchanges hstored
    rintro path hpath (hplace | hplace)
    · exact ⟨_, hplace ▸ hentry⟩
    · exact absurd hplace (hpaths path hpath)
  exact ⟨hkept.current, List.forall_mem_cons.2 ⟨Files.textAt?_of_at? hat, hkept.stored⟩,
    List.forall_mem_cons.2 ⟨⟨_, hat⟩, hkept.file⟩⟩

theorem copyFile_holds (source : Path) (hname : name ≠ "..")
    (hstored : ∀ stored ∈ texts, stored.path.place current ≠ directory.place current ++ [name]) :
    Meets (Holds current texts paths) (copyFile source (directory.child name))
      (fun _ => Holds current texts paths) (Holds current texts paths) := by
  unfold copyFile
  apply Meets.seq (fun _ => Holds current texts paths)
  · constructor
    intro files hfiles
    cases hread : files.read source <;> simpa only [hread] using hfiles
  intro content
  constructor
  intro files hfiles
  simp only [change]
  cases hwrite : files.write (directory.child name) content with
  | error cause => exact hfiles
  | ok after =>
      obtain ⟨hchanges, hentry⟩ := Files.write_eq_ok hwrite
      rw [hfiles.current, Path.place_child hname] at hchanges hentry
      apply hfiles.changes (hchanges.mono (Set.Subset.refl _) (Set.empty_subset _)) hstored
      exact fun path _ hplace => ⟨content, hplace ▸ hentry⟩

/-! ## Places told apart by names -/

structure StoredText.Apart (stored : StoredText) (name : String) : Prop where
  isName : stored.name ≠ ".."
  target : stored.name ≠ name
  aside : stored.name ≠ Path.temporaryName name

theorem StoredText.Apart.place_not_mem {stored : StoredText} (h : stored.Apart name)
    (directory : Path) (current : Location) :
    stored.path.place current ∉ touchedBy directory name current := by
  rw [StoredText.path, Path.place_child h.isName]
  exact not_mem_touchedBy h.target h.aside

theorem holds_stable_apart (happart : ∀ stored ∈ texts, stored.Apart name) (directory : Path) :
    Stable current (touchedBy directory name current) (Holds current texts []) :=
  holds_stable (fun stored hmem => (happart stored hmem).place_not_mem directory current) (by simp)

end ScriptSplit.Storage
