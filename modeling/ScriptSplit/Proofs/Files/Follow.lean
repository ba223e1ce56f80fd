import Mathlib.Data.Set.Lattice
import ScriptSplit.Proofs.Files.Change

/-!
# Files of a repetition

A run that is made again starts from the files that it left. At every place its files hold what the first
run left there in the end or what the first run had there at the same point. Once both runs have come to
their end, that is the same.
-/

namespace ScriptSplit.Files

/-- How the files `again` of a repetition stand to the files `first` that the run had at the same point and
to the files `last` that it left in the end: so far the repetition has changed files at `touched` places
alone, and at `known` places both have the same. -/
structure Follows (touched known : Set Location) (last first again : Files) : Prop where
  changed : Changes touched ∅ last again
  either : ∀ location, again.entry? location = last.entry? location ∨
    again.entry? location = first.entry? location
  same : ∀ location ∈ known, again.entry? location = first.entry? location

namespace Follows

variable {touched touched' known known' made : Set Location} {last first again : Files}
  {location : Location}

theorem start (touched : Set Location)
    (hknown : ∀ location ∈ known, last.entry? location = first.entry? location) :
    Follows touched known last first last where
  changed := .refl ..
  either _ := Or.inl rfl
  same := hknown

theorem mono (h : Follows touched known last first again) (htouched : touched ⊆ touched')
    (hknown : known' ⊆ known) : Follows touched' known' last first again where
  changed := h.changed.mono htouched (Set.Subset.refl _)
  either := h.either
  same location hlocation := h.same location (hknown hlocation)

theorem finish (h : Follows touched known last last again) (location : Location) :
    again.entry? location = last.entry? location :=
  (h.either location).elim id id

theorem advance {first' : Files} (h : Follows touched known last first again)
    (hstep : ∀ location, first'.entry? location = first.entry? location ∨
      again.entry? location = last.entry? location)
    (hknown : ∀ location ∈ known', again.entry? location = first'.entry? location) :
    Follows touched known' last first' again where
  changed := h.changed
  either location := by
    rcases hstep location with hsame | hlast
    · rw [hsame]
      exact h.either location
    · exact Or.inl hlast
  same := hknown

theorem learn (h : Follows touched known last first again)
    (hentry : again.entry? location = first.entry? location) :
    Follows touched (insert location known) last first again where
  changed := h.changed
  either := h.either
  same other hother := by
    rcases hother with rfl | hold
    · exact hentry
    · exact h.same other hold

/-- A step that the repetition makes without any effect, as its places are what they were in the end. -/
theorem settle {special : Set Location} {first' again' : Files}
    (h : Follows touched known last first again) (hstep : Changes special ∅ first first')
    (htouched : ∀ location ∈ special, location ∉ touched)
    (hknown : ∀ location ∈ known, location ∉ special) (hcurrent : again'.current = again.current)
    (hentry : ∀ location, again'.entry? location = again.entry? location) :
    Follows touched known last first' again' := by
  have hadvanced : Follows touched known last first' again := by
    apply h.advance
    · intro location
      by_cases hspecial : location ∈ special
      · exact Or.inr (h.changed.entry?_eq (htouched location hspecial) (Set.notMem_empty _))
      · exact Or.inl (hstep.entry?_eq hspecial (Set.notMem_empty _))
    · intro location hlocation
      rw [hstep.entry?_eq (hknown location hlocation) (Set.notMem_empty _)]
      exact h.same location hlocation
  constructor
  · exact hadvanced.changed.congr hcurrent hentry
  · intro location
    rw [hentry]
    exact hadvanced.either location
  · intro location hlocation
    rw [hentry]
    exact hadvanced.same location hlocation

/-! ## Directories -/

section Directories

variable (h : Follows touched known last first again) (hrest : Changes touched' made first last)

include h hrest

theorem current : again.current = first.current :=
  h.changed.current.trans hrest.current

theorem standing {path : Path} (hpath : first.Standing path) : again.Standing path :=
  h.changed.standing (hrest.standing hpath)

theorem directory_iff (hlocation : location ∉ made) :
    again.entry? location = some .directory ↔ first.entry? location = some .directory := by
  constructor
  · intro hagain
    rcases h.either location with hlast | hfirst
    · rw [hlast] at hagain
      exact (hrest.fresh location hagain).resolve_right hlocation
    · rw [← hfirst]
      exact hagain
  · exact fun hfirst => h.changed.directory location (hrest.directory location hfirst)

end Directories

/-! ## Writing in both -/

theorem put_file (h : Follows touched known last first again) (hlocation : location ∈ touched)
    (hfirst : first.entry? location ≠ some .directory)
    (hagain : again.entry? location ≠ some .directory) (content : Content) :
    Follows touched (insert location known) last (first.put location (.file content))
      (again.put location (.file content)) := by
  have hne : location ≠ [] := by
    rintro rfl
    exact hfirst rfl
  constructor
  · exact h.changed.trans ((put_file_changes hagain content).mono
      (Set.singleton_subset_iff.2 hlocation) (Set.Subset.refl _))
  · intro other
    rw [entry?_put again hne, entry?_put first hne]
    split
    · exact Or.inr rfl
    · exact h.either other
  · intro other hother
    rw [entry?_put again hne, entry?_put first hne]
    split
    · rfl
    · next hdiff => exact h.same other (hother.resolve_left hdiff)

theorem remove (h : Follows touched known last first again) (hlocation : location ∈ touched)
    (hne : location ≠ []) (hagain : again.entry? location ≠ some .directory) :
    Follows touched known last (first.remove location) (again.remove location) := by
  constructor
  · exact h.changed.trans ((remove_changes hagain).mono (Set.singleton_subset_iff.2 hlocation)
      (Set.Subset.refl _))
  · intro other
    rw [entry?_remove again hne, entry?_remove first hne]
    split
    · exact Or.inr rfl
    · exact h.either other
  · intro other hother
    rw [entry?_remove again hne, entry?_remove first hne, h.same other hother]

end Follows

end ScriptSplit.Files
