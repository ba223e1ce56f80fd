import ScriptSplit.Proofs.Files.Place
import ScriptSplit.Proofs.Text.Split

/-!
# Names in paths

A written path has no slashes inside its parts, and a path without steps up is the directory that holds it
and a name.
-/

namespace ScriptSplit

namespace Path

structure IsName (name : String) : Prop where
  noSlash : '/' ∉ name.toList
  nonempty : name ≠ ""
  notPoint : name ≠ "."
  notUp : name ≠ ".."

/-- A path as it can be written: no part is empty, a single point or holds a slash. -/
def Clean (path : Path) : Prop :=
  ∀ part ∈ path.parts, '/' ∉ part.toList ∧ part ≠ "" ∧ part ≠ "."

theorem ofString_clean (s : String) : (ofString s).Clean := by
  intro part hpart
  simp only [ofString, List.mem_filter, List.mem_map, Bool.and_eq_true, bne_iff_ne] at hpart
  obtain ⟨⟨text, htext, rfl⟩, hempty, hpoint⟩ := hpart
  refine ⟨?_, hempty, hpoint⟩
  intro hslash
  rw [String.toList_ofList] at hslash
  simpa using (Text.of_mem_splitAny htext _ hslash).1

theorem ofString_name {name : String} (hname : IsName name) :
    ofString name = { slashes := 0, parts := [name] } := by
  have hnone : ∀ c ∈ name.toList, (c == '/') = false := by
    intro c hc
    have hne : c ≠ '/' := by
      rintro rfl
      exact hname.noSlash hc
    simpa using hne
  have htake : name.toList.takeWhile (· == '/') = [] := by
    cases hlist : name.toList with
    | nil => rfl
    | cons c rest =>
        have hc := hnone c (by simp [hlist])
        simp [hc]
  simp [ofString, htake, Text.splitAny_of_forall_not hnone, hname.nonempty, hname.notPoint]

theorem div_name (directory : Path) {name : String} (hname : IsName name) :
    directory / name = directory.child name := by
  show directory.join (ofString name) = directory.child name
  rw [ofString_name hname]
  rfl

theorem div_point_name (directory : Path) {name : String} (hname : IsName name) :
    directory / ("./" ++ name) = directory.child name := by
  have hnone : ∀ c ∈ name.toList, (c == '/') = false := fun c hc =>
    beq_false_of_ne fun heq => hname.noSlash (heq ▸ hc)
  have hsplit : Text.splitAny (· == '/') ("./" ++ name).toList = [['.'], name.toList] := by
    have hpoint : ∀ c ∈ ['.'], (c == '/') = false := by simp
    rw [String.toList_append, show "./".toList = ['.'] ++ ['/'] from rfl, List.append_assoc,
      List.singleton_append (x := '/'), Text.splitAny_append hpoint rfl, Text.splitAny_of_forall_not hnone]
  show directory.join (ofString ("./" ++ name)) = directory.child name
  have hread : ofString ("./" ++ name) = { slashes := 0, parts := [name] } := by
    simp only [ofString, hsplit]
    simp [hname.nonempty, hname.notPoint]
  rw [hread]
  rfl

theorem join_clean {directory path : Path} (hdirectory : directory.Clean) (hpath : path.Clean) :
    (directory.join path).Clean := by
  unfold join
  split
  · exact hpath
  · intro part hpart
    rcases List.mem_append.1 hpart with hpart | hpart
    · exact hdirectory part hpart
    · exact hpath part hpart

theorem div_clean {directory : Path} (hdirectory : directory.Clean) (s : String) :
    (directory / s).Clean :=
  join_clean hdirectory (ofString_clean s)

theorem mem_climb {part : String} {parts : List String} (above : List String)
    (hpart : part ∈ climb above parts) : part ∈ above ∨ part ∈ parts ∧ part ≠ ".." := by
  induction parts generalizing above with
  | nil => exact Or.inl hpart
  | cons first rest ih =>
      unfold climb at hpart
      split at hpart
      · rcases ih _ hpart with habove | ⟨hrest, hup⟩
        · exact Or.inl (List.mem_of_mem_tail habove)
        · exact Or.inr ⟨by simp [hrest], hup⟩
      · next hfirst =>
          rcases ih _ hpart with habove | ⟨hrest, hup⟩
          · rcases List.mem_cons.1 habove with rfl | habove
            · exact Or.inr ⟨by simp, hfirst⟩
            · exact Or.inl habove
          · exact Or.inr ⟨by simp [hrest], hup⟩

theorem climb_concat {part : String} (hpart : part ≠ "..") (parts above : List String) :
    climb above (parts ++ [part]) = part :: climb above parts := by
  induction parts generalizing above with
  | nil => simp [climb, hpart]
  | cons first rest ih =>
      rw [List.cons_append]
      unfold climb
      split
      · exact ih _
      · exact ih _

theorem isName_of_mem_normal {path : Path} (hpath : path.Clean) {part : String}
    (hpart : part ∈ path.normal.parts) : IsName part := by
  have hclimb : part ∈ climb [] path.parts := by simpa [normal] using hpart
  rcases mem_climb [] hclimb with hnil | ⟨hmem, hup⟩
  · simp at hnil
  · obtain ⟨hslash, hempty, hpoint⟩ := hpath part hmem
    exact ⟨hslash, hempty, hpoint, hup⟩

theorem div_isAbsolute {directory : Path} (hdirectory : directory.isAbsolute = true) (s : String) :
    (directory / s).isAbsolute = true := by
  show (directory.join (ofString s)).isAbsolute = true
  unfold join
  split
  · next habsolute => exact habsolute
  · exact hdirectory

theorem place_of_absolute {path : Path} (hpath : path.isAbsolute = true) (hparts : path.parts = [])
    (current : Location) : path.place current = [] := by
  simp [place, start, hpath, hparts]

end Path

end ScriptSplit
