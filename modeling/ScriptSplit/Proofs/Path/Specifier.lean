import ScriptSplit.Proofs.Path.Names

/-!
# Specifiers that lead back

The way from a directory to a target is one step up for every part of the directory that the two do not share, and then
what is left of the target. Taken from the directory it leads to the target. A specifier is read back as the way that
it was written for, whatever points, slashes and steps up the two paths were written with.
-/

namespace ScriptSplit

namespace Path

/-! ## Steps up and down -/

theorem climb_append (above front back : List String) :
    climb above (front ++ back) = climb (climb above front) back := by
  induction front generalizing above with
  | nil => rfl
  | cons part front ih =>
      simp only [List.cons_append, climb]
      split <;> exact ih _

theorem climb_up (above : List String) (n : Nat) : climb above (List.replicate n "..") = above.drop n := by
  induction n generalizing above with
  | zero => rfl
  | succ n ih => rw [List.replicate_succ, climb, if_pos rfl, ih, List.drop_tail]

theorem climb_down {parts : List String} (hdown : ∀ part ∈ parts, part ≠ "..") (above : List String) :
    climb above parts = parts.reverse ++ above := by
  induction parts generalizing above with
  | nil => rfl
  | cons part parts ih =>
      rw [List.forall_mem_cons] at hdown
      rw [climb, if_neg hdown.1, ih hdown.2, List.reverse_cons, List.append_assoc, List.singleton_append]

/-- One step up for every part of the base that is not shared, and then what is left of the target. -/
theorem exists_partsFrom (base target : List String) : ∃ shared left down, base = shared ++ left ∧
    target = shared ++ down ∧ partsFrom base target = List.replicate left.length ".." ++ down := by
  fun_induction partsFrom base target with
  | case1 base part target ih =>
      obtain ⟨shared, left, down, rfl, rfl, hway⟩ := ih
      exact ⟨part :: shared, left, down, rfl, rfl, hway⟩
  | case2 b base t target hapart =>
      refine ⟨[], b :: base, t :: target, rfl, rfl, ?_⟩
      rw [List.length_cons, List.replicate_succ, List.map_const']
  | case3 base target hends =>
      exact ⟨[], base, target, rfl, rfl, by rw [List.map_const']⟩

/-- The way from one place to another leads there. -/
theorem climb_partsFrom (base : List String) {target : List String} (hdown : ∀ part ∈ target, part ≠ "..") :
    climb base.reverse (partsFrom base target) = target.reverse := by
  obtain ⟨shared, left, down, rfl, rfl, hway⟩ := exists_partsFrom base target
  rw [List.forall_mem_append] at hdown
  calc climb (shared ++ left).reverse (partsFrom (shared ++ left) (shared ++ down))
      = climb (climb (left.reverse ++ shared.reverse) (List.replicate left.length "..")) down := by
        rw [hway, climb_append, List.reverse_append]
    _ = climb shared.reverse down := by
        rw [climb_up, ← List.length_reverse, List.drop_left]
    _ = (shared ++ down).reverse := by
        rw [climb_down hdown.2, List.reverse_append]

theorem mem_partsFrom {base target : List String} {part : String} (hpart : part ∈ partsFrom base target) :
    part = ".." ∨ part ∈ target := by
  obtain ⟨shared, left, down, -, rfl, hway⟩ := exists_partsFrom base target
  rw [hway, List.mem_append] at hpart
  rcases hpart with hup | hdown
  · exact Or.inl (List.eq_of_mem_replicate hup)
  · exact Or.inr (List.mem_append_right shared hdown)

theorem up_notMem_normal {path : Path} (hpath : path.Clean) : ∀ part ∈ path.normal.parts, part ≠ ".." :=
  fun _ hpart => (isName_of_mem_normal hpath hpart).notUp

/-- What the way is joined to decides where it begins, and no more. -/
theorem normal_join_parts (directory : Path) {way : Path} (hway : way.isAbsolute = false) :
    (directory.join way).normal.parts = (climb directory.normal.parts.reverse way.parts).reverse := by
  simp only [join, hway, normal, Bool.false_eq_true, if_false, climb_append, List.reverse_reverse]

/-! ## Written ways -/

theorem splitAny_intercalate {parts : List String} (hne : parts ≠ [])
    (hparts : ∀ part ∈ parts, '/' ∉ part.toList) :
    Text.splitAny (· == '/') ("/".intercalate parts).toList = parts.map String.toList := by
  have hnone {part : String} (hpart : '/' ∉ part.toList) : ∀ c ∈ part.toList, (c == '/') = false :=
    fun c hc => beq_false_of_ne fun heq => hpart (heq ▸ hc)
  rw [String.toList_intercalate]
  induction parts with
  | nil => exact absurd rfl hne
  | cons part parts ih =>
      rw [List.forall_mem_cons] at hparts
      cases parts with
      | nil =>
          rw [List.map_singleton, List.intercalate_singleton]
          exact Text.splitAny_of_forall_not (hnone hparts.1)
      | cons next parts =>
          rw [List.map_cons, List.map_cons, List.intercalate_cons_cons, List.append_assoc,
            show "/".toList = ['/'] from rfl, List.singleton_append,
            Text.splitAny_append (hnone hparts.1) rfl, ← List.map_cons (f := String.toList),
            ← show "/".toList = ['/'] from rfl, ih (List.cons_ne_nil _ _) hparts.2]

theorem eq_relative {path : Path} {parts : List String} (hslashes : path.slashes = 0) (hparts : path.parts = parts) :
    path = { slashes := 0, parts } := by
  cases path
  cases hslashes
  cases hparts
  rfl

theorem ofString_slashes {s : String} (hhead : s.toList.head? ≠ some '/') : (ofString s).slashes = 0 := by
  have hnone : s.toList.takeWhile (· == '/') = [] := by
    cases hlist : s.toList with
    | nil => rfl
    | cons c rest =>
        have hc : c ≠ '/' := fun heq => hhead (by rw [hlist, heq]; rfl)
        rw [List.takeWhile_cons, if_neg (by simpa using hc)]
  simp only [ofString, hnone]
  rfl

/-- Parts that a path can have are read back from where they are written. -/
theorem ofString_intercalate {parts : List String} (hne : parts ≠ [])
    (hparts : ∀ part ∈ parts, '/' ∉ part.toList ∧ part ≠ "" ∧ part ≠ ".") :
    ofString ("/".intercalate parts) = { slashes := 0, parts } := by
  have hsplit := splitAny_intercalate hne fun part hpart => (hparts part hpart).1
  have hhead : ("/".intercalate parts).toList.head? ≠ some '/' := by
    intro hslash
    obtain ⟨rest, hlist⟩ := List.head?_eq_some_iff.1 hslash
    obtain ⟨part, more, rfl⟩ := List.exists_cons_of_ne_nil hne
    rw [hlist, Text.splitAny, if_pos (beq_self_eq_true '/'), List.map_cons, List.cons.injEq] at hsplit
    exact (hparts part List.mem_cons_self).2.1 (String.toList_eq_nil_iff.1 hsplit.1.symm)
  have hread : (ofString ("/".intercalate parts)).parts = parts := by
    have hwritten : String.ofList ∘ String.toList = id := funext fun _ => String.ofList_toList
    simp only [ofString, hsplit, List.map_map, hwritten, List.map_id]
    rw [List.filter_eq_self]
    intro part hpart
    simpa using (hparts part hpart).2
  exact eq_relative (ofString_slashes hhead) hread

theorem ofString_point (s : String) : ofString ("./" ++ s) = { slashes := 0, parts := (ofString s).parts } := by
  have hpoint : ∀ c ∈ ['.'], (c == '/') = false := by simp
  have htext : ("./" ++ s).toList = ['.'] ++ '/' :: s.toList := by
    rw [String.toList_append]
    rfl
  have hread : (ofString ("./" ++ s)).parts = (ofString s).parts := by
    simp only [ofString, htext, Text.splitAny_append hpoint (beq_self_eq_true '/'), List.map_cons]
    exact List.filter_cons_of_neg (by decide)
  exact eq_relative (ofString_slashes (by rw [htext]; simp)) hread

theorem specifierFrom_starts (directory target : Path) :
    "./".toList <+: (specifierFrom directory target).toList ∨
      "../".toList <+: (specifierFrom directory target).toList := by
  unfold specifierFrom
  dsimp only
  generalize (if (partsFrom directory.normal.parts target.normal.parts).isEmpty then "." else
    "/".intercalate (partsFrom directory.normal.parts target.normal.parts)) = way
  split
  · next hstarts =>
      simpa only [Bool.or_eq_true, List.isPrefixOf_iff_prefix] using hstarts
  · left
    rw [String.toList_append]
    exact List.prefix_append _ _

/-- A specifier is read as the way that it was written for. -/
theorem ofString_specifierFrom (directory : Path) {target : Path} (htarget : target.Clean) :
    ofString (specifierFrom directory target) =
      { slashes := 0, parts := partsFrom directory.normal.parts target.normal.parts } := by
  have hparts : ∀ part ∈ partsFrom directory.normal.parts target.normal.parts,
      '/' ∉ part.toList ∧ part ≠ "" ∧ part ≠ "." := by
    intro part hpart
    rcases mem_partsFrom hpart with rfl | hdown
    · exact ⟨by decide, by decide, by decide⟩
    · obtain ⟨hslash, hempty, hpoint, -⟩ := isName_of_mem_normal htarget hdown
      exact ⟨hslash, hempty, hpoint⟩
  unfold specifierFrom
  generalize partsFrom directory.normal.parts target.normal.parts = parts at hparts
  cases parts with
  | nil => decide
  | cons part parts =>
      have hread := ofString_intercalate (List.cons_ne_nil part parts) hparts
      simp only [List.isEmpty_cons, Bool.false_eq_true, if_false]
      split
      · exact hread
      · rw [ofString_point, hread]

theorem foldl_after (location : Location) (parts : List String) :
    parts.foldl Location.after location = (climb location.reverse parts).reverse := by
  induction parts generalizing location with
  | nil => rw [List.foldl_nil, climb, List.reverse_reverse]
  | cons part parts ih =>
      rw [List.foldl_cons, ih, climb, Location.after]
      split
      · rw [← List.tail_reverse]
      · rw [List.reverse_append, List.reverse_singleton, List.singleton_append]

/-- An absolute path leads to the place that its parts name without steps up. -/
theorem place_eq_normal {path : Path} (hpath : path.isAbsolute = true) (current : Location) :
    path.place current = path.normal.parts := by
  rw [place, start, if_pos hpath, foldl_after]
  rfl

/-- From an absolute directory a specifier leads to its absolute target, whatever points, slashes and steps up both are
written with. -/
theorem specifierFrom_leads {directory target : String} (hdirectory : (ofString directory).isAbsolute = true)
    (htarget : (ofString target).isAbsolute = true) :
    ("./".toList <+: (specifierFrom (ofString directory) (ofString target)).toList ∨
        "../".toList <+: (specifierFrom (ofString directory) (ofString target)).toList) ∧
      (ofString directory / specifierFrom (ofString directory) (ofString target)).normal.parts =
        (ofString target).normal.parts ∧
      ∀ current, (ofString directory / specifierFrom (ofString directory) (ofString target)).place current =
        (ofString target).place current := by
  have hparts : (ofString directory / specifierFrom (ofString directory) (ofString target)).normal.parts =
      (ofString target).normal.parts := by
    have hclean := ofString_clean target
    show ((ofString directory).join (ofString _)).normal.parts = _
    rw [ofString_specifierFrom _ hclean, normal_join_parts _ rfl, climb_partsFrom _ (up_notMem_normal hclean),
      List.reverse_reverse]
  refine ⟨specifierFrom_starts _ _, hparts, fun current => ?_⟩
  rw [place_eq_normal (div_isAbsolute hdirectory _), place_eq_normal htarget, hparts]

theorem specifierFrom_leads_dotted :
    (ofString "/srv//app/./lib").isAbsolute = true ∧ (ofString "/srv/app/../..cache/mod.js").isAbsolute = true ∧
      specifierFrom (ofString "/srv//app/./lib") (ofString "/srv/app/../..cache/mod.js") = "../../..cache/mod.js" ∧
      (ofString "/srv//app/./lib" / "../../..cache/mod.js").normal.parts = ["srv", "..cache", "mod.js"] := by
  have hdirectory : (ofString "/srv//app/./lib").isAbsolute = true := by decide +kernel
  have htarget : (ofString "/srv/app/../..cache/mod.js").isAbsolute = true := by decide +kernel
  have hspecifier : specifierFrom (ofString "/srv//app/./lib") (ofString "/srv/app/../..cache/mod.js") =
      "../../..cache/mod.js" := by decide +kernel
  have hleads := (specifierFrom_leads hdirectory htarget).2.1
  rw [hspecifier] at hleads
  exact ⟨hdirectory, htarget, hspecifier, hleads.trans (by decide +kernel)⟩

/-- A directory is one point away from itself, and its own directory two points. -/
example : specifierFrom (ofString "/srv/app") (ofString "/srv/./app/") = "./." ∧
    specifierFrom (ofString "/srv/app") (ofString "/srv") = "./.." := by decide +kernel

end Path

end ScriptSplit
