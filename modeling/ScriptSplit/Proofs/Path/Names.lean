import ScriptSplit.Path.Names
import ScriptSplit.Proofs.Path.Basic

/-!
# Names beside a source

All files that a run writes beside a source are called after it. Behind the basename comes a point in the
names of the source, its shims and its bridges, and an underscore in those of its backups.
-/

namespace ScriptSplit

namespace Text

theorem not_mem_of_findLast?_singleton {text : Text} {c : Char} (hfind : findLast? text [c] = none) :
    c ∉ text := by
  induction text with
  | nil => simp
  | cons d rest ih =>
      unfold findLast? at hfind
      split at hfind
      · cases hfind
      · next hrest =>
          split at hfind
          · cases hfind
          · next hstarts =>
              have hne : c ≠ d := by
                rintro rfl
                simp at hstarts
              simp [hne, ih hrest]

theorem findLast?_singleton_eq_some {text : Text} {c : Char} {n : Nat}
    (hfind : findLast? text [c] = some n) :
    text = text.take n ++ c :: text.drop (n + 1) ∧ c ∉ text.drop (n + 1) := by
  induction text generalizing n with
  | nil => simp [findLast?] at hfind
  | cons d rest ih =>
      unfold findLast? at hfind
      split at hfind
      · next found hrest =>
          cases hfind
          obtain ⟨htext, habsent⟩ := ih hrest
          refine ⟨?_, by simpa using habsent⟩
          rw [List.take_succ_cons, List.drop_succ_cons, List.cons_append, ← htext]
      · next hrest =>
          split at hfind
          · next hstarts =>
              cases hfind
              have hc : c = d := by simpa using hstarts
              subst hc
              exact ⟨by simp, by simpa using not_mem_of_findLast?_singleton hrest⟩
          · cases hfind

end Text

namespace Path

/-! ## Stem and suffix -/

theorem splitName_append (name : String) : (splitName name).1 ++ (splitName name).2 = name := by
  unfold splitName
  split
  · split
    · rw [← String.toList_inj]
      simp
    · simp
  · simp

/-- A suffix is nothing or a point with text in which there is no other point. -/
theorem splitName_suffix (name : String) :
    (splitName name).2 = "" ∨
      ∃ rest, (splitName name).2.toList = '.' :: rest ∧ '.' ∉ rest := by
  unfold splitName
  split
  · next n hfind =>
      split
      · next hbounds =>
        simp only [Bool.and_eq_true, decide_eq_true_eq] at hbounds
        right
        obtain ⟨htext, habsent⟩ := Text.findLast?_singleton_eq_some hfind
        have hlength : (name.toList.take n).length = n := by
          rw [List.length_take, String.length_toList]
          omega
        refine ⟨name.toList.drop (n + 1), ?_, habsent⟩
        rw [String.toList_ofList]
        calc
          name.toList.drop n =
              (name.toList.take n ++ '.' :: name.toList.drop (n + 1)).drop n := by rw [← htext]
          _ = '.' :: name.toList.drop (n + 1) := by
              rw [List.drop_append_of_le_length (by omega), List.drop_of_length_le (by omega)]
              rfl
      · exact Or.inl rfl
  · exact Or.inl rfl

theorem splitName_stem_ne_empty {name : String} (hname : name ≠ "") : (splitName name).1 ≠ "" := by
  unfold splitName
  split
  · next n hfind =>
      split
      · next hbounds =>
          simp only [Bool.and_eq_true, decide_eq_true_eq] at hbounds
          intro hempty
          have hlength := congrArg String.length hempty
          rw [String.length_ofList, List.length_take, String.length_toList] at hlength
          have hzero : ("" : String).length = 0 := rfl
          omega
      · exact hname
  · exact hname

theorem basename_append_suffix {source : Path} (hname : source.name ≠ "") :
    source.basename ++ source.suffix = source.name := by
  have hstem : source.stem ≠ "" := splitName_stem_ne_empty hname
  have hbase : source.basename = source.stem := by simp [basename, hstem]
  rw [hbase]
  exact splitName_append _

/-! ## The files beside a source -/

def bridgeName (source : Path) : String :=
  source.name ++ ".atomized.js"

def requireBridgeName (source : Path) : String :=
  if source.basename ++ ".cjs" = source.name then source.name ++ ".atomized.cjs"
  else source.basename ++ ".cjs"

def backupName (source : Path) : String :=
  source.basename ++ "_old" ++ source.suffix

def temporaryName (name : String) : String :=
  name ++ ".tmp"

def Dotted (source : Path) (name : String) : Prop :=
  ∃ rest : String, name = source.basename ++ rest ∧ rest.toList.head? ≠ some '_'

def Underscored (source : Path) (name : String) : Prop :=
  ∃ rest : String, name = source.basename ++ rest ∧ rest.toList.head? = some '_'

variable {source : Path}

theorem Dotted.ne {a b : String} (ha : source.Dotted a) (hb : source.Underscored b) : a ≠ b := by
  obtain ⟨rest, rfl, hrest⟩ := ha
  obtain ⟨other, rfl, hother⟩ := hb
  intro heq
  rw [String.append_right_inj] at heq
  exact hrest (heq ▸ hother)

theorem Dotted.append {name : String} (hname : source.Dotted name) {ending : String}
    (hending : ending.toList.head? ≠ some '_') : source.Dotted (name ++ ending) := by
  obtain ⟨rest, rfl, hrest⟩ := hname
  refine ⟨rest ++ ending, String.append_assoc, ?_⟩
  rw [String.toList_append]
  cases hlist : rest.toList with
  | nil => simpa using hending
  | cons c more => simpa [hlist] using hrest

theorem Dotted.temporary {name : String} (hname : source.Dotted name) :
    source.Dotted (temporaryName name) :=
  hname.append (by decide)

theorem Underscored.append {name : String} (hname : source.Underscored name) (ending : String) :
    source.Underscored (name ++ ending) := by
  obtain ⟨rest, rfl, hrest⟩ := hname
  refine ⟨rest ++ ending, String.append_assoc, ?_⟩
  rw [String.toList_append]
  cases hlist : rest.toList with
  | nil => simp [hlist] at hrest
  | cons c more => simpa [hlist] using hrest

theorem Underscored.temporary {name : String} (hname : source.Underscored name) :
    source.Underscored (temporaryName name) :=
  hname.append _

theorem dotted_name (hname : source.name ≠ "") : source.Dotted source.name := by
  refine ⟨source.suffix, (basename_append_suffix hname).symm, ?_⟩
  rcases splitName_suffix source.name with hsuffix | ⟨rest, hsuffix, -⟩
  · simp [suffix, hsuffix]
  · simp [suffix, hsuffix]

theorem dotted_bridgeName (hname : source.name ≠ "") : source.Dotted source.bridgeName :=
  (dotted_name hname).append (by decide)

theorem dotted_requireBridgeName (hname : source.name ≠ "") :
    source.Dotted source.requireBridgeName := by
  unfold requireBridgeName
  split
  · exact (dotted_name hname).append (by decide)
  · exact ⟨".cjs", rfl, by decide⟩

theorem underscored_backupName (source : Path) : source.Underscored source.backupName := by
  refine ⟨"_old" ++ source.suffix, String.append_assoc, ?_⟩
  rw [String.toList_append]
  rfl

theorem ne_append {name ending : String} (hending : ending ≠ "") : name ≠ name ++ ending := by
  intro heq
  have hlength := congrArg String.length heq
  rw [String.length_append] at hlength
  have hpos : ending.length ≠ 0 := by simpa using hending
  omega

theorem ne_temporaryName (name : String) : name ≠ temporaryName name :=
  ne_append (by decide)

theorem name_ne_bridgeName (source : Path) : source.name ≠ source.bridgeName :=
  ne_append (by decide)

theorem name_ne_temporary_bridgeName (source : Path) :
    source.name ≠ temporaryName source.bridgeName := by
  unfold temporaryName bridgeName
  rw [String.append_assoc]
  exact ne_append (by decide)

theorem name_ne_requireBridgeName (source : Path) : source.name ≠ source.requireBridgeName := by
  unfold requireBridgeName
  split
  · exact ne_append (by decide)
  · next hne => exact Ne.symm hne

theorem name_ne_temporary_requireBridgeName (hname : source.name ≠ "") :
    source.name ≠ temporaryName source.requireBridgeName := by
  unfold temporaryName requireBridgeName
  split
  · rw [String.append_assoc]
    exact ne_append (by decide)
  · -- the suffix would have two points
    intro heq
    rw [String.append_assoc] at heq
    have hsuffix : source.suffix = ".cjs" ++ ".tmp" := by
      rw [← basename_append_suffix hname] at heq
      exact (String.append_right_inj _).1 heq
    rcases splitName_suffix source.name with hempty | ⟨rest, hrest, hpoint⟩
    · rw [suffix, hempty] at hsuffix
      exact absurd hsuffix (by decide)
    · rw [suffix] at hsuffix
      rw [hsuffix] at hrest
      have hlist : (".cjs" ++ ".tmp" : String).toList =
          ['.', 'c', 'j', 's', '.', 't', 'm', 'p'] := by decide
      rw [hlist] at hrest
      cases hrest
      simp at hpoint

private theorem bridgeName_eq_append (hname : source.name ≠ "") :
    source.bridgeName = source.basename ++ (source.suffix ++ ".atomized.js") := by
  rw [bridgeName, ← String.append_assoc, basename_append_suffix hname]

theorem bridgeName_ne_requireBridgeName (hname : source.name ≠ "") :
    source.bridgeName ≠ source.requireBridgeName := by
  unfold requireBridgeName
  split
  · intro heq
    exact absurd ((String.append_right_inj _).1 heq) (by decide)
  · intro heq
    rw [bridgeName_eq_append hname] at heq
    have hlength := congrArg String.length ((String.append_right_inj _).1 heq)
    have hlong : (".atomized.js" : String).length = 12 := by decide
    have hshort : (".cjs" : String).length = 4 := by decide
    rw [String.length_append] at hlength
    omega

theorem bridgeName_ne_temporary_requireBridgeName (hname : source.name ≠ "") :
    source.bridgeName ≠ temporaryName source.requireBridgeName := by
  unfold requireBridgeName temporaryName
  split
  · intro heq
    rw [String.append_assoc] at heq
    exact absurd ((String.append_right_inj _).1 heq) (by decide)
  · intro heq
    rw [bridgeName_eq_append hname, String.append_assoc] at heq
    have hlength := congrArg String.length ((String.append_right_inj _).1 heq)
    have hlong : (".atomized.js" : String).length = 12 := by decide
    have hshort : (".cjs" ++ ".tmp" : String).length = 8 := by decide
    rw [String.length_append] at hlength
    omega

theorem bridgeName_ne_temporary_name (source : Path) :
    source.bridgeName ≠ temporaryName source.name := by
  intro heq
  exact absurd ((String.append_right_inj _).1 heq) (by decide)

/-! ## Their paths -/

theorem isName_of_mem {name : String} {c : Char} (hslash : '/' ∉ name.toList)
    (hc : c ∈ name.toList) (hpoint : c ≠ '.') : IsName name := by
  refine ⟨hslash, ?_, ?_, ?_⟩
  · rintro rfl
    simp at hc
  · rintro rfl
    have hlist : (".": String).toList = ['.'] := by decide
    rw [hlist, List.mem_singleton] at hc
    exact hpoint hc
  · rintro rfl
    have hlist : ("..": String).toList = ['.', '.'] := by decide
    rw [hlist] at hc
    simp [hpoint] at hc

theorem noSlash_of_isName (hname : IsName source.name) :
    '/' ∉ source.basename.toList ∧ '/' ∉ source.suffix.toList := by
  have hslash := hname.noSlash
  rw [← basename_append_suffix hname.nonempty, String.toList_append, List.mem_append] at hslash
  exact not_or.1 hslash

theorem isName_backupName_of_isName (hname : IsName source.name) : IsName source.backupName := by
  apply isName_of_mem (c := '_')
  · rw [backupName, String.toList_append, String.toList_append, List.mem_append, List.mem_append]
    simp [noSlash_of_isName hname]
  · rw [backupName, String.toList_append, String.toList_append]
    simp
  · decide

structure Named (path : Path) : Prop where
  parts : ∀ part ∈ path.parts, IsName part
  nonempty : path.parts ≠ []

namespace Named

theorem isName (h : source.Named) : IsName source.name := by
  apply h.parts
  rw [Path.name, List.getLast?_eq_some_getLast h.nonempty]
  exact List.getLast_mem h.nonempty

theorem name_ne_empty (h : source.Named) : source.name ≠ "" :=
  h.isName.nonempty

theorem parent_child (h : source.Named) : source.parent.child source.name = source :=
  parent_child_name h.nonempty

theorem noSlash (h : source.Named) :
    '/' ∉ source.basename.toList ∧ '/' ∉ source.suffix.toList :=
  noSlash_of_isName h.isName

theorem isName_append {start ending : String} {c : Char} (hstart : '/' ∉ start.toList)
    (hending : '/' ∉ ending.toList) (hc : c ∈ ending.toList) (hpoint : c ≠ '.') :
    IsName (start ++ ending) := by
  apply isName_of_mem (c := c) _ _ hpoint
  · rw [String.toList_append, List.mem_append]
    exact not_or.2 ⟨hstart, hending⟩
  · rw [String.toList_append]
    exact List.mem_append_right _ hc

theorem isName_bridgeName (h : source.Named) : IsName source.bridgeName :=
  isName_append (c := 'j') h.isName.noSlash (by decide) (by decide) (by decide)

theorem isName_requireBridgeName (h : source.Named) : IsName source.requireBridgeName := by
  unfold requireBridgeName
  split
  · exact isName_append (c := 'j') h.isName.noSlash (by decide) (by decide) (by decide)
  · exact isName_append (c := 'j') h.noSlash.1 (by decide) (by decide) (by decide)

theorem isName_backupName (h : source.Named) : IsName source.backupName :=
  isName_backupName_of_isName h.isName

theorem sibling?_eq (h : source.Named) {name : String} (hname : IsName name) :
    source.sibling? name = some (source.parent.child name) := by
  simp [sibling?, h.nonempty, div_name _ hname]

theorem bridge?_eq (h : source.Named) :
    source.bridge? = some (source.parent.child source.bridgeName) :=
  h.sibling?_eq h.isName_bridgeName

theorem requireBridge?_eq (h : source.Named) :
    source.requireBridge? = some (source.parent.child source.requireBridgeName) := by
  have hplain : IsName (source.basename ++ ".cjs") :=
    isName_append (c := 'j') h.noSlash.1 (by decide) (by decide) (by decide)
  have hfull : IsName (source.name ++ ".atomized.cjs") :=
    isName_append (c := 'j') h.isName.noSlash (by decide) (by decide) (by decide)
  have heq : source.parent.child (source.basename ++ ".cjs") = source ↔
      source.basename ++ ".cjs" = source.name := by
    conv_lhs => rhs; rw [← h.parent_child]
    exact child_inj
  simp only [requireBridge?, h.sibling?_eq hplain, h.sibling?_eq hfull, Option.bind_eq_bind,
    Option.bind_some, heq, requireBridgeName]
  split <;> rfl

theorem backup?_eq (h : source.Named) :
    source.backup? = some (source.parent.child source.backupName) :=
  h.sibling?_eq h.isName_backupName

end Named

/-! ## Specifiers of neighbours -/

theorem partsFrom_append (base target : List String) : partsFrom base (base ++ target) = target := by
  induction base with
  | nil => simp [partsFrom]
  | cons part base ih => simp [partsFrom, ih]

theorem specifierFrom_child (directory : Path) {name : String} (hname : IsName name) :
    specifierFrom directory (directory.child name) = "./" ++ name := by
  have hchild : (directory.child name).normal.parts = directory.normal.parts ++ [name] := by
    simp only [normal, child_parts, climb_concat hname.notUp, List.reverse_cons]
  have hstarts : ∀ start : List Char, '/' ∈ start → start.isPrefixOf name.toList = false := by
    intro start hstart
    apply Bool.eq_false_iff.2
    intro htrue
    exact hname.noSlash ((List.isPrefixOf_iff_prefix.1 htrue).subset hstart)
  have hway : "/".intercalate [name] = name := rfl
  simp only [specifierFrom, hchild,
    partsFrom_append, List.isEmpty_cons, hway, Bool.false_eq_true, if_false,
    hstarts _ (show '/' ∈ ("./" : String).toList by decide),
    hstarts _ (show '/' ∈ ("../" : String).toList by decide), Bool.or_self]

theorem named_normal {path : Path} (hpath : path.Clean) (hnonempty : path.normal.parts ≠ []) :
    path.normal.Named :=
  ⟨fun _ hpart => isName_of_mem_normal hpath hpart, hnonempty⟩

end Path

/-! ## Shims -/

namespace Text

theorem contains_append (before needle after : Text) :
    (before ++ needle ++ after).contains needle = true := by
  unfold Text.contains
  induction before with
  | nil =>
      cases hlist : needle ++ after with
      | nil =>
          have hneedle : needle = [] := List.append_eq_nil_iff.1 hlist |>.1
          rw [List.nil_append, hlist, hneedle]
          rfl
      | cons c rest =>
          have hstarts : needle.isPrefixOf (c :: rest) = true := by
            rw [List.isPrefixOf_iff_prefix, ← hlist]
            exact List.prefix_append ..
          rw [List.nil_append, hlist, find?, if_pos hstarts]
          rfl
  | cons c before ih =>
      rw [List.cons_append, List.cons_append, find?]
      split
      · rfl
      · rw [Option.isSome_map]
        exact ih

end Text

end ScriptSplit
