import ScriptSplit.Files.Pattern
import ScriptSplit.Proofs.Path.Names

/-!
# Names that look like old backups

The backups that were moved aside are found by a pattern that begins with the base name of the source. As
long as the base name has no character with a meaning of its own in patterns, every name of that shape
begins with it and an underscore, as no file does that linking writes beside the source.
-/

namespace ScriptSplit

namespace NamePart

/-- Whether a character stands for itself in a pattern, wherever it is. -/
def Literal (c : Char) : Prop :=
  c ≠ '*' ∧ c ≠ '?' ∧ c ≠ '['

instance (c : Char) : Decidable (Literal c) :=
  inferInstanceAs (Decidable (_ ∧ _))

theorem parse_literal {front : List Char} (hfront : ∀ c ∈ front, Literal c) (fuel : Nat)
    (rest : List Char) :
    parse (front.length + fuel) (front ++ rest) = front.map .char ++ parse fuel rest := by
  induction front with
  | nil => simp
  | cons c front ih =>
      obtain ⟨hstar, hquestion, hbracket⟩ := hfront c (by simp)
      have hrest := ih fun d hd => hfront d (by simp [hd])
      rw [List.length_cons, Nat.add_right_comm, List.cons_append, parse, hrest]
      · rfl
      · exact hstar
      · exact hquestion
      · exact hbracket

theorem matches_literal {front : List Char} {parts : List NamePart} {name : List Char}
    (hmatches : matches_ (front.map .char ++ parts) name = true) : front <+: name := by
  induction front generalizing name with
  | nil => exact List.nil_prefix
  | cons c front ih =>
      cases name with
      | nil => simp [matches_] at hmatches
      | cons d name =>
          simp only [List.map_cons, List.cons_append, matches_, accepts, Bool.and_eq_true,
            beq_iff_eq] at hmatches
          obtain ⟨rfl, hrest⟩ := hmatches
          exact List.cons_prefix_cons.2 ⟨rfl, ih hrest⟩

end NamePart

/-- What stands before the first star of a pattern begins every name of its shape. -/
theorem prefix_of_matchesPattern {front rest name : String}
    (hfront : ∀ c ∈ front.toList, NamePart.Literal c)
    (hmatches : matchesPattern (front ++ rest) name = true) : front.toList <+: name.toList := by
  unfold matchesPattern at hmatches
  have hlength : (front ++ rest).length + 1 = front.toList.length + (rest.length + 1) := by
    rw [String.length_append, String.length_toList]
    omega
  rw [hlength, String.toList_append, NamePart.parse_literal hfront] at hmatches
  exact NamePart.matches_literal hmatches

namespace Path

variable {source : Path}

def namesBeside (source : Path) : List String :=
  [source.name, source.bridgeName, source.requireBridgeName].flatMap fun name =>
    [name, temporaryName name]

theorem dotted_of_mem_namesBeside (hname : source.name ≠ "") {name : String}
    (hmem : name ∈ source.namesBeside) : source.Dotted name := by
  simp only [namesBeside, List.flatMap_cons, List.flatMap_nil, List.append_nil, List.cons_append,
    List.nil_append, List.mem_cons, List.not_mem_nil, or_false] at hmem
  rcases hmem with rfl | rfl | rfl | rfl | rfl | rfl
  · exact dotted_name hname
  · exact (dotted_name hname).temporary
  · exact dotted_bridgeName hname
  · exact (dotted_bridgeName hname).temporary
  · exact dotted_requireBridgeName hname
  · exact (dotted_requireBridgeName hname).temporary

/-- Whether no file that linking writes beside a source is taken for an old backup of it. -/
def BackupsApart (source : Path) : Prop :=
  ∀ name ∈ source.namesBeside, matchesPattern source.datedPattern name = false

instance (source : Path) : Decidable source.BackupsApart :=
  inferInstanceAs (Decidable (∀ name ∈ source.namesBeside, _))

/-- Only a base name with a character that patterns give a meaning leads to confusion. -/
theorem backupsApart_of_literal (hname : source.name ≠ "")
    (hliteral : ∀ c ∈ source.basename.toList, NamePart.Literal c) : source.BackupsApart := by
  intro name hmem
  rw [← Bool.not_eq_true]
  intro hmatches
  have hfront : ∀ c ∈ (source.basename ++ "_old_").toList, NamePart.Literal c := by
    intro c hc
    rw [String.toList_append, List.mem_append] at hc
    rcases hc with hbase | hold
    · exact hliteral c hbase
    · have hall : ∀ d ∈ ("_old_" : String).toList, NamePart.Literal d := by simp [NamePart.Literal]
      exact hall c hold
  have hpattern : source.datedPattern = source.basename ++ "_old_" ++ ("*" ++ source.suffix) := by
    simp only [datedPattern, String.append_assoc]
    rfl
  rw [hpattern] at hmatches
  obtain ⟨rest, hrest⟩ := prefix_of_matchesPattern hfront hmatches
  have hunderscored : source.Underscored name := by
    refine ⟨"_old_" ++ String.ofList rest, ?_, by simp [String.toList_append]⟩
    rw [← String.toList_inj, ← hrest]
    simp [String.toList_append]
  exact (dotted_of_mem_namesBeside hname hmem).ne hunderscored rfl

example : ¬ ((ofString "/work").child "[_old_[].js").BackupsApart := by decide +kernel

end Path

end ScriptSplit
