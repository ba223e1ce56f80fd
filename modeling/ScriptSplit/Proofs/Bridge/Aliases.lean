import Mathlib.Data.List.Pairwise
import ScriptSplit.Proofs.Bridge.PublicNames

/-!
# Aliases and other exports

An alias is never the name of an export that is shown as it is, nor another alias, since both are taken before it is
made. Generated names are not taken, and an alias can look like one of them: it does if the slug of its module, in
camel case, is an `f` before digits. So an alias can be the name of another export. It never is exactly if the
aliases are those that would be made if the generated names were taken too.
-/

namespace ScriptSplit

namespace PublicNames

/-- Takes more names before aliases are made. -/
def Aliases.reserve (aliases : Aliases) (names : List String) : Aliases :=
  { aliases with taken := aliases.taken ++ names }

/-! ## Aliases beside reserved names -/

theorem firstFree_append {base : String} {taken reserved : List String}
    (hfree : firstFree base taken ∉ reserved) :
    firstFree base (taken ++ reserved) = firstFree base taken := by
  obtain ⟨n, hn, hnfree, hnleast⟩ := firstFree_spec base taken
  obtain ⟨m, hm, hmfree, hmleast⟩ := firstFree_spec base (taken ++ reserved)
  rw [hn] at hfree
  have hmn : m ≤ n := by
    by_contra hlt
    rcases List.mem_append.1 (hmleast n (Nat.not_le.1 hlt)) with htaken | hreserved
    · exact hnfree htaken
    · exact hfree hreserved
  have hnm : n ≤ m := by
    by_contra hlt
    exact hmfree (List.mem_append_left _ (hnleast m (Nat.not_le.1 hlt)))
  rw [hn, hm, Nat.le_antisymm hmn hnm]

theorem Aliases.taken_subset_add (base : String) (n : Nat) (aliases : Aliases) (names : List String) :
    aliases.taken ⊆ (aliases.add base n names).taken := by
  induction names generalizing aliases n with
  | nil => exact fun _ => id
  | cons name names ih => exact fun _ htaken => ih _ _ (List.mem_cons_of_mem _ htaken)

theorem Aliases.taken_subset_addModules (aliases : Aliases) (exports : ModuleExports) :
    aliases.taken ⊆ (aliases.addModules exports).taken := by
  induction exports generalizing aliases with
  | nil => exact fun _ => id
  | cons m exports ih =>
      exact fun _ htaken => ih _ (taken_subset_add _ _ _ _ htaken)

/-- Names that no alias is made to be can as well be reserved: the aliases of a module are the same. -/
theorem Aliases.add_reserve {base : String} {n : Nat} {aliases : Aliases} {names reserved : List String}
    (hfree : ∀ shown ∈ (aliases.add base n names).taken, shown ∈ aliases.taken ∨ shown ∉ reserved) :
    (aliases.reserve reserved).add base n names = (aliases.add base n names).reserve reserved := by
  induction names generalizing aliases n with
  | nil => rfl
  | cons name names ih =>
      let shown := firstFree (base ++ toString n) aliases.taken
      let next : Aliases := { taken := shown :: aliases.taken, names := aliases.names.put name shown }
      have hmade : shown ∉ reserved :=
        (hfree shown (taken_subset_add base (n + 1) next names List.mem_cons_self)).resolve_left
          (firstFree_not_mem _ _)
      have hnext : ∀ shown ∈ (next.add base (n + 1) names).taken, shown ∈ next.taken ∨ shown ∉ reserved :=
        fun other hother => (hfree other hother).imp_left (List.mem_cons_of_mem _)
      calc
        (aliases.reserve reserved).add base n (name :: names)
        _ = (next.reserve reserved).add base (n + 1) names := by
          rw [Aliases.add, reserve, firstFree_append hmade]
          rfl
        _ = (next.add base (n + 1) names).reserve reserved := ih hnext

theorem Aliases.addModules_reserve {exports : ModuleExports} {aliases : Aliases} {reserved : List String}
    (hfree : ∀ shown ∈ (aliases.addModules exports).taken, shown ∈ aliases.taken ∨ shown ∉ reserved) :
    (aliases.reserve reserved).addModules exports = (aliases.addModules exports).reserve reserved := by
  induction exports generalizing aliases with
  | nil => rfl
  | cons m exports ih =>
      let next := aliases.add (camelCase m.1) 1 (m.2.filter isOpaque)
      have hone : (aliases.reserve reserved).add (camelCase m.1) 1 (m.2.filter isOpaque) =
          next.reserve reserved :=
        add_reserve fun shown hshown => hfree shown (taken_subset_addModules next exports hshown)
      calc
        (aliases.reserve reserved).addModules (m :: exports)
        _ = (next.reserve reserved).addModules exports :=
          congrArg (fun aliases => Aliases.addModules aliases exports) hone
        _ = (next.addModules exports).reserve reserved :=
          ih fun shown hshown => (hfree shown hshown).imp_left (taken_subset_add _ _ _ _ ·)

/-! ## Aliases that look generated -/

theorem exists_numbered_eq_append (base : String) (n k : Nat) :
    ∃ number, (numbered (base ++ toString n) k).toList = base.toList ++ number ∧ number ≠ [] ∧
      ∀ c ∈ number, Text.isAsciiDigit c = true := by
  have hdigits : ∀ m : Nat, ∀ c ∈ (toString m).toList, Text.isAsciiDigit c = true :=
    fun m c hc => isAsciiDigit_of_mem_toString hc
  unfold numbered
  split
  · exact ⟨(toString n).toList, String.toList_append, toList_toString_ne_nil n, hdigits n⟩
  · refine ⟨(toString n).toList ++ (toString (k + 1)).toList, ?_, ?_, ?_⟩
    · rw [String.toList_append, String.toList_append, List.append_assoc]
    · exact List.append_ne_nil_of_left_ne_nil (toList_toString_ne_nil n) _
    · exact List.forall_mem_append.2 ⟨hdigits n, hdigits (k + 1)⟩

/-- An alias that looks generated is made from a slug that reads as `f` and digits. -/
theorem exists_digits_of_isOpaque {base : String} {n k : Nat}
    (h : isOpaque (numbered (base ++ toString n) k) = true) :
    ∃ digits, base.toList = 'f' :: digits ∧ ∀ c ∈ digits, Text.isDecimalDigit c = true := by
  obtain ⟨number, hlist, hne, hdigits⟩ := exists_numbered_eq_append base n k
  have hkept : Text.dropFinalNewline (base.toList ++ number) = base.toList ++ number := by
    have hlast := hdigits _ (List.getLast_mem hne)
    rw [Text.dropFinalNewline, if_neg]
    rw [List.getLast?_append_of_ne_nil _ hne, List.getLast?_eq_some_getLast hne, beq_iff_eq]
    intro hfeed
    rw [Option.some.inj hfeed] at hlast
    exact absurd hlast (by decide)
  unfold isOpaque at h
  rw [hlist, hkept] at h
  split at h
  · next digits heq =>
      simp only [Bool.and_eq_true, List.all_eq_true] at h
      cases hbase : base.toList with
      | nil =>
          rw [hbase, List.nil_append] at heq
          exact absurd (hdigits 'f' (by rw [heq]; exact List.mem_cons_self)) (by decide)
      | cons c rest =>
          rw [hbase, List.cons_append] at heq
          obtain ⟨rfl, rfl⟩ := List.cons.inj heq
          exact ⟨rest, rfl, fun d hd => h.2 d (List.mem_append_left _ hd)⟩
  · cases h

end PublicNames

/-- The public names that would be made if generated names were taken too. -/
def guardedNames (exports : ModuleExports) : Table String :=
  (((PublicNames.Aliases.start exports).reserve ((exports.flatMap (·.2)).filter isOpaque)).addModules
    exports).names

/-! ## Captured exports -/

section

variable {exports : ModuleExports} (hnames : (exports.flatMap (·.2)).Nodup)

include hnames

theorem eq_of_mem_of_mem {m other : String × List String} (hm : m ∈ exports) (hother : other ∈ exports)
    {name : String} (hname : name ∈ m.2) (hname' : name ∈ other.2) : m = other := by
  by_contra hne
  have : Std.Symm (Function.onFun List.Disjoint fun m : String × List String => m.2) :=
    ⟨fun _ _ hdisjoint => List.disjoint_symm hdisjoint⟩
  exact (List.nodup_flatMap.1 hnames).2.forall hm hother hne hname hname'

theorem alias_made {m : String × List String} (hm : m ∈ exports) {name : String} (hname : name ∈ m.2)
    (hgenerated : isOpaque name = true) :
    (∃ n k : Nat, publicName (publicNames exports) name =
        PublicNames.numbered (camelCase m.1 ++ toString n) k) ∧
      publicName (publicNames exports) name ∉ (exports.flatMap (·.2)).filter (!isOpaque ·) := by
  have hmem : name ∈ exports.flatMap (·.2) := List.mem_flatMap.2 ⟨m, hm, hname⟩
  rcases publicNames_cases hnames ((mem_publicNames hnames).2 ⟨hmem, rfl⟩) with
    ⟨hplain, -⟩ | ⟨⟨other, hother, hname', hrow⟩, hfree⟩
  · simp [hgenerated] at hplain
  · obtain rfl := eq_of_mem_of_mem hnames hm hother hname hname'
    exact ⟨hrow, hfree⟩

/-- Where generated names are reserved, no alias is the name of an export. -/
theorem guardedNames_not_mem {entry : String × String} (hentry : entry ∈ guardedNames exports)
    (hgenerated : isOpaque entry.1 = true) : entry.2 ∉ exports.flatMap (·.2) := by
  let guarded := (PublicNames.Aliases.start exports).reserve ((exports.flatMap (·.2)).filter isOpaque)
  have hstart : guarded.names = (PublicNames.Aliases.start exports).names := rfl
  rcases (adds_start hnames hstart).made entry hentry with hplain | ⟨-, hfree⟩
  · rw [hstart, start_names hnames] at hplain
    obtain ⟨name, hname, rfl⟩ := List.mem_map.1 hplain
    simp [hgenerated] at hname
  · intro hmem
    apply hfree
    cases hother : isOpaque entry.2 with
    | true => exact List.mem_append_right _ (List.mem_filter.2 ⟨hmem, hother⟩)
    | false => exact List.mem_append_left _ (List.mem_filter.2 ⟨hmem, by simp [hother]⟩)

/-- Reserving generated names changes no alias if none is one of them. -/
theorem guardedNames_eq (hfree : ∀ name ∈ exports.flatMap (·.2), isOpaque name = true →
    publicName (publicNames exports) name ∉ exports.flatMap (·.2)) :
    guardedNames exports = publicNames exports := by
  have hmade : ∀ shown ∈ ((PublicNames.Aliases.start exports).addModules exports).taken,
      shown ∈ (PublicNames.Aliases.start exports).taken ∨
        shown ∉ (exports.flatMap (·.2)).filter isOpaque := by
    intro shown hshown
    rcases (adds_start hnames rfl).given shown hshown with hstart | ⟨name, hname, hentry⟩
    · exact .inl hstart
    · obtain ⟨hmem, hgenerated⟩ := List.mem_filter.1 hname
      obtain ⟨-, heq⟩ := (mem_publicNames hnames).1 hentry
      exact .inr fun hcaptured => hfree name hmem hgenerated (heq ▸ List.mem_of_mem_filter hcaptured)
  rw [guardedNames, PublicNames.Aliases.addModules_reserve hmade]
  rfl

/-- No alias is the name of an export exactly if reserving generated names changes no alias. In any case aliases
differ from each other and from the exports that are shown as they are, and one that is the name of an export looks
generated and is made from a slug that reads as `f` and digits. -/
theorem aliases_capture_nothing_iff :
    ((∀ name ∈ exports.flatMap (·.2), isOpaque name = true →
        publicName (publicNames exports) name ∉ exports.flatMap (·.2)) ↔
      publicNames exports = guardedNames exports) ∧
    ((exports.flatMap (·.2)).map (publicName (publicNames exports))).Nodup ∧
    ∀ m ∈ exports, ∀ name ∈ m.2, isOpaque name = true →
      (∀ other ∈ exports.flatMap (·.2), isOpaque other = false →
        publicName (publicNames exports) name ≠ other) ∧
      (publicName (publicNames exports) name ∈ exports.flatMap (·.2) →
        ∃ digits, (camelCase m.1).toList = 'f' :: digits ∧
          ∀ c ∈ digits, Text.isDecimalDigit c = true) := by
  refine ⟨⟨fun hfree => (guardedNames_eq hnames hfree).symm, fun heq name hname hgenerated => ?_⟩,
    publicName_nodup hnames, fun m hm name hname hgenerated => ?_⟩
  · have hentry : (name, publicName (publicNames exports) name) ∈ guardedNames exports := by
      rw [← heq]
      exact (mem_publicNames hnames).2 ⟨hname, rfl⟩
    exact guardedNames_not_mem hnames hentry hgenerated
  · obtain ⟨⟨n, k, hrow⟩, hfree⟩ := alias_made hnames hm hname hgenerated
    have hplain : ∀ other ∈ exports.flatMap (·.2), isOpaque other = false →
        publicName (publicNames exports) name ≠ other := by
      rintro other hother hother' rfl
      exact hfree (List.mem_filter.2 ⟨hother, by simp [hother']⟩)
    refine ⟨hplain, fun hcaptured => ?_⟩
    apply PublicNames.exists_digits_of_isOpaque (n := n) (k := k)
    rw [← hrow]
    by_contra hnot
    exact hplain _ hcaptured (by simpa using hnot) rfl

end

/-- A module called like a generated name makes an alias that is the name of another module's export. -/
def siblingExports : ModuleExports :=
  [("f00", ["f00", "f002"]), ("b", ["f001"])]

/-- Under the name `f001` there is the function `f002`, unless generated names are reserved. -/
theorem aliases_capture_sibling :
    (siblingExports.flatMap (·.2)).Nodup ∧ publicName (publicNames siblingExports) "f002" = "f001" ∧
      publicName (guardedNames siblingExports) "f002" = "f0012" ∧
      publicNames siblingExports ≠ guardedNames siblingExports := by
  have hnames : (siblingExports.flatMap (·.2)).Nodup := by decide
  have hshown : publicName (publicNames siblingExports) "f002" = "f001" := by decide +kernel
  obtain ⟨hcaptures, -, -⟩ := aliases_capture_nothing_iff hnames
  refine ⟨hnames, hshown, by decide +kernel, fun heq => ?_⟩
  refine hcaptures.2 heq "f002" (by decide) (by decide +kernel) ?_
  rw [hshown]
  decide

end ScriptSplit
