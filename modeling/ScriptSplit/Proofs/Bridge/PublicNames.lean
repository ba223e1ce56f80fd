import ScriptSplit.Bridge.PublicNames
import ScriptSplit.Emit.Exports
import ScriptSplit.Plan.Basic
import ScriptSplit.Proofs.Table
import ScriptSplit.Proofs.Text.Names
import ScriptSplit.Proofs.Text.Split

/-!
# Public names

Every exported name has one public name and no two names share it: a name that is shown as it is keeps itself,
and an alias is taken from a row of numbered names that is longer than the list of those taken before. An alias
made from a slug can be exported because it is an identifier that ends in a digit, as no reserved word does.
-/

namespace ScriptSplit

/-! ## Camel case -/

def isSlugLetter (c : Char) : Bool :=
  Text.isAsciiLetter c || Text.isAsciiDigit c || c == '$'

theorem isSlugLetter_of_part {c : Char} (hpart : isSlugPart c = true)
    (hword : separatesWords c = false) : isSlugLetter c = true := by
  simp only [separatesWords, Bool.or_eq_false_iff, beq_eq_false_iff_ne] at hword
  simp only [isSlugPart, isSlugStart, Bool.or_eq_true, beq_iff_eq] at hpart
  simp only [isSlugLetter, Bool.or_eq_true, beq_iff_eq]
  tauto

theorem isSlugLetter_case {c : Char} (hc : isSlugLetter c = true) : c.toNat < 128 ∧
    isSlugLetter c.toLower = true ∧ isSlugLetter c.toUpper = true ∧ Text.isNamePart c = true := by
  have hascii : c.toNat < 128 := by
    simp only [isSlugLetter, Text.isAsciiLetter, Text.isAsciiLower, Text.isAsciiUpper,
      Text.isAsciiDigit, Bool.or_eq_true, Bool.and_eq_true, decide_eq_true_eq, beq_iff_eq] at hc
    rcases hc with ((⟨-, hhigh⟩ | ⟨-, hhigh⟩) | ⟨-, hhigh⟩) | rfl
    · exact lt_of_le_of_lt (show c.toNat ≤ 'z'.toNat from hhigh) (by decide)
    · exact lt_of_le_of_lt (show c.toNat ≤ 'Z'.toNat from hhigh) (by decide)
    · exact lt_of_le_of_lt (show c.toNat ≤ '9'.toNat from hhigh) (by decide)
    · decide
  have htable : ∀ n < 128, isSlugLetter (Char.ofNat n) = true →
      isSlugLetter (Char.ofNat n).toLower = true ∧ isSlugLetter (Char.ofNat n).toUpper = true ∧
        Text.isNamePart (Char.ofNat n) = true := by decide
  have hrow := htable c.toNat hascii
  rw [Char.ofNat_toNat] at hrow
  exact ⟨hascii, hrow hc⟩

def SlugWord (text : List Char) : Prop :=
  ∀ c ∈ text, isSlugLetter c = true

theorem lowerAfter_slugWord (before : List Char) {text : List Char} (htext : SlugWord text) :
    SlugWord (Text.lowerAfter before text) := by
  induction text generalizing before with
  | nil => simp [SlugWord, Text.lowerAfter]
  | cons c text ih =>
      obtain ⟨hc, htext⟩ := List.forall_mem_cons.1 htext
      obtain ⟨hascii, hlower, -, -⟩ := isSlugLetter_case hc
      have hsigma : (c == 'Σ') = false := by
        apply beq_false_of_ne
        rintro rfl
        exact absurd hascii (by decide)
      rw [Text.lowerAfter, if_neg (by simp [hsigma]), Text.lowerChar, if_pos hascii]
      exact List.forall_mem_cons.2 ⟨hlower, ih _ htext⟩

theorem lower_slugWord {word : String} (hword : SlugWord word.toList) :
    SlugWord (Text.lower word).toList := by
  rw [Text.lower, String.toList_ofList]
  exact lowerAfter_slugWord [] hword

theorem upper_slugWord {word : String} (hword : SlugWord word.toList) :
    SlugWord (Text.upper word).toList := by
  rw [Text.upper, String.toList_ofList]
  intro d hd
  obtain ⟨c, hc, hd⟩ := List.mem_flatMap.1 hd
  obtain ⟨hascii, -, hupper, -⟩ := isSlugLetter_case (hword c hc)
  rw [Text.upperChar, if_pos hascii] at hd
  obtain rfl := List.mem_singleton.1 hd
  exact hupper

theorem capitalised_slugWord {word : String} (hword : SlugWord word.toList) :
    SlugWord (capitalised word).toList := by
  have htake : SlugWord (word.toList.take 1) := fun c hc => hword c (List.mem_of_mem_take hc)
  have hdrop : SlugWord (word.toList.drop 1) := fun c hc => hword c (List.mem_of_mem_drop hc)
  rw [capitalised, String.toList_append]
  exact List.forall_mem_append.2
    ⟨upper_slugWord (by rwa [String.toList_ofList]), lower_slugWord (by rwa [String.toList_ofList])⟩

theorem isName_of_slugWord {name : List Char} (hname : SlugWord name)
    (hstart : name.head?.any Text.isNameStart = true) : Text.isName name = true := by
  cases name with
  | nil => cases hstart
  | cons c rest =>
      obtain ⟨-, hrest⟩ := List.forall_mem_cons.1 hname
      simp only [List.head?_cons, Option.any_some] at hstart
      simp only [Text.isName, hstart, Bool.true_and, List.all_eq_true]
      exact fun d hd => (isSlugLetter_case (hrest d hd)).2.2.2

theorem isName_camelCase {slug : String} (hslug : ∀ c ∈ slug.toList, isSlugPart c = true) :
    Text.isName (camelCase slug).toList = true := by
  have hwords : ∀ word ∈ ((Text.splitAny separatesWords slug.toList).filter (!·.isEmpty)).map
      String.ofList, SlugWord word.toList := by
    refine List.forall_mem_map.2 fun word hword c hc => ?_
    rw [String.toList_ofList] at hc
    obtain ⟨hseparator, hmem⟩ := Text.of_mem_splitAny (List.mem_of_mem_filter hword) c hc
    exact isSlugLetter_of_part (hslug c hmem) hseparator
  unfold camelCase
  simp only
  split
  · decide
  · next first rest heq =>
      rw [heq] at hwords
      obtain ⟨hfirst, hrest⟩ := List.forall_mem_cons.1 hwords
      have hjoined : SlugWord (String.join (rest.map capitalised)).toList := by
        rw [String.toList_join]
        intro c hc
        obtain ⟨word, hword, hc⟩ := List.mem_flatMap.1 hc
        obtain ⟨plain, hplain, rfl⟩ := List.mem_map.1 hword
        exact capitalised_slugWord (hrest plain hplain) c hc
      have hname : SlugWord (Text.lower first ++ String.join (rest.map capitalised)).toList := by
        rw [String.toList_append]
        exact List.forall_mem_append.2 ⟨lower_slugWord hfirst, hjoined⟩
      generalize Text.lower first ++ String.join (rest.map capitalised) = name at hname
      have hkept {text : List Char} (htext : SlugWord text) : text.filter Text.isNamePart = text :=
        List.filter_eq_self.2 fun c hc => (isSlugLetter_case (htext c hc)).2.2.2
      -- a word that starts with a digit gets a letter in front of it
      by_cases hstart : name.toList.head?.any Text.isNameStart = true
      · rw [if_pos hstart, hkept hname, String.toList_ofList]
        exact isName_of_slugWord hname hstart
      · have hletter : SlugWord ("m" ++ name).toList := by
          rw [String.toList_append]
          exact List.forall_mem_append.2 ⟨List.all_eq_true.1 (by decide), hname⟩
        rw [if_neg hstart, hkept hletter, String.toList_ofList]
        refine isName_of_slugWord hletter ?_
        rw [String.toList_append]
        rfl

/-! ## Names that end in a number -/

/-- No reserved word ends in a digit. -/
theorem unexportableWords_no_digit : ∀ word ∈ unexportableWords,
    word.toList.getLast?.any Text.isAsciiDigit = false := by decide

theorem isAsciiDigit_of_mem_toString {n : Nat} {c : Char} (hc : c ∈ (toString n).toList) :
    Text.isAsciiDigit c = true := by
  rw [Nat.toString_eq_repr, Nat.toList_repr] at hc
  exact Nat.isDigit_of_mem_toDigits (by decide) (by decide) hc

theorem toList_toString_ne_nil (n : Nat) : (toString n).toList ≠ [] := by
  rw [Nat.toString_eq_repr, Nat.toList_repr]
  exact Nat.toDigits_ne_nil

def IsNumbered (name : String) : Prop :=
  Text.isName name.toList = true ∧ name.toList.getLast?.any Text.isAsciiDigit = true

theorem isNumbered_append {base : String} (hbase : Text.isName base.toList = true) (n : Nat) :
    IsNumbered (base ++ toString n) := by
  have hdigits : ∀ c ∈ (toString n).toList, Text.isAsciiDigit c = true :=
    fun c hc => isAsciiDigit_of_mem_toString hc
  constructor
  · rw [String.toList_append]
    cases hlist : base.toList with
    | nil => rw [hlist] at hbase; cases hbase
    | cons c rest =>
        rw [hlist] at hbase
        simp only [Text.isName, Bool.and_eq_true, List.all_eq_true] at hbase
        simp only [List.cons_append, Text.isName, hbase.1, Bool.true_and, List.all_eq_true]
        refine List.forall_mem_append.2 ⟨hbase.2, fun d hd => ?_⟩
        exact (isSlugLetter_case (c := d) (by simp [isSlugLetter, hdigits d hd])).2.2.2
  · obtain ⟨front, last, hlast⟩ : ∃ front last, (toString n).toList = front ++ [last] := by
      rcases List.eq_nil_or_concat (toString n).toList with hnil | ⟨front, last, hlast⟩
      · exact absurd hnil (toList_toString_ne_nil n)
      · exact ⟨front, last, by simpa using hlast⟩
    have hdigit := hdigits last (by rw [hlast]; simp)
    rw [String.toList_append, hlast, ← List.append_assoc, List.getLast?_concat]
    simpa using hdigit

theorem IsNumbered.isExportable {name : String} (h : IsNumbered name) : isExportable name = true := by
  obtain ⟨hname, hdigit⟩ := h
  have hlast : name.toList.getLast? ≠ some '\n' := by
    intro heq
    rw [heq] at hdigit
    exact absurd hdigit (by decide)
  have hword : name ∉ unexportableWords := by
    intro hmem
    rw [unexportableWords_no_digit name hmem] at hdigit
    cases hdigit
  unfold ScriptSplit.isExportable
  rw [Text.dropFinalNewline, if_neg (by simpa using hlast), hname]
  simpa using hword

namespace PublicNames

theorem numbered_injective (base : String) : Function.Injective (numbered base) := by
  have hlonger (n : Nat) : base ≠ base ++ toString (n + 1) := by
    intro heq
    have hlength := congrArg (List.length ∘ String.toList) heq
    have hpos := List.length_pos_iff.2 (toList_toString_ne_nil (n + 1))
    simp only [Function.comp_apply, String.toList_append, List.length_append] at hlength
    omega
  intro m n heq
  unfold numbered at heq
  split at heq
  · next hm =>
      split at heq
      · next hn => rw [hm, hn]
      · exact absurd heq (hlonger n)
  · split at heq
    · exact absurd heq.symm (hlonger m)
    · have hsame := Names.toString_injective ((String.append_right_inj _).1 heq)
      omega

/-- The first free name is the first of its row that is not taken: the row is longer than the list of those taken. -/
theorem firstFree_spec (base : String) (taken : List String) :
    ∃ n, firstFree base taken = numbered base n ∧ numbered base n ∉ taken ∧ ∀ m < n, numbered base m ∈ taken := by
  have hnodup : ((List.range (taken.length + 1)).map (numbered base)).Nodup :=
    List.Nodup.map (numbered_injective base) List.nodup_range
  unfold firstFree
  simp only [List.find?_map]
  cases hfound : (List.range (taken.length + 1)).find? ((!taken.contains ·) ∘ numbered base) with
  | some n =>
      obtain ⟨hfree, -, hearlier⟩ := List.find?_range_eq_some.1 hfound
      exact ⟨n, rfl, by simpa using hfree, fun m hm => by simpa using hearlier m hm⟩
  | none =>
      have hsubset : (List.range (taken.length + 1)).map (numbered base) ⊆ taken := by
        intro name hname
        obtain ⟨n, hn, rfl⟩ := List.mem_map.1 hname
        simpa using List.find?_eq_none.1 hfound n hn
      have hlength := hnodup.length_le_of_subset hsubset
      rw [List.length_map, List.length_range] at hlength
      omega

theorem firstFree_not_mem (base : String) (taken : List String) : firstFree base taken ∉ taken := by
  obtain ⟨n, hn, hfree, -⟩ := firstFree_spec base taken
  rwa [hn]

theorem isNumbered_numbered {base : String} (hbase : Text.isName base.toList = true) (n k : Nat) :
    IsNumbered (numbered (base ++ toString n) k) := by
  rw [numbered]
  split
  · exact isNumbered_append hbase n
  · exact isNumbered_append (isNumbered_append hbase n).1 (k + 1)

/-! ## Aliases -/

/-- What holds of the aliases at any time: no two names have the same one, and each is taken. -/
structure Aliases.Distinct (aliases : Aliases) : Prop where
  once : (aliases.names.map (·.2)).Nodup
  taken : ∀ entry ∈ aliases.names, entry.2 ∈ aliases.taken

/-- What adding aliases for some names does: their names come after the others, and their aliases are of a certain
row and were free. -/
structure Aliases.Adds (row : String × String → Prop) (names : List String) (before after : Aliases) : Prop where
  keys : after.names.map (·.1) = before.names.map (·.1) ++ names
  distinct : before.Distinct → after.Distinct
  kept : before.names ⊆ after.names
  taken : before.taken ⊆ after.taken
  made : ∀ entry ∈ after.names, entry ∈ before.names ∨ row entry ∧ entry.2 ∉ before.taken
  given : ∀ shown ∈ after.taken, shown ∈ before.taken ∨ ∃ name ∈ names, (name, shown) ∈ after.names

variable {row : String × String → Prop}

theorem Aliases.Adds.nil (aliases : Aliases) : aliases.Adds row [] aliases :=
  ⟨by simp, id, fun _ => id, fun _ => id, fun _ => .inl, fun _ => .inl⟩

theorem Aliases.Adds.trans {names more : List String} {before between after : Aliases}
    (h : before.Adds row names between) (h' : between.Adds row more after) :
    before.Adds row (names ++ more) after where
  keys := by rw [h'.keys, h.keys, List.append_assoc]
  distinct := h'.distinct ∘ h.distinct
  kept := fun _ hentry => h'.kept (h.kept hentry)
  taken := fun _ hshown => h'.taken (h.taken hshown)
  made entry hentry := by
    rcases h'.made entry hentry with hbetween | ⟨hrow, hfree⟩
    · exact h.made entry hbetween
    · exact .inr ⟨hrow, fun htaken => hfree (h.taken htaken)⟩
  given shown hshown := by
    rcases h'.given shown hshown with hbetween | ⟨name, hname, hentry⟩
    · rcases h.given shown hbetween with hbefore | ⟨name, hname, hentry⟩
      · exact .inl hbefore
      · exact .inr ⟨name, List.mem_append_left _ hname, h'.kept hentry⟩
    · exact .inr ⟨name, List.mem_append_right _ hname, hentry⟩

theorem Aliases.adds_one {base name : String} {n : Nat}
    (hrow : ∀ k, row (name, numbered (base ++ toString n) k)) {aliases : Aliases}
    (hnew : name ∉ aliases.names.map (·.1)) :
    let shown := firstFree (base ++ toString n) aliases.taken
    aliases.Adds row [name] { taken := shown :: aliases.taken, names := aliases.names.put name shown } := by
  intro shown
  have hput := Table.put_of_not_mem hnew shown
  have hfree : shown ∉ aliases.taken := firstFree_not_mem _ _
  constructor
  · simp only [hput, List.map_append, List.map_singleton]
  · intro h
    refine ⟨?_, ?_⟩
    · simp only [hput, List.map_append, List.map_singleton]
      refine List.nodup_append'.2 ⟨h.once, List.nodup_singleton shown, ?_⟩
      rw [List.disjoint_singleton]
      intro hmem
      obtain ⟨entry, hentry, heq⟩ := List.mem_map.1 hmem
      have hshown : shown ∈ aliases.taken := heq ▸ h.taken entry hentry
      exact hfree hshown
    · simp only [hput]
      refine List.forall_mem_append.2 ⟨fun entry hentry => ?_, ?_⟩
      · exact List.mem_cons_of_mem _ (h.taken entry hentry)
      · exact List.forall_mem_singleton.2 List.mem_cons_self
  · simp only [hput]
    exact List.subset_append_left _ _
  · exact List.subset_cons_self _ _
  · simp only [hput]
    refine List.forall_mem_append.2 ⟨fun entry hentry => .inl hentry, ?_⟩
    obtain ⟨k, hk, -, -⟩ := firstFree_spec (base ++ toString n) aliases.taken
    have hshown : row (name, shown) := (congrArg (fun shown => row (name, shown)) hk).mpr (hrow k)
    exact List.forall_mem_singleton.2 (.inr ⟨hshown, hfree⟩)
  · simp only [hput]
    refine List.forall_mem_cons.2 ⟨.inr ⟨name, List.mem_singleton_self name, by simp⟩, fun _ => .inl⟩

theorem Aliases.adds_add {base : String} {names : List String}
    (hrow : ∀ name ∈ names, ∀ n k : Nat, row (name, numbered (base ++ toString n) k)) (n : Nat)
    {aliases : Aliases} (hnew : (aliases.names.map (·.1) ++ names).Nodup) :
    aliases.Adds row names (aliases.add base n names) := by
  induction names generalizing aliases n with
  | nil => exact .nil aliases
  | cons name names ih =>
      obtain ⟨hfirst, hrest⟩ := List.forall_mem_cons.1 hrow
      have hname : name ∉ aliases.names.map (·.1) := fun hmem =>
        (List.nodup_append'.1 hnew).2.2 hmem List.mem_cons_self
      have hone := adds_one (hfirst n) hname
      refine hone.trans (ih hrest (n + 1) ?_)
      rw [hone.keys, List.append_assoc]
      exact hnew

def Aliases.addModules (aliases : Aliases) (exports : ModuleExports) : Aliases :=
  exports.foldl (fun aliases (slug, names) =>
    Aliases.add (camelCase slug) 1 aliases (names.filter isOpaque)) aliases

theorem Aliases.adds_addModules {exports : ModuleExports}
    (hrow : ∀ m ∈ exports, ∀ name ∈ m.2, ∀ n k : Nat, row (name, numbered (camelCase m.1 ++ toString n) k))
    {aliases : Aliases}
    (hnew : (aliases.names.map (·.1) ++ (exports.flatMap (·.2)).filter isOpaque).Nodup) :
    aliases.Adds row ((exports.flatMap (·.2)).filter isOpaque) (aliases.addModules exports) := by
  induction exports generalizing aliases with
  | nil => exact .nil aliases
  | cons m exports ih =>
      obtain ⟨hfirst, hrest⟩ := List.forall_mem_cons.1 hrow
      rw [List.flatMap_cons, List.filter_append, ← List.append_assoc] at hnew
      have hone := adds_add (fun name hname => hfirst name (List.mem_of_mem_filter hname)) 1
        (List.nodup_append'.1 hnew).1
      have hmore := ih hrest (by rw [hone.keys]; exact hnew)
      rw [List.flatMap_cons, List.filter_append]
      exact hone.trans hmore

/-- Whether an alias is in a row that is made from the slug of a module for a name that the module exports. -/
def MadeFor (exports : ModuleExports) (entry : String × String) : Prop :=
  ∃ m ∈ exports, entry.1 ∈ m.2 ∧ ∃ n k : Nat, entry.2 = numbered (camelCase m.1 ++ toString n) k

theorem foldl_put_self {names : List String} (hnames : names.Nodup) :
    names.foldl (fun table name => Table.put table name name) [] = names.map fun name => (name, name) := by
  have hfold : ∀ (table : Table String), (table.map (·.1) ++ names).Nodup →
      names.foldl (fun table name => Table.put table name name) table =
        table ++ names.map fun name => (name, name) := by
    induction names with
    | nil => simp
    | cons name names ih =>
        intro table hnew
        have hname : name ∉ table.map (·.1) := fun hmem =>
          (List.nodup_append'.1 hnew).2.2 hmem List.mem_cons_self
        rw [List.foldl_cons, Table.put_of_not_mem hname, ih (List.nodup_cons.1 hnames).2 _
          (by simpa using hnew)]
        simp
  simpa using hfold [] (by simpa using hnames)

/-- The public names before any alias: a name that does not look generated is shown as it is, and is taken. -/
def Aliases.start (exports : ModuleExports) : Aliases :=
  let plain := (exports.flatMap (·.2)).filter (!isOpaque ·)
  { taken := plain, names := plain.foldl (fun table name => table.put name name) [] }

end PublicNames

/-! ## The public names of exports -/

theorem publicNames_eq (exports : ModuleExports) : publicNames exports =
    ((PublicNames.Aliases.start exports).addModules exports).names := rfl

theorem keys_perm (exports : ModuleExports) :
    (((exports.flatMap (·.2)).filter (!isOpaque ·)).map ((·.1) ∘ fun name => (name, name)) ++
      (exports.flatMap (·.2)).filter isOpaque).Perm (exports.flatMap (·.2)) := by
  have hself : ((·.1) ∘ fun name : String => (name, name)) = id := rfl
  rw [hself, List.map_id]
  exact List.perm_append_comm.trans (List.filter_append_perm isOpaque _)

section

variable {exports : ModuleExports} (hnames : (exports.flatMap (·.2)).Nodup)

include hnames

theorem start_names : (PublicNames.Aliases.start exports).names =
    ((exports.flatMap (·.2)).filter (!isOpaque ·)).map fun name => (name, name) :=
  PublicNames.foldl_put_self (hnames.filter (!isOpaque ·))

/-- Where no name is exported twice, every generated name gets an alias, whatever is taken at first. -/
theorem adds_start {aliases : PublicNames.Aliases}
    (hstart : aliases.names = (PublicNames.Aliases.start exports).names) :
    aliases.Adds (PublicNames.MadeFor exports) ((exports.flatMap (·.2)).filter isOpaque)
      (aliases.addModules exports) := by
  apply PublicNames.Aliases.adds_addModules
  · exact fun m hm name hname n k => ⟨m, hm, hname, n, k, rfl⟩
  · rw [hstart, start_names hnames, List.map_map]
    exact (keys_perm exports).nodup_iff.2 hnames

/-- The names that have a public name are exactly those exported. -/
theorem publicNames_keys :
    ((publicNames exports).map (·.1)).Perm (exports.flatMap (·.2)) := by
  have hkeys := (adds_start hnames rfl).keys
  rw [start_names hnames, List.map_map] at hkeys
  exact (List.Perm.of_eq hkeys).trans (keys_perm exports)

theorem publicNames_once : ((publicNames exports).map (·.2)).Nodup := by
  refine ((adds_start hnames rfl).distinct ⟨?_, ?_⟩).once
  · rw [start_names hnames, List.map_map]
    exact (List.map_id _).symm ▸ hnames.filter _
  · rw [start_names hnames]
    exact List.forall_mem_map.2 fun name hname => hname

/-- A public name is the name itself or an alias that is not shown as another name. -/
theorem publicNames_cases {entry : String × String} (hentry : entry ∈ publicNames exports) :
    (entry.1 ∈ (exports.flatMap (·.2)).filter (!isOpaque ·) ∧ entry.2 = entry.1) ∨
      PublicNames.MadeFor exports entry ∧ entry.2 ∉ (exports.flatMap (·.2)).filter (!isOpaque ·) := by
  rcases (adds_start hnames rfl).made entry hentry with hplain | halias
  · rw [start_names hnames] at hplain
    obtain ⟨name, hname, rfl⟩ := List.mem_map.1 hplain
    exact .inl ⟨hname, rfl⟩
  · exact .inr halias

theorem publicNames_forall (hslugs : ∀ entry ∈ exports, ∀ c ∈ entry.1.toList, isSlugPart c = true)
    {property : String → Prop} (hplain : ∀ name ∈ exports.flatMap (·.2), property name)
    (hnumbered : ∀ name, IsNumbered name → property name) :
    ∀ entry ∈ publicNames exports, property entry.2 := by
  intro entry hentry
  rcases publicNames_cases hnames hentry with ⟨hname, heq⟩ | ⟨⟨m, hm, -, n, k, heq⟩, -⟩
  · exact heq ▸ hplain entry.1 (List.mem_of_mem_filter hname)
  · exact hnumbered entry.2 (heq ▸ PublicNames.isNumbered_numbered (isName_camelCase (hslugs m hm)) n k)

theorem get?_publicNames {name shown : String} :
    (publicNames exports).get? name = some shown ↔ (name, shown) ∈ publicNames exports :=
  ⟨Table.mem_of_get?, Table.get?_of_mem ((publicNames_keys hnames).nodup_iff.2 hnames)⟩

theorem mem_publicNames {name shown : String} : (name, shown) ∈ publicNames exports ↔
    name ∈ exports.flatMap (·.2) ∧ publicName (publicNames exports) name = shown := by
  have hkeys : name ∈ exports.flatMap (·.2) ↔ ∃ value, (name, value) ∈ publicNames exports := by
    rw [← (publicNames_keys hnames).mem_iff]
    simp
  have hvalue {value : String} (hmem : (name, value) ∈ publicNames exports) :
      publicName (publicNames exports) name = value := by
    rw [publicName, (get?_publicNames hnames).2 hmem]
    rfl
  constructor
  · exact fun hmem => ⟨hkeys.2 ⟨shown, hmem⟩, hvalue hmem⟩
  · rintro ⟨hname, rfl⟩
    obtain ⟨value, hmem⟩ := hkeys.1 hname
    rwa [hvalue hmem]

theorem publicName_nodup :
    ((exports.flatMap (·.2)).map (publicName (publicNames exports))).Nodup := by
  refine List.Nodup.map_on (fun name hname other hother heq => ?_) hnames
  have hfirst := (mem_publicNames hnames).2 ⟨hname, rfl⟩
  have hsecond := (mem_publicNames hnames).2 ⟨hother, heq.symm⟩
  exact congrArg Prod.fst
    (List.inj_on_of_nodup_map (publicNames_once hnames) hfirst hsecond rfl)

end

end ScriptSplit
