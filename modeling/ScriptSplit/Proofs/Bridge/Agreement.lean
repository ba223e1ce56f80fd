import ScriptSplit.Proofs.Bridge.Content
import ScriptSplit.Proofs.Bridge.PublicNames
import ScriptSplit.Proofs.Link.Needs

/-!
# The two bridges agree

The bridge of modules gives a name its public name where it takes it, the bridge for `require` where it gives it. Both
give the same public names, each once and from the same name of the same module, and neither has two things
under one name.
-/

namespace ScriptSplit

/-! ## What modules export -/

section Exports

variable {layout : Layout} {files : Files}

theorem mem_moduleExports {entry : String × List String} :
    entry ∈ Run.moduleExports layout files ↔ entry.1 ∈ layout.slugs ∧
      files.has (layout.file entry.1) = true ∧ entry.2 ≠ [] ∧
        entry.2 = (layout.names entry.1).filter fun name =>
          layout.moduleOfName.get? name == some entry.1 := by
  simp only [Run.moduleExports, List.mem_filterMap, Option.ite_none_right_eq_some, Option.some.injEq,
    Bool.and_eq_true, Bool.not_eq_true', List.isEmpty_eq_false_iff]
  constructor
  · rintro ⟨slug, hslug, ⟨hhas, hne⟩, rfl⟩
    exact ⟨hslug, hhas, hne, rfl⟩
  · rintro ⟨hslug, hhas, hne, hnames⟩
    exact ⟨entry.1, hslug, ⟨hhas, hnames ▸ hne⟩, Prod.ext rfl hnames.symm⟩

theorem moduleOfName_of_exports {entry : String × List String}
    (hentry : entry ∈ Run.moduleExports layout files) {name : String} (hname : name ∈ entry.2) :
    name ∈ layout.names entry.1 ∧ layout.moduleOfName.get? name = some entry.1 := by
  obtain ⟨-, -, -, hnames⟩ := mem_moduleExports.1 hentry
  rw [hnames] at hname
  obtain ⟨hmem, hfirst⟩ := List.mem_filter.1 hname
  exact ⟨hmem, by simpa using hfirst⟩

/-- No name is exported twice: it belongs to one module. -/
theorem moduleExports_nodup (hslugs : layout.slugs.Nodup)
    (hnames : ∀ slug ∈ layout.slugs, (layout.names slug).Nodup) :
    ((Run.moduleExports layout files).flatMap (·.2)).Nodup := by
  have hapart : (Run.moduleExports layout files).Pairwise fun a b => a.1 ≠ b.1 := by
    refine List.Pairwise.filterMap _ ?_ hslugs
    intro slug other hne a ha b hb
    simp only [Option.ite_none_right_eq_some, Option.some.injEq] at ha hb
    rw [← ha.2, ← hb.2]
    exact hne
  refine List.nodup_flatMap.2 ⟨fun entry hentry => ?_, ?_⟩
  · obtain ⟨hslug, -, -, hfilter⟩ := mem_moduleExports.1 hentry
    rw [hfilter]
    exact (hnames entry.1 hslug).filter _
  · refine hapart.imp_of_mem fun {a b} ha hb hne name hname hother => ?_
    have hfirst := (moduleOfName_of_exports ha hname).2
    rw [(moduleOfName_of_exports hb hother).2] at hfirst
    exact hne (Option.some.inj hfirst).symm

end Exports

/-! ## The texts of bridges -/

/-- Whether a text consists of some lines, of lines that take names from modules, of further lines and of one
that gives names to others, and what it says by them. -/
def BridgeWords.Says (words : BridgeWords) (front middle : List Text) (text : Text) (content : BridgeContent) :
    Prop :=
  ∃ takes gives, text = Text.unlines (front ++ takes ++ middle ++ [gives]) ∧
    words.content? takes gives = some content

def keptLines (banner : Text) (header : List Text) : List Text :=
  if (keptHeader banner header).isEmpty then [] else keptHeader banner header ++ [[]]

theorem importClause_toList (names : List String) (mapping : Table String) :
    (importClause names mapping).toList = CommonJs.braces ((names.map fun name =>
      (name, publicName mapping name)).map BridgeWords.modules.entry) := by
  rw [importClause, CommonJs.braces_toList, List.map_map, List.map_map]
  congr 1
  apply List.map_congr_left
  intro name _
  simp only [Function.comp_apply, BridgeWords.entry]
  split
  · rfl
  · simp [String.toList_append, BridgeWords.modules]

theorem importLine_toList (names : List String) (mapping : Table String) (specifier : String) :
    ("import " ++ importClause names mapping ++ " from '" ++ specifier ++ "';").toList =
      BridgeWords.modules.takesLine (names.map fun name => (name, publicName mapping name)) specifier := by
  simp only [String.toList_append, importClause_toList, BridgeWords.takesLine, List.append_assoc]
  rfl

theorem requireLine_toList (names : List String) (specifier : String) :
    ("const \x7b " ++ ", ".intercalate names ++ " \x7d = require('" ++ specifier ++ "');").toList =
      BridgeWords.require.takesLine (names.map fun name => (name, name)) specifier := by
  have hbraces := CommonJs.braces_toList names
  have hentries : (names.map fun name => (name, name)).map BridgeWords.require.entry =
      names.map String.toList := by
    simp [BridgeWords.entry, Function.comp_def]
  rw [BridgeWords.takesLine, hentries, ← hbraces]
  simp only [String.toList_append, List.append_assoc]
  rfl

theorem exportLine_toList (publics : List String) :
    ("export \x7b " ++ ", ".intercalate publics ++ " \x7d;").toList =
      BridgeWords.modules.givesLine (publics.map fun shown => (shown, shown)) := by
  have hbraces := CommonJs.braces_toList publics
  have hentries : (publics.map fun shown => (shown, shown)).map BridgeWords.modules.entry =
      publics.map String.toList := by
    simp [BridgeWords.entry, Function.comp_def]
  rw [BridgeWords.givesLine, hentries, ← hbraces]
  simp only [String.toList_append, List.append_assoc]
  rfl

theorem exportsLine_toList (mapping : Table String) :
    ("module.exports = \x7b " ++ ", ".intercalate (mapping.map fun (name, shown) =>
      if shown = name then name else shown ++ ": " ++ name) ++ " \x7d;").toList =
        BridgeWords.require.givesLine (mapping.map Prod.swap) := by
  have hentries : (mapping.map Prod.swap).map BridgeWords.require.entry =
      (mapping.map fun (name, shown) => if shown = name then name else shown ++ ": " ++ name).map
        String.toList := by
    rw [List.map_map, List.map_map]
    apply List.map_congr_left
    rintro ⟨name, shown⟩ _
    by_cases hsame : shown = name
    · simp [BridgeWords.entry, hsame]
    · simp [BridgeWords.entry, hsame, Ne.symm hsame, String.toList_append, BridgeWords.require]
  rw [BridgeWords.givesLine, hentries, ← CommonJs.braces_toList]
  simp only [String.toList_append, List.append_assoc]
  rfl

theorem mapM_map_eq_some {α β γ : Type} {read : β → Option γ} {write : α → β} {value : α → γ} {items : List α}
    (h : ∀ item ∈ items, read (write item) = some (value item)) :
    (items.map write).mapM read = some (items.map value) := by
  induction items with
  | nil => rfl
  | cons item items ih =>
      obtain ⟨hitem, hitems⟩ := List.forall_mem_cons.1 h
      rw [List.map_cons, List.mapM_cons, hitem, ih hitems]
      rfl

/-- Exports with what stands for each module in place of its slug. -/
def ModuleExports.relabelled (exports : ModuleExports) (specifier : String → String) : ModuleExports :=
  exports.map fun (slug, names) => (specifier slug, names)

namespace BridgeContent

def ofModules (exports : ModuleExports) (mapping : Table String) (specifier : String → String) :
    BridgeContent where
  bindings := exports.flatMap fun entry =>
    entry.2.map fun name => { specifier := specifier entry.1, name, shown := publicName mapping name }
  publics := (Names.ofList (exports.flatMap fun entry => entry.2.map (publicName mapping))).map
    fun shown => (shown, shown)

def ofRequire (exports : ModuleExports) (mapping : Table String) (specifier : String → String) :
    BridgeContent where
  bindings := exports.flatMap fun entry =>
    entry.2.map fun name => { specifier := specifier entry.1, name, shown := name }
  publics := (mapping.mergeSort fun a b => !decide (b.2 < a.2)).map Prod.swap

end BridgeContent

section Says

variable {exports : ModuleExports} {mapping : Table String}
variable (hne : ∀ entry ∈ exports, entry.2 ≠ [])

include hne

theorem filter_relabelled (specifier : String → String) :
    (exports.relabelled specifier).filter (!·.2.isEmpty) = exports.relabelled specifier := by
  refine List.filter_eq_self.2 (List.forall_mem_map.2 fun entry hentry => ?_)
  simpa using hne entry hentry

theorem renderBridge_says (banner : Text) (header : List Text) (specifier : String → String)
    (hnamed : ∀ entry ∈ exports, ∀ name ∈ entry.2, Text.isName name.toList = true ∧
      Text.isName (publicName mapping name).toList = true) :
    BridgeWords.modules.Says [banner, []] ([[]] ++ keptLines banner header ++ [bridgeComment.toList])
      (renderBridge banner (exports.relabelled specifier) mapping header)
      (.ofModules exports mapping specifier) := by
  refine ⟨exports.map fun entry => BridgeWords.modules.takesLine
      (entry.2.map fun name => (name, publicName mapping name)) (specifier entry.1),
    BridgeWords.modules.givesLine (BridgeContent.ofModules exports mapping specifier).publics, ?_, ?_⟩
  · unfold renderBridge
    simp only [filter_relabelled hne, importLine_toList, exportLine_toList]
    simp [ModuleExports.relabelled, keptLines, BridgeContent.ofModules, List.flatMap_map,
      Function.comp_def]
  · have htakes := mapM_map_eq_some
      fun entry (hentry : entry ∈ exports) =>
        BridgeWords.modules_marked.bindings?_takesLine (List.forall_mem_map.2 fun name hname =>
          (⟨(hnamed entry hentry name hname).1, (hnamed entry hentry name hname).2⟩ :
            BridgeWords.Named (name, publicName mapping name))) (specifier entry.1)
    have hgives : BridgeWords.modules.publics? (BridgeWords.modules.givesLine
        (BridgeContent.ofModules exports mapping specifier).publics) =
          some (BridgeContent.ofModules exports mapping specifier).publics := by
      rw [BridgeWords.modules_marked.publics?_givesLine]
      · simp [BridgeContent.ofModules, BridgeWords.modules, Function.comp_def]
      · refine List.forall_mem_map.2 fun shown hshown => ?_
        obtain ⟨entry, hentry, hmem⟩ := List.mem_flatMap.1 (Names.mem_ofList.1 hshown)
        obtain ⟨name, hname, rfl⟩ := List.mem_map.1 hmem
        exact ⟨(hnamed entry hentry name hname).2, (hnamed entry hentry name hname).2⟩
    rw [BridgeWords.content?, htakes, hgives]
    simp [BridgeContent.ofModules, List.flatMap, Function.comp_def]

/-- A bridge for `require` says the same in its own words. -/
theorem renderRequireBridge_says (banner : Text) (specifier : String → String)
    (hnamed : ∀ entry ∈ exports, ∀ name ∈ entry.2, Text.isName name.toList = true)
    (hmapping : ∀ entry ∈ mapping, BridgeWords.Named entry) :
    BridgeWords.require.Says [banner, []] [[]]
      (renderRequireBridge banner (exports.relabelled specifier) mapping)
      (.ofRequire exports mapping specifier) := by
  refine ⟨exports.map fun entry => BridgeWords.require.takesLine
      (entry.2.map fun name => (name, name)) (specifier entry.1),
    BridgeWords.require.givesLine (BridgeContent.ofRequire exports mapping specifier).publics, ?_, ?_⟩
  · unfold renderRequireBridge
    simp only [filter_relabelled hne, requireLine_toList, exportsLine_toList]
    simp [ModuleExports.relabelled, BridgeContent.ofRequire, Function.comp_def]
  · have htakes := mapM_map_eq_some
      fun entry (hentry : entry ∈ exports) =>
        BridgeWords.require_marked.bindings?_takesLine (List.forall_mem_map.2 fun name hname =>
          (⟨hnamed entry hentry name hname, hnamed entry hentry name hname⟩ :
            BridgeWords.Named (name, name))) (specifier entry.1)
    have hgives : BridgeWords.require.publics? (BridgeWords.require.givesLine
        (BridgeContent.ofRequire exports mapping specifier).publics) =
          some (BridgeContent.ofRequire exports mapping specifier).publics := by
      rw [BridgeWords.require_marked.publics?_givesLine]
      · simp [BridgeWords.require]
      · refine List.forall_mem_map.2 fun entry hentry => ?_
        have hboth := hmapping entry ((List.mergeSort_perm _ _).mem_iff.1 hentry)
        exact ⟨hboth.2, hboth.1⟩
    rw [BridgeWords.content?, htakes, hgives]
    simp [BridgeContent.ofRequire, List.flatMap, Function.comp_def]

end Says

/-! ## Agreement -/

namespace BridgeContent

theorem origin?_eq {content : BridgeContent} (hlocals : content.locals.Nodup)
    (hpublics : (content.publics.map (·.1)).Nodup) {shown : String} {binding : Binding}
    (hgiven : (shown, binding.shown) ∈ content.publics) (hbinding : binding ∈ content.bindings) :
    content.origin? shown = some (binding.specifier, binding.name) := by
  have hown := Table.get?_of_mem hpublics hgiven
  have hfound : content.bindings.find? (·.shown == binding.shown) = some binding := by
    cases hfind : content.bindings.find? (·.shown == binding.shown) with
    | none => simpa using List.find?_eq_none.1 hfind binding hbinding
    | some found =>
        have hsame : found.shown = binding.shown := by simpa using List.find?_some hfind
        rw [List.inj_on_of_nodup_map hlocals (List.mem_of_find?_eq_some hfind) hbinding hsame]
  simp [origin?, hown, hfound]

/-- Whether two bridges give the same public names to what some modules export, each once and from the same
name of the same module, and have nothing twice themselves. -/
structure Agree (exports : ModuleExports) (mapping : Table String) (specifier mirror : String → String)
    (modules require : BridgeContent) : Prop where
  once : (modules.publics.map (·.1)).Nodup ∧ (require.publics.map (·.1)).Nodup
  locals : modules.locals.Nodup ∧ require.locals.Nodup
  exported : ∀ shown, shown ∈ modules.publics.map (·.1) ↔ shown ∈ require.publics.map (·.1)
  listed : ∀ shown, shown ∈ modules.publics.map (·.1) ↔
    ∃ entry ∈ exports, ∃ name ∈ entry.2, publicName mapping name = shown
  origin : ∀ entry ∈ exports, ∀ name ∈ entry.2,
    modules.origin? (publicName mapping name) = some (specifier entry.1, name) ∧
      require.origin? (publicName mapping name) = some (mirror entry.1, name)

variable {exports : ModuleExports} (specifier mirror : String → String)

theorem locals_ofModules (mapping : Table String) : (ofModules exports mapping specifier).locals =
    (exports.flatMap (·.2)).map (publicName mapping) := by
  simp [locals, ofModules, List.map_flatMap, Function.comp_def]

theorem locals_ofRequire (mapping : Table String) :
    (ofRequire exports mapping specifier).locals = exports.flatMap (·.2) := by
  simp [locals, ofRequire, List.map_flatMap, Function.comp_def]

theorem mem_publics_ofModules {mapping : Table String} {shown own : String} :
    (shown, own) ∈ (ofModules exports mapping specifier).publics ↔
      shown = own ∧ shown ∈ (exports.flatMap (·.2)).map (publicName mapping) := by
  simp only [ofModules, List.mem_map, Names.mem_ofList, List.mem_flatMap, Prod.mk.injEq]
  constructor
  · rintro ⟨_, ⟨entry, hentry, name, hname, rfl⟩, rfl, rfl⟩
    exact ⟨rfl, name, ⟨entry, hentry, hname⟩, rfl⟩
  · rintro ⟨rfl, name, ⟨entry, hentry, hname⟩, rfl⟩
    exact ⟨_, ⟨entry, hentry, name, hname, rfl⟩, rfl, rfl⟩

theorem mem_publics_ofRequire {mapping : Table String} {shown own : String} :
    (shown, own) ∈ (ofRequire exports mapping specifier).publics ↔ (own, shown) ∈ mapping := by
  simp only [ofRequire, List.mem_map, List.mem_mergeSort]
  constructor
  · rintro ⟨⟨name, value⟩, hmem, heq⟩
    cases heq
    exact hmem
  · exact fun hmem => ⟨(own, shown), hmem, rfl⟩

variable (hnames : (exports.flatMap (·.2)).Nodup)

include hnames

theorem agree_publicNames : Agree exports (publicNames exports) specifier mirror
    (ofModules exports (publicNames exports) specifier)
    (ofRequire exports (publicNames exports) mirror) := by
  have hmapping {name shown : String} : (name, shown) ∈ publicNames exports ↔
      name ∈ exports.flatMap (·.2) ∧ publicName (publicNames exports) name = shown :=
    mem_publicNames hnames
  have hlocals : (ofModules exports (publicNames exports) specifier).locals.Nodup := by
    rw [locals_ofModules]
    exact publicName_nodup hnames
  have hrequireLocals : (ofRequire exports (publicNames exports) mirror).locals.Nodup := by
    rw [locals_ofRequire]
    exact hnames
  have honce : ((ofModules exports (publicNames exports) specifier).publics.map (·.1)).Nodup := by
    have hself : (·.1) ∘ (fun shown : String => (shown, shown)) = id := rfl
    rw [ofModules, List.map_map, hself, List.map_id]
    exact (Names.ofList_pairwise _).imp fun hlt => ne_of_lt hlt
  have hrequireOnce : ((ofRequire exports (publicNames exports) mirror).publics.map (·.1)).Nodup := by
    have hswap : (·.1) ∘ (Prod.swap : String × String → String × String) = (·.2) := rfl
    rw [ofRequire, List.map_map, hswap]
    exact ((List.mergeSort_perm _ _).map _).nodup_iff.2 (publicNames_once hnames)
  have hlisted : ∀ shown,
      shown ∈ (ofModules exports (publicNames exports) specifier).publics.map (·.1) ↔
        ∃ name ∈ exports.flatMap (·.2), publicName (publicNames exports) name = shown := by
    intro shown
    simp [mem_publics_ofModules]
  refine ⟨⟨honce, hrequireOnce⟩, ⟨hlocals, hrequireLocals⟩, fun shown => ?_, fun shown => ?_, ?_⟩
  · rw [hlisted]
    simp [mem_publics_ofRequire, hmapping]
  · rw [hlisted]
    simp only [List.mem_flatMap]
    constructor
    · rintro ⟨name, ⟨entry, hentry, hname⟩, heq⟩
      exact ⟨entry, hentry, name, hname, heq⟩
    · rintro ⟨entry, hentry, name, hname, heq⟩
      exact ⟨name, ⟨entry, hentry, hname⟩, heq⟩
  · intro entry hentry name hname
    have hmem : name ∈ exports.flatMap (·.2) := List.mem_flatMap.2 ⟨entry, hentry, hname⟩
    have hbinding : (⟨specifier entry.1, name, publicName (publicNames exports) name⟩ : Binding) ∈
          (ofModules exports (publicNames exports) specifier).bindings :=
      List.mem_flatMap.2 ⟨entry, hentry, List.mem_map_of_mem hname⟩
    have hrequireBinding : (⟨mirror entry.1, name, name⟩ : Binding) ∈
        (ofRequire exports (publicNames exports) mirror).bindings :=
      List.mem_flatMap.2 ⟨entry, hentry, List.mem_map_of_mem hname⟩
    constructor
    · exact origin?_eq hlocals honce
        ((mem_publics_ofModules specifier).2 ⟨rfl, List.mem_map_of_mem hmem⟩) hbinding
    · exact origin?_eq hrequireLocals hrequireOnce
        ((mem_publics_ofRequire mirror).2 (hmapping.2 ⟨hmem, rfl⟩)) hrequireBinding

end BridgeContent

/-- What can be exported: names that can be listed, each once, by modules whose slugs are safe. -/
structure ModuleExports.Proper (exports : ModuleExports) : Prop where
  nonempty : ∀ entry ∈ exports, entry.2 ≠ []
  once : (exports.flatMap (·.2)).Nodup
  slugs : ∀ entry ∈ exports, ∀ c ∈ entry.1.toList, isSlugPart c = true
  names : ∀ name ∈ exports.flatMap (·.2), isExportable name = true ∧ Text.isName name.toList = true

namespace ModuleExports.Proper

variable {exports : ModuleExports} (h : exports.Proper)

include h

theorem get?_eq_some {name shown : String} : (publicNames exports).get? name = some shown ↔
    name ∈ exports.flatMap (·.2) ∧ publicName (publicNames exports) name = shown :=
  (get?_publicNames h.once).trans (mem_publicNames h.once)

theorem isSome_get? {name : String} : ((publicNames exports).get? name).isSome = true ↔
    ∃ entry ∈ exports, name ∈ entry.2 := by
  rw [Option.isSome_iff_exists, ← List.mem_flatMap]
  simp only [h.get?_eq_some]
  exact ⟨fun ⟨_, hname, _⟩ => hname, fun hname => ⟨_, hname, rfl⟩⟩

theorem get?_inj {name other shown : String} (hname : (publicNames exports).get? name = some shown)
    (hother : (publicNames exports).get? other = some shown) : name = other :=
  congrArg Prod.fst (List.inj_on_of_nodup_map (publicNames_once h.once)
    (Table.mem_of_get? hname) (Table.mem_of_get? hother) rfl)

theorem shown {name shown : String} (hget : (publicNames exports).get? name = some shown) :
    isExportable shown = true ∧ Text.isName shown.toList = true :=
  publicNames_forall h.once h.slugs h.names (fun _ hnumber => ⟨hnumber.isExportable, hnumber.1⟩)
    (name, shown) (Table.mem_of_get? hget)

theorem named : ∀ entry ∈ publicNames exports, BridgeWords.Named entry := by
  intro entry hentry
  have hget := (get?_publicNames h.once).2 (show (entry.1, entry.2) ∈ _ from hentry)
  exact ⟨(h.names entry.1 (h.get?_eq_some.1 hget).1).2, (h.shown hget).2⟩

theorem named_publicName : ∀ entry ∈ exports, ∀ name ∈ entry.2, Text.isName name.toList = true ∧
    Text.isName (publicName (publicNames exports) name).toList = true := by
  intro entry hentry name hname
  have hmem : name ∈ exports.flatMap (·.2) := List.mem_flatMap.2 ⟨entry, hentry, hname⟩
  exact ⟨(h.names name hmem).2, (h.shown (h.get?_eq_some.2 ⟨hmem, rfl⟩)).2⟩

theorem bridges (banner : Text) (header : List Text) (specifier mirror : String → String) :
    ∃ modules require,
      BridgeWords.modules.Says [banner, []] ([[]] ++ keptLines banner header ++ [bridgeComment.toList])
        (renderBridge banner (exports.relabelled specifier) (publicNames exports) header) modules ∧
      BridgeWords.require.Says [banner, []] [[]]
        (renderRequireBridge banner (exports.relabelled mirror) (publicNames exports)) require ∧
      BridgeContent.Agree exports (publicNames exports) specifier mirror modules require :=
  ⟨_, _, renderBridge_says h.nonempty banner header specifier h.named_publicName,
    renderRequireBridge_says h.nonempty banner mirror
      (fun entry hentry name hname => (h.named_publicName entry hentry name hname).1) h.named,
    BridgeContent.agree_publicNames specifier mirror h.once⟩

end ModuleExports.Proper

theorem moduleExports_proper {plan : Plan} (hplan : plan.Storable) {facts : Facts}
    (hbreaks : ∀ f ∈ facts.functions, '\n' ∉ f.name.toList)
    (hslugs : ∀ m ∈ plan.modules, ∀ c ∈ m.slug.toList, isSlugPart c = true)
    (directory : Path) (basename : String) (files : Files) :
    (Run.moduleExports (Layout.ofPlan plan facts directory basename) files).Proper := by
  have hlayoutSlugs : (Layout.ofPlan plan facts directory basename).slugs = plan.modules.map (·.slug) :=
    Layout.ofPlan_slugs ..
  refine ⟨fun entry hentry => (mem_moduleExports.1 hentry).2.2.1, moduleExports_nodup ?_ ?_, ?_, ?_⟩
  · rw [hlayoutSlugs]
    exact Layout.slugs_nodup hplan
  · rw [hlayoutSlugs]
    refine List.forall_mem_map.2 fun m hm => ?_
    rw [Layout.names_ofPlan hplan facts directory basename hm]
    exact nodup_eraseDups _
  · intro entry hentry
    have hslug := (mem_moduleExports.1 hentry).1
    rw [hlayoutSlugs] at hslug
    obtain ⟨m, hm, hsame⟩ := List.mem_map.1 hslug
    exact hsame ▸ hslugs m hm
  · intro name hname
    obtain ⟨entry, hentry, hmem⟩ := List.mem_flatMap.1 hname
    have hfirst := (moduleOfName_of_exports hentry hmem).2
    obtain ⟨hexportable, hline⟩ := Layout.exportable_of_moduleOfName hbreaks hfirst
    exact ⟨hexportable, Text.isName_of_isExportable hexportable hline⟩

/-- The two bridges of a plan that was read agree: every name that a module exports has one public name, no other
name has the same one, it can be exported, and the lines of the two texts give it from the same place. -/
theorem bridges_agree {doc : Json} {plan : Plan} (hread : Plan.ofDoc doc = .ok plan) {facts : Facts}
    (hbreaks : ∀ f ∈ facts.functions, '\n' ∉ f.name.toList)
    (hslugs : ∀ m ∈ plan.modules, ∀ c ∈ m.slug.toList, isSlugPart c = true)
    (directory : Path) (basename : String) (files : Files) (banner : Text) (header : List Text)
    (source : Path) (file mirror : String → Path) :
    let exports := Run.moduleExports (Layout.ofPlan plan facts directory basename) files
    let mapping := publicNames exports
    (∀ name, (mapping.get? name).isSome = true ↔ ∃ entry ∈ exports, name ∈ entry.2) ∧
      (∀ name other shown, mapping.get? name = some shown → mapping.get? other = some shown →
        name = other) ∧
      (∀ name shown, mapping.get? name = some shown → isExportable shown = true) ∧
      ∃ modules require,
        BridgeWords.modules.Says [banner, []] ([[]] ++ keptLines banner header ++ [bridgeComment.toList])
          (renderBridge banner (Run.bySpecifier source file exports) mapping header) modules ∧
        BridgeWords.require.Says [banner, []] [[]]
          (renderRequireBridge banner (Run.bySpecifier source mirror exports) mapping) require ∧
        BridgeContent.Agree exports mapping (fun slug => Path.specifierFrom source.parent (file slug))
          (fun slug => Path.specifierFrom source.parent (mirror slug)) modules require := by
  intro exports mapping
  have hproper : exports.Proper := moduleExports_proper (Plan.storable_of_ofDoc hread) hbreaks hslugs
    directory basename files
  clear_value exports
  have hbridges := hproper.bridges banner header
    (fun slug => Path.specifierFrom source.parent (file slug))
    (fun slug => Path.specifierFrom source.parent (mirror slug))
  refine ⟨fun name => hproper.isSome_get?, fun name other shown => hproper.get?_inj,
    fun name shown hget => (hproper.shown hget).1, ?_⟩
  exact hbridges

/-- Two functions with generated names in one module, and one in another that is called like an alias. -/
def generatedFacts : Facts where
  source := "app.js"
  functions := [{ id := "f0", name := "f001", start := 0, stop := 1 },
    { id := "f1", name := "f002", start := 1, stop := 2 },
    { id := "f2", name := "dataUtils1", start := 2, stop := 3 }]

def generatedPlan : Plan where
  modules := [{ name := "data", slug := "data-utils", functions := ["f0", "f1"] },
    { name := "other", slug := "other", functions := ["f2"] }]

def generatedFiles : Files where
  entries := [(["data-utils.js"], .file (.text [])), (["other.js"], .file (.text []))]

/-- The first alias is taken, and both bridges give the next one to the function. -/
theorem bridges_agree_on_alias :
    let exports := Run.moduleExports
      (Layout.ofPlan generatedPlan generatedFacts (Path.ofString "/") "app") generatedFiles
    let source := Path.ofString "/app.js"
    exports = [("data-utils", ["f001", "f002"]), ("other", ["dataUtils1"])] ∧
      ∃ modules require : BridgeContent,
        (∃ front middle, BridgeWords.modules.Says front middle (renderBridge [] (Run.bySpecifier source
          (fun slug => Path.ofString ("/" ++ slug ++ ".js")) exports) (publicNames exports) []) modules) ∧
        (∃ front middle, BridgeWords.require.Says front middle (renderRequireBridge [] (Run.bySpecifier source
          (fun slug => Path.ofString ("/cjs/" ++ slug ++ ".cjs")) exports) (publicNames exports)) require) ∧
        modules.origin? "dataUtils12" = some ("./data-utils.js", "f001") ∧
        require.origin? "dataUtils12" = some ("./cjs/data-utils.cjs", "f001") := by
  intro exports source
  have hexports : exports = [("data-utils", ["f001", "f002"]), ("other", ["dataUtils1"])] := by
    decide +kernel
  have hread : Plan.ofDoc generatedPlan.toDoc = .ok generatedPlan := by decide +kernel
  have hbreaks : ∀ f ∈ generatedFacts.functions, '\n' ∉ f.name.toList := by simp [generatedFacts]
  have hslugs : ∀ m ∈ generatedPlan.modules, ∀ c ∈ m.slug.toList, isSlugPart c = true := by
    intro m hm
    exact List.all_eq_true.1 (by revert m; decide)
  obtain ⟨-, -, -, modules, require, hmodules, hrequire, hagree⟩ := bridges_agree hread hbreaks hslugs
    (Path.ofString "/") "app" generatedFiles [] [] source
    (fun slug => Path.ofString ("/" ++ slug ++ ".js"))
    (fun slug => Path.ofString ("/cjs/" ++ slug ++ ".cjs"))
  refine ⟨hexports, modules, require, ⟨_, _, hmodules⟩, ⟨_, _, hrequire⟩, ?_⟩
  have hentry : ("data-utils", ["f001", "f002"]) ∈ exports := by
    rw [hexports]
    exact List.mem_cons_self
  have hshown : publicName (publicNames exports) "f001" = "dataUtils12" := by
    rw [hexports]
    decide +kernel
  have horigin := hagree.origin _ hentry "f001" List.mem_cons_self
  rw [hshown] at horigin
  have hspecifiers : Path.specifierFrom source.parent (Path.ofString "/data-utils.js") =
        "./data-utils.js" ∧
      Path.specifierFrom source.parent (Path.ofString "/cjs/data-utils.cjs") =
        "./cjs/data-utils.cjs" := by decide +kernel
  rw [← hspecifiers.1, ← hspecifiers.2]
  exact horigin

end ScriptSplit
