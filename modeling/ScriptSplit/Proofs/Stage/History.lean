import Mathlib
import ScriptSplit.Proofs.Run.Archive
import ScriptSplit.Proofs.Stage.SourceSafety

/-!
# No original is lost

Users edit a source and runs of linking replace it by its shim, over and over. All texts that were replaced stay
in backups: linking moves a backup aside before it writes another text in its place, and nothing else that a run
or an edit does touches the places of backups.
-/

namespace ScriptSplit

namespace Run

open Storage (Stable Archived backupPath backupPlaces)

variable {config : Config} {surroundings : Surroundings} {environment : Table String}
  {current : Location} {source : Path} {text : Text}

/-! ## What linking does away from backups -/

section Places

theorem touchedBy_dotted_subset {name : String} (hname : source.Dotted name) :
    Storage.touchedBy source.parent name current ⊆ (backupPlaces source current)ᶜ := by
  rintro location (rfl | rfl) ⟨backup, hbackup, heq⟩
  · exact hname.ne hbackup (by simpa using heq)
  · exact hname.temporary.ne hbackup (by simpa [Storage.asideOf] using heq)

theorem awayFrom_subset_backupPlaces (h : source.Named)
    (houtside : config.Outside environment current source) :
    config.awayFrom environment current ⊆ (backupPlaces source current)ᶜ := by
  rintro location haway ⟨name, -, rfl⟩
  exact houtside.neighbour_not_away h name haway

theorem place_not_mem_backupPlaces (h : source.Named) :
    source.place current ∉ backupPlaces source current := by
  rw [h.place_eq]
  exact fun hmem => touchedBy_dotted_subset (Path.dotted_name h.name_ne_empty) (Or.inl rfl) hmem

end Places

theorem surround_around {l : Linking} (h : l.source.Named)
    (houtside : l.config.Outside surroundings.environment current l.source)
    (hslugs : ∀ slug ∈ l.layout.slugs, isSlug slug = true)
    (hbasename : l.layout.basename = l.source.basename) {before after : Files → Prop}
    (hafter : Stable current (backupPlaces l.source current)ᶜ after)
    (hbackup : Storage.Meets before (Storage.backUp l.source surroundings.now) (fun _ => after) after)
    (hleft : ∀ files, before files → after files) :
    Meets surroundings before l.surround (fun _ => after) after := by
  have hname := h.name_ne_empty
  have haway := awayFrom_subset_backupPlaces h houtside
  have hsource := hafter.mono (touchedBy_dotted_subset (Path.dotted_name hname))
  have hmirror : Meets surroundings after l.writeMirror (fun _ => after) after := by
    apply Linking.writeMirror_keeps h hslugs (hbasename ▸ h.noSlash.1)
    · exact fun mirror hroot slug _ => hafter.mono
        ((touchedBy_mirror_subset hroot (Path.isName_groupName h).notUp _).trans haway)
    · exact hafter.mono (touchedBy_dotted_subset (Path.dotted_requireBridgeName hname))
  have hshim : Meets surroundings after l.writeShim (fun _ => after) after := by
    apply (Linking.writeShim_meets after h (hsource.mono (by simp [Storage.touchedBy]))
      fun before after hchanges hbefore _ => hsource.changes before after hchanges hbefore).consequence
    · exact fun _ hfiles => hfiles
    · exact fun _ _ hfiles => hfiles.elim And.left id
    · exact fun _ hfiles => hfiles
  have hreplace : ∀ backup bridge, Meets surroundings after (l.replaceSource backup bridge)
      (fun _ => after) after := by
    intro backup bridge
    unfold Linking.replaceSource
    apply Meets.bind hshim.bestEffort_always
    rintro ⟨shim, shimWarnings⟩
    apply Meets.bind (Linking.copyBackup_keeps h (hafter.mono ((touchedBy_output_subset
      (Path.isName_groupName h).notUp _).trans haway)) backup).bestEffort_always
    rintro ⟨copied, copyWarnings⟩
    exact .pure fun _ hfiles => hfiles
  unfold Linking.surround
  apply Meets.bind_read
  apply Meets.bind (((Meets.storing hbackup).step hleft).bestEffort_always)
  rintro ⟨backup, backupWarnings⟩
  apply Meets.bind (writeBridges_keeps h (hafter.mono
    (touchedBy_dotted_subset (Path.dotted_bridgeName hname))) backup)
  rintro ⟨bridge, bridgeWarnings⟩
  apply Meets.bind hmirror.bestEffort_always
  rintro ⟨mirrored, mirrorWarnings⟩
  rcases backup with _ | backup
  · exact .pure fun _ hfiles => hfiles
  rcases bridge with _ | bridge
  · exact .pure fun _ hfiles => hfiles
  apply Meets.bind (hreplace backup bridge)
  rintro ⟨replaced, messages, replacedWarnings⟩
  exact .pure fun _ hfiles => hfiles

/-- A text that is in a backup stays in one. -/
theorem link_archives (h : source.Named) (hsource : config.sourcePath? = some source)
    (houtside : config.Outside surroundings.environment current source) (text : Text) :
    Meets surroundings (fun files => files.current = current ∧ Archived source text files) (link config)
      (fun _ files => files.current = current ∧ Archived source text files)
      (fun files => files.current = current ∧ Archived source text files) := by
  have hstable : Storage.Stable current _ _ := Storage.archived_stable h text
  have haway := hstable.mono (awayFrom_subset_backupPlaces h houtside)
  apply link_around h hsource haway haway fun _ hfiles => hfiles
  rintro l ⟨rfl, rfl, hslugs, hbasename, -⟩
  exact surround_around h houtside hslugs hbasename hstable
    (Storage.backUp_archives h text surroundings.now) fun _ hfiles => hfiles

/-- Where the source is a shim already, the plain backup stays as it is. -/
theorem link_shim_saved (h : source.Named) (hsource : config.sourcePath? = some source)
    (houtside : config.Outside surroundings.environment current source) {content : Content}
    {own : Text} (hdecoded : content.decoded = .ok own) (hshim : looksLikeShim own = true) (text : Text) :
    Meets surroundings (Saved current source content text) (link config)
      (fun _ files => files.current = current ∧ files.textAt? (backupPath source) = some text)
      (fun files => files.current = current ∧ files.textAt? (backupPath source) = some text) := by
  have hsaved : Stable current (backupPlaces source current)ᶜ
      (fun files => files.current = current ∧ files.textAt? (backupPath source) = some text) := by
    refine ⟨fun _ hfiles => hfiles.1, ?_⟩
    rintro before after hchanges ⟨rfl, htext⟩
    refine ⟨hchanges.current, hchanges.textAt?_eq_some ?_ htext⟩
    exact fun houtside => houtside (Storage.IsBackup.plain.place_mem h _)
  have haway := awayFrom_subset h houtside
  apply link_around h hsource (saved_stable.mono (haway.trans (Set.compl_subset_compl.2
    (by intro place; simp [protectedPlaces]; tauto))))
    (hsaved.mono (awayFrom_subset_backupPlaces h houtside))
  · exact fun _ hfiles => ⟨hfiles.current, hfiles.saved⟩
  · rintro l ⟨rfl, rfl, hslugs, hbasename, -⟩
    apply surround_around h houtside hslugs hbasename hsaved
    · apply (Storage.backUp_shim_keeps h ?_ surroundings.now).consequence (fun _ hfiles => hfiles)
      · exact fun _ _ hfiles => ⟨hfiles.current, hfiles.saved⟩
      · exact fun _ hfiles => ⟨hfiles.current, hfiles.saved⟩
      · intro files hfiles
        refine ⟨own, ?_, hshim⟩
        rw [Files.textAt?, hfiles.unchanged]
        simp [hdecoded, Except.toOption]
    · exact fun _ hfiles => ⟨hfiles.current, hfiles.saved⟩

/-! ## Histories of a source -/

def IsShim (source : Path) (files : Files) : Prop :=
  ∃ own, files.textAt? source = some own ∧ looksLikeShim own = true

structure LinkRun (source : Path) where
  config : Config
  surroundings : Surroundings
  before : RunState
  root : config.root.isAbsolute = true ∧ config.root.Clean
  reads : config.sourcePath? = some source
  outside : config.Outside surroundings.environment before.files.current source

namespace LinkRun

def after (run : LinkRun source) : Files :=
  filesAfter (link run.config) run.surroundings run.before

/-- Whether the run replaces a text of the source by the shim. -/
structure Replaces (run : LinkRun source) (text : Text) : Prop where
  held : run.before.files.textAt? source = some text
  plain : looksLikeShim text = false
  shim : IsShim source run.after

end LinkRun

/-- A user puts a text that is no shim in the place of a source, and makes directories at will. -/
structure Edits (source : Path) (text : Text) (before after : Files) : Prop where
  changes : Files.Changes {source.place before.current} Set.univ before after
  put : after.textAt? source = some text
  plain : looksLikeShim text = false

theorem edits_put {files : Files} {own : Text} (hown : files.textAt? source = some own)
    (hplain : looksLikeShim text = false) :
    Edits source text files (files.put (source.place files.current) (.file (.text text))) := by
  obtain ⟨content, hat, -⟩ := Files.exists_of_textAt? hown
  obtain ⟨hlocate, hentry⟩ := Files.at?_eq_some.1 hat
  have hne : source.place files.current ≠ [] := by
    intro hroot
    rw [hroot] at hentry
    cases hentry
  have hchanges := Files.put_file_changes (by rw [hentry]; simp) (.text text)
  refine ⟨hchanges.mono (Set.Subset.refl _) (Set.empty_subset _), Files.textAt?_of_at? ?_, hplain⟩
  rw [Files.at?_eq_some, hchanges.current, Files.entry?_put _ hne, if_pos rfl]
  exact ⟨hchanges.locate_eq_ok hlocate, rfl⟩

/-- Whether the ways to a source and to all of its backups avoid a place. -/
def Avoided (source : Path) (current location : Location) : Prop :=
  ∀ path, path = source ∨ Storage.IsBackup source path →
    ∀ between ∈ path.way current, ¬ location <+: between

/-- The files that edits of a source and runs of linking lead to, with the texts that were replaced by the shim on
the way there, the last one first. In between, all that stands at other places may be deleted. -/
inductive History (source : Path) (start : Files) : Files → List Text → Prop where
  | start : History source start start []
  | edited {before after : Files} {text : Text} {replaced : List Text}
      (history : History source start before replaced) (edits : Edits source text before after) :
      History source start after replaced
  | cleared {before : Files} {replaced : List Text} (history : History source start before replaced)
      {location : Location} (avoided : Avoided source before.current location) :
      History source start (before.removeTree location) replaced
  | linked {before : Files} {replaced : List Text} (history : History source start before replaced)
      (run : LinkRun source) (begins : run.before.files = before)
      (keeps : ∀ text, ¬ run.Replaces text) : History source start run.after replaced
  | replaced {before : Files} {text : Text} {replaced : List Text}
      (history : History source start before replaced) (run : LinkRun source)
      (begins : run.before.files = before) (replaces : run.Replaces text) :
      History source start run.after (text :: replaced)

/-- What is true of the texts that were replaced so far: all are in backups, and the last one is in the plain one
as long as the shim stands. -/
structure Kept (source : Path) (files : Files) (replaced : List Text) : Prop where
  named : replaced ≠ [] → source.Named
  archived : ∀ text ∈ replaced, Archived source text files
  last : ∀ text ∈ replaced.head?, IsShim source files → files.textAt? (backupPath source) = some text

namespace Kept

variable {files after : Files} {replaced : List Text}

theorem after_edit (h : Kept source files replaced) (hedits : Edits source text files after) :
    Kept source after replaced where
  named := h.named
  archived older holder := by
    have hnamed := h.named (List.ne_nil_of_mem holder)
    have hstable : Storage.Stable files.current _ _ := Storage.archived_stable hnamed older
    refine (hstable.changes files after (hedits.changes.mono ?_ (Set.Subset.refl _))
      ⟨rfl, h.archived older holder⟩).2
    rw [Set.singleton_subset_iff]
    exact place_not_mem_backupPlaces hnamed
  last _ _ := by
    rintro ⟨own, hown, hshim⟩
    rw [hedits.put] at hown
    cases hown
    rw [hedits.plain] at hshim
    cases hshim

theorem after_clearing {location : Location} (h : Kept source files replaced)
    (havoided : Avoided source files.current location) : Kept source (files.removeTree location) replaced := by
  have htext : ∀ path, path = source ∨ Storage.IsBackup source path →
      (files.removeTree location).textAt? path = files.textAt? path := by
    intro path hpath
    rw [Files.textAt?, Files.textAt?, Files.at?_removeTree (havoided path hpath)]
  refine ⟨h.named, fun text holder => ?_, fun text hlast hshim => ?_⟩
  · obtain ⟨path, hpath, hheld⟩ := h.archived text holder
    exact ⟨path, hpath, by rw [htext path (Or.inr hpath), hheld]⟩
  · obtain ⟨own, hown, hlooks⟩ := hshim
    rw [htext source (Or.inl rfl)] at hown
    rw [htext _ (Or.inr .plain)]
    exact h.last text hlast ⟨own, hown, hlooks⟩

/-- A run keeps the texts that were replaced before it in their backups. -/
theorem archived_after (run : LinkRun source) (h : Kept source run.before.files replaced) :
    ∀ text ∈ replaced, Archived source text run.after := by
  intro text htext
  have hnamed := h.named (List.ne_nil_of_mem htext)
  exact ((link_archives hnamed run.reads run.outside text).filesAfter
    ⟨rfl, h.archived text htext⟩).2

theorem after_keeping (run : LinkRun source) (h : Kept source run.before.files replaced)
    (hkeeps : ∀ text, ¬ run.Replaces text) : Kept source run.after replaced where
  named := h.named
  archived := archived_after run h
  last text htext hshim := by
    cases hown : run.before.files.textAt? source with
    | none =>
        have hafter : run.after = run.before.files := (link_without_text run.reads hown).filesAfter rfl
        rw [hafter] at hshim ⊢
        exact h.last text htext hshim
    | some own =>
        -- a text that is no shim would have been replaced
        have hlooks : looksLikeShim own = true := by
          by_contra hplain
          exact hkeeps own ⟨hown, by simpa using hplain, hshim⟩
        obtain ⟨content, hat, hdecoded⟩ := Files.exists_of_textAt? hown
        have hnamed := named_of_textAt? run.root run.reads hown
        exact ((link_shim_saved hnamed run.reads run.outside hdecoded hlooks text).filesAfter
          ⟨⟨rfl, hat⟩, h.last text htext ⟨own, hown, hlooks⟩⟩).2

theorem after_replacing (run : LinkRun source) (h : Kept source run.before.files replaced)
    (hreplaces : run.Replaces text) : Kept source run.after (text :: replaced) := by
  have hnamed := named_of_textAt? run.root run.reads hreplaces.held
  obtain ⟨content, hat, hdecoded⟩ := Files.exists_of_textAt? hreplaces.held
  have hsafe : Safe run.config run.before.files.current source content text run.after :=
    (link_meets hnamed run.reads run.outside hdecoded hreplaces.plain).filesAfter ⟨rfl, hat⟩
  have hsaved : run.after.textAt? (backupPath source) = some text := by
    rcases hsafe with hintact | ⟨-, hreplaced⟩
    · -- the text of the source would be a shim
      obtain ⟨own, hown, hshim⟩ := hreplaces.shim
      rw [Files.textAt?, hintact.unchanged] at hown
      simp only [hdecoded, Except.toOption, Option.some.injEq] at hown
      rw [← hown, hreplaces.plain] at hshim
      cases hshim
    · exact hreplaced.saved
  refine ⟨fun _ => hnamed, ?_, ?_⟩
  · rintro older (_ | ⟨_, holder⟩)
    · exact ⟨_, .plain, hsaved⟩
    · exact archived_after run h older holder
  · rintro last hlast -
    rw [List.head?_cons, Option.mem_some] at hlast
    rw [← hlast]
    exact hsaved

end Kept

theorem History.kept {start files : Files} {replaced : List Text}
    (h : History source start files replaced) : Kept source files replaced := by
  induction h with
  | start => exact ⟨fun h => absurd rfl h, by simp, by simp⟩
  | edited history edits ih => exact ih.after_edit edits
  | cleared history avoided ih => exact ih.after_clearing avoided
  | linked history run begins keeps ih => exact (begins ▸ ih).after_keeping run keeps
  | replaced history run begins replaces ih => exact (begins ▸ ih).after_replacing run replaces

/-- However often a source is edited and linked and other places are cleared, every text that a run has replaced by
the shim is in the plain backup or in one that was moved aside. The text that was replaced last is in the plain one as
long as the shim stands. -/
theorem originals_archived {start files : Files} {replaced : List Text}
    (h : History source start files replaced) :
    (∀ text ∈ replaced, Archived source text files) ∧
      ∀ text ∈ replaced.head?, IsShim source files →
        files.textAt? (backupPath source) = some text :=
  ⟨h.kept.archived, h.kept.last⟩

/-! ### Three versions of a script, linked at the same time of day -/

def appSource : Path := (Path.ofString "/work").child "app.js"

theorem app_rooted : workspaceConfig.root.isAbsolute = true ∧ workspaceConfig.root.Clean :=
  ⟨by decide, Path.ofString_clean _⟩

theorem app_reads : workspaceConfig.sourcePath? = some appSource := by
  decide +kernel

theorem app_outside (current : Location) : workspaceConfig.Outside [] current appSource := by
  have hplace : ∀ path : Path, path.isAbsolute = true → path.place current = path.place [] := by
    intro path habsolute
    simp only [Path.place, Path.start, if_pos habsolute]
  constructor
  case mirror =>
    intro mirror hmirror
    obtain rfl : mirror = (Path.ofString "/work").child "out_cjs" :=
      Option.some.inj (hmirror.symm.trans (by decide +kernel))
    rw [hplace _ (by decide +kernel), hplace _ (by decide +kernel)]
    decide +kernel
  all_goals
    rw [hplace _ (by decide +kernel), hplace _ (by decide +kernel)]
    decide +kernel

def appRun (files : Files) : LinkRun appSource where
  config := workspaceConfig
  surroundings := { environment := [], now := ⟨2024, 1, 2, 3, 4, 5⟩ }
  before := { files }
  root := app_rooted
  reads := app_reads
  outside := app_outside files.current

def saveApp (files : Files) (version : String) : Files :=
  files.put (appSource.place files.current) (.file (.text version.toList))

def firstRun : LinkRun appSource :=
  appRun (workspace "function a() \x7b\x7d"
    "\x7b\"id\": \"f0\", \"name\": \"a\", \"span\": \x7b\"start\": 0, \"end\": 15\x7d\x7d"
    "[\x7b\"slug\": \"a\", \"functions\": [\"f0\"]\x7d]")

def secondRun : LinkRun appSource :=
  appRun (saveApp firstRun.after "function a() \x7b 1 \x7d")

def thirdRun : LinkRun appSource :=
  appRun (saveApp secondRun.after "function a() \x7b 2 \x7d")

/-- All three versions are in backups, the last one in the plain one. -/
theorem originals_archived_same_clock :
    (∀ version ∈ ["function a() \x7b 2 \x7d", "function a() \x7b 1 \x7d", "function a() \x7b\x7d"],
      Archived appSource version.toList thirdRun.after) ∧
      thirdRun.after.textAt? (backupPath appSource) = some "function a() \x7b 2 \x7d".toList := by
  have hshim : ∀ run ∈ [firstRun, secondRun, thirdRun], run.after.textAt? appSource =
      some (renderShim workspaceConfig.banner appSource.bridgeName) := by
    rw [List.forall_mem_cons, List.forall_mem_cons, List.forall_mem_singleton]
    refine ⟨?_, ?_, ?_⟩ <;> decide +kernel
  have hreplaces : ∀ run ∈ [firstRun, secondRun, thirdRun], ∀ version : Text,
      run.before.files.textAt? appSource = some version → looksLikeShim version = false →
        run.Replaces version := fun run hrun _ hheld hplain =>
    ⟨hheld, hplain, _, hshim run hrun, looksLikeShim_renderShim _ _⟩
  have hsecond : Edits appSource "function a() \x7b 1 \x7d".toList firstRun.after
      secondRun.before.files := edits_put (hshim firstRun (by simp)) (by decide +kernel)
  have hthird : Edits appSource "function a() \x7b 2 \x7d".toList secondRun.after
      thirdRun.before.files := edits_put (hshim secondRun (by simp)) (by decide +kernel)
  have hhistory := ((((History.start.replaced firstRun rfl
    (hreplaces firstRun (by simp) "function a() \x7b\x7d".toList (by decide +kernel)
      (by decide +kernel))).edited hsecond).replaced secondRun rfl
    (hreplaces secondRun (by simp) _ hsecond.put hsecond.plain)).edited hthird).replaced thirdRun rfl
    (hreplaces thirdRun (by simp) _ hthird.put hthird.plain)
  obtain ⟨harchived, hlast⟩ := originals_archived hhistory
  refine ⟨?_, hlast _ rfl ⟨_, hshim thirdRun (by simp), looksLikeShim_renderShim _ _⟩⟩
  simpa using harchived

end Run

end ScriptSplit
