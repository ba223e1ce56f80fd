import Mathlib.Data.List.Forall2
import ScriptSplit.Facts.Index
import ScriptSplit.Proofs.Table

/-!
# Records as they are read

For each kind of record, what a document has to hold for the record to be read from it. A reader is a row of steps,
each of which can be refused, so that what it accepts is read off from them one by one. What is missing is refused
or has a usual value, and a number that is asked for is an integer and nothing that could pass for one.
-/

namespace ScriptSplit

variable {ε α β : Type}

/-! ## Steps that can be refused -/

namespace Refusable

variable {fault : ε}

theorem bind_eq_ok {x : Except ε α} {next : α → Except ε β} {b : β} :
    (x >>= next) = .ok b ↔ ∃ a, x = .ok a ∧ next a = .ok b := by
  cases x with
  | error fault => simp [bind, Except.bind]
  | ok a => simp [bind, Except.bind]

theorem pure_eq_ok {a b : α} : (pure a : Except ε α) = .ok b ↔ a = b := by
  simp [pure, Except.pure]

theorem throw_bind_ne_ok {next : α → Except ε β} {b : β} :
    ((throw fault : Except ε α) >>= next) ≠ .ok b := by
  intro h
  cases h

theorem guard_eq_ok {c : Prop} [Decidable c] {next : α → Except ε β} {x : Except ε β} {b : β} :
    (if c then (throw fault : Except ε α) >>= next else x) = .ok b ↔ ¬ c ∧ x = .ok b := by
  split
  · next hc => exact iff_of_false throw_bind_ne_ok fun h => h.1 hc
  · next hc => exact (and_iff_right hc).symm

theorem mapM_eq_ok {f : α → Except ε β} {list : List α} {results : List β} :
    list.mapM f = .ok results ↔ List.Forall₂ (fun a b => f a = .ok b) list results := by
  induction list generalizing results with
  | nil => rw [List.mapM_nil, pure_eq_ok, List.forall₂_nil_left_iff, eq_comm]
  | cons a list ih =>
      rw [List.mapM_cons, bind_eq_ok]
      simp only [bind_eq_ok, pure_eq_ok, List.forall₂_cons_left_iff, ih]
      constructor
      · rintro ⟨first, hfirst, rest, hrest, rfl⟩
        exact ⟨first, rest, hfirst, hrest, rfl⟩
      · rintro ⟨first, rest, hfirst, hrest, rfl⟩
        exact ⟨first, hfirst, rest, hrest, rfl⟩

theorem exists_of_mem_right {R : α → β → Prop} {list : List α} {results : List β}
    (h : List.Forall₂ R list results) {b : β} (hb : b ∈ results) : ∃ a ∈ list, R a b := by
  induction h with
  | nil => cases hb
  | cons hfirst hrest ih =>
      rcases List.mem_cons.1 hb with rfl | hb
      · exact ⟨_, List.mem_cons_self, hfirst⟩
      · obtain ⟨a, ha, hab⟩ := ih hb
        exact ⟨a, List.mem_cons_of_mem _ ha, hab⟩

theorem exists_error {x : Except ε α} (h : ∀ a, x ≠ .ok a) : ∃ fault, x = .error fault := by
  cases x with
  | ok a => exact absurd rfl (h a)
  | error fault => exact ⟨fault, rfl⟩

end Refusable

/-! ## Members of documents -/

namespace Json

variable {doc : Json} {key : String}

theorem exists_object {value : Json} (hmember : doc.member? key = some value) :
    ∃ members, doc = .object members := by
  cases doc with
  | object members => exact ⟨members, rfl⟩
  | _ => cases hmember

theorem requireObject_eq_ok {value : Json} : doc.requireObject key = .ok value ↔
    doc.member? key = some value ∧ ∃ members, value = .object members := by
  unfold requireObject
  split
  · next members hmember =>
      rw [hmember]
      constructor
      · rintro ⟨⟩
        exact ⟨rfl, members, rfl⟩
      · rintro ⟨⟨⟩, -⟩
        rfl
  · next hother =>
      refine iff_of_false (by simp) ?_
      rintro ⟨hmember, members, rfl⟩
      exact hother members hmember

theorem requireList_eq_ok {items : List Json} :
    doc.requireList key = .ok items ↔ doc.member? key = some (.array items) := by
  unfold requireList
  split
  · next hmember => simp [hmember]
  · next hother => exact iff_of_false (by simp) (hother items)

theorem requireText_eq_ok {value : String} :
    doc.requireText key = .ok value ↔ doc.member? key = some (.string value) := by
  unfold requireText
  split
  · next hmember => simp [hmember]
  · next hother => exact iff_of_false (by simp) (hother value)

theorem requireInteger_eq_ok {value : Int} :
    doc.requireInteger key = .ok value ↔ doc.member? key = some (.int value) := by
  unfold requireInteger
  split
  · next hmember => simp [hmember]
  · next hother => exact iff_of_false (by simp) (hother value)

theorem strings?_eq_some {items : List Json} {names : List String} :
    strings? items = some names ↔ items = names.map .string := by
  fun_induction strings? items generalizing names with
  | case1 => cases names <;> simp
  | case2 value rest ih =>
      rw [Option.map_eq_some_iff]
      constructor
      · rintro ⟨more, hmore, rfl⟩
        rw [ih.1 hmore, List.map_cons]
      · intro hnames
        obtain ⟨name, more, rfl, hname, hmore⟩ := List.map_eq_cons_iff.1 hnames.symm
        cases hname
        exact ⟨more, ih.2 hmore.symm, rfl⟩
  | case3 item rest hother =>
      refine iff_of_false (by simp) fun hnames => ?_
      obtain ⟨name, more, rfl, rfl, -⟩ := List.map_eq_cons_iff.1 hnames.symm
      exact hother name rfl

/-- Whether a document has a list of strings under a key, or nothing where the list is empty. -/
def Lists (doc : Json) (key : String) (names : List String) : Prop :=
  doc.member? key = some (.ofStrings names) ∨ doc.member? key = none ∧ names = []

theorem stringList_eq_ok {names : List String} :
    doc.stringList key = .ok names ↔ doc.Lists key names := by
  unfold stringList Lists ofStrings
  split
  · next hmember => simp [hmember, eq_comm]
  · next items hmember =>
      rw [hmember]
      cases hnames : strings? items with
      | some read => simp [strings?_eq_some.1 hnames, List.map_inj_right]
      | none =>
          refine iff_of_false (by simp) ?_
          rintro (hitems | ⟨hitems, -⟩)
          · cases hitems
            rw [strings?_eq_some.2 rfl] at hnames
            cases hnames
          · cases hitems
  · next value hother hmember =>
      rw [hmember]
      refine iff_of_false (by simp) ?_
      rintro (hvalue | ⟨hvalue, -⟩)
      · cases hvalue
        exact hother _ rfl
      · cases hvalue

theorem string_injective : Function.Injective Json.string :=
  fun _ _ => Json.string.inj

theorem object_injective : Function.Injective Json.object :=
  fun _ _ => Json.object.inj

/-- Whether a value is the one that a document has under a key in a certain form, or the usual one where what it has
there is of another form. -/
def MemberOr (doc : Json) (key : String) (form : α → Json) (usual value : α) : Prop :=
  doc.member? key = some (form value) ∨
    (∀ other, doc.member? key ≠ some (form other)) ∧ value = usual

theorem MemberOr.eq {form : α → Json} (hform : Function.Injective form) {usual value other : α}
    (h : doc.MemberOr key form usual value) (h' : doc.MemberOr key form usual other) : value = other := by
  rcases h with hvalue | ⟨hnone, rfl⟩
  · rcases h' with hother | ⟨hnone, -⟩
    · exact hform (Option.some.inj (hvalue.symm.trans hother))
    · exact absurd hvalue (hnone value)
  · rcases h' with hother | ⟨-, rfl⟩
    · exact absurd hother (hnone other)
    · rfl

theorem memberOr_text (doc : Json) (key usual : String) :
    doc.MemberOr key .string usual
      (match doc.member? key with
        | some (.string text) => text
        | _ => usual) := by
  split
  · next hmember => exact .inl hmember
  · next hother => exact .inr ⟨hother, rfl⟩

theorem memberOr_members (doc : Json) (key : String) :
    doc.MemberOr key .object []
      (match doc.member? key with
        | some (.object members) => members
        | _ => []) := by
  split
  · next hmember => exact .inl hmember
  · next hother => exact .inr ⟨hother, rfl⟩

end Json

open Refusable

variable {doc : Json}

/-! ## Functions -/

namespace FunctionRecord

structure ReadRest (ext : Json) (f : FunctionRecord) : Prop where
  moveable : f.moveable = ext.flag "moveable"
  used : ext.Lists "identifiers.body" f.used
  free : ext.Lists "identifiers.free" f.free
  params : ext.Lists "declared.params" f.params
  locals : ext.Lists "declared.locals" f.locals

structure ReadFrom (doc : Json) (f : FunctionRecord) : Prop where
  kind : doc.member? "type" = none ∨ doc.member? "type" = some (.string "function")
  id : doc.member? "id" = some (.string f.id)
  name : doc.MemberOr "name" .string anonymousName f.name
  exported : f.exported = doc.flag "exported"
  span : ∃ span, doc.member? "span" = some span ∧
    span.member? "start" = some (.int f.start) ∧ span.member? "end" = some (.int f.stop)
  ordered : 0 ≤ f.start ∧ f.start ≤ f.stop
  rest : ∃ members, (doc.member? "ext").getD (.object []) = .object members ∧
    ReadRest (.object members) f

theorem isFunctionDoc_iff : isFunctionDoc doc = true ↔ (∃ members, doc = .object members) ∧
    (doc.member? "type" = none ∨ doc.member? "type" = some (.string "function")) := by
  cases doc with
  | object members =>
      simp only [isFunctionDoc, Json.member?, Table.get?]
      cases members.lookup "type" with
      | none => simp
      | some value => cases value <;> simp
  | _ => simp [isFunctionDoc]

theorem ofDoc_eq_ok {f : FunctionRecord} : ofDoc doc = .ok f ↔ ReadFrom doc f := by
  unfold ofDoc
  dsimp only
  rw [guard_eq_ok, Bool.not_eq_true', Bool.not_eq_false, isFunctionDoc_iff]
  cases hext : (doc.member? "ext").getD (.object []) with
  | object members =>
      simp only [bind_eq_ok, guard_eq_ok, pure_eq_ok, Json.requireObject_eq_ok,
        Json.requireInteger_eq_ok, Json.requireText_eq_ok, Json.stringList_eq_ok]
      constructor
      · rintro ⟨⟨-, hkind⟩, span, ⟨hspan, -⟩, start, hstart, stop, hstop, hordered, id, hid, used, hused, free,
          hfree, params, hparams, locals, hlocals, rfl⟩
        exact ⟨hkind, hid, Json.memberOr_text _ _ _, rfl, ⟨span, hspan, hstart, hstop⟩, by dsimp only; omega,
          members, hext, ⟨rfl, hused, hfree, hparams, hlocals⟩⟩
      · rintro ⟨hkind, hid, hname, hexported, ⟨span, hspan, hstart, hstop⟩, hordered, members', hext', hrest⟩
        obtain rfl : members = members' := by simpa [hext] using hext'
        refine ⟨⟨Json.exists_object hid, hkind⟩, span, ⟨hspan, Json.exists_object hstart⟩, _, hstart, _, hstop,
          by omega, _, hid, _, hrest.used, _, hrest.free, _, hrest.params, _, hrest.locals, ?_⟩
        rw [← hexported, ← hrest.moveable]
        obtain ⟨⟩ := f
        simp only [FunctionRecord.mk.injEq, and_true, true_and]
        exact (Json.memberOr_text ..).eq Json.string_injective hname
  | _ =>
      simp only [bind_eq_ok, guard_eq_ok]
      refine iff_of_false ?_ fun h => ?_
      · rintro ⟨-, span, -, passed, hthrow, -⟩
        cases hthrow
      · obtain ⟨members, hmembers, -⟩ := h.rest
        cases hext.symm.trans hmembers

end FunctionRecord

/-! ## Calls and imports -/

namespace CallEdge

structure ReadFrom (doc : Json) (edge : CallEdge) : Prop where
  caller : doc.member? "caller" = some (.string edge.caller)
  callee : doc.member? "callee" = some (.string edge.callee)

theorem ofDoc_eq_ok {edge : CallEdge} : ofDoc doc = .ok edge ↔ ReadFrom doc edge := by
  unfold ofDoc
  split
  · simp only [bind_eq_ok, pure_eq_ok, Json.requireText_eq_ok]
    constructor
    · rintro ⟨caller, hcaller, callee, hcallee, rfl⟩
      exact ⟨hcaller, hcallee⟩
    · intro h
      exact ⟨_, h.caller, _, h.callee, rfl⟩
  · next hother =>
      refine iff_of_false throw_bind_ne_ok fun h => ?_
      obtain ⟨members, rfl⟩ := Json.exists_object h.caller
      exact hother members rfl

end CallEdge

namespace ImportRecord

structure ReadFrom (doc : Json) (record : ImportRecord) : Prop where
  source : doc.member? "from" = some (.string record.source)
  named : doc.Lists "named" record.named
  kind : doc.MemberOr "kind" .string "esm" record.kind

theorem ofDoc_eq_ok {record : ImportRecord} : ofDoc doc = .ok record ↔ ReadFrom doc record := by
  unfold ofDoc
  dsimp only
  cases doc with
  | object members =>
      simp only [bind_eq_ok, pure_eq_ok, Json.requireText_eq_ok, Json.stringList_eq_ok]
      constructor
      · rintro ⟨source, hsource, named, hnamed, rfl⟩
        exact ⟨hsource, hnamed, Json.memberOr_text _ _ _⟩
      · rintro ⟨hsource, hnamed, hkind⟩
        refine ⟨_, hsource, _, hnamed, ?_⟩
        obtain ⟨⟩ := record
        simp only [ImportRecord.mk.injEq, true_and]
        exact (Json.memberOr_text ..).eq Json.string_injective hkind
  | _ => exact iff_of_false throw_bind_ne_ok fun h => nomatch h.source

end ImportRecord

/-! ## The index -/

structure Shard.ReadFrom (doc : Json) (shard : Shard) : Prop where
  kind : doc.member? "kind" = some (.string shard.kind)
  path : doc.member? "path" = some (.string shard.path)
  count : doc.member? "count" = some (.int shard.count)

namespace FactsIndex

structure ReadFrom (doc : Json) (index : FactsIndex) : Prop where
  source : doc.member? "source" = some (.string index.source)
  shards : ∃ entries, doc.member? "shards" = some (.array entries) ∧
    List.Forall₂ Shard.ReadFrom entries index.shards
  stats : doc.MemberOr "stats" .object [] index.stats
  version : index.version = ((doc.member? "dfpVersion").map Json.display).getD currentVersion
  features : doc.Lists "features" index.features

theorem shardOfDoc_eq_ok {shard : Shard} : shardOfDoc doc = .ok shard ↔ shard.ReadFrom doc := by
  unfold shardOfDoc
  cases doc with
  | object members =>
      simp only [bind_eq_ok, pure_eq_ok, Json.requireText_eq_ok, Json.requireInteger_eq_ok]
      constructor
      · rintro ⟨kind, hkind, path, hpath, count, hcount, rfl⟩
        exact ⟨hkind, hpath, hcount⟩
      · rintro ⟨hkind, hpath, hcount⟩
        exact ⟨_, hkind, _, hpath, _, hcount, rfl⟩
  | _ => exact iff_of_false throw_bind_ne_ok fun h => nomatch h.kind

theorem version_eq (version : Option Json) :
    (match version with
      | some value => value.display
      | none => currentVersion) = (version.map Json.display).getD currentVersion := by
  cases version <;> rfl

theorem ofDoc_eq_ok {index : FactsIndex} : ofDoc doc = .ok index ↔ ReadFrom doc index := by
  unfold ofDoc
  dsimp only
  cases doc with
  | object members =>
      simp only [bind_eq_ok, pure_eq_ok, mapM_eq_ok, shardOfDoc_eq_ok, Json.requireText_eq_ok,
        Json.requireList_eq_ok, Json.stringList_eq_ok]
      constructor
      · rintro ⟨entries, hentries, shards, hshards, source, hsource, features, hfeatures, rfl⟩
        exact ⟨hsource, ⟨entries, hentries, hshards⟩, Json.memberOr_members _ _, version_eq _, hfeatures⟩
      · rintro ⟨hsource, ⟨entries, hentries, hshards⟩, hstats, hversion, hfeatures⟩
        refine ⟨entries, hentries, _, hshards, _, hsource, _, hfeatures, ?_⟩
        obtain ⟨⟩ := index
        simp only [FactsIndex.mk.injEq, and_true, true_and]
        refine ⟨(Json.memberOr_members ..).eq Json.object_injective hstats, ?_⟩
        exact (version_eq _).trans hversion.symm
  | _ => exact iff_of_false throw_bind_ne_ok fun h => nomatch h.source

end FactsIndex

end ScriptSplit
