import ScriptSplit.Proofs.Facts.Reading
import ScriptSplit.Proofs.Facts.Storing
import ScriptSplit.Proofs.Text.Names

/-!
# Records in normal form

Reading a record and writing it again puts its document into normal form: unknown members are dropped, usual values
are filled in and lists of names are in rising order. What is in normal form is read and written without a change,
and whatever has no normal form is an error in the output of an earlier stage.
-/

namespace ScriptSplit

section

variable {α : Type} {what : String} {ofDoc : Json → Except ShapeFault α} {toDoc : α → Json}
  {readFrom : Json → α → Prop}

/-- Whether a reader puts documents into normal form: where it does not fail with an error in the output of an
earlier stage, the document form of the record is read again and stays what it is. -/
structure Normalises (what : String) (ofDoc : Json → Except ShapeFault α) (toDoc : α → Json)
    (readFrom : Json → α → Prop) : Prop where
  outcome : ∀ doc files,
    (∃ fault, Storage.shaped what (ofDoc doc) files = .error (.artifact (.shape { what, fault })) files) ∨
      ∃ record again, Storage.shaped what (ofDoc doc) files = .ok record files ∧
        ofDoc (toDoc record) = .ok again ∧ toDoc again = toDoc record
  accepts : ∀ doc record, ofDoc doc = .ok record ↔ readFrom doc record

theorem Normalises.of_settled (haccepts : ∀ {doc record}, ofDoc doc = .ok record ↔ readFrom doc record)
    (hsettled : ∀ {doc record}, readFrom doc record →
      ∃ again, ofDoc (toDoc record) = .ok again ∧ toDoc again = toDoc record) :
    Normalises what ofDoc toDoc readFrom where
  outcome doc files := by
    cases hread : ofDoc doc with
    | error fault => exact .inl ⟨fault, rfl⟩
    | ok record =>
        obtain ⟨again, hagain, hdoc⟩ := hsettled (haccepts.1 hread)
        exact .inr ⟨record, again, rfl, hagain, hdoc⟩
  accepts _ _ := haccepts

end

namespace FunctionRecord

theorem toDoc_sorted (f : FunctionRecord) : f.sorted.toDoc = f.toDoc := by
  simp only [sorted, toDoc, Names.sort_sort]

theorem normalises : Normalises docName ofDoc toDoc ReadFrom :=
  .of_settled ofDoc_eq_ok fun {_ f} h =>
    ⟨f.sorted, ofDoc_toDoc h.ordered.1 h.ordered.2, f.toDoc_sorted⟩

end FunctionRecord

theorem CallEdge.normalises : Normalises docName ofDoc toDoc ReadFrom :=
  .of_settled ofDoc_eq_ok fun {_ edge} _ => ⟨edge, edge.ofDoc_toDoc, rfl⟩

theorem ImportRecord.normalises : Normalises docName ofDoc toDoc ReadFrom :=
  .of_settled ofDoc_eq_ok fun {_ record} _ => ⟨record, record.ofDoc_toDoc, rfl⟩

theorem FactsIndex.normalises : Normalises docName ofDoc toDoc ReadFrom :=
  .of_settled ofDoc_eq_ok fun {_ index} _ => ⟨index, index.ofDoc_toDoc, rfl⟩

theorem FunctionRecord.ofDoc_of_bool {doc span : Json} {flag : Bool} (hspan : doc.member? "span" = some span)
    (hflag : span.member? "start" = some (.bool flag) ∨ span.member? "end" = some (.bool flag)) :
    ∃ fault, ofDoc doc = .error fault := by
  refine Refusable.exists_error fun f hread => ?_
  obtain ⟨span', hspan', hstart, hstop⟩ := (ofDoc_eq_ok.1 hread).span
  cases hspan.symm.trans hspan'
  rcases hflag with hflag | hflag
  · cases hflag.symm.trans hstart
  · cases hflag.symm.trans hstop

theorem FactsIndex.ofDoc_of_bool {doc entry : Json} {entries : List Json} {flag : Bool}
    (hentries : doc.member? "shards" = some (.array entries)) (hentry : entry ∈ entries)
    (hflag : entry.member? "count" = some (.bool flag)) : ∃ fault, ofDoc doc = .error fault := by
  refine Refusable.exists_error fun index hread => ?_
  obtain ⟨entries', hentries', hshards⟩ := (ofDoc_eq_ok.1 hread).shards
  cases hentries.symm.trans hentries'
  obtain ⟨shard, -, hshard⟩ := Refusable.exists_of_mem_right hshards.flip hentry
  cases hflag.symm.trans hshard.count

/-- The readers of functions, calls, imports and the index each give a fixed point of writing and reading or fail
with an error in the output of an earlier stage. A function that is read has a span that can be one and lists of
strings, and no truth value is read as an offset or as a count. -/
theorem records_normalise :
    Normalises FunctionRecord.docName FunctionRecord.ofDoc FunctionRecord.toDoc FunctionRecord.ReadFrom ∧
      Normalises CallEdge.docName CallEdge.ofDoc CallEdge.toDoc CallEdge.ReadFrom ∧
      Normalises ImportRecord.docName ImportRecord.ofDoc ImportRecord.toDoc ImportRecord.ReadFrom ∧
      Normalises FactsIndex.docName FactsIndex.ofDoc FactsIndex.toDoc FactsIndex.ReadFrom ∧
      (∀ doc f, FunctionRecord.ofDoc doc = .ok f → 0 ≤ f.start ∧ f.start ≤ f.stop ∧
        FunctionRecord.ReadRest ((doc.member? "ext").getD (.object [])) f) ∧
      (∀ doc span flag, doc.member? "span" = some span →
        span.member? "start" = some (.bool flag) ∨ span.member? "end" = some (.bool flag) →
          ∃ fault, FunctionRecord.ofDoc doc = .error fault) ∧
      ∀ doc entries entry flag, doc.member? "shards" = some (.array entries) → entry ∈ entries →
        entry.member? "count" = some (.bool flag) → ∃ fault, FactsIndex.ofDoc doc = .error fault := by
  refine ⟨FunctionRecord.normalises, CallEdge.normalises, ImportRecord.normalises, FactsIndex.normalises,
    fun doc f hread => ?_, fun _ _ _ => FunctionRecord.ofDoc_of_bool, fun _ _ _ _ => FactsIndex.ofDoc_of_bool⟩
  have hfrom := FunctionRecord.ofDoc_eq_ok.1 hread
  obtain ⟨members, hmembers, hrest⟩ := hfrom.rest
  exact ⟨hfrom.ordered.1, hfrom.ordered.2, hmembers ▸ hrest⟩

/-- A function of which a document says little more than its place. -/
def sparseDoc : Json :=
  .object [("id", .string "f0"), ("name", .null), ("exported", .string "yes"),
    ("span", .object [("start", .int 3), ("end", .int 9)]),
    ("ext", .object [("identifiers.body", .ofStrings ["b", "a"]), ("moveable", .array [])])]

theorem records_normalise_sparse :
    let f : FunctionRecord :=
      { id := "f0", name := "<anonymous>", start := 3, stop := 9, exported := true, used := ["b", "a"] }
    FunctionRecord.ofDoc sparseDoc = .ok f ∧
      ∃ again, FunctionRecord.ofDoc f.toDoc = .ok again ∧ again.toDoc = f.toDoc := by
  intro f
  have hread : FunctionRecord.ofDoc sparseDoc = .ok f := by decide +kernel
  refine ⟨hread, ?_⟩
  obtain ⟨hfunctions, -⟩ := records_normalise
  rcases hfunctions.outcome sparseDoc {} with ⟨fault, hfault⟩ | ⟨record, again, hrecord, hagain, hdoc⟩
  · rw [hread] at hfault
    cases hfault
  · rw [hread] at hrecord
    cases hrecord
    exact ⟨again, hagain, hdoc⟩

end ScriptSplit
