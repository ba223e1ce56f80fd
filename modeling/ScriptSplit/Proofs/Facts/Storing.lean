import ScriptSplit.Proofs.Facts.Reading
import ScriptSplit.Proofs.Json.OneLine
import ScriptSplit.Proofs.Plan.Storing
import ScriptSplit.Run.StoredFacts

/-!
# Facts that are stored

Each kind of record is read back from its document form, and a text with one document on each line gives all
of them in their order. What is stored of a function is its lists of names in rising order.
-/

namespace ScriptSplit

/-! ## Records -/

namespace FunctionRecord

/-- A function as it is stored: each of its lists of names is in rising order. -/
def sorted (f : FunctionRecord) : FunctionRecord :=
  { f with
    used := Names.sort f.used
    free := Names.sort f.free
    params := Names.sort f.params
    locals := Names.sort f.locals }

def extDoc (f : FunctionRecord) : Json :=
  .object [
    ("identifiers.body", .ofStrings (Names.sort f.used)),
    ("identifiers.free", .ofStrings (Names.sort f.free)),
    ("declared.params", .ofStrings (Names.sort f.params)),
    ("declared.locals", .ofStrings (Names.sort f.locals)),
    ("moveable", .bool f.moveable)]

theorem readRest_extDoc (f : FunctionRecord) : ReadRest f.extDoc f.sorted where
  moveable := by simp [extDoc, Json.flag, Json.member?, Table.get?_cons, Json.isTruthy, sorted]
  used := .inl (by simp [extDoc, Json.member?, Table.get?_cons, sorted])
  free := .inl (by simp [extDoc, Json.member?, Table.get?_cons, sorted])
  params := .inl (by simp [extDoc, Json.member?, Table.get?_cons, sorted])
  locals := .inl (by simp [extDoc, Json.member?, Table.get?_cons, sorted])

theorem ofDoc_toDoc {f : FunctionRecord} (hstart : 0 ≤ f.start) (hstop : f.start ≤ f.stop) :
    ofDoc f.toDoc = .ok f.sorted :=
  ofDoc_eq_ok.2 {
    kind := .inr (by simp [toDoc, Json.member?, Table.get?_cons])
    id := by simp [toDoc, Json.member?, Table.get?_cons, sorted]
    name := .inl (by simp [toDoc, Json.member?, Table.get?_cons, sorted])
    exported := by simp [toDoc, Json.flag, Json.member?, Table.get?_cons, Json.isTruthy, sorted]
    span := ⟨spanDoc f.start f.stop, by simp [toDoc, Json.member?, Table.get?_cons],
      by simp [spanDoc, Json.member?, Table.get?_cons, sorted],
      by simp [spanDoc, Json.member?, Table.get?_cons, sorted]⟩
    ordered := ⟨hstart, hstop⟩
    rest := ⟨_, by simp [toDoc, Json.member?, Table.get?_cons], f.readRest_extDoc⟩ }

theorem readable_extDoc (f : FunctionRecord) : f.extDoc.Readable := by
  refine .object _ (by simp) ?_
  simp only [List.mem_cons, List.not_mem_nil, or_false]
  rintro _ (rfl | rfl | rfl | rfl | rfl)
  · exact Plan.readable_ofStrings _
  · exact Plan.readable_ofStrings _
  · exact Plan.readable_ofStrings _
  · exact Plan.readable_ofStrings _
  · exact .bool _

theorem readable_toDoc {f : FunctionRecord} (hstart : 0 ≤ f.start) (hstop : f.start ≤ f.stop)
    (hdigits : f.stop.natAbs < 10 ^ Json.maxDigits) : f.toDoc.Readable := by
  have hspan : (spanDoc f.start f.stop).Readable := by
    refine .object _ (by simp) ?_
    simp only [List.mem_cons, List.not_mem_nil, or_false]
    rintro _ (rfl | rfl)
    · exact .int _ (lt_of_le_of_lt (by omega) hdigits)
    · exact .int _ hdigits
  refine .object _ (by simp) ?_
  simp only [List.mem_cons, List.not_mem_nil, or_false]
  rintro _ (rfl | rfl | rfl | rfl | rfl | rfl)
  · exact .string _
  · exact .string _
  · exact .string _
  · exact .bool _
  · exact hspan
  · exact f.readable_extDoc

end FunctionRecord

namespace CallEdge

theorem ofDoc_toDoc (edge : CallEdge) : ofDoc edge.toDoc = .ok edge :=
  ofDoc_eq_ok.2 {
    caller := by simp [toDoc, Json.member?, Table.get?_cons]
    callee := by simp [toDoc, Json.member?, Table.get?_cons] }

theorem readable_toDoc (edge : CallEdge) : edge.toDoc.Readable := by
  refine .object _ (by simp) ?_
  simp only [List.mem_cons, List.not_mem_nil, or_false]
  rintro _ (rfl | rfl | rfl) <;> exact .string _

end CallEdge

namespace ImportRecord

theorem ofDoc_toDoc (record : ImportRecord) : ofDoc record.toDoc = .ok record :=
  ofDoc_eq_ok.2 {
    source := by simp [toDoc, Json.member?, Table.get?_cons]
    named := .inl (by simp [toDoc, Json.member?, Table.get?_cons])
    kind := .inl (by simp [toDoc, Json.member?, Table.get?_cons]) }

theorem readable_toDoc (record : ImportRecord) : record.toDoc.Readable := by
  refine .object _ (by simp) ?_
  simp only [List.mem_cons, List.not_mem_nil, or_false]
  rintro _ (rfl | rfl | rfl | rfl)
  · exact .string _
  · exact .string _
  · exact .string _
  · exact Plan.readable_ofStrings _

end ImportRecord

/-! ## The index -/

def Facts.sorted (facts : Facts) : Facts :=
  { facts with
    functions := facts.functions.map FunctionRecord.sorted
    topLevel := Names.sort facts.topLevel }

/-- Whether every number in the stored form of facts has few enough digits to be converted: a longer one can
neither be written out nor read. -/
structure Facts.Printable (facts : Facts) : Prop where
  spans : ∀ f ∈ facts.functions, f.stop.natAbs < 10 ^ Json.maxDigits
  functions : facts.functions.length < 10 ^ Json.maxDigits
  calls : facts.calls.length < 10 ^ Json.maxDigits
  imports : facts.imports.length < 10 ^ Json.maxDigits

namespace FactsIndex

theorem readFrom_toDoc (shard : Shard) : shard.ReadFrom shard.toDoc where
  kind := by simp [Shard.toDoc, Json.member?, Table.get?_cons]
  path := by simp [Shard.toDoc, Json.member?, Table.get?_cons]
  count := by simp [Shard.toDoc, Json.member?, Table.get?_cons]

theorem ofDoc_toDoc (index : FactsIndex) : ofDoc index.toDoc = .ok index :=
  ofDoc_eq_ok.2 {
    source := by simp [toDoc, Json.member?, Table.get?_cons]
    shards := ⟨index.shards.map Shard.toDoc, by simp [toDoc, Json.member?, Table.get?_cons],
      List.forall₂_map_left_iff.2 (List.forall₂_same.2 fun shard _ => readFrom_toDoc shard)⟩
    stats := .inl (by simp [toDoc, Json.member?, Table.get?_cons])
    version := by simp [toDoc, Json.member?, Table.get?_cons, Json.display]
    features := .inl (by simp [toDoc, Json.member?, Table.get?_cons]) }

theorem readable_flags (names : List String) :
    (Json.object (names.foldl (fun members name => Table.put members name (.bool true)) [])).Readable := by
  have hflags : ∀ members : Table Json, (members.map (·.1)).Nodup → (∀ m ∈ members, m.2.Readable) →
      (Json.object (names.foldl (fun members name => Table.put members name (.bool true))
        members)).Readable := by
    induction names with
    | nil => exact fun members hnames hmembers => .object members hnames hmembers
    | cons name names ih =>
        intro members hnames hmembers
        refine ih _ (Table.nodup_keys_put hnames name _) fun m hm => ?_
        rcases Table.mem_put hm with rfl | hm
        · exact .bool _
        · exact hmembers m hm
  exact hflags [] (by simp) (by simp)

theorem readable_shard {shard : Shard} (hcount : shard.count.natAbs < 10 ^ Json.maxDigits) :
    shard.toDoc.Readable := by
  refine .object _ (by simp) ?_
  simp only [List.mem_cons, List.not_mem_nil, or_false]
  rintro _ (rfl | rfl | rfl)
  · exact .string _
  · exact .string _
  · exact .int _ hcount

end FactsIndex

namespace Facts

variable {facts : Facts}

theorem Printable.readable_index (h : facts.Printable) : facts.index.toDoc.Readable := by
  refine .object _ (by simp) ?_
  simp only [List.mem_cons, List.not_mem_nil, or_false]
  rintro _ (rfl | rfl | rfl | rfl | rfl | rfl)
  · exact .string _
  · exact .string _
  · exact Plan.readable_ofStrings _
  · exact FactsIndex.readable_flags _
  · refine .array _ (List.forall_mem_map.2 ?_)
    simp only [index, List.mem_cons, List.not_mem_nil, or_false]
    rintro _ (rfl | rfl | rfl)
    · exact FactsIndex.readable_shard h.functions
    · exact FactsIndex.readable_shard h.imports
    · exact FactsIndex.readable_shard h.calls
  · refine .object _ (by simp [index]) ?_
    simp only [index, List.mem_cons, List.not_mem_nil, or_false]
    rintro _ (rfl | rfl)
    · exact .int _ h.functions
    · exact .int _ h.imports

end Facts

/-! ## One record on each line -/

namespace StoredFacts

variable {α : Type}

theorem lineContent_row {row : Text} (hrow : Text.Unbroken row) :
    lineContent (row ++ ['\n']) = row := by
  have hnone : ∀ c ∈ row, (!Text.isLineBoundary c) = true := fun c hc => by rw [hrow c hc]; rfl
  rw [lineContent, List.takeWhile_append_of_pos hnone]
  simp [Text.isLineBoundary]

theorem recordLines_cons (doc : Json) (docs : List Json) :
    recordLines (doc :: docs) = doc.compact.toList ++ '\n' :: recordLines docs := by
  simp [recordLines]

theorem map_lineContent_recordLines {docs : List Json} (hdocs : ∀ doc ∈ docs, doc.Readable) :
    (recordLines docs).lines.map lineContent = docs.map (·.compact.toList) := by
  induction docs with
  | nil => simp [recordLines, Text.lines]
  | cons doc docs ih =>
      obtain ⟨hdoc, hdocs⟩ := List.forall_mem_cons.1 hdocs
      rw [recordLines_cons, Text.lines_row hdoc.unbroken_compact, List.map_cons, ih hdocs,
        lineContent_row hdoc.unbroken_compact, List.map_cons]

theorem numberedLines_recordLines {docs : List Json} (hdocs : ∀ doc ∈ docs, doc.Readable) :
    numberedLines (recordLines docs) =
      (docs.zipIdx 1).map fun (doc, n) => (n, doc.compact.toList) := by
  rw [numberedLines, map_lineContent_recordLines hdocs, List.zipIdx_map, List.filterMap_map]
  rw [← List.filterMap_eq_map]
  apply List.filterMap_congr
  rintro ⟨doc, n⟩ hmem
  have hdoc := hdocs doc (List.fst_mem_of_mem_zipIdx hmem)
  simp [hdoc.compact_not_blank]

theorem parseRecords_recordLines {records : List α} {toDoc : α → Json}
    {ofDoc : Json → Except ShapeFault α} {stored : α → α}
    (hreadable : ∀ record ∈ records, (toDoc record).Readable)
    (hread : ∀ record ∈ records, ofDoc (toDoc record) = .ok (stored record)) (name what : String) :
    parseRecords name what ofDoc (recordLines (records.map toDoc)) =
      .ok (records.map stored) := by
  rw [parseRecords, numberedLines_recordLines (List.forall_mem_map.2 hreadable)]
  generalize 1 = first
  induction records generalizing first with
  | nil => rfl
  | cons record records ih =>
      obtain ⟨hdoc, hdocs⟩ := List.forall_mem_cons.1 hreadable
      obtain ⟨hfirst, hrest⟩ := List.forall_mem_cons.1 hread
      rw [List.map_cons, List.zipIdx_cons, List.map_cons, List.mapM_cons, ih hdocs hrest]
      simp only [Json.readDocument_compact hdoc, hfirst]
      rfl

end StoredFacts

end ScriptSplit
