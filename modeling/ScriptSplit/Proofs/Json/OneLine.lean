import ScriptSplit.Proofs.Json.RoundTrip
import ScriptSplit.Proofs.Text.Lines

/-!
# Documents on one line

On one line a document is printable ASCII, whatever characters its strings hold: everything else is behind an
escape. No line ends inside of it, so that a text with one document on each line falls apart into them again.
-/

namespace ScriptSplit.Json

/-- A blank or a character of ASCII that can be seen. -/
def PlainAscii (c : Char) : Prop :=
  0x20 ≤ c.toNat ∧ c.toNat ≤ 0x7E

instance (c : Char) : Decidable (PlainAscii c) :=
  inferInstanceAs (Decidable (_ ∧ _))

theorem PlainAscii.not_boundary {c : Char} (h : PlainAscii c) : Text.isLineBoundary c = false := by
  unfold PlainAscii at h
  unfold Text.isLineBoundary
  simp only [Bool.or_eq_false_iff, Bool.and_eq_false_imp, decide_eq_true_eq, decide_eq_false_iff_not,
    beq_eq_false_iff_ne]
  omega

theorem PlainAscii.not_blank {c : Char} (h : PlainAscii c) (hspace : isSpace c = false) :
    Text.isBlank c = false := by
  have hne : c.toNat ≠ 0x20 := by
    intro heq
    have hc : c = ' ' := Char.toNat_inj.1 heq
    rw [hc] at hspace
    exact absurd hspace (by decide)
  unfold PlainAscii at h
  unfold Text.isBlank
  simp only [Bool.or_eq_false_iff, Bool.and_eq_false_imp, decide_eq_true_eq, decide_eq_false_iff_not,
    beq_eq_false_iff_ne]
  omega

/-! ## What is written is plain -/

theorem plainAscii_hexDigit {n : Nat} (hn : n < 16) : PlainAscii (hexDigit n) := by
  revert n
  decide

theorem plainAscii_hexUnit (n : Nat) : ∀ c ∈ hexUnit n, PlainAscii c := by
  simp only [hexUnit, List.mem_cons, List.not_mem_nil, or_false]
  rintro _ (rfl | rfl | rfl | rfl) <;> exact plainAscii_hexDigit (Nat.mod_lt _ (by omega))

theorem plainAscii_unicodeEscape (n : Nat) : ∀ c ∈ unicodeEscape n, PlainAscii c := by
  have hmarks : PlainAscii '\\' ∧ PlainAscii 'u' := by decide
  unfold unicodeEscape
  split
  · exact List.forall_mem_cons.2 ⟨hmarks.1, List.forall_mem_cons.2 ⟨hmarks.2, plainAscii_hexUnit _⟩⟩
  · intro c hc
    simp only [List.cons_append, List.mem_cons, List.mem_append] at hc
    rcases hc with rfl | rfl | hc | rfl | rfl | hc
    · exact hmarks.1
    · exact hmarks.2
    · exact plainAscii_hexUnit _ c hc
    · exact hmarks.1
    · exact hmarks.2
    · exact plainAscii_hexUnit _ c hc

theorem plainAscii_escapeChar (c : Char) : ∀ d ∈ escapeChar c, PlainAscii d := by
  unfold escapeChar
  split
  case h_8 =>
    split
    · next hplain => exact List.forall_mem_singleton.2 hplain
    · exact plainAscii_unicodeEscape _
  all_goals simp [PlainAscii]

theorem plainAscii_quote (s : String) : ∀ c ∈ quote s, PlainAscii c := by
  intro c hc
  simp only [quote, List.cons_append, List.mem_cons, List.mem_append, List.mem_flatMap,
    List.not_mem_nil, or_false] at hc
  rcases hc with rfl | ⟨d, -, hc⟩ | rfl
  · decide
  · exact plainAscii_escapeChar d c hc
  · decide

theorem plainAscii_int (value : Int) : ∀ c ∈ (toString value).toList, PlainAscii c := by
  have hdigits : ∀ n : Nat, ∀ c ∈ Nat.toDigits 10 n, PlainAscii c := by
    intro n c hc
    have hdigit := isDigit_of_mem_toDigits hc
    simp only [isDigit, Bool.and_eq_true, decide_eq_true_eq, Char.le_def, UInt32.le_iff_toNat_le]
      at hdigit
    have hlow : 48 ≤ c.toNat := hdigit.1
    have hhigh : c.toNat ≤ 57 := hdigit.2
    exact ⟨by omega, by omega⟩
  rw [toList_toString_int]
  split
  · exact hdigits _
  · exact List.forall_mem_cons.2 ⟨by decide, hdigits _⟩

theorem plainAscii_separator : ∀ c ∈ [',', ' '], PlainAscii c := by
  simp [PlainAscii]

theorem plainAscii_writeItems {depth : Nat} {items : List Json}
    (hitems : ∀ item ∈ items, ∀ depth, ∀ c ∈ item.write .line depth, PlainAscii c) :
    ∀ c ∈ writeItems .line depth items, PlainAscii c := by
  induction items with
  | nil => simp [writeItems]
  | cons item items ih =>
      obtain ⟨hitem, hitems⟩ := List.forall_mem_cons.1 hitems
      intro c hc
      simp only [writeItems, Layout.separator, List.mem_append] at hc
      rcases hc with (hc | hc) | hc
      · exact plainAscii_separator c hc
      · exact hitem depth c hc
      · exact ih hitems c hc

theorem plainAscii_writeMember {depth : Nat} {m : String × Json}
    (hvalue : ∀ c ∈ m.2.write .line depth, PlainAscii c) :
    ∀ c ∈ writeMember .line depth m, PlainAscii c := by
  intro c hc
  simp only [writeMember, List.mem_append, List.mem_cons] at hc
  rcases hc with hc | rfl | rfl | hc
  · exact plainAscii_quote _ c hc
  · decide
  · decide
  · exact hvalue c hc

theorem plainAscii_writeMembers {depth : Nat} {members : List (String × Json)}
    (hmembers : ∀ m ∈ members, ∀ depth, ∀ c ∈ m.2.write .line depth, PlainAscii c) :
    ∀ c ∈ writeMembers .line depth members, PlainAscii c := by
  induction members with
  | nil => simp [writeMembers]
  | cons m members ih =>
      obtain ⟨hm, hmembers⟩ := List.forall_mem_cons.1 hmembers
      intro c hc
      rw [writeMembers, List.mem_append, List.mem_append] at hc
      rcases hc with (hc | hc) | hc
      · exact plainAscii_separator c hc
      · exact plainAscii_writeMember (hm depth) c hc
      · exact ih hmembers c hc

/-- On one line every character of a document is plain. -/
theorem Readable.plainAscii {doc : Json} (h : Readable doc) :
    ∀ depth, ∀ c ∈ doc.write .line depth, PlainAscii c := by
  induction h with
  | null => simp [write, PlainAscii]
  | bool value => cases value <;> simp [write, PlainAscii]
  | int value _ => exact fun _ => by rw [write]; exact plainAscii_int value
  | string value => exact fun _ => by rw [write]; exact plainAscii_quote value
  | array items _ ih =>
      intro depth
      cases items with
      | nil => simp [write, PlainAscii]
      | cons item items =>
          obtain ⟨hitem, hitems⟩ := List.forall_mem_cons.1 ih
          intro c hc
          simp only [write, Layout.lead, List.append_nil, List.cons_append, List.nil_append,
            List.mem_cons, List.mem_append, List.not_mem_nil, or_false] at hc
          rcases hc with rfl | hc | hc | rfl
          · decide
          · exact hitem _ c hc
          · exact plainAscii_writeItems hitems c hc
          · decide
  | object members _ _ ih =>
      intro depth
      cases members with
      | nil => simp [write, PlainAscii]
      | cons m members =>
          obtain ⟨hm, hmembers⟩ := List.forall_mem_cons.1 ih
          intro c hc
          rw [write] at hc
          change c ∈ '\x7b' :: ([] ++ writeMember .line _ m ++ _) at hc
          simp only [Layout.lead, List.append_nil, List.nil_append,
            List.mem_cons, List.mem_append, List.not_mem_nil, or_false] at hc
          rcases hc with rfl | hc | hc | rfl
          · decide
          · exact plainAscii_writeMember (hm _) c hc
          · exact plainAscii_writeMembers hmembers c hc
          · decide

/-! ## A document as a line -/

theorem toList_compact (doc : Json) : doc.compact.toList = doc.write .line 0 :=
  String.toList_ofList

theorem Readable.unbroken_compact {doc : Json} (h : Readable doc) :
    Text.Unbroken doc.compact.toList := by
  intro c hc
  rw [toList_compact] at hc
  exact (h.plainAscii 0 c hc).not_boundary

theorem Readable.compact_not_blank {doc : Json} (h : Readable doc) :
    Text.isBlankText doc.compact.toList = false := by
  obtain ⟨c, text, htext, hspace, -⟩ := write_eq_cons h .line 0
  have hc : Text.isBlank c = false :=
    (h.plainAscii 0 c (by rw [htext]; exact List.mem_cons_self)).not_blank hspace
  rw [toList_compact, htext, Text.isBlankText, List.all_cons, hc, Bool.false_and]

theorem readDocument_compact {doc : Json} (h : Readable doc) :
    readDocument doc.compact.toList = .ok doc := by
  have hread := readDocument_write h .line ends_nil (by simp)
  rwa [List.append_nil, ← toList_compact] at hread

end ScriptSplit.Json
