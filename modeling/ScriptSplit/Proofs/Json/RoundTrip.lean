import Mathlib
import ScriptSplit.Proofs.Json.Literal
import ScriptSplit.Proofs.Table

/-!
# Documents that are read back

A document that was written, in either layout, is read as the same document, unless it holds a number that
has no exact text or an object with two members of one name.
-/

namespace ScriptSplit.Json

/-- A document that can be read back: its numbers are integers that are not too long to be converted, and
the members of an object have different names. -/
inductive Readable : Json → Prop where
  | null : Readable .null
  | bool (value : Bool) : Readable (.bool value)
  | int (value : Int) (hvalue : value.natAbs < 10 ^ maxDigits) : Readable (.int value)
  | string (value : String) : Readable (.string value)
  | array (items : List Json) (hitems : ∀ item ∈ items, Readable item) : Readable (.array items)
  | object (members : List (String × Json)) (hnames : (members.map (·.1)).Nodup)
      (hmembers : ∀ m ∈ members, Readable m.2) : Readable (.object members)

/-- What may follow a value: the end, or a character that no number goes on with. -/
def Ends (rest : List Char) : Prop :=
  ∀ c ∈ rest.head?, c = ',' ∨ c = ']' ∨ c = '}' ∨ c = '\n'

theorem ends_nil : Ends [] := by simp [Ends]

theorem ends_cons {c : Char} (hc : c = ',' ∨ c = ']' ∨ c = '}' ∨ c = '\n') (rest : List Char) :
    Ends (c :: rest) := by
  intro first hfirst
  obtain rfl : c = first := by simpa using hfirst
  exact hc

/-! ## White space -/

theorem skipSpace_cons {c : Char} (hc : isSpace c = false) (rest : List Char) :
    skipSpace (c :: rest) = c :: rest := by
  simp [skipSpace, hc]

theorem skipSpace_append {blanks : List Char} (hblanks : ∀ c ∈ blanks, isSpace c = true)
    (rest : List Char) : skipSpace (blanks ++ rest) = skipSpace rest :=
  List.dropWhile_append_of_pos hblanks

theorem isSpace_of_mem_lead {layout : Layout} {depth : Nat} {c : Char}
    (hc : c ∈ layout.lead depth) : isSpace c = true := by
  cases layout with
  | line => simp [Layout.lead] at hc
  | indented width =>
      rcases List.mem_cons.1 hc with rfl | hc
      · rfl
      · rw [List.eq_of_mem_replicate hc]
        rfl

theorem separator_eq (layout : Layout) (depth : Nat) : ∃ blanks,
    layout.separator depth = ',' :: blanks ∧ ∀ c ∈ blanks, isSpace c = true := by
  cases layout with
  | line => exact ⟨[' '], rfl, List.all_eq_true.1 (by decide)⟩
  | indented width => exact ⟨_, rfl, fun c hc => isSpace_of_mem_lead hc⟩

theorem lead_ends (layout : Layout) (depth : Nat) {close : Char} (hclose : close = ']' ∨ close = '}')
    (rest : List Char) : Ends (layout.lead depth ++ close :: rest) := by
  cases layout with
  | line =>
      apply ends_cons
      rcases hclose with rfl | rfl <;> simp
  | indented width => exact ends_cons (by simp) _

/-! ## Numbers -/

theorem isDigit_of_mem_toDigits {n : Nat} {c : Char} (hc : c ∈ Nat.toDigits 10 n) :
    isDigit c = true :=
  Nat.isDigit_of_mem_toDigits (by decide) (by decide) hc

theorem digitsValue_toDigits (n : Nat) : digitsValue (Nat.toDigits 10 n) = n := by
  have hvalue : digitsValue (Nat.toDigits 10 n) = Nat.ofDigitChars 10 (Nat.toDigits 10 n) 0 := by
    rw [Nat.ofDigitChars_eq_foldl]
    simp only [digitsValue, Nat.mul_comm]
    rfl
  rw [hvalue, Nat.ofDigitChars_toDigits (by decide) (by decide)]

theorem head_toDigits_ne_zero {n : Nat} (hn : 0 < n) (rest : List Char) :
    Nat.toDigits 10 n ≠ '0' :: rest := by
  induction n using Nat.strongRecOn generalizing rest with
  | _ n ih =>
      by_cases hsmall : n < 10
      · rw [Nat.toDigits_of_lt_base hsmall]
        intro heq
        have hdigit : Nat.digitChar n = '0' := (List.cons.inj heq).1
        have hsmallest : ∀ m : Nat, m < 10 → 0 < m → Nat.digitChar m ≠ '0' := by decide
        exact hsmallest n hsmall hn hdigit
      · rw [Nat.toDigits_of_base_le (by decide) (Nat.not_lt.1 hsmall)]
        intro heq
        cases hfront : Nat.toDigits 10 (n / 10) with
        | nil => exact Nat.toDigits_ne_nil hfront
        | cons c front =>
            rw [hfront, List.cons_append] at heq
            obtain ⟨rfl, -⟩ := List.cons.inj heq
            exact ih (n / 10) (by omega) (by omega) front hfront

theorem spanDigits_append {digits rest : List Char} (hdigits : ∀ c ∈ digits, isDigit c = true)
    (hrest : ∀ c ∈ rest.head?, isDigit c = false) : spanDigits (digits ++ rest) = (digits, rest) := by
  have hnone : rest.takeWhile isDigit = [] ∧ rest.dropWhile isDigit = rest := by
    cases rest with
    | nil => simp
    | cons c rest =>
        have hc := hrest c (by simp)
        simp [hc]
  rw [spanDigits, List.span_eq_takeWhile_dropWhile, List.takeWhile_append_of_pos hdigits,
    List.dropWhile_append_of_pos hdigits, hnone.1, hnone.2, List.append_nil]

theorem Ends.not_digit {rest : List Char} (h : Ends rest) : ∀ c ∈ rest.head?, isDigit c = false := by
  intro c hc
  rcases h c hc with rfl | rfl | rfl | rfl <;> rfl

theorem Ends.fractionPart {rest : List Char} (h : Ends rest) : fractionPart rest = ([], rest) := by
  unfold Json.fractionPart
  split
  · next rest =>
      rcases h '.' (by simp) with hc | hc | hc | hc <;> cases hc
  · rfl

theorem Ends.exponentPart? {rest : List Char} (h : Ends rest) : exponentPart? rest = none := by
  cases rest with
  | nil => rfl
  | cons c rest =>
      rcases h c (by simp) with rfl | rfl | rfl | rfl <;> rfl

/-- The digits of a number are read as that number. -/
theorem readMagnitude_toDigits {n : Nat} (hn : n < 10 ^ maxDigits) (start : List Char)
    (negative : Bool) {rest : List Char} (hrest : Ends rest) :
    readMagnitude start negative (Nat.toDigits 10 n ++ rest) =
      .ok (.int (if negative then -n else n), rest) := by
  have hlength : ¬ maxDigits < (Nat.toDigits 10 n).length := by
    rw [Nat.not_lt]
    exact (Nat.length_toDigits_le_iff (by decide) (by decide)).2 hn
  have hsome : (Nat.toDigits 10 n).isEmpty = false := by
    simp [Nat.toDigits_ne_nil]
  unfold readMagnitude
  split
  next whole after hfound =>
    have hspan : (Nat.toDigits 10 n, rest) = (whole, after) := by
      rw [← hfound]
      rcases Nat.eq_zero_or_pos n with rfl | hpos
      · rfl
      · split
        · next digits hdigits =>
            cases hfirst : Nat.toDigits 10 n with
            | nil => exact absurd hfirst Nat.toDigits_ne_nil
            | cons c front =>
                rw [hfirst, List.cons_append] at hdigits
                obtain ⟨rfl, -⟩ := List.cons.inj hdigits
                exact absurd hfirst (head_toDigits_ne_zero hpos front)
        · exact (spanDigits_append (fun c hc => isDigit_of_mem_toDigits hc) hrest.not_digit).symm
    obtain ⟨rfl, rfl⟩ := Prod.mk.inj hspan
    simp [hsome, hrest.fractionPart, hrest.exponentPart?, hlength, digitsValue_toDigits]

theorem toList_toString_int (value : Int) : (toString value).toList =
    if 0 ≤ value then Nat.toDigits 10 value.natAbs else '-' :: Nat.toDigits 10 value.natAbs := by
  rw [Int.toString_eq_repr, Int.repr_eq_if]
  split
  · next hnonneg => rw [Nat.toList_repr, show value.toNat = value.natAbs by omega]
  · next hneg =>
      rw [String.toList_append, Nat.toList_repr, show (-value).toNat = value.natAbs by omega]
      rfl

theorem readScalar_digit {c : Char} (hc : isDigit c = true) (text : List Char) :
    readScalar (c :: text) = readMagnitude (c :: text) false (c :: text) := by
  have hne : ∀ first, isDigit first = false → (first == c) = false := by
    intro first hfirst
    apply beq_false_of_ne
    rintro rfl
    rw [hfirst] at hc
    cases hc
  have hminus : c ≠ '-' := by
    rintro rfl
    cases hc
  simp [readScalar, List.isPrefixOf, hne _ (show isDigit 'n' = false by rfl),
    hne _ (show isDigit 't' = false by rfl), hne _ (show isDigit 'f' = false by rfl),
    hne _ (show isDigit 'N' = false by rfl), hne _ (show isDigit 'I' = false by rfl),
    hne _ (show isDigit '-' = false by rfl), hminus]

theorem readScalar_minus {c : Char} (hc : isDigit c = true) (text : List Char) :
    readScalar ('-' :: c :: text) = readMagnitude ('-' :: c :: text) true (c :: text) := by
  have hne : ('I' == c) = false := by
    apply beq_false_of_ne
    rintro rfl
    cases hc
  simp [readScalar, List.isPrefixOf, hne]

theorem readScalar_int {value : Int} (hvalue : value.natAbs < 10 ^ maxDigits) {rest : List Char}
    (hrest : Ends rest) :
    readScalar ((toString value).toList ++ rest) = .ok (.int value, rest) := by
  have hread := fun start negative => readMagnitude_toDigits hvalue start negative hrest
  cases hdigits : Nat.toDigits 10 value.natAbs with
  | nil => exact absurd hdigits Nat.toDigits_ne_nil
  | cons c digits =>
      have hc : isDigit c = true := by
        have hmem : c ∈ Nat.toDigits 10 value.natAbs := by simp [hdigits]
        exact isDigit_of_mem_toDigits hmem
      rw [toList_toString_int]
      rw [hdigits] at hread ⊢
      split
      · rw [List.cons_append, readScalar_digit hc, ← List.cons_append, hread]
        simp only [Bool.false_eq_true, if_false]
        rw [show (value.natAbs : Int) = value by omega]
      · rw [List.cons_append, List.cons_append, readScalar_minus hc, ← List.cons_append, hread]
        simp only [if_true]
        rw [show -(value.natAbs : Int) = value by omega]

theorem readValue_scalar {c : Char} (hc : c ≠ '"' ∧ c ≠ '{' ∧ c ≠ '[') (fuel : Nat)
    (text : List Char) : readValue (fuel + 1) (c :: text) = readScalar (c :: text) := by
  rw [readValue.eq_6] <;> grind

/-! ## Values -/

def ReadsBack (doc : Json) : Prop :=
  ∀ (layout : Layout) (depth fuel : Nat) (rest : List Char), Ends rest →
    (doc.write layout depth).length ≤ fuel →
      readValue fuel (doc.write layout depth ++ rest) = .ok (doc, rest)

theorem readsBack_null : ReadsBack .null := by
  intro layout depth fuel rest _ hfuel
  obtain ⟨fuel, rfl⟩ : ∃ n, fuel = n + 1 := ⟨fuel - 1, by simp [write] at hfuel; omega⟩
  rw [write, List.cons_append, readValue_scalar (by decide)]
  simp [readScalar, List.isPrefixOf, show "null".length = 4 by decide]

theorem readsBack_bool (value : Bool) : ReadsBack (.bool value) := by
  intro layout depth fuel rest _ hfuel
  cases value with
  | true =>
      obtain ⟨fuel, rfl⟩ : ∃ n, fuel = n + 1 := ⟨fuel - 1, by simp [write] at hfuel; omega⟩
      rw [write, List.cons_append, readValue_scalar (by decide)]
      simp [readScalar, List.isPrefixOf, show "true".length = 4 by decide]
  | false =>
      obtain ⟨fuel, rfl⟩ : ∃ n, fuel = n + 1 := ⟨fuel - 1, by simp [write] at hfuel; omega⟩
      rw [write, List.cons_append, readValue_scalar (by decide)]
      simp [readScalar, List.isPrefixOf, show "false".length = 5 by decide]

theorem toString_int_eq_cons (value : Int) :
    ∃ c text, (toString value).toList = c :: text ∧ (c = '-' ∨ isDigit c = true) := by
  rw [toList_toString_int]
  split
  · cases hdigits : Nat.toDigits 10 value.natAbs with
    | nil => exact absurd hdigits Nat.toDigits_ne_nil
    | cons c digits =>
        have hmem : c ∈ Nat.toDigits 10 value.natAbs := by simp [hdigits]
        exact ⟨c, digits, rfl, Or.inr (isDigit_of_mem_toDigits hmem)⟩
  · exact ⟨'-', _, rfl, Or.inl rfl⟩

theorem ne_of_number {c other : Char} (hc : c = '-' ∨ isDigit c = true) (hminus : other ≠ '-')
    (hother : isDigit other = false) : c ≠ other := by
  rintro rfl
  rcases hc with hc | hc
  · exact hminus hc
  · rw [hother] at hc
    cases hc

theorem readsBack_int {value : Int} (hvalue : value.natAbs < 10 ^ maxDigits) :
    ReadsBack (.int value) := by
  intro layout depth fuel rest hrest hfuel
  have hread := readScalar_int hvalue hrest
  obtain ⟨c, text, htext, hc⟩ := toString_int_eq_cons value
  rw [write, htext, List.length_cons] at hfuel
  obtain ⟨fuel, rfl⟩ : ∃ n, fuel = n + 1 := ⟨fuel - 1, by omega⟩
  rw [htext, List.cons_append] at hread
  rw [write, htext, List.cons_append, readValue_scalar _ fuel, hread]
  exact ⟨ne_of_number hc (by decide) rfl, ne_of_number hc (by decide) rfl,
    ne_of_number hc (by decide) rfl⟩

theorem readsBack_string (value : String) : ReadsBack (.string value) := by
  intro layout depth fuel rest _ hfuel
  obtain ⟨fuel, rfl⟩ : ∃ n, fuel = n + 1 := ⟨fuel - 1, by simp [write, quote] at hfuel; omega⟩
  rw [write, quote, List.cons_append, List.cons_append, List.append_assoc, List.cons_append,
    List.nil_append, readValue.eq_3, readString_quote value rest _ (Nat.le_refl _)]
  rfl

theorem write_eq_cons {doc : Json} (h : Readable doc) (layout : Layout) (depth : Nat) :
    ∃ c text, doc.write layout depth = c :: text ∧ isSpace c = false ∧ c ≠ ']' ∧ c ≠ '\uFEFF' := by
  cases h with
  | null => exact ⟨'n', _, rfl, by decide⟩
  | bool value =>
      cases value with
      | true => exact ⟨'t', _, rfl, by decide⟩
      | false => exact ⟨'f', _, rfl, by decide⟩
  | int value _ =>
      obtain ⟨c, text, htext, hc⟩ := toString_int_eq_cons value
      refine ⟨c, text, htext, ?_, ne_of_number hc (by decide) rfl, ne_of_number hc (by decide) rfl⟩
      simp [isSpace, ne_of_number hc (by decide : ' ' ≠ '-') rfl,
        ne_of_number hc (by decide : '\t' ≠ '-') rfl, ne_of_number hc (by decide : '\n' ≠ '-') rfl,
        ne_of_number hc (by decide : '\r' ≠ '-') rfl]
  | string value => exact ⟨'"', _, rfl, by decide⟩
  | array items _ =>
      cases items with
      | nil => exact ⟨'[', _, rfl, by decide⟩
      | cons item items => exact ⟨'[', _, rfl, by decide⟩
  | object members _ _ =>
      cases members with
      | nil => exact ⟨'\x7b', _, rfl, by decide⟩
      | cons m members => exact ⟨'\x7b', _, rfl, by decide⟩

theorem skipSpace_write {doc : Json} (h : Readable doc) (layout : Layout) (depth : Nat)
    {blanks : List Char} (hblanks : ∀ c ∈ blanks, isSpace c = true) (rest : List Char) :
    skipSpace (blanks ++ (doc.write layout depth ++ rest)) = doc.write layout depth ++ rest := by
  obtain ⟨c, text, htext, hspace, -⟩ := write_eq_cons h layout depth
  rw [skipSpace_append hblanks, htext, List.cons_append, skipSpace_cons hspace]

theorem readItems_write (layout : Layout) (depth : Nat) (rest : List Char) (items : List Json)
    (hitems : ∀ item ∈ items, Readable item ∧ ReadsBack item) (item : Json)
    (hitem : ReadsBack item) (seen : List Json) (fuel : Nat)
    (hfuel : (item.write layout (depth + 1)).length +
      (writeItems layout (depth + 1) items).length < fuel) :
    readItems fuel seen (item.write layout (depth + 1) ++
      (writeItems layout (depth + 1) items ++ (layout.lead depth ++ ']' :: rest))) =
        .ok (.array (seen.reverse ++ item :: items), rest) := by
  induction items generalizing item seen fuel with
  | nil =>
      obtain ⟨fuel, rfl⟩ : ∃ n, fuel = n + 1 := ⟨fuel - 1, by omega⟩
      rw [readItems, writeItems, List.nil_append,
        hitem layout _ fuel _ (lead_ends layout depth (by simp) rest) (by omega)]
      simp only [bind, Except.bind]
      rw [skipSpace_append fun c hc => isSpace_of_mem_lead hc, skipSpace_cons (by decide)]
      simp [pure, Except.pure]
  | cons next items ih =>
      obtain ⟨blanks, hseparator, hblanks⟩ := separator_eq layout (depth + 1)
      rw [writeItems, hseparator] at hfuel ⊢
      simp only [List.length_append, List.length_cons] at hfuel
      obtain ⟨fuel, rfl⟩ : ∃ n, fuel = n + 1 := ⟨fuel - 1, by omega⟩
      rw [readItems]
      simp only [List.cons_append, List.append_assoc]
      rw [hitem layout _ fuel _ (ends_cons (by simp) _) (by omega)]
      simp only [bind, Except.bind]
      obtain ⟨hreadable, hback⟩ := hitems next (by simp)
      rw [skipSpace_cons (by decide)]
      simp only
      rw [skipSpace_write hreadable _ _ hblanks,
        ih (fun other hother => hitems other (by simp [hother])) next hback _ _ (by omega)]
      simp

theorem put_of_nodup {seen members : Table Json} {m : String × Json}
    (hnames : ((seen ++ m :: members).map (·.1)).Nodup) : seen.put m.1 m.2 = seen ++ [m] := by
  apply Table.put_of_not_mem
  rw [List.map_append, List.nodup_append] at hnames
  intro hmem
  exact hnames.2.2 _ hmem _ (by simp) rfl

def writeMember (layout : Layout) (depth : Nat) (m : String × Json) : List Char :=
  quote m.1 ++ ':' :: ' ' :: m.2.write layout depth

theorem length_write_lt (layout : Layout) (depth : Nat) (m : String × Json) :
    (m.2.write layout depth).length < (writeMember layout depth m).length := by
  rw [writeMember, List.length_append, List.length_cons, List.length_cons]
  omega

theorem skipSpace_writeMember (layout : Layout) (depth : Nat) (m : String × Json)
    {blanks : List Char} (hblanks : ∀ c ∈ blanks, isSpace c = true) (rest : List Char) :
    skipSpace (blanks ++ (writeMember layout depth m ++ rest)) =
      writeMember layout depth m ++ rest := by
  rw [skipSpace_append hblanks, writeMember, quote, List.cons_append, List.cons_append,
    List.cons_append, skipSpace_cons (by decide)]

theorem readMembers_member {layout : Layout} {depth fuel : Nat} {m : String × Json}
    (hreadable : Readable m.2) (hback : ReadsBack m.2) (seen : Table Json) {rest : List Char}
    (hrest : Ends rest) (hfuel : (m.2.write layout depth).length ≤ fuel) :
    readMembers (fuel + 1) seen (writeMember layout depth m ++ rest) =
      match skipSpace rest with
      | '}' :: after => .ok (.object (seen.put m.1 m.2), after)
      | ',' :: after => readMembers fuel (seen.put m.1 m.2) (skipSpace after)
      | rest => failAt .expectingComma rest := by
  have htext : writeMember layout depth m ++ rest = '"' :: (m.1.toList.flatMap escapeChar ++
      '"' :: (':' :: ([' '] ++ (m.2.write layout depth ++ rest)))) := by
    simp [writeMember, quote]
  rw [htext, readMembers, readString_quote m.1 _ _ (Nat.le_refl _)]
  simp only [bind, Except.bind]
  rw [skipSpace_cons (by decide)]
  simp only
  rw [skipSpace_write hreadable _ _ (List.all_eq_true.1 (by decide)), hback layout depth fuel rest hrest hfuel]
  rfl

theorem readMembers_write (layout : Layout) (depth : Nat) (rest : List Char)
    (members : List (String × Json)) (hmembers : ∀ m ∈ members, Readable m.2 ∧ ReadsBack m.2)
    (m : String × Json) (hm : Readable m.2 ∧ ReadsBack m.2) (seen : Table Json)
    (hnames : ((seen ++ m :: members).map (·.1)).Nodup) (fuel : Nat)
    (hfuel : (writeMember layout (depth + 1) m).length +
      (writeMembers layout (depth + 1) members).length < fuel) :
    readMembers fuel seen (writeMember layout (depth + 1) m ++
      (writeMembers layout (depth + 1) members ++ (layout.lead depth ++ '}' :: rest))) =
        .ok (.object (seen ++ m :: members), rest) := by
  induction members generalizing m seen fuel with
  | nil =>
      have hlength := length_write_lt layout (depth + 1) m
      obtain ⟨fuel, rfl⟩ : ∃ n, fuel = n + 1 := ⟨fuel - 1, by omega⟩
      rw [writeMembers, List.nil_append,
        readMembers_member hm.1 hm.2 seen (lead_ends layout depth (by simp) rest) (by omega),
        skipSpace_append fun c hc => isSpace_of_mem_lead hc, skipSpace_cons (by decide)]
      simp only
      rw [put_of_nodup hnames]
  | cons next members ih =>
      have hlength := length_write_lt layout (depth + 1) m
      obtain ⟨blanks, hseparator, hblanks⟩ := separator_eq layout (depth + 1)
      have hwritten : writeMembers layout (depth + 1) (next :: members) =
          ',' :: (blanks ++ (writeMember layout (depth + 1) next ++
            writeMembers layout (depth + 1) members)) := by
        rw [writeMembers, hseparator]
        simp [writeMember]
      rw [hwritten] at hfuel ⊢
      simp only [List.length_append, List.length_cons] at hfuel
      obtain ⟨fuel, rfl⟩ : ∃ n, fuel = n + 1 := ⟨fuel - 1, by omega⟩
      rw [List.cons_append, readMembers_member hm.1 hm.2 seen (ends_cons (by simp) _) (by omega),
        skipSpace_cons (by decide)]
      simp only [List.append_assoc]
      have hnext : seen ++ m :: next :: members = (seen ++ [m]) ++ next :: members := by simp
      rw [skipSpace_writeMember _ _ _ hblanks, put_of_nodup hnames, hnext]
      exact ih (fun other hother => hmembers other (by simp [hother])) next
        (hmembers next (by simp)) (seen ++ [m]) (hnext ▸ hnames) fuel (by omega)

theorem readsBack_array {items : List Json} (hreadable : ∀ item ∈ items, Readable item)
    (hitems : ∀ item ∈ items, ReadsBack item) : ReadsBack (.array items) := by
  intro layout depth fuel rest _ hfuel
  cases items with
  | nil =>
      obtain ⟨fuel, rfl⟩ : ∃ n, fuel = n + 1 := ⟨fuel - 1, by simp [write] at hfuel; omega⟩
      rw [write, List.cons_append, readValue.eq_5, List.cons_append, skipSpace_cons (by decide)]
      rfl
  | cons item items =>
      rw [write] at hfuel ⊢
      simp only [List.length_append, List.length_cons] at hfuel
      obtain ⟨fuel, rfl⟩ : ∃ n, fuel = n + 1 := ⟨fuel - 1, by omega⟩
      simp only [List.cons_append, List.append_assoc, List.nil_append]
      rw [readValue.eq_5, skipSpace_write (hreadable item (by simp)) _ _
        fun c hc => isSpace_of_mem_lead hc]
      have hread := readItems_write layout depth rest items
        (fun other hother => ⟨hreadable other (by simp [hother]), hitems other (by simp [hother])⟩)
        item (hitems item (by simp)) [] fuel (by omega)
      obtain ⟨c, text, htext, -, hclose, -⟩ := write_eq_cons (hreadable item (by simp)) layout (depth + 1)
      rw [htext, List.cons_append] at hread ⊢
      split
      · next heq => exact absurd (List.cons.inj heq).1 hclose
      · exact hread

theorem readsBack_object {members : List (String × Json)} (hnames : (members.map (·.1)).Nodup)
    (hmembers : ∀ m ∈ members, Readable m.2 ∧ ReadsBack m.2) : ReadsBack (.object members) := by
  intro layout depth fuel rest _ hfuel
  cases members with
  | nil =>
      obtain ⟨fuel, rfl⟩ : ∃ n, fuel = n + 1 := ⟨fuel - 1, by simp [write] at hfuel; omega⟩
      rw [write, List.cons_append, readValue.eq_4, List.cons_append, skipSpace_cons (by decide)]
      rfl
  | cons m members =>
      have hwritten : write layout depth (.object (m :: members)) =
          '\x7b' :: (layout.lead (depth + 1) ++ (writeMember layout (depth + 1) m ++
            (writeMembers layout (depth + 1) members ++ (layout.lead depth ++ ['\x7d'])))) := by
        rw [write]
        simp [writeMember]
      rw [hwritten] at hfuel ⊢
      simp only [List.length_append, List.length_cons] at hfuel
      obtain ⟨fuel, rfl⟩ : ∃ n, fuel = n + 1 := ⟨fuel - 1, by omega⟩
      simp only [List.cons_append, List.append_assoc, List.nil_append]
      rw [readValue.eq_4, skipSpace_writeMember _ _ _ fun c hc => isSpace_of_mem_lead hc]
      have hread := readMembers_write layout depth rest members
        (fun other hother => hmembers other (by simp [hother])) m (hmembers m (by simp)) []
        (by simpa using hnames) fuel (by omega)
      rw [writeMember, quote, List.cons_append, List.cons_append, List.cons_append] at hread ⊢
      exact hread

/-- A document is read back, whatever follows it. -/
theorem Readable.readsBack {doc : Json} (h : Readable doc) : ReadsBack doc := by
  induction h with
  | null => exact readsBack_null
  | bool value => exact readsBack_bool value
  | int value hvalue => exact readsBack_int hvalue
  | string value => exact readsBack_string value
  | array items hreadable ih => exact readsBack_array hreadable ih
  | object members hnames hreadable ih =>
      exact readsBack_object hnames fun m hm => ⟨hreadable m hm, ih m hm⟩

/-- A document that was written is read as the same document, with or without line feeds after it. -/
theorem readDocument_write {doc : Json} (h : Readable doc) (layout : Layout) {rest : List Char}
    (hrest : Ends rest) (hblanks : ∀ c ∈ rest, isSpace c = true) :
    readDocument (doc.write layout 0 ++ rest) = .ok doc := by
  have hread := fun fuel hfuel => h.readsBack layout 0 fuel rest hrest hfuel
  have hnone : ∀ c ∈ ([] : List Char), isSpace c = true := by simp
  have hskip := skipSpace_write h layout 0 hnone rest
  have hend : skipSpace rest = [] := List.dropWhile_eq_nil_iff.2 hblanks
  obtain ⟨c, text, htext, -, -, hmark⟩ := write_eq_cons h layout 0
  rw [List.nil_append] at hskip
  unfold readDocument
  split
  · next after heq =>
      rw [htext, List.cons_append] at heq
      exact absurd (List.cons.inj heq).1 hmark
  · rw [hskip, hread _ (by simp; omega)]
    simp only [bind, Except.bind, hend]
    rfl

theorem readDocument_pretty {doc : Json} (h : Readable doc) :
    readDocument (doc.pretty.toList ++ ['\n']) = .ok doc := by
  rw [pretty, String.toList_ofList]
  exact readDocument_write h _ (ends_cons (by simp) _) (by simp [isSpace])

end ScriptSplit.Json
