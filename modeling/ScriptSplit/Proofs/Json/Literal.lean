import ScriptSplit.Json.Reader
import ScriptSplit.Json.Writer

/-!
# String literals

What is written for a string is read back as the same string: each character takes one step of the reader,
whichever escape stands for it.
-/

namespace ScriptSplit.Json

theorem hexValue?_hexDigit {n : Nat} (hn : n < 16) : hexValue? (hexDigit n) = some n := by
  revert n
  decide

theorem hexUnit?_hexUnit {n : Nat} (hn : n < 65536) : hexUnit? (hexUnit n) = some n := by
  unfold hexUnit hexUnit?
  simp only [hexValue?_hexDigit (Nat.mod_lt _ (by omega : 0 < 16)), Option.bind_eq_bind,
    Option.bind_some, Option.pure_def, Option.some.injEq]
  omega

theorem length_hexUnit (n : Nat) : (hexUnit n).length = 4 := rfl

theorem readUnit_hexUnit {n : Nat} (hn : n < 65536) (fromU : List Char) {rest : List Char}
    (hrest : rest ≠ []) : readUnit fromU (hexUnit n ++ rest) = .ok (n, rest) := by
  have hlength : ¬ (hexUnit n ++ rest).length < 5 := by
    have hpos : 0 < rest.length := List.length_pos_iff.2 hrest
    rw [List.length_append, length_hexUnit]
    omega
  have htake : (hexUnit n ++ rest).take 4 = hexUnit n := List.take_left' (length_hexUnit n)
  have hdrop : (hexUnit n ++ rest).drop 4 = rest := List.drop_left' (length_hexUnit n)
  unfold readUnit
  rw [if_neg hlength, htake, hdrop, hexUnit?_hexUnit hn]

theorem toNat_not_surrogate (c : Char) : ¬ (0xD800 ≤ c.toNat ∧ c.toNat ≤ 0xDFFF) := by
  have hvalid : c.toNat < 0xD800 ∨ 0xDFFF < c.toNat ∧ c.toNat < 0x110000 := c.valid
  omega

theorem toNat_lt (c : Char) : c.toNat < 0x110000 := by
  have hvalid : c.toNat < 0xD800 ∨ 0xDFFF < c.toNat ∧ c.toNat < 0x110000 := c.valid
  omega

theorem readUnicodeEscape_unit {c : Char} (hc : c.toNat < 0x10000) (fromU : List Char)
    {rest : List Char} (hrest : rest ≠ []) :
    readUnicodeEscape fromU (hexUnit c.toNat ++ rest) = .ok (c, rest) := by
  have hhigh : ¬ (0xD800 ≤ c.toNat ∧ c.toNat ≤ 0xDBFF) := by
    have hsurrogate := toNat_not_surrogate c
    omega
  unfold readUnicodeEscape
  simp only [readUnit_hexUnit hc fromU hrest, bind, Except.bind, if_neg hhigh, Char.ofNat_toNat,
    pure, Except.pure]

theorem readUnicodeEscape_pair {high low : Nat} (hhigh : 0xD800 ≤ high ∧ high ≤ 0xDBFF)
    (hlow : 0xDC00 ≤ low ∧ low ≤ 0xDFFF) (fromU : List Char) {rest : List Char}
    (hrest : rest ≠ []) :
    readUnicodeEscape fromU (hexUnit high ++ '\\' :: 'u' :: (hexUnit low ++ rest)) =
      .ok (pairChar high low, rest) := by
  have hlength : ¬ (hexUnit low ++ rest).length < 5 := by
    have hpos : 0 < rest.length := List.length_pos_iff.2 hrest
    rw [List.length_append, length_hexUnit]
    omega
  unfold readUnicodeEscape
  rw [readUnit_hexUnit (by omega) fromU (by simp)]
  simp only [bind, Except.bind]
  rw [if_pos hhigh, if_neg hlength, readUnit_hexUnit (by omega) _ hrest]
  simp only [pure, Except.pure]
  rw [if_pos hlow]

theorem pairChar_eq {n : Nat} (hn : 0x10000 ≤ n) :
    pairChar (0xD800 + (n - 0x10000) / 1024) (0xDC00 + (n - 0x10000) % 1024) = Char.ofNat n := by
  have hsplit : 0x10000 + (0xD800 + (n - 0x10000) / 1024 - 0xD800) * 1024 +
      (0xDC00 + (n - 0x10000) % 1024 - 0xDC00) = n := by omega
  rw [pairChar, hsplit]

theorem readString_plain {c : Char} (hquote : c ≠ '"') (hbackslash : c ≠ '\\')
    (hprintable : 0x20 ≤ c.toNat) (opening : List Char) (fuel : Nat) (seen rest : List Char) :
    readString opening (fuel + 1) seen (c :: rest) = readString opening fuel (c :: seen) rest := by
  have hcontrol : ¬ c.toNat < 0x20 := by omega
  rw [readString.eq_def]
  simp [hquote, hbackslash, hcontrol]

theorem readString_unicode {c : Char} {digits after : List Char} (opening : List Char)
    (fuel : Nat) (seen : List Char)
    (hread : ∀ fromU, readUnicodeEscape fromU digits = .ok (c, after)) :
    readString opening (fuel + 1) seen ('\\' :: 'u' :: digits) =
      readString opening fuel (c :: seen) after := by
  rw [readString]
  simp [hread, bind, Except.bind]

theorem readString_escapeChar (c : Char) (opening : List Char) (fuel : Nat) (seen : List Char)
    {rest : List Char} (hrest : rest ≠ []) :
    readString opening (fuel + 1) seen (escapeChar c ++ rest) =
      readString opening fuel (c :: seen) rest := by
  unfold escapeChar
  split
  · rfl
  · rfl
  · rfl
  · rfl
  · rfl
  · rfl
  · rfl
  · next hquote hbackslash _ _ _ _ _ =>
      split
      · next hprintable => exact readString_plain hquote hbackslash hprintable.1 _ _ _ _
      · unfold unicodeEscape
        split
        · next hunit =>
            exact readString_unicode _ _ _ fun _ => readUnicodeEscape_unit hunit _ hrest
        · next hpair =>
            have hbound := toNat_lt c
            have hchar := pairChar_eq (Nat.not_lt.1 hpair)
            rw [Char.ofNat_toNat] at hchar
            simp only [List.cons_append, List.append_assoc]
            apply readString_unicode
            intro fromU
            rw [readUnicodeEscape_pair (by omega) (by omega) _ hrest, hchar]

theorem readString_escaped (chars : List Char) (opening : List Char) (seen rest : List Char)
    {fuel : Nat} (hfuel : chars.length < fuel) :
    readString opening fuel seen (chars.flatMap escapeChar ++ '"' :: rest) =
      .ok (String.ofList (seen.reverse ++ chars), rest) := by
  induction chars generalizing fuel seen with
  | nil =>
      obtain ⟨fuel, rfl⟩ : ∃ n, fuel = n + 1 := ⟨fuel - 1, by simp at hfuel; omega⟩
      simp [readString]
  | cons c chars ih =>
      simp only [List.length_cons] at hfuel
      obtain ⟨fuel, rfl⟩ : ∃ n, fuel = n + 1 := ⟨fuel - 1, by omega⟩
      rw [List.flatMap_cons, List.append_assoc, readString_escapeChar c _ _ _ (by simp),
        ih (c :: seen) (by omega)]
      simp

theorem length_escapeChar_pos (c : Char) : 0 < (escapeChar c).length := by
  unfold escapeChar unicodeEscape
  repeat' split
  all_goals simp

theorem length_le_length_escaped (chars : List Char) :
    chars.length ≤ (chars.flatMap escapeChar).length := by
  induction chars with
  | nil => simp
  | cons c chars ih =>
      have hpos := length_escapeChar_pos c
      rw [List.flatMap_cons, List.length_append, List.length_cons]
      omega

/-- What follows the opening quote of a literal is read as the string. -/
theorem readString_quote (s : String) (rest opening : List Char) {fuel : Nat}
    (hfuel : (s.toList.flatMap escapeChar ++ '"' :: rest).length ≤ fuel) :
    readString opening fuel [] (s.toList.flatMap escapeChar ++ '"' :: rest) = .ok (s, rest) := by
  have hlength := length_le_length_escaped s.toList
  rw [List.length_append, List.length_cons] at hfuel
  rw [readString_escaped s.toList opening [] rest (by omega)]
  simp

end ScriptSplit.Json
