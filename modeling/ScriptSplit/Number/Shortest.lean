import ScriptSplit.Number.Double

/-!
# Shortest decimal text

The text of a floating-point number has the fewest significant digits that read back as the same
number, and of those the digits nearest to it.
-/

namespace ScriptSplit

namespace Double

structure Fraction where
  num : Nat
  den : Nat

namespace Fraction

/-- `num * 2 ^ exponent` -/
def ofDyadic (num : Nat) (exponent : Int) : Fraction :=
  if exponent < 0 then ⟨num, Nat.pow 2 (-exponent).toNat⟩
  else ⟨num * Nat.pow 2 exponent.toNat, 1⟩

def lt (a b : Fraction) : Bool := a.num * b.den < b.num * a.den

def le (a b : Fraction) : Bool := a.num * b.den ≤ b.num * a.den

/-- `digits * 10 ^ exponent` -/
def ofDecimal (digits : Nat) (exponent : Int) : Fraction :=
  if exponent < 0 then ⟨digits, Nat.pow 10 (-exponent).toNat⟩
  else ⟨digits * Nat.pow 10 exponent.toNat, 1⟩

/-- The whole part of the fraction in units of `10 ^ exponent`. -/
def units (a : Fraction) (exponent : Int) : Nat :=
  if exponent < 0 then a.num * Nat.pow 10 (-exponent).toNat / a.den
  else a.num / (a.den * Nat.pow 10 exponent.toNat)

end Fraction

/-- The reals that round to a given number: everything between `low` and `high`, and these two as
well when `closed`. -/
structure Interval where
  low : Fraction
  high : Fraction
  closed : Bool

def Interval.contains (i : Interval) (a : Fraction) : Bool :=
  if i.closed then i.low.le a && a.le i.high else i.low.lt a && a.lt i.high

/-- The reals that round to `significand * 2 ^ exponent`. Below a power of two the next number is
half as far away, except at the least exponent. -/
def interval (significand : Nat) (exponent : Int) : Interval where
  low :=
    if significand = Nat.pow 2 52 ∧ minExponent < exponent then
      .ofDyadic (4 * significand - 1) (exponent - 2)
    else .ofDyadic (2 * significand - 1) (exponent - 1)
  high := .ofDyadic (2 * significand + 1) (exponent - 1)
  closed := significand % 2 = 0

/-- The decimal exponent of the leading digit, found by trying `fuel` values from `guess` up. -/
def leadingExponent (a : Fraction) (guess : Int) : Nat → Int
  | 0 => guess
  | fuel + 1 =>
    if Fraction.le (.ofDecimal 1 (guess + 1)) a then leadingExponent a (guess + 1) fuel else guess

/-- The nearer of the two neighbours of `a` on the grid of step `10 ^ exponent`, if one of them
lies in the interval. -/
def onGrid (a : Fraction) (i : Interval) (exponent : Int) : Option Nat :=
  let below := a.units exponent
  let above := below + 1
  let hitsBelow := i.contains (.ofDecimal below exponent)
  let hitsAbove := i.contains (.ofDecimal above exponent)
  if hitsBelow && hitsAbove then
    -- the middle of the two neighbours tells which is nearer
    let middle := Fraction.ofDecimal (10 * below + 5) (exponent - 1)
    if a.lt middle then some below
    else if middle.lt a then some above
    else if below % 2 = 0 then some below else some above
  else if hitsBelow then some below
  else if hitsAbove then some above
  else none

/-- Digits and decimal exponent of the shortest decimal, trying `fuel` more grids. -/
def shortestFrom (a : Fraction) (i : Interval) (exponent : Int) : Nat → Nat × Int
  | 0 => (a.units exponent, exponent)
  | fuel + 1 =>
    match onGrid a i exponent with
    | some digits => (digits, exponent)
    | none => shortestFrom a i (exponent - 1) fuel

/-- The shortest decimal `digits * 10 ^ exponent` that reads back as a positive number. -/
def shortest (significand : Nat) (exponent : Int) : Nat × Int :=
  let a := Fraction.ofDyadic significand exponent
  let top := leadingExponent a (-325) 640
  shortestFrom a (interval significand exponent) top 17

/-- How numbers are written: positionally while the leading digit's exponent is in
`[minPositional, maxPositional)`, else with an exponent of at least two digits. -/
structure Format where
  minPositional : Int
  maxPositional : Int

/-- Numbers from 0.0001 up to below 10^16 are written positionally. -/
def Format.plain : Format where
  minPositional := -4
  maxPositional := 16

def dropTrailingZeros (digits : List Char) : List Char :=
  (digits.reverse.dropWhile (· == '0')).reverse

/-- The digits with a point after the first `whole` of them. -/
def positional (digits : List Char) (whole : Int) : String :=
  if whole ≤ 0 then
    "0." ++ String.ofList (List.replicate (-whole).toNat '0' ++ digits)
  else
    let head := digits.take whole.toNat
    let padded := head ++ List.replicate (whole.toNat - head.length) '0'
    let tail := digits.drop whole.toNat
    String.ofList padded ++ "." ++ (if tail.isEmpty then "0" else String.ofList tail)

/-- The digits with a point after the first and a power of ten. -/
def scientific (digits : List Char) (exponent : Int) : String :=
  let head := String.ofList (digits.take 1)
  let tail := digits.drop 1
  let fraction := if tail.isEmpty then "" else "." ++ String.ofList tail
  let size := toString exponent.natAbs
  let padded := if size.length < 2 then "0" ++ size else size
  head ++ fraction ++ "e" ++ (if exponent < 0 then "-" else "+") ++ padded

def magnitudeText (format : Format) (significand : Nat) (exponent : Int) : String :=
  if significand = 0 then "0.0"
  else
    let (value, scale) := shortest significand exponent
    let written := Nat.toDigits 10 value
    let leading : Int := written.length - 1 + scale
    let digits := dropTrailingZeros written
    if format.minPositional ≤ leading ∧ leading < format.maxPositional then
      positional digits (leading + 1)
    else scientific digits leading

def text (format : Format) (nanText infinityText : String) : Double → String
  | .finite negative significand exponent =>
    (if negative then "-" else "") ++ magnitudeText format significand exponent
  | .infinite negative => (if negative then "-" else "") ++ infinityText
  | .nan => nanText

end Double

end ScriptSplit
