/-!
# Binary floating-point numbers

The finite numbers of the 64-bit binary format, as exact dyadic rationals, with the infinities and
one not-a-number. A quotient of integers is rounded to the nearest of them, ties to the even
significand; all arithmetic that the library needs comes down to that.
-/

namespace ScriptSplit

inductive Double where
  /-- `± significand * 2 ^ exponent` -/
  | finite (negative : Bool) (significand : Nat) (exponent : Int)
  | infinite (negative : Bool)
  | nan
  deriving DecidableEq, Repr

namespace Double

/-- The least exponent, at which the significand may have fewer than 53 bits. -/
def minExponent : Int := -1074

def maxExponent : Int := 971

def significandBound : Nat := Nat.pow 2 53

def zero (negative : Bool) : Double := .finite negative 0 minExponent

/-- The quotient rounded to the nearest integer, a tie to the even one. -/
def roundDiv (num den : Nat) : Nat :=
  let low := num / den
  let twice := 2 * (num % den)
  if twice < den then low
  else if den < twice then low + 1
  else if low % 2 = 0 then low else low + 1

/-- `num / den` in units of `2 ^ exponent`, as a fraction. -/
def scaled (num den : Nat) (exponent : Int) : Nat × Nat :=
  if exponent < 0 then (num * Nat.pow 2 (-exponent).toNat, den)
  else (num, den * Nat.pow 2 exponent.toNat)

/-- The exponent at which the quotient has 53 bits before the point, or the least exponent. -/
def exponentFor (num den : Nat) : Int :=
  let guess : Int := (num.log2 : Int) - (den.log2 : Int) - 52
  let (n, d) := scaled num den guess
  let exact := if n / d < Nat.pow 2 52 then guess - 1 else guess
  max exact minExponent

/-- The number nearest to `± num / den`; infinite when the quotient is too large. -/
def ofQuotient (negative : Bool) (num den : Nat) : Double :=
  if num = 0 then zero negative
  else
    let exponent := exponentFor num den
    let (n, d) := scaled num den exponent
    let significand := roundDiv n d
    let (significand, exponent) :=
      if significand = significandBound then (Nat.pow 2 52, exponent + 1) else (significand, exponent)
    if maxExponent < exponent then .infinite negative
    else .finite negative significand exponent

/-- The number nearest to `± digits * 10 ^ exponent`. -/
def ofDecimal (negative : Bool) (digits : Nat) (exponent : Int) : Double :=
  let magnitude : Int := (Nat.toDigits 10 digits).length + exponent
  if digits = 0 then zero negative
  else if 310 < magnitude then .infinite negative
  else if magnitude < -330 then zero negative
  else if exponent < 0 then ofQuotient negative digits (Nat.pow 10 (-exponent).toNat)
  else ofQuotient negative (digits * Nat.pow 10 exponent.toNat) 1

def addInt (x : Double) (n : Int) : Double :=
  match x with
  | .finite negative significand exponent =>
    let signed (size : Nat) : Int := if negative then -size else size
    let (num, den) : Int × Nat :=
      if exponent < 0 then
        let unit : Nat := Nat.pow 2 (-exponent).toNat
        (signed significand + n * (unit : Int), unit)
      else (signed (significand * Nat.pow 2 exponent.toNat) + n, 1)
    ofQuotient (num < 0) num.natAbs den
  | other => other

def ceil? : Double → Option Int
  | .finite negative significand exponent =>
    if exponent < 0 then
      let unit := Nat.pow 2 (-exponent).toNat
      if negative then some (-(significand / unit : Nat))
      else some ((significand + (unit - 1)) / unit : Nat)
    else
      let size : Int := (significand * Nat.pow 2 exponent.toNat : Nat)
      some (if negative then -size else size)
  | _ => none

def isZero : Double → Bool
  | .finite _ significand _ => significand == 0
  | _ => false

end Double

end ScriptSplit
