import Polish.Binary64.Rounding

/-!
# Decimals

A non-negative decimal is a whole coefficient times a power of ten. This module rounds one to the nearest
double, writes one in positional notation, and reads one from text with an optional point and exponent.
-/

namespace Polish

open scoped Binary64

/-- The non-negative number `coefficient * 10 ^ exponent`. -/
structure Decimal where
  coefficient : Nat
  exponent : Int
deriving DecidableEq

namespace Decimal

/-! ## The double nearest to a decimal -/

/-- Numerator of the decimal as a fraction of natural numbers. -/
def num (d : Decimal) : Nat := d.coefficient * 10 ^ d.exponent.toNat

/-- Denominator of the decimal as a fraction of natural numbers. -/
def den (d : Decimal) : Nat := 10 ^ (-d.exponent).toNat

/-- The units of the double nearest to the decimal, its overflow aside. -/
def units (d : Decimal) : Nat := Binary64.roundUnits (d.num * 2 ^ (1074 : Nat)) d.den

/-- The finite double nearest to the decimal, ties to even; nothing if it overflows. -/
def toMagnitude? (d : Decimal) : Option Binary64.Magnitude :=
  Binary64.Magnitude.nearest? (d.num * 2 ^ (1074 : Nat)) d.den

/-! ## Positional notation -/

/-- The last `width` decimal digits of a number, with leading zeros. -/
def lastDigits : Nat → Nat → List Char
  | 0, _ => []
  | width + 1, n => lastDigits width (n / 10) ++ [Nat.digitChar (n % 10)]

@[simp] theorem length_lastDigits (width n : Nat) : (lastDigits width n).length = width := by
  induction width generalizing n with
  | zero => rfl
  | succ width ih => simp [lastDigits, ih]

/-- Positional notation: the whole part without leading zeros, and a point and as many fraction digits as the
negative exponent says. -/
def positional (d : Decimal) : List Char :=
  match (-d.exponent).toNat with
  | 0 => Nat.toDigits 10 d.num
  | places + 1 => Nat.toDigits 10 (d.num / d.den) ++ '.' :: lastDigits (places + 1) (d.num % d.den)

/-! ## Reading -/

/-- Exponents stop growing here, far beyond those of every double. -/
def exponentCap : Nat := 2 ^ (16 : Nat)

/-- The number that a run of exponent digits denotes; digits after the cap is reached are ignored. -/
def exponentOfDigits (digits : List Char) : Nat :=
  digits.foldl (fun n c => if n < exponentCap then 10 * n + (c.toNat - '0'.toNat) else n) 0

/-- Splits off a leading sign; the first part says whether it was a minus. -/
def splitSign : List Char → Bool × List Char
  | '-' :: rest => (true, rest)
  | '+' :: rest => (false, rest)
  | text => (false, text)

/-- The exponent written after a decimal: nothing at all, or `e` and a signed run of digits. -/
def exponentOfChars? : List Char → Option Int
  | [] => some 0
  | mark :: text =>
    let (negative, digits) := splitSign text
    if (mark = 'e' ∨ mark = 'E') ∧ digits ≠ [] ∧ digits.all Char.isDigit then
      some (if negative then -exponentOfDigits digits else exponentOfDigits digits)
    else none

/-- The digits after a point, if one comes first, and what follows them. -/
def splitFraction : List Char → List Char × List Char
  | '.' :: tail => (tail.takeWhile Char.isDigit, tail.dropWhile Char.isDigit)
  | text => ([], text)

/-- Reads digits with an optional point among them, at least one digit in all, and an optional exponent. -/
def ofChars? (text : List Char) : Option Decimal :=
  let (fraction, rest) := splitFraction (text.dropWhile Char.isDigit)
  let digits := text.takeWhile Char.isDigit ++ fraction
  if digits = [] then none
  else (exponentOfChars? rest).map fun exponent => ⟨Nat.ofDigitChars 10 digits 0, exponent - fraction.length⟩

end Decimal

end Polish
