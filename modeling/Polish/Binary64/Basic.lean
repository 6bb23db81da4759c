import Polish.Binary64.Magnitude

/-!
# Double precision numbers

A `Binary64` is a double up to the payload and sign of a NaN: two of them are equal exactly if their
bit patterns agree or both are NaN. The numeric comparison, for which a NaN differs from itself and the two zeros
are equal, is `numericEq`.
-/

namespace Polish

/-- A double precision number; all NaNs are one. -/
inductive Binary64 where
  | nan
  | infinity (negative : Bool)
  | finite (negative : Bool) (magnitude : Binary64.Magnitude)
deriving DecidableEq

namespace Binary64

/-- The magnitude with the given exponent and fraction fields, the exponent not all ones. -/
def Magnitude.ofFields (exponent fraction : Nat) (he : exponent < 2047) (hf : fraction < 2 ^ (52 : Nat)) : Magnitude :=
  if exponent = 0 then ofSignificand fraction 0 (by omega) (by omega)
  else ofSignificand (2 ^ (52 : Nat) + fraction) (exponent - 1) (by omega) (by omega)

/-- The number that a 64-bit pattern encodes. -/
def ofBits (bits : UInt64) : Binary64 :=
  let negative := bits.toNat / 2 ^ (63 : Nat) = 1
  let exponent := bits.toNat / 2 ^ (52 : Nat) % 2 ^ (11 : Nat)
  let fraction := bits.toNat % 2 ^ (52 : Nat)
  if h : exponent < 2047 then .finite negative (.ofFields exponent fraction h (Nat.mod_lt _ (by decide)))
  else if fraction = 0 then .infinity negative
  else .nan

/-- Whether the number is neither infinite nor a NaN. -/
def isFinite : Binary64 → Bool
  | finite .. => true
  | _ => false

/-- Numeric equality: a NaN differs from itself, and zero has no sign. -/
def numericEq : Binary64 → Binary64 → Bool
  | infinity s, infinity t => s == t
  | finite s a, finite t b => a.units == b.units && (s == t || a.units == 0)
  | _, _ => false

end Binary64

end Polish
