/-! # The binary form of a number

A `Float` is read from its 64 bits: a sign, eleven bits of exponent and fifty-two of fraction.

* `Binary.ofFloat`: the value as not-a-number, an infinity, or `± mantissa * 2 ^ exponent` with
  natural-number parts, on which decimal digits can be found exactly. -/

namespace Artboard.Number

/-- What the bits of a `Float` stand for. -/
inductive Binary
  /-- Not a number. -/
  | nan
  /-- An infinity. -/
  | infinite (negative : Bool)
  /-- `± mantissa * 2 ^ exponent`; the mantissa is `0` for both zeros. -/
  | finite (negative : Bool) (mantissa : Nat) (exponent : Int)
  deriving DecidableEq, Repr

/-- The value that the sign, exponent and fraction fields stand for. -/
def Binary.ofFields (negative : Bool) (exponent fraction : Nat) : Binary :=
  if exponent = 2047 then
    if fraction = 0 then .infinite negative else .nan
  else if exponent = 0 then .finite negative fraction (-1074)
  else .finite negative (Nat.pow 2 52 + fraction) (exponent - 1075)

/-- The binary form of a number. -/
def Binary.ofFloat (x : Float) : Binary :=
  let bits := x.toBits.toNat
  .ofFields (bits / Nat.pow 2 63 = 1) (bits / Nat.pow 2 52 % Nat.pow 2 11)
    (bits % Nat.pow 2 52)

end Artboard.Number
