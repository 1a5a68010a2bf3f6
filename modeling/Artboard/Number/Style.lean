import Artboard.Number.Shortest

/-! # Spelling numbers

Two spellings of the same shortest digits are in use.

* `Style.wire`: in texts for programs; a whole number keeps `.0`, large and small numbers have an
  exponent with a sign.
* `Style.plain`: in texts for people; never an exponent and no `.0`. -/

namespace Artboard.Number

/-- How the shortest digits of a number are set out. -/
structure Style where
  /-- Which of two equally near digit strings is taken. -/
  tie : Tie
  /-- The exponents of the leading digit that are written positionally, first and first beyond;
  without a range all are. -/
  positional : Option (Int × Int)
  /-- What follows a whole number that is written positionally. -/
  whole : String
  deriving DecidableEq, Repr

/-- Numbers from `1e-5` to below `1e16` are positional, and a whole number shows its `.0`. -/
def Style.wire : Style := ⟨.toEven, some (-5, 16), ".0"⟩

/-- Every number is positional. -/
def Style.plain : Style := ⟨.away, none, ""⟩

/-- `n` zeros. -/
def zeros (n : Nat) : String := String.ofList (List.replicate n '0')

/-- A number by its position: its digits with the point after the first `point` of them, which may
lie before or after all digits. -/
def Style.setPoint (style : Style) (digits : List Char) (point : Int) : String :=
  if point ≤ 0 then
    "0." ++ zeros (-point).toNat ++ String.ofList digits
  else if digits.length ≤ point then
    String.ofList digits ++ zeros (point.toNat - digits.length) ++ style.whole
  else
    String.ofList (digits.take point.toNat) ++ "." ++ String.ofList (digits.drop point.toNat)

/-- One digit, the point and the others if there are any, and the exponent with its sign. -/
def setExponent (digits : List Char) (exponent : Int) : String :=
  let fraction := match digits.drop 1 with
    | [] => ""
    | more => "." ++ String.ofList more
  let sign := if exponent < 0 then "-" else "+"
  String.ofList (digits.take 1) ++ fraction ++ "e" ++ sign ++ toString exponent.natAbs

/-- The text of a decimal. -/
def Style.decimal (style : Style) (d : Decimal) : String :=
  let digits := Nat.toDigits 10 d.digits
  let point := digits.length + d.exponent
  match style.positional with
  | none => style.setPoint digits point
  | some (first, beyond) =>
    if first ≤ point - 1 ∧ point - 1 < beyond then style.setPoint digits point
    else setExponent digits (point - 1)

/-- The text of a number. -/
def Style.text (style : Style) (x : Float) : String :=
  match Binary.ofFloat x with
  | .nan => "NaN"
  | .infinite negative => if negative then "-inf" else "inf"
  | .finite negative mantissa exponent =>
    let sign := if negative then "-" else ""
    if mantissa = 0 then sign ++ "0" ++ style.whole
    else sign ++ style.decimal (shortest style.tie mantissa exponent)

end Artboard.Number
