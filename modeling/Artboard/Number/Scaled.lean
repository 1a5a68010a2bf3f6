import Artboard.Number.Literal
import Artboard.Number.Shortest

/-! # Reading decimals by scaling

The numbers of JSON are read with a few operations on floating-point numbers, so the result may lie
beside the nearest number, which `ofDecimal` gives.

* `cut`: the digits of a number as far as 64 bits hold them, with their power of ten. `cut_of_lt`:
  all of them, when 64 bits do.
* `scaled`: what such a decimal is read as. -/

namespace Artboard.Number

/-- Takes digits as long as the value, continued from `n`, has 64 bits; the others are left. -/
def takeDigits (n : Nat) : List Char → Nat × List Char
  | [] => (n, [])
  | c :: cs =>
    let more := 10 * n + (digit? c).getD 0
    if more < Nat.pow 2 64 then takeDigits more cs else (n, c :: cs)

/-- A number with these digits before and behind the point, as far as 64 bits hold them. A digit
that is left before the point makes the power of ten greater. -/
def cut (whole fraction : List Char) : Decimal :=
  let before := takeDigits 0 whole
  let taken := takeDigits before.1 fraction
  ⟨taken.1, before.2.length + taken.2.length - fraction.length⟩

section Digits
variable {n : Nat} {cs whole fraction : List Char}

theorem takeDigits_cons (n : Nat) (c : Char) (cs : List Char) : takeDigits n (c :: cs) =
    if ofDigits n [c] < Nat.pow 2 64 then takeDigits (ofDigits n [c]) cs else (n, c :: cs) := rfl

/-- What is taken fits into 64 bits. -/
theorem takeDigits_lt (hn : n < Nat.pow 2 64) : (takeDigits n cs).1 < Nat.pow 2 64 := by
  induction cs generalizing n with
  | nil => exact hn
  | cons c cs ih =>
    rw [takeDigits_cons]
    split
    case isTrue hmore => exact ih hmore
    case isFalse => exact hn

theorem le_ofDigits (n : Nat) (cs : List Char) : n ≤ ofDigits n cs := by
  induction cs generalizing n with
  | nil => exact Nat.le_refl n
  | cons c cs ih =>
    have hnext : n ≤ ofDigits n [c] := by
      show n ≤ 10 * n + (digit? c).getD 0
      omega
    exact Nat.le_trans hnext (ih (ofDigits n [c]))

/-- Digits whose value fits are all taken. -/
theorem takeDigits_of_lt (h : ofDigits n cs < Nat.pow 2 64) :
    takeDigits n cs = (ofDigits n cs, []) := by
  induction cs generalizing n with
  | nil => rfl
  | cons c cs ih =>
    have hcons : ofDigits n (c :: cs) = ofDigits (ofDigits n [c]) cs := rfl
    rw [hcons] at h ⊢
    rw [takeDigits_cons, if_pos (Nat.lt_of_le_of_lt (le_ofDigits _ cs) h), ih h]

/-- **A decimal that is scaled fits into 64 bits.** -/
theorem digits_cut_lt : (cut whole fraction).digits < Nat.pow 2 64 :=
  takeDigits_lt (takeDigits_lt (Nat.pow_pos (by decide)))

/-- **A number whose digits fit is not cut.** -/
theorem cut_of_lt (h : ofDigits 0 (whole ++ fraction) < Nat.pow 2 64) :
    cut whole fraction = ⟨ofDigits 0 (whole ++ fraction), -fraction.length⟩ := by
  have happend : ofDigits 0 (whole ++ fraction) = ofDigits (ofDigits 0 whole) fraction :=
    List.foldl_append
  rw [happend] at h ⊢
  have hwhole : takeDigits 0 whole = (ofDigits 0 whole, []) :=
    takeDigits_of_lt (Nat.lt_of_le_of_lt (le_ofDigits _ fraction) h)
  rw [cut, hwhole, takeDigits_of_lt h]
  simp

end Digits

/-- The greatest exponent of a power of ten. -/
def greatestPower : Nat := 308

/-- A power of ten, up to the greatest one. -/
def powerOfTen (n : Nat) : Float := Float.ofScientific 1 false n

/-- A number times a power of ten, infinite when that is too large. -/
def scaleUp (x : Float) (n : Nat) : Float :=
  if n ≤ greatestPower then x * powerOfTen n else if x == 0.0 then x else 1.0 / 0.0

/-- A number divided so many times by the greatest power of ten, and then by `10 ^ n`. -/
def scaleDown (n : Nat) : Nat → Float → Float
  | 0, x => x / powerOfTen n
  | times + 1, x => if x == 0.0 then x else scaleDown n times (x / powerOfTen greatestPower)

/-- The number that a decimal of 64 bits is read as, infinite when that is too large. -/
def scaled (negative : Bool) (d : Decimal) : Float :=
  let digits := Float.ofScientific d.digits false 0
  let magnitude := match d.exponent with
    | .ofNat e => scaleUp digits e
    | .negSucc e => scaleDown (e % greatestPower + 1) (e / greatestPower) digits
  if negative then -magnitude else magnitude

/-- A tie that is not broken to the even side, as the digits are rounded before the division. -/
example : let d := cut "9007199254740993".toList ['0']
    scaled false d = 9007199254740994.0 ∧
      ofDecimal false d.digits d.exponent = 9007199254740992.0 := by decide +kernel

end Artboard.Number
