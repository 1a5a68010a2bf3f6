/-! # Reading decimal numbers

* `ofDecimal`: the number nearest to `± mantissa * 10 ^ exponent`.
* `parse?`: the decimal literals of command lines and settings, with the words for infinity and
  not-a-number in any case of letters. -/

namespace Artboard.Number

/-- The number nearest to `± mantissa * 10 ^ exponent`, infinite when that is too large. -/
def ofDecimal (negative : Bool) (mantissa : Nat) (exponent : Int) : Float :=
  let magnitude := match exponent with
    | .ofNat e => Float.ofScientific mantissa false e
    | .negSucc e => Float.ofScientific mantissa true (e + 1)
  if negative then -magnitude else magnitude

/-- The value of a decimal digit. -/
def digit? (c : Char) : Option Nat :=
  if '0' ≤ c ∧ c ≤ '9' then some (c.toNat - '0'.toNat) else none

/-- The value of a string of digits, continuing from `n`. -/
def ofDigits (n : Nat) (cs : List Char) : Nat :=
  cs.foldl (fun n c => 10 * n + (digit? c).getD 0) n

/-- Whether a character is a decimal digit. -/
def isDigit (c : Char) : Bool := (digit? c).isSome

/-- A sign, if there is one, and the rest; `true` is minus. -/
def takeSign : List Char → Bool × List Char
  | '-' :: cs => (true, cs)
  | '+' :: cs => (false, cs)
  | cs => (false, cs)

/-- The exponent part of a literal: nothing, or `e` with a sign and at least one digit. -/
def exponent? : List Char → Option Int
  | [] => some 0
  | c :: cs =>
    if c = 'e' ∨ c = 'E' then
      let (negative, digits) := takeSign cs
      if digits ≠ [] ∧ digits.all isDigit then
        some (if negative then -(ofDigits 0 digits : Int) else ofDigits 0 digits)
      else none
    else none

/-- A literal without its sign: digits with at most one point and at least one digit around it,
then the exponent. -/
def unsigned? (negative : Bool) (cs : List Char) : Option Float :=
  let whole := cs.takeWhile isDigit
  let (fraction, rest) := match cs.dropWhile isDigit with
    | '.' :: rest => (rest.takeWhile isDigit, rest.dropWhile isDigit)
    | rest => ([], rest)
  if whole = [] ∧ fraction = [] then none
  else (exponent? rest).map fun e =>
    ofDecimal negative (ofDigits 0 (whole ++ fraction)) (e - fraction.length)

/-- The words for numbers that have no digits, in lower case. -/
def word? (negative : Bool) (word : String) : Option Float :=
  if word = "inf" ∨ word = "infinity" then some (if negative then -1.0 / 0.0 else 1.0 / 0.0)
  else if word = "nan" then some (0.0 / 0.0)
  else none

/-- The number that a whole text spells, if it spells one; blanks are not allowed. -/
def parse? (s : String) : Option Float :=
  let (negative, cs) := takeSign s.toList
  (word? negative (String.ofList (cs.map Char.toLower))).or (unsigned? negative cs)

end Artboard.Number
