import DiagramService.Number.Binary
import DiagramService.Text.Decimal

/-!
# Shortest decimal text

A binary number is written with the fewest decimal digits that still read back as that number, and
among those with the digits nearest to it. Of two that are equally near, a `Tie` chooses. The digits
stand in positional notation, filled up with zeros and without a point in a whole number, or in the
scientific notation of data formats, which turns to an exponent only for large and small numbers.
-/

namespace DiagramService.Number

/-- The number `digits * 10 ^ exponent`. -/
structure Decimal where
  digits : Nat
  exponent : Int
deriving DecidableEq, Repr

/-- A power of ten with any exponent. -/
def tenPow (e : Int) : Rat :=
  Rat.zpow 10 e

/-- Which of two equally near decimals is written. -/
inductive Tie where
  /-- The larger one. -/
  | up
  /-- The one whose last digit is even. -/
  | even
deriving DecidableEq, Repr

/-- The exact value. -/
def Decimal.toRat (d : Decimal) : Rat :=
  d.digits * tenPow d.exponent

/-- The least rational that rounds to a number, or the largest that rounds below it. -/
def Binary.low (f : Format) (b : Binary) : Rat :=
  if b.mantissa = Nat.pow 2 (f.precision - 1) ∧ f.minExponent < b.exponent then
    b.toRat - twoPow (b.exponent - 2)
  else b.toRat - twoPow (b.exponent - 1)

/-- The largest rational that rounds to a number, or the least that rounds above it. -/
def Binary.high (b : Binary) : Rat :=
  b.toRat + twoPow (b.exponent - 1)

/-- Whether a rational reads back as `b`. The ends of the interval do if the last bit is zero. -/
def Binary.reads (f : Format) (b : Binary) (x : Rat) : Bool :=
  if b.mantissa % 2 = 0 then b.low f ≤ x && x ≤ b.high else b.low f < x && x < b.high

/-- The nearer of two neighbours on a grid. -/
def Binary.nearer (b : Binary) (tie : Tie) (below above : Decimal) : Decimal :=
  let down := b.toRat - below.toRat
  let up := above.toRat - b.toRat
  if down < up then below
  else if up < down then above
  else if tie = .even ∧ below.digits % 2 = 0 then below
  else above

/-- The nearest multiple of `10 ^ e` that reads back as `b`, if one of the two neighbours does. -/
def Binary.onGrid? (f : Format) (tie : Tie) (b : Binary) (e : Int) : Option Decimal :=
  let below : Decimal := ⟨(b.toRat / tenPow e).floor.toNat, e⟩
  let above : Decimal := ⟨below.digits + 1, e⟩
  match b.reads f below.toRat, b.reads f above.toRat with
  | true, true => some (b.nearer tie below above)
  | true, false => some below
  | false, true => some above
  | false, false => none

/-- Goes from coarse grids to fine ones and stops at the first that has a number to offer. -/
def Binary.search (f : Format) (tie : Tie) (b : Binary) : Nat → Int → Decimal
  | 0, e => ⟨(b.toRat / tenPow e).floor.toNat, e⟩
  | steps + 1, e =>
    match b.onGrid? f tie e with
    | some d => d
    | none => b.search f tie steps (e - 1)

/-- The shortest decimal that reads back. The number itself lies on the last grid tried. -/
def Binary.shortest (f : Format) (tie : Tie) (b : Binary) : Decimal :=
  if b.mantissa = 0 then ⟨0, 0⟩
  else
    let top := (Nat.toDigits 10 b.toRat.floor.toNat).length
    b.search f tie (top + (-b.exponent).toNat) top

/-- The digits with a point before the last `places` of them, and zeros where digits are missing. -/
def pointed (digits : List Char) (places : Nat) : List Char :=
  let padded := List.replicate (places + 1 - digits.length) '0' ++ digits
  padded.take (padded.length - places) ++ '.' :: padded.drop (padded.length - places)

/-- Positional text, without a point for whole numbers. -/
def Decimal.positional (d : Decimal) : List Char :=
  let digits := Text.ofNat d.digits
  if d.digits = 0 then digits
  else if 0 ≤ d.exponent then digits ++ List.replicate d.exponent.toNat '0'
  else pointed digits (-d.exponent).toNat

/-- Text with a point, and with an exponent for numbers from `10 ^ 16` on and below `10 ^ -5`. -/
def Decimal.scientific (d : Decimal) : List Char :=
  let digits := Text.ofNat d.digits
  let magnitude := d.exponent + digits.length
  if d.digits = 0 then ['0', '.', '0']
  else if 0 ≤ d.exponent ∧ magnitude ≤ 16 then
    digits ++ List.replicate d.exponent.toNat '0' ++ ['.', '0']
  else if d.exponent < 0 ∧ -5 < magnitude ∧ magnitude ≤ 16 then
    pointed digits (-d.exponent).toNat
  else
    let power := magnitude - 1
    let mantissa :=
      match digits with
      | [digit] => [digit]
      | first :: rest => first :: '.' :: rest
      | [] => []
    mantissa ++ 'e' :: (if 0 ≤ power then '+' :: Text.ofInt power else Text.ofInt power)

end DiagramService.Number
