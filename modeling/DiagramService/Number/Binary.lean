/-!
# Binary floating-point numbers

A binary format keeps a fixed number of leading bits of a number. Arithmetic is exact on rationals
first and then rounded to the format: to the nearest of its numbers, and on a tie to the one whose
last bit is zero. Only numbers that are not negative are needed here.
-/

namespace DiagramService.Number

/-- The sizes of a binary format. -/
structure Format where
  /-- How many leading bits are kept. -/
  precision : Nat
  /-- The exponent of the smallest positive number. -/
  minExponent : Int
  /-- The largest exponent of a last bit. -/
  maxExponent : Int

/-- Numbers of 32 bits. -/
def single : Format := ⟨24, -149, 104⟩

/-- Numbers of 64 bits. -/
def double : Format := ⟨53, -1074, 971⟩

/-- The number `mantissa * 2 ^ exponent`. -/
structure Binary where
  mantissa : Nat
  exponent : Int
deriving DecidableEq, Repr

/-- A power of two with any exponent. -/
def twoPow (e : Int) : Rat :=
  Rat.zpow 2 e

/-- The exact value. -/
def Binary.toRat (b : Binary) : Rat :=
  b.mantissa * twoPow b.exponent

/-- The nearest integer, and of two nearest ones the even one. -/
def roundHalfEven (x : Rat) : Int :=
  let n := x.floor
  let rest := x - n
  if rest < mkRat 1 2 then n
  else if mkRat 1 2 < rest then n + 1
  else n + n % 2

/-- The floor of the binary logarithm of a positive rational. -/
def log2 (x : Rat) : Int :=
  let e : Int := (x.num.toNat.log2 : Int) - x.den.log2
  if twoPow e ≤ x then e else e - 1

/-- The exponent that the last bit of `x` gets in a format. -/
def Format.lastExponent (f : Format) (x : Rat) : Int :=
  if x ≤ 0 then f.minExponent else max f.minExponent (log2 x + 1 - f.precision)

/-- The number of a format nearest to `x`. -/
def Format.round (f : Format) (x : Rat) : Binary :=
  let e := f.lastExponent x
  let m := (roundHalfEven (x / twoPow e)).toNat
  if m = Nat.pow 2 f.precision then ⟨Nat.pow 2 (f.precision - 1), e + 1⟩ else ⟨m, e⟩

/-- Whether a rounded number is too large for a format. -/
def Format.overflows (f : Format) (b : Binary) : Bool :=
  f.maxExponent < b.exponent

end DiagramService.Number
