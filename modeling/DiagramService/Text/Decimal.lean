/-!
# Decimal numbers in text

Numbers are read strictly: one or more ASCII digits after an optional sign and nothing else, within
the range of a machine word. Leading zeros are allowed, and no intermediate value is rounded or
wrapped, because the value is formed as a natural number before the range is checked.
-/

namespace DiagramService.Text

/-- The value of one or more ASCII digits. -/
def digits? (cs : List Char) : Option Nat :=
  if !cs.isEmpty && cs.all Char.isDigit then some (Nat.ofDigitChars 10 cs 0) else none

/-- Digits after at most one plus sign. -/
def unsigned? : List Char → Option Nat
  | '+' :: cs => digits? cs
  | cs => digits? cs

/-- Digits after at most one sign. -/
def signed? : List Char → Option Int
  | '-' :: cs => (digits? cs).map fun n => -(n : Int)
  | cs => (unsigned? cs).map Int.ofNat

/-- An unsigned number that fits in 64 bits. -/
def word? (cs : List Char) : Option UInt64 :=
  (unsigned? cs).bind fun n => if n < UInt64.size then some (UInt64.ofNat n) else none

/-- A signed number that fits in 64 bits. -/
def signedWord? (cs : List Char) : Option Int64 :=
  (signed? cs).bind fun i =>
    if Int64.minValue.toInt ≤ i ∧ i ≤ Int64.maxValue.toInt then some (Int64.ofInt i) else none

/-- The decimal digits of a natural number, without leading zeros. -/
def ofNat (n : Nat) : List Char :=
  Nat.toDigits 10 n

/-- The decimal digits of an integer, after a minus sign if it is negative. -/
def ofInt : Int → List Char
  | .ofNat n => ofNat n
  | .negSucc n => '-' :: ofNat (n + 1)

/-- The decimal text of a natural number. -/
def natText (n : Nat) : String :=
  String.ofList (ofNat n)

/-- The decimal text of an integer. -/
def intText (i : Int) : String :=
  String.ofList (ofInt i)

end DiagramService.Text
