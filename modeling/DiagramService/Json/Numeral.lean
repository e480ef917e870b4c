import DiagramService.Json.Failure
import DiagramService.Number.Shortest

/-!
# Numbers in JSON

A number that stands where a text is wanted is read only to be named in the message: as an integer
if it is one and fits in 64 bits, and in double precision otherwise. Digits that would carry the
leading digits past 64 bits are left out and counted. `skipNumber` takes a number without its value.
-/

namespace DiagramService.Json

open Number (Binary Decimal double)

/-- Whether a byte is an ASCII digit. -/
def isDigit (b : UInt8) : Bool :=
  0x30 ≤ b && b ≤ 0x39

/-- The value of a digit. -/
def digitValue (b : UInt8) : Nat :=
  b.toNat - 0x30

/-- Whether the next byte is a digit. -/
def startsWithDigit : Bytes → Bool
  | b :: _ => isDigit b
  | [] => false

/-- Whether the next byte starts an exponent. -/
def startsWithExponent : Bytes → Bool
  | b :: _ => b == 0x65 || b == 0x45
  | [] => false

/-- Appends digits as long as the value fits in 64 bits, and gives the digits that are left. -/
def absorb (value : Nat) : Bytes → Nat × Bytes
  | [] => (value, [])
  | b :: bs =>
    let next := value * 10 + digitValue b
    if next < UInt64.size then absorb next bs else (value, b :: bs)

/-- A double times a power of ten, `none` if that is too large. Powers beyond the largest double are
divided away in steps. -/
def scale (f : Binary) (exponent : Int) : Option Binary :=
  if exponent < -308 then
    if f.mantissa = 0 then some f
    else scale (double.round (f.toRat / (double.round (Number.tenPow 308)).toRat)) (exponent + 308)
  else if exponent < 0 then
    some (double.round (f.toRat / (double.round (Number.tenPow (-exponent))).toRat))
  else if f.mantissa = 0 then some f
  else if 308 < exponent then none
  else
    let product := double.round (f.toRat * (double.round (Number.tenPow exponent)).toRat)
    if double.overflows product then none else some product
termination_by (-exponent).toNat

/-- The text of a double in a message. -/
def floatText (negative : Bool) (f : Binary) : List Char :=
  let digits := (f.shortest double .even).scientific
  if negative then '-' :: digits else digits

/-- A double from its leading digits and a power of ten. -/
def finishFloat (negative : Bool) (significand : Nat) (exponent : Int) (rest : Bytes) :
    Except Failure (Found × Bytes) :=
  match scale (double.round significand) exponent with
  | some f => .ok (.float (floatText negative f), rest)
  | none => .error (.after .outOfRange rest)

/-- An integer from its digits. Below the least signed number of 64 bits it is a double. -/
def finishInteger (negative : Bool) (value : Nat) : Found :=
  if !negative then .integer (Text.ofNat value)
  else if 0 < value ∧ value ≤ 9223372036854775808 then .integer (Text.ofInt (-value))
  else .float (floatText true (double.round value))

/-- The exponent of digits, `none` with the digits left if it does not fit in 32 bits. -/
def absorbExponent (value : Nat) : Bytes → Except Bytes Nat
  | [] => .ok value
  | b :: bs =>
    let next := value * 10 + digitValue b
    if next < 2147483648 then absorbExponent next bs else .error bs

/-- Takes what follows the letter of an exponent. -/
def readExponent (negative : Bool) (significand : Nat) (start : Int) (bs : Bytes) :
    Except Failure (Found × Bytes) :=
  let down := bs.head? == some 0x2D
  let unsigned := if down || bs.head? == some 0x2B then bs.tail else bs
  match unsigned with
  | [] => .error (.after .endInValue [])
  | b :: rest =>
    if !isDigit b then .error (.after .invalidNumber rest)
    else
      let digits := b :: rest.takeWhile isDigit
      let after := rest.dropWhile isDigit
      match absorbExponent 0 digits with
      | .error left =>
        if significand ≠ 0 ∧ !down then .error (.after .outOfRange (left ++ after))
        else .ok (.float (floatText negative ⟨0, 0⟩), after)
      | .ok value =>
        finishFloat negative significand (if down then start - value else start + value) after

/-- Takes what follows the point of a fraction. -/
def readFraction (negative : Bool) (significand : Nat) (start : Int) (bs : Bytes) :
    Except Failure (Found × Bytes) :=
  let digits := bs.takeWhile isDigit
  let rest := bs.dropWhile isDigit
  if digits.isEmpty then
    .error (.here (if rest.isEmpty then .endInValue else .invalidNumber) rest)
  else
    let taken := absorb significand digits
    let exponent := start - (digits.length - taken.2.length : Nat)
    if startsWithExponent rest then readExponent negative taken.1 exponent rest.tail
    else finishFloat negative taken.1 exponent rest

/-- Takes what follows the whole part of a number, of which `dropped` digits were left out. -/
def readAfterWhole (negative : Bool) (value dropped : Nat) (rest : Bytes) :
    Except Failure (Found × Bytes) :=
  if rest.head? == some 0x2E then readFraction negative value dropped rest.tail
  else if startsWithExponent rest then readExponent negative value dropped rest.tail
  else if dropped = 0 then .ok (finishInteger negative value, rest)
  else finishFloat negative value dropped rest

/-- Takes a number after its sign. -/
def readNumber (negative : Bool) : Bytes → Except Failure (Found × Bytes)
  | [] => .error (.after .endInValue [])
  | b :: rest =>
    if b == 0x30 then
      if startsWithDigit rest then .error (.here .invalidNumber rest)
      else readAfterWhole negative 0 0 rest
    else if isDigit b then
      let taken := absorb 0 (b :: rest.takeWhile isDigit)
      readAfterWhole negative taken.1 taken.2.length (rest.dropWhile isDigit)
    else .error (.after .invalidNumber rest)

/-- Takes the exponent of a number that is only skipped, after its letter. -/
def skipExponent (bs : Bytes) : Except Failure Bytes :=
  let unsigned := if bs.head? == some 0x2D || bs.head? == some 0x2B then bs.tail else bs
  if startsWithDigit unsigned then .ok (unsigned.dropWhile isDigit)
  else .error (.here .invalidNumber unsigned)

/-- Takes the fraction of a number that is only skipped, after its point. -/
def skipFraction (bs : Bytes) : Except Failure Bytes :=
  let rest := bs.dropWhile isDigit
  if !startsWithDigit bs then .error (.here .invalidNumber bs)
  else if startsWithExponent rest then skipExponent rest.tail
  else .ok rest

/-- Takes what follows the whole part of a number that is only skipped. -/
def skipAfterWhole (rest : Bytes) : Except Failure Bytes :=
  if rest.head? == some 0x2E then skipFraction rest.tail
  else if startsWithExponent rest then skipExponent rest.tail
  else .ok rest

/-- Takes a number that is only skipped, after its sign. -/
def skipNumber : Bytes → Except Failure Bytes
  | [] => .error (.after .invalidNumber [])
  | b :: rest =>
    if b == 0x30 then
      if startsWithDigit rest then .error (.here .invalidNumber rest) else skipAfterWhole rest
    else if isDigit b then skipAfterWhole (rest.dropWhile isDigit)
    else .error (.after .invalidNumber rest)

theorem length_dropWhile_le (p : UInt8 → Bool) (bs : Bytes) :
    (bs.dropWhile p).length ≤ bs.length :=
  (List.dropWhile_sublist p).length_le

theorem length_tail_le (bs : Bytes) : bs.tail.length ≤ bs.length := by
  simp

theorem skipExponent_le {bs rest : Bytes} (h : skipExponent bs = .ok rest) :
    rest.length ≤ bs.length := by
  unfold skipExponent at h
  dsimp only at h
  generalize hu : (if bs.head? == some 0x2D || bs.head? == some 0x2B then bs.tail else bs) = u at h
  have le : u.length ≤ bs.length := by
    rw [← hu]
    split
    · exact length_tail_le bs
    · exact Nat.le_refl _
  split at h
  · cases h
    exact Nat.le_trans (length_dropWhile_le ..) le
  · cases h

theorem skipFraction_le {bs rest : Bytes} (h : skipFraction bs = .ok rest) :
    rest.length ≤ bs.length := by
  simp only [skipFraction] at h
  split at h
  · cases h
  · split at h
    · exact Nat.le_trans (skipExponent_le h)
        (Nat.le_trans (length_tail_le _) (length_dropWhile_le ..))
    · cases h
      exact length_dropWhile_le ..

theorem skipAfterWhole_le {bs rest : Bytes} (h : skipAfterWhole bs = .ok rest) :
    rest.length ≤ bs.length := by
  unfold skipAfterWhole at h
  split at h
  · exact Nat.le_trans (skipFraction_le h) (length_tail_le bs)
  · split at h
    · exact Nat.le_trans (skipExponent_le h) (length_tail_le bs)
    · cases h
      exact Nat.le_refl _

theorem skipNumber_lt {bs rest : Bytes} (h : skipNumber bs = .ok rest) :
    rest.length < bs.length := by
  unfold skipNumber at h
  split at h
  · cases h
  · split at h
    · split at h
      · cases h
      · exact Nat.lt_succ_of_le (skipAfterWhole_le h)
    · split at h
      · exact Nat.lt_succ_of_le (Nat.le_trans (skipAfterWhole_le h) (length_dropWhile_le ..))
      · cases h

end DiagramService.Json
