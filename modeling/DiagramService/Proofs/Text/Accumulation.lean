import Mathlib
import DiagramService.Proofs.Text.Decimal

/-! A number of 64 bits can be read digit by digit, in a word that holds the value of the digits so
far: each digit multiplies the word by ten and is added to it, and a product or a sum that does not
fit refuses the number. Checking every step is the same as checking the value of all digits once, so
this reads just what is read as a number, and no word on the way is anything but the value of the
digits so far. -/

namespace DiagramService.Text

variable {a b word next : UInt64} {n : Nat} {c : Char} {cs ds : List Char}

/-! ## Words -/

/-- The word that holds a number, if one does. -/
def fitting? (n : Nat) : Option UInt64 :=
  if n < UInt64.size then some (UInt64.ofNat n) else none

/-- The product of two words, unless it is too large for a word. -/
def product? (a b : UInt64) : Option UInt64 :=
  if a.toNat * b.toNat < UInt64.size then some (a * b) else none

/-- The sum of two words, unless it is too large for a word. -/
def sum? (a b : UInt64) : Option UInt64 :=
  if a.toNat + b.toNat < UInt64.size then some (a + b) else none

theorem fitting?_eq_some_iff : fitting? n = some word ↔ word.toNat = n := by
  unfold fitting?
  split
  · next hfits =>
    rw [Option.some.injEq, ← UInt64.toNat_inj, UInt64.toNat_ofNat_of_lt' hfits, eq_comm]
  · next hlarge =>
    constructor
    · intro h
      cases h
    · rintro rfl
      exact absurd word.toNat_lt_size hlarge

theorem product?_eq_some_iff : product? a b = some word ↔ word.toNat = a.toNat * b.toNat := by
  rw [← fitting?_eq_some_iff, product?, fitting?, UInt64.ofNat_mul, UInt64.ofNat_toNat,
    UInt64.ofNat_toNat]

theorem sum?_eq_some_iff : sum? a b = some word ↔ word.toNat = a.toNat + b.toNat := by
  rw [← fitting?_eq_some_iff, sum?, fitting?, UInt64.ofNat_add, UInt64.ofNat_toNat,
    UInt64.ofNat_toNat]

/-! ## Digit by digit -/

/-- The number that a digit stands for. -/
def digitValue (c : Char) : Nat :=
  c.toNat - '0'.toNat

/-- A word with one digit more behind those that it holds. -/
def withDigit? (word : UInt64) (c : Char) : Option UInt64 :=
  if c.isDigit then
    (product? word 10).bind fun shifted => sum? shifted (UInt64.ofNat (digitValue c))
  else none

/-- The word that holds the value of digits, formed from the first digit to the last. -/
def accumulate? (cs : List Char) : Option UInt64 :=
  cs.foldlM withDigit? 0

/-- A number of 64 bits, digit by digit after at most one plus sign. -/
def wordByDigits? : List Char → Option UInt64
  | [] => none
  | ['+'] => none
  | '+' :: digits => accumulate? digits
  | digits => accumulate? digits

theorem digitValue_lt (h : c.isDigit) : digitValue c < UInt64.size := by
  have hlast : c.toNat ≤ 57 := (Char.isDigit_iff_toNat.mp h).2
  have hsize : 57 < UInt64.size := by decide
  rw [digitValue]
  omega

/-- A step that takes a digit takes its exact value. -/
theorem withDigit?_eq_some_iff : withDigit? word c = some next ↔
    c.isDigit ∧ next.toNat = word.toNat * 10 + digitValue c := by
  unfold withDigit?
  split
  · next hc =>
    have hvalue := UInt64.toNat_ofNat_of_lt' (digitValue_lt hc)
    simp only [Option.bind_eq_some_iff, product?_eq_some_iff, sum?_eq_some_iff, hvalue, hc,
      true_and]
    constructor
    · rintro ⟨shifted, hshifted, hnext⟩
      rw [hnext, hshifted]
      rfl
    · intro hnext
      -- the product fits because the sum does
      have hfits : word.toNat * 10 < UInt64.size := by
        have := next.toNat_lt_size
        omega
      have hshifted := UInt64.toNat_ofNat_of_lt' hfits
      exact ⟨_, hshifted, by rw [hnext, hshifted]⟩
  · next hc => simp [hc]

theorem ofDigitChars_cons (n : Nat) (c : Char) (ds : List Char) :
    Nat.ofDigitChars 10 (c :: ds) n = Nat.ofDigitChars 10 ds (n * 10 + digitValue c) := by
  rw [Nat.ofDigitChars_cons, Nat.mul_comm]
  rfl

/-- More digits never make a value smaller. -/
theorem le_ofDigitChars (n : Nat) (ds : List Char) : n ≤ Nat.ofDigitChars 10 ds n := by
  rw [Nat.ofDigitChars_eq_ofDigitChars_zero]
  have hpow : 1 * n ≤ 10 ^ ds.length * n := Nat.mul_le_mul_right n (Nat.pow_pos (by decide))
  omega

/-- Digits are taken to the end just if the value at the end fits. -/
theorem foldlM_withDigit?_eq_some_iff : ds.foldlM withDigit? word = some next ↔
    (∀ c ∈ ds, c.isDigit) ∧ next.toNat = Nat.ofDigitChars 10 ds word.toNat := by
  induction ds generalizing word with
  | nil =>
    rw [List.foldlM_nil, Nat.ofDigitChars_nil, UInt64.toNat_inj, eq_comm (a := next)]
    simp
  | cons c ds ih =>
    rw [List.foldlM_cons, ofDigitChars_cons]
    constructor
    · intro h
      obtain ⟨first, hfirst, hrest⟩ := Option.bind_eq_some_iff.mp h
      obtain ⟨hc, htoNat⟩ := withDigit?_eq_some_iff.mp hfirst
      obtain ⟨hds, hnext⟩ := ih.mp hrest
      exact ⟨List.forall_mem_cons.mpr ⟨hc, hds⟩, by rw [hnext, htoNat]⟩
    · rintro ⟨hdigits, hnext⟩
      obtain ⟨hc, hds⟩ := List.forall_mem_cons.mp hdigits
      -- no word on the way is larger than the last one
      have hfits : word.toNat * 10 + digitValue c < UInt64.size := by
        have hle := le_ofDigitChars (word.toNat * 10 + digitValue c) ds
        have := next.toNat_lt_size
        omega
      have htoNat := UInt64.toNat_ofNat_of_lt' hfits
      exact Option.bind_eq_some_iff.mpr ⟨_, withDigit?_eq_some_iff.mpr ⟨hc, htoNat⟩,
        ih.mpr ⟨hds, by rw [hnext, htoNat]⟩⟩

theorem accumulate?_eq_some_iff : accumulate? ds = some word ↔
    (∀ c ∈ ds, c.isDigit) ∧ word.toNat = placeValue ds := by
  rw [accumulate?, foldlM_withDigit?_eq_some_iff, ← ofDigitChars_eq_placeValue]
  rfl

/-! ## What is read as a number of 64 bits -/

/-- A text is an unsigned number in decimal: one or more digits after at most one plus sign. -/
inductive UnsignedNumeral : List Char → Nat → Prop
  | plain (ds : List Char) (hne : ds ≠ []) (hdigits : ∀ c ∈ ds, c.isDigit) :
    UnsignedNumeral ds (placeValue ds)
  | plus (ds : List Char) (hne : ds ≠ []) (hdigits : ∀ c ∈ ds, c.isDigit) :
    UnsignedNumeral ('+' :: ds) (placeValue ds)

theorem unsignedNumeral_plus_iff : UnsignedNumeral ('+' :: ds) n ↔
    ds ≠ [] ∧ (∀ c ∈ ds, c.isDigit) ∧ n = placeValue ds := by
  constructor
  · intro h
    cases h with
    | plain _ _ hdigits => exact absurd (hdigits '+' List.mem_cons_self) (by decide)
    | plus _ hne hdigits => exact ⟨hne, hdigits, rfl⟩
  · rintro ⟨hne, hdigits, rfl⟩
    exact .plus ds hne hdigits

theorem unsignedNumeral_iff (hplus : ∀ ds, cs ≠ '+' :: ds) : UnsignedNumeral cs n ↔
    cs ≠ [] ∧ (∀ c ∈ cs, c.isDigit) ∧ n = placeValue cs := by
  constructor
  · intro h
    cases h with
    | plain _ hne hdigits => exact ⟨hne, hdigits, rfl⟩
    | plus ds => exact absurd rfl (hplus ds)
  · rintro ⟨hne, hdigits, rfl⟩
    exact .plain cs hne hdigits

theorem unsigned?_eq_some_iff : unsigned? cs = some n ↔ UnsignedNumeral cs n := by
  unfold unsigned?
  split
  · rw [digits?_eq_some_iff, ofDigitChars_eq_placeValue, unsignedNumeral_plus_iff, eq_comm (a := n)]
  · next hplus =>
    rw [digits?_eq_some_iff, ofDigitChars_eq_placeValue,
      unsignedNumeral_iff fun ds h => hplus ds h, eq_comm (a := n)]

/-- What is read as a word is an unsigned number that the word can hold. -/
theorem word?_eq_some_iff : word? cs = some word ↔ UnsignedNumeral cs word.toNat := by
  rw [← unsigned?_eq_some_iff]
  change (unsigned? cs).bind fitting? = some word ↔ _
  simp only [Option.bind_eq_some_iff, fitting?_eq_some_iff, exists_eq_right']

theorem wordByDigits?_eq_some_iff :
    wordByDigits? cs = some word ↔ UnsignedNumeral cs word.toNat := by
  unfold wordByDigits?
  split
  · next =>
    rw [unsignedNumeral_iff (by simp)]
    simp
  · next =>
    rw [unsignedNumeral_plus_iff]
    simp
  · next hne =>
    rw [unsignedNumeral_plus_iff, accumulate?_eq_some_iff]
    exact (and_iff_right hne).symm
  · next hne _ hplus =>
    rw [unsignedNumeral_iff fun ds h => hplus ds h, accumulate?_eq_some_iff]
    exact (and_iff_right hne).symm

/-- Checking every step is the same as checking the value once. -/
theorem word?_eq_wordByDigits? (cs : List Char) : word? cs = wordByDigits? cs :=
  Option.ext fun _ => word?_eq_some_iff.trans wordByDigits?_eq_some_iff.symm

end DiagramService.Text
