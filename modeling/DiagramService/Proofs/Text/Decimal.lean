import Mathlib.Data.List.Induction
import Mathlib.Data.Nat.Digits.Defs
import DiagramService.Text.Decimal

/-! The decimal text of a number spells that number and consists of digits. What is read as a number
are its numerals and nothing else. -/

namespace DiagramService.Text

theorem isDigit_of_mem_ofNat {n : Nat} {c : Char} (h : c ∈ ofNat n) : c.isDigit :=
  Nat.isDigit_of_mem_toDigits (by decide) (by decide) h

theorem digits?_ofNat (n : Nat) : digits? (ofNat n) = some n := by
  have hall : (ofNat n).all Char.isDigit = true :=
    List.all_eq_true.mpr fun _ hc => isDigit_of_mem_ofNat hc
  rw [digits?, hall]
  simp [ofNat]

/-- The text of a natural number starts with a digit, and so with no sign. -/
theorem ofNat_eq_cons (n : Nat) : ∃ c cs, ofNat n = c :: cs ∧ c ≠ '-' ∧ c ≠ '+' := by
  obtain ⟨c, cs, h⟩ := List.exists_cons_of_ne_nil (Nat.toDigits_ne_nil : ofNat n ≠ [])
  have hc : c.isDigit := isDigit_of_mem_ofNat (h ▸ List.mem_cons_self)
  refine ⟨c, cs, h, ?_, ?_⟩ <;> rintro rfl <;> exact absurd hc (by decide)

/-- The text of a natural number other than zero does not start with a zero. -/
theorem head?_ofNat {n : Nat} (h : n ≠ 0) : (ofNat n).head? ≠ some '0' := by
  induction n using Nat.strongRecOn with
  | ind n ih =>
    rw [ofNat, Nat.toDigits_eq_if (by decide)]
    split
    · next hlt =>
      have hdigits : ∀ k < 10, k ≠ 0 → [Nat.digitChar k].head? ≠ some '0' := by decide
      exact hdigits n hlt h
    · have hfirst := ih (n / 10) (by omega) (by omega)
      rw [ofNat] at hfirst
      obtain ⟨c, cs, hcons⟩ := List.exists_cons_of_ne_nil
        (Nat.toDigits_ne_nil : Nat.toDigits 10 (n / 10) ≠ [])
      rw [hcons] at hfirst ⊢
      exact hfirst

/-- A power of ten puts as many zeros after a number. -/
theorem ofNat_mul_pow_ten {n : Nat} (h : n ≠ 0) (k : Nat) :
    ofNat (n * 10 ^ k) = ofNat n ++ List.replicate k '0' := by
  induction k with
  | zero => simp
  | succ k ih =>
    have hpos : 0 < n * 10 ^ k := Nat.mul_pos (Nat.pos_of_ne_zero h) (Nat.pow_pos (by decide))
    have hshift : n * 10 ^ (k + 1) = 10 * (n * 10 ^ k) + 0 := by rw [Nat.pow_succ]; ring
    rw [hshift, ofNat, ← Nat.toDigits_append_toDigits (by decide) hpos (by decide), ← ofNat, ih,
      List.append_assoc, List.replicate_succ']
    rfl

theorem signed?_ofInt (i : Int) : signed? (ofInt i) = some i := by
  cases i with
  | ofNat n =>
    obtain ⟨c, cs, h, hminus, hplus⟩ := ofNat_eq_cons n
    have hd := digits?_ofNat n
    simp only [ofInt]
    rw [h] at hd ⊢
    simp [signed?, unsigned?, hminus, hplus, hd]
  | negSucc n =>
    simp only [ofInt, signed?, digits?_ofNat]
    rfl

theorem signedWord?_ofInt (v : Int64) : signedWord? (ofInt v.toInt) = some v := by
  simp only [signedWord?, signed?_ofInt, Option.bind_some, Int64.minValue_le_toInt, Int64.toInt_le,
    and_self, if_true, Int64.ofInt_toInt]

theorem mem_ofInt {i : Int} {c : Char} (h : c ∈ ofInt i) : c.isDigit ∨ c = '-' := by
  cases i with
  | ofNat n => exact .inl (isDigit_of_mem_ofNat h)
  | negSucc n =>
    rcases List.mem_cons.mp h with h | h
    · exact .inr h
    · exact .inl (isDigit_of_mem_ofNat h)

theorem ofNat_length_le {n k : Nat} (hk : 0 < k) (h : n < 10 ^ k) : (ofNat n).length ≤ k :=
  (Nat.length_toDigits_le_iff (by decide) hk).mpr h

/-- A number of 64 bits has at most twenty characters. -/
theorem ofInt_length_le (v : Int64) : (ofInt v.toInt).length ≤ 20 := by
  have hlow := v.le_toInt
  have hhigh := v.toInt_lt
  cases hv : v.toInt with
  | ofNat n =>
    rw [hv, Int.ofNat_eq_natCast] at hhigh
    exact ofNat_length_le (by decide) (by omega)
  | negSucc n =>
    have := ofNat_length_le (n := n + 1) (k := 19) (by decide) (by omega)
    simp only [ofInt, List.length_cons]
    omega

/-! ## What is read as a number -/

/-- A text is a number in decimal: one or more digits after at most one sign. -/
inductive Numeral : List Char → Int → Prop
  | unsigned (ds : List Char) (hne : ds ≠ []) (hdigits : ∀ c ∈ ds, c.isDigit) :
    Numeral ds (Nat.ofDigitChars 10 ds 0)
  | plus (ds : List Char) (hne : ds ≠ []) (hdigits : ∀ c ∈ ds, c.isDigit) :
    Numeral ('+' :: ds) (Nat.ofDigitChars 10 ds 0)
  | minus (ds : List Char) (hne : ds ≠ []) (hdigits : ∀ c ∈ ds, c.isDigit) :
    Numeral ('-' :: ds) (-Nat.ofDigitChars 10 ds 0)

theorem digits?_eq_some_iff {cs : List Char} {n : Nat} :
    digits? cs = some n ↔ cs ≠ [] ∧ (∀ c ∈ cs, c.isDigit) ∧ Nat.ofDigitChars 10 cs 0 = n := by
  simp [digits?, and_assoc]

theorem signed?_of_digit {c : Char} {cs : List Char} (hc : c.isDigit) :
    signed? (c :: cs) = (digits? (c :: cs)).map Int.ofNat := by
  have hminus : c ≠ '-' := by rintro rfl; exact absurd hc (by decide)
  have hplus : c ≠ '+' := by rintro rfl; exact absurd hc (by decide)
  simp [signed?, unsigned?, hminus, hplus]

theorem signed?_minus (ds : List Char) :
    signed? ('-' :: ds) = (digits? ds).map fun n => -Int.ofNat n := by
  rw [signed?]
  cases digits? ds <;> rfl

theorem signed?_eq_some_iff {cs : List Char} {i : Int} :
    signed? cs = some i ↔ Numeral cs i := by
  constructor
  · intro h
    unfold signed? at h
    split at h
    · rw [← signed?.eq_1, signed?_minus] at h
      obtain ⟨n, hn, rfl⟩ := Option.map_eq_some_iff.mp h
      obtain ⟨hne, hdigits, rfl⟩ := digits?_eq_some_iff.mp hn
      exact .minus _ hne hdigits
    · obtain ⟨n, hn, rfl⟩ := Option.map_eq_some_iff.mp h
      unfold unsigned? at hn
      split at hn
      · obtain ⟨hne, hdigits, rfl⟩ := digits?_eq_some_iff.mp hn
        exact .plus _ hne hdigits
      · obtain ⟨hne, hdigits, rfl⟩ := digits?_eq_some_iff.mp hn
        exact .unsigned _ hne hdigits
  · intro h
    cases h with
    | unsigned _ hne hdigits =>
      obtain ⟨c, ds, rfl⟩ := List.exists_cons_of_ne_nil hne
      rw [signed?_of_digit (hdigits c List.mem_cons_self),
        digits?_eq_some_iff.mpr ⟨hne, hdigits, rfl⟩]
      rfl
    | plus ds hne hdigits =>
      simp [signed?, unsigned?, digits?_eq_some_iff.mpr ⟨hne, hdigits, rfl⟩]
    | minus ds hne hdigits =>
      rw [signed?_minus, digits?_eq_some_iff.mpr ⟨hne, hdigits, rfl⟩]
      rfl

/-- What is read as a word is a number that the word can hold. -/
theorem signedWord?_eq_some_iff {cs : List Char} {v : Int64} :
    signedWord? cs = some v ↔ Numeral cs v.toInt := by
  rw [← signed?_eq_some_iff, signedWord?, Option.bind_eq_some_iff]
  constructor
  · rintro ⟨i, hi, hv⟩
    split at hv
    · next hrange =>
      cases hv
      rw [hi, Int64.toInt_ofInt_of_le hrange.1 (Int.lt_add_one_iff.mpr hrange.2)]
    · cases hv
  · intro h
    exact ⟨_, h, by
      rw [if_pos ⟨Int64.minValue_le_toInt v, Int64.toInt_le v⟩, Int64.ofInt_toInt]⟩

/-! ## Signs and places -/

/-- What may stand before the digits of a number. -/
inductive Sign where
  | absent
  | plus
  | minus

namespace Sign

/-- How a sign is written. -/
def mark : Sign → List Char
  | absent => []
  | plus => ['+']
  | minus => ['-']

/-- The number that a sign makes of the value of the digits after it. -/
def apply : Sign → Nat → Int
  | absent, n => n
  | plus, n => n
  | minus, n => -n

end Sign

/-- The value of digits by their places, the last one counting units. -/
def placeValue (digits : List Char) : Nat :=
  Nat.ofDigits 10 (digits.reverse.map fun c => c.toNat - '0'.toNat)

theorem ofDigitChars_eq_placeValue (digits : List Char) :
    Nat.ofDigitChars 10 digits 0 = placeValue digits := by
  induction digits using List.reverseRecOn with
  | nil => rfl
  | append_singleton ds c ih =>
    rw [Nat.ofDigitChars_append, ih]
    simp [placeValue, Nat.ofDigits_cons, Nat.ofDigitChars_cons]
    omega

theorem numeral_iff {cs : List Char} {i : Int} :
    Numeral cs i ↔ ∃ (sign : Sign) (digits : List Char), cs = sign.mark ++ digits ∧ digits ≠ [] ∧
      (∀ c ∈ digits, c.isDigit) ∧ i = sign.apply (placeValue digits) := by
  simp only [← ofDigitChars_eq_placeValue]
  constructor
  · intro h
    cases h with
    | unsigned digits hne hdigits => exact ⟨.absent, _, rfl, hne, hdigits, rfl⟩
    | plus digits hne hdigits => exact ⟨.plus, _, rfl, hne, hdigits, rfl⟩
    | minus digits hne hdigits => exact ⟨.minus, _, rfl, hne, hdigits, rfl⟩
  · rintro ⟨sign, digits, rfl, hne, hdigits, rfl⟩
    cases sign with
    | absent => exact .unsigned digits hne hdigits
    | plus => exact .plus digits hne hdigits
    | minus => exact .minus digits hne hdigits

theorem Numeral.dot_not_mem {cs : List Char} {i : Int} (h : Numeral cs i) : '.' ∉ cs := by
  have hdot : ∀ {ds : List Char}, (∀ c ∈ ds, c.isDigit) → '.' ∉ ds := fun hdigits hmem =>
    absurd (hdigits _ hmem) (by decide)
  cases h with
  | unsigned _ _ hdigits => exact hdot hdigits
  | plus _ _ hdigits => simpa using hdot hdigits
  | minus _ _ hdigits => simpa using hdot hdigits

end DiagramService.Text
