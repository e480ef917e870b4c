import Mathlib
import DiagramService.Text.Utf8

/-! Characters as bytes. What the first character is read from are the bytes of that character and
nothing else, so a text that was written is read back, and a sequence that starts with the bytes of
some characters is read as these characters. -/

namespace DiagramService.Utf8

variable {a : UInt8} {bs rest : Bytes} {c : Char}

/-! ## The bytes of a character -/

theorem isTail_iff {b : UInt8} : isTail b = true ↔ 0x80 ≤ b.toNat ∧ b.toNat ≤ 0xBF := by
  simp [isTail, UInt8.le_iff_toNat_le]

theorem secondLow_toNat (a : UInt8) : (secondLow a).toNat =
    if a.toNat = 0xE0 then 0xA0 else if a.toNat = 0xF0 then 0x90 else 0x80 := by
  simp only [secondLow, beq_iff_eq, ← UInt8.toNat_inj, apply_ite UInt8.toNat]
  rfl

theorem secondHigh_toNat (a : UInt8) : (secondHigh a).toNat =
    if a.toNat = 0xED then 0x9F else if a.toNat = 0xF4 then 0x8F else 0xBF := by
  simp only [secondHigh, beq_iff_eq, ← UInt8.toNat_inj, apply_ite UInt8.toNat]
  rfl

/-- Which bytes may be the second one of a character of three or four bytes. -/
theorem second_iff {b : UInt8} : (secondLow a ≤ b && b ≤ secondHigh a) = true ↔
    0x80 ≤ b.toNat ∧ b.toNat ≤ 0xBF ∧ (a.toNat = 0xE0 → 0xA0 ≤ b.toNat) ∧
      (a.toNat = 0xF0 → 0x90 ≤ b.toNat) ∧ (a.toNat = 0xED → b.toNat ≤ 0x9F) ∧
      (a.toNat = 0xF4 → b.toNat ≤ 0x8F) := by
  simp only [Bool.and_eq_true, decide_eq_true_eq, UInt8.le_iff_toNat_le, secondLow_toNat,
    secondHigh_toNat]
  grind

theorem first2_eq_char_iff : first2 a bs = .char c rest ↔ ∃ b, bs = b :: rest ∧
    isTail b ∧ Char.ofNat (a.toNat % 32 * 64 + tailBits b) = c := by
  fun_cases first2 a bs <;> grind

theorem first3_eq_char_iff : first3 a bs = .char c rest ↔ ∃ b₁ b₂, bs = b₁ :: b₂ :: rest ∧
    (secondLow a ≤ b₁ && b₁ ≤ secondHigh a) ∧ isTail b₂ ∧
    Char.ofNat (a.toNat % 16 * 4096 + tailBits b₁ * 64 + tailBits b₂) = c := by
  fun_cases first3 a bs <;> grind

theorem first4_eq_char_iff : first4 a bs = .char c rest ↔
    ∃ b₁ b₂ b₃, bs = b₁ :: b₂ :: b₃ :: rest ∧
    (secondLow a ≤ b₁ && b₁ ≤ secondHigh a) ∧ isTail b₂ ∧ isTail b₃ ∧
    Char.ofNat (a.toNat % 8 * 262144 + tailBits b₁ * 4096 + tailBits b₂ * 64 + tailBits b₃) =
      c := by
  fun_cases first4 a bs <;> grind

/-- The lead byte tells how many bytes a character has. -/
theorem first_cases : first a bs = .char c rest ↔
    (a.toNat ≤ 0x7F ∧ bs = rest ∧ Char.ofNat a.toNat = c) ∨
    (0xC2 ≤ a.toNat ∧ a.toNat ≤ 0xDF ∧ first2 a bs = .char c rest) ∨
    (0xE0 ≤ a.toNat ∧ a.toNat ≤ 0xEF ∧ first3 a bs = .char c rest) ∨
    (0xF0 ≤ a.toNat ∧ a.toNat ≤ 0xF4 ∧ first4 a bs = .char c rest) := by
  have hbetween : ∀ low high : UInt8, (low ≤ a && a ≤ high) = true ↔
      low.toNat ≤ a.toNat ∧ a.toNat ≤ high.toNat := by
    simp [UInt8.le_iff_toNat_le]
  have hone : a < 0x80 ↔ a.toNat ≤ 0x7F := by
    rw [UInt8.lt_iff_toNat_lt]
    exact Nat.lt_succ_iff
  simp only [first, hone, hbetween, UInt8.reduceToNat]
  grind

theorem ofNat_eq {n : Nat} (h : n = a.toNat) : UInt8.ofNat n = a := by
  rw [h, UInt8.ofNat_toNat]

/-- A character is read from its bytes only. -/
theorem encodeChar_of_first (h : first a bs = .char c rest) :
    a :: bs = String.utf8EncodeChar c ++ rest := by
  have hvalue : ∀ {n : Nat}, Char.ofNat n = c → n.isValidChar → c.val.toNat = n := by
    rintro n rfl hn
    exact (Char.toNat_ofNat n).trans (if_pos hn)
  rw [String.utf8EncodeChar]
  rcases first_cases.mp h with ⟨ha, rfl, hc⟩ | ⟨ha, ha', h⟩ | ⟨ha, ha', h⟩ | ⟨ha, ha', h⟩
  · simp only [hvalue hc (.inl (by omega))]
    rw [if_pos (by omega), UInt8.ofNat_toNat]
    rfl
  · obtain ⟨b, rfl, hb, hc⟩ := first2_eq_char_iff.mp h
    rw [isTail_iff] at hb
    rw [tailBits] at hc
    simp only [hvalue hc (.inl (by omega))]
    rw [if_neg (by omega), if_pos (by omega), ofNat_eq (a := a) (by omega),
      ofNat_eq (a := b) (by omega)]
    rfl
  · obtain ⟨b₁, b₂, rfl, hb₁, hb₂, hc⟩ := first3_eq_char_iff.mp h
    rw [second_iff] at hb₁
    rw [isTail_iff] at hb₂
    rw [tailBits, tailBits] at hc
    simp only [hvalue hc (by simp only [Nat.isValidChar]; omega)]
    rw [if_neg (by omega), if_neg (by omega), if_pos (by omega), ofNat_eq (a := a) (by omega),
      ofNat_eq (a := b₁) (by omega), ofNat_eq (a := b₂) (by omega)]
    rfl
  · obtain ⟨b₁, b₂, b₃, rfl, hb₁, hb₂, hb₃, hc⟩ := first4_eq_char_iff.mp h
    rw [second_iff] at hb₁
    rw [isTail_iff] at hb₂ hb₃
    rw [tailBits, tailBits, tailBits] at hc
    simp only [hvalue hc (by simp only [Nat.isValidChar]; omega)]
    rw [if_neg (by omega), if_neg (by omega), if_neg (by omega), ofNat_eq (a := a) (by omega),
      ofNat_eq (a := b₁) (by omega), ofNat_eq (a := b₂) (by omega),
      ofNat_eq (a := b₃) (by omega)]
    rfl

/-- The bytes of a character are read as this character. -/
theorem first_of_encodeChar (h : a :: bs = String.utf8EncodeChar c ++ rest) :
    first a bs = .char c rest := by
  have hvalid : c.val.toNat.isValidChar := c.valid
  have hchar : Char.ofNat c.val.toNat = c := Char.ofNat_toNat c
  have hbyte : ∀ n < 256, (UInt8.ofNat n).toNat = n := fun n hn => UInt8.toNat_ofNat_of_lt' hn
  simp only [Nat.isValidChar] at hvalid
  rw [first_cases]
  unfold String.utf8EncodeChar at h
  generalize c.val.toNat = v at *
  simp only at h
  split at h
  · obtain ⟨rfl, rfl⟩ := List.cons.inj h
    have ha := hbyte v (by omega)
    exact .inl ⟨by omega, rfl, by rw [ha, hchar]⟩
  split at h
  · obtain ⟨rfl, rfl⟩ := List.cons.inj h
    have ha := hbyte (v / 64 % 32 + 192) (by omega)
    have hb := hbyte (v % 64 + 128) (by omega)
    refine .inr (.inl ⟨by omega, by omega, first2_eq_char_iff.mpr ⟨_, rfl, ?_, ?_⟩⟩)
    · rw [isTail_iff]
      omega
    · rw [tailBits, ha, hb, ← hchar]
      congr 1
      omega
  split at h
  · obtain ⟨rfl, rfl⟩ := List.cons.inj h
    have ha := hbyte (v / 4096 % 16 + 224) (by omega)
    have hb₁ := hbyte (v / 64 % 64 + 128) (by omega)
    have hb₂ := hbyte (v % 64 + 128) (by omega)
    refine .inr (.inr (.inl ⟨by omega, by omega, first3_eq_char_iff.mpr
      ⟨_, _, rfl, ?_, ?_, ?_⟩⟩))
    · rw [second_iff]
      omega
    · rw [isTail_iff]
      omega
    · rw [tailBits, tailBits, ha, hb₁, hb₂, ← hchar]
      congr 1
      omega
  · obtain ⟨rfl, rfl⟩ := List.cons.inj h
    have ha := hbyte (v / 262144 % 8 + 240) (by omega)
    have hb₁ := hbyte (v / 4096 % 64 + 128) (by omega)
    have hb₂ := hbyte (v / 64 % 64 + 128) (by omega)
    have hb₃ := hbyte (v % 64 + 128) (by omega)
    refine .inr (.inr (.inr ⟨by omega, by omega, first4_eq_char_iff.mpr
      ⟨_, _, _, rfl, ?_, ?_, ?_, ?_⟩⟩))
    · rw [second_iff]
      omega
    · rw [isTail_iff]
      omega
    · rw [isTail_iff]
      omega
    · rw [tailBits, tailBits, tailBits, ha, hb₁, hb₂, hb₃, ← hchar]
      congr 1
      omega

/-! ## Texts -/

@[simp] theorem encodeList_nil : encodeList [] = [] := rfl

theorem encodeList_append (cs ds : List Char) :
    encodeList (cs ++ ds) = encodeList cs ++ encodeList ds :=
  List.flatMap_append

theorem encodeList_cons (c : Char) (cs : List Char) :
    encodeList (c :: cs) = String.utf8EncodeChar c ++ encodeList cs :=
  List.flatMap_cons

/-- A character below 128 is its own byte. -/
theorem encodeChar_ascii (h : c.toNat < 0x80) :
    String.utf8EncodeChar c = [UInt8.ofNat c.toNat] := by
  rw [String.utf8EncodeChar]
  exact if_pos (Nat.le_of_lt_succ h)

theorem exists_encodeChar (c : Char) : ∃ b tail, String.utf8EncodeChar c = b :: tail :=
  List.exists_cons_of_ne_nil String.utf8EncodeChar_ne_nil

/-- A byte below 128 stands only for the character of that number. -/
theorem toNat_eq_of_mem_encodeChar {b : UInt8} {c : Char} (h : b ∈ String.utf8EncodeChar c)
    (hb : b.toNat < 0x80) : c.toNat = b.toNat := by
  have hlarge : ∀ n, 0x80 ≤ n → n < 256 → b ≠ UInt8.ofNat n := by
    rintro n hn hn' rfl
    rw [UInt8.toNat_ofNat_of_lt' hn'] at hb
    omega
  have hvalid : c.val.toNat.isValidChar := c.valid
  simp only [Nat.isValidChar] at hvalid
  by_cases hone : c.val.toNat ≤ 0x7F
  · rw [String.utf8EncodeChar, if_pos hone, List.mem_singleton] at h
    rw [h, UInt8.toNat_ofNat_of_lt' (Nat.lt_of_le_of_lt hone (by decide))]
    rfl
  · exfalso
    rw [String.utf8EncodeChar, if_neg hone] at h
    generalize c.val.toNat = v at hvalid h
    split at h
    · rcases List.mem_pair.mp h with h | h
      all_goals exact hlarge _ (by omega) (by omega) h
    split at h
    · simp only [List.mem_cons, List.not_mem_nil, or_false] at h
      rcases h with h | h | h
      all_goals exact hlarge _ (by omega) (by omega) h
    · simp only [List.mem_cons, List.not_mem_nil, or_false] at h
      rcases h with h | h | h | h
      all_goals exact hlarge _ (by omega) (by omega) h

/-- No character's bytes begin another's, so the characters in front of a text are found again. -/
theorem exists_append_of_encodeList {cs ds : List Char} {bs : Bytes}
    (h : encodeList cs = encodeList ds ++ bs) : ∃ more, cs = ds ++ more ∧ bs = encodeList more := by
  induction ds generalizing cs with
  | nil => exact ⟨cs, rfl, h.symm⟩
  | cons d ds ih =>
    obtain ⟨b, tail, hd⟩ := exists_encodeChar d
    rw [encodeList_cons, List.append_assoc] at h
    have hfirst : first b (tail ++ (encodeList ds ++ bs)) = .char d (encodeList ds ++ bs) :=
      first_of_encodeChar (by rw [hd]; rfl)
    cases cs with
    | nil => exact absurd (hd ▸ h) (List.cons_ne_nil _ _).symm
    | cons c cs =>
      rw [encodeList_cons] at h
      have hfirst' : first b (tail ++ (encodeList ds ++ bs)) = .char c (encodeList cs) :=
        first_of_encodeChar (by rw [h, hd]; rfl)
      obtain ⟨rfl, hrest⟩ := First.char.inj (hfirst.symm.trans hfirst')
      obtain ⟨more, rfl, hbs⟩ := ih hrest.symm
      exact ⟨more, rfl, hbs⟩

theorem decodeOnto_encodeChar (done : List Char) (c : Char) (bs : Bytes) :
    decodeOnto done (String.utf8EncodeChar c ++ bs) = decodeOnto (c :: done) bs := by
  obtain ⟨b, tail, h⟩ := exists_encodeChar c
  have hfirst : first b (tail ++ bs) = .char c bs := first_of_encodeChar (by rw [h]; rfl)
  rw [h, List.cons_append, decodeOnto]
  split
  · next heq =>
    cases hfirst.symm.trans heq
    rfl
  · next heq => cases hfirst.symm.trans heq

theorem decodeOnto_encodeList (done cs : List Char) :
    decodeOnto done (encodeList cs) = some (done.reverse ++ cs) := by
  induction cs generalizing done with
  | nil => simp [encodeList, decodeOnto]
  | cons c cs ih =>
    rw [encodeList_cons, decodeOnto_encodeChar, ih]
    simp

/-- A text is read back from its bytes. -/
theorem decode?_encode (s : String) : decode? (encode s) = some s := by
  rw [decode?, encode, decodeOnto_encodeList]
  simp

end DiagramService.Utf8
