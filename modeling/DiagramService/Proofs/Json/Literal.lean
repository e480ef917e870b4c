import Mathlib
import DiagramService.Json.Literal
import DiagramService.Proofs.Text.Utf8

/-! The string literals of JSON. A literal is made of pieces, each of which denotes a character: the
character itself, a short escape, or one or two units of UTF-16 in hexadecimal. Reading takes
exactly the literals and gives the text that they denote. -/

namespace DiagramService.Json

/-! ## What a literal denotes -/

/-- A hexadecimal digit in either case, and its value. -/
def HexDigit (c : Char) (n : Nat) : Prop :=
  n < 16 ∧ (c = Nat.digitChar n ∨ c = (Nat.digitChar n).toUpper)

/-- Four hexadecimal digits and their value, which is a unit of UTF-16. -/
inductive HexUnit : List Char → Nat → Prop
  | intro {c₁ c₂ c₃ c₄ : Char} {n₁ n₂ n₃ n₄ : Nat} (h₁ : HexDigit c₁ n₁) (h₂ : HexDigit c₂ n₂)
    (h₃ : HexDigit c₃ n₃) (h₄ : HexDigit c₄ n₄) :
    HexUnit [c₁, c₂, c₃, c₄] (n₁ * 4096 + n₂ * 256 + n₃ * 16 + n₄)

/-- The first unit of two that stand for one character. -/
def IsHigh (n : Nat) : Prop := 0xD800 ≤ n ∧ n ≤ 0xDBFF

/-- The second unit of two that stand for one character. -/
def IsLow (n : Nat) : Prop := 0xDC00 ≤ n ∧ n ≤ 0xDFFF

/-- The character beyond U+FFFF that two units stand for. -/
def combined (high low : Nat) : Char :=
  Char.ofNat (0x10000 + (high - 0xD800) * 0x400 + (low - 0xDC00))

/-- The letters that may follow a backslash, and what they stand for. -/
def shortEscapes : List (Char × Char) :=
  [('"', '"'), ('\\', '\\'), ('/', '/'), ('b', '\x08'), ('f', '\x0c'), ('n', '\n'), ('r', '\r'),
    ('t', '\t')]

/-- A piece of a literal and the character that it denotes. -/
inductive Piece : List Char → Char → Prop
  | raw {c : Char} (hquote : c ≠ '"') (hslash : c ≠ '\\') (h : 0x20 ≤ c.toNat) : Piece [c] c
  | short {x c : Char} (h : (x, c) ∈ shortEscapes) : Piece ['\\', x] c
  | unit {cs : List Char} {n : Nat} (h : HexUnit cs n) (hhigh : ¬ IsHigh n) (hlow : ¬ IsLow n) :
    Piece ('\\' :: 'u' :: cs) (Char.ofNat n)
  | pair {cs ds : List Char} {high low : Nat} (h : HexUnit cs high) (h' : HexUnit ds low)
    (hhigh : IsHigh high) (hlow : IsLow low) :
    Piece ('\\' :: 'u' :: cs ++ '\\' :: 'u' :: ds) (combined high low)

/-- The characters between the quotes of a literal, and the text that they denote. -/
inductive Denotes : List Char → List Char → Prop
  | nil : Denotes [] []
  | cons {p lit s : List Char} {c : Char} (h : Piece p c) (hrest : Denotes lit s) :
    Denotes (p ++ lit) (c :: s)

/-! ## Reading escapes -/

section Escape

variable {b : UInt8} {bs rest : Bytes} {c : Char} {n : Nat}

/-- The hexadecimal digits stand in three blocks. -/
theorem hexDigit_block : (∀ k < 10, HexDigit (Char.ofNat (0x30 + k)) k) ∧
    (∀ k < 6, HexDigit (Char.ofNat (0x41 + k)) (10 + k)) ∧
    ∀ k < 6, HexDigit (Char.ofNat (0x61 + k)) (10 + k) := by
  unfold HexDigit
  decide

theorem hexDigit?_eq_some_iff : hexDigit? b = some n ↔ ∃ c, HexDigit c n ∧ b = byte c := by
  constructor
  · intro h
    have hblock : ∀ {start k m : Nat}, HexDigit (Char.ofNat (start + k)) m → b.toNat = start + k →
        start + k < 0xD800 → m = n → ∃ c, HexDigit c n ∧ b = byte c := by
      rintro start k m hdigit hb hk rfl
      refine ⟨_, hdigit, ?_⟩
      rw [byte, Char.toNat_ofNat, if_pos (.inl hk), ← hb, UInt8.ofNat_toNat]
    obtain ⟨hdecimal, hupper, hlower⟩ := hexDigit_block
    unfold hexDigit? at h
    simp only [Bool.and_eq_true, decide_eq_true_eq] at h
    split at h
    · cases h
      exact hblock (hdecimal (b.toNat - 0x30) (by omega)) (by omega) (by omega) rfl
    split at h
    · cases h
      exact hblock (hupper (b.toNat - 0x41) (by omega)) (by omega) (by omega) (by omega)
    split at h
    · cases h
      exact hblock (hlower (b.toNat - 0x61) (by omega)) (by omega) (by omega) (by omega)
    · cases h
  · rintro ⟨c, ⟨hn, hc⟩, rfl⟩
    have hdigits : ∀ k < 16, hexDigit? (byte (Nat.digitChar k)) = some k ∧
        hexDigit? (byte (Nat.digitChar k).toUpper) = some k := by
      decide
    obtain rfl | rfl := hc
    · exact (hdigits n hn).1
    · exact (hdigits n hn).2

theorem HexDigit.ascii (h : HexDigit c n) : c.toNat < 0x80 := by
  obtain ⟨hn, hc⟩ := h
  have hdigits : ∀ k < 16, (Nat.digitChar k).toNat < 0x80 ∧
      (Nat.digitChar k).toUpper.toNat < 0x80 := by
    decide
  obtain rfl | rfl := hc
  · exact (hdigits n hn).1
  · exact (hdigits n hn).2

theorem encodeChar_ascii (h : c.toNat < 0x80) : String.utf8EncodeChar c = [byte c] :=
  Utf8.encodeChar_ascii h

theorem encodeList_cons_ascii {cs : List Char} (h : c.toNat < 0x80) :
    Utf8.encodeList (c :: cs) = byte c :: Utf8.encodeList cs := by
  rw [Utf8.encodeList_cons, encodeChar_ascii h]
  rfl

theorem hexValue?_eq_some_iff {b₁ b₂ b₃ b₄ : UInt8} : hexValue? b₁ b₂ b₃ b₄ = some n ↔
    ∃ cs, HexUnit cs n ∧ [b₁, b₂, b₃, b₄] = Utf8.encodeList cs := by
  constructor
  · intro h
    simp only [hexValue?, Option.bind_eq_bind, Option.bind_eq_some_iff, Option.pure_def,
      Option.some.injEq] at h
    obtain ⟨n₁, h₁, n₂, h₂, n₃, h₃, n₄, h₄, rfl⟩ := h
    obtain ⟨c₁, hc₁, rfl⟩ := hexDigit?_eq_some_iff.mp h₁
    obtain ⟨c₂, hc₂, rfl⟩ := hexDigit?_eq_some_iff.mp h₂
    obtain ⟨c₃, hc₃, rfl⟩ := hexDigit?_eq_some_iff.mp h₃
    obtain ⟨c₄, hc₄, rfl⟩ := hexDigit?_eq_some_iff.mp h₄
    refine ⟨[c₁, c₂, c₃, c₄], ?_, ?_⟩
    · have hunit := HexUnit.intro hc₁ hc₂ hc₃ hc₄
      convert hunit using 1
      omega
    · simp [Utf8.encodeList, encodeChar_ascii hc₁.ascii, encodeChar_ascii hc₂.ascii,
        encodeChar_ascii hc₃.ascii, encodeChar_ascii hc₄.ascii]
  · rintro ⟨cs, ⟨hc₁, hc₂, hc₃, hc₄⟩, h⟩
    simp only [Utf8.encodeList, List.flatMap_cons, List.flatMap_nil, encodeChar_ascii hc₁.ascii,
      encodeChar_ascii hc₂.ascii, encodeChar_ascii hc₃.ascii, encodeChar_ascii hc₄.ascii,
      List.cons_append, List.nil_append, List.cons.injEq, and_true] at h
    obtain ⟨rfl, rfl, rfl, rfl⟩ := h
    simp only [hexValue?, hexDigit?_eq_some_iff.mpr ⟨_, hc₁, rfl⟩,
      hexDigit?_eq_some_iff.mpr ⟨_, hc₂, rfl⟩, hexDigit?_eq_some_iff.mpr ⟨_, hc₃, rfl⟩,
      hexDigit?_eq_some_iff.mpr ⟨_, hc₄, rfl⟩, Option.bind_eq_bind, Option.bind_some,
      Option.pure_def, Option.some.injEq]
    omega

theorem readHex_eq_ok_iff : readHex bs = .ok (n, rest) ↔
    ∃ cs, HexUnit cs n ∧ bs = Utf8.encodeList cs ++ rest := by
  constructor
  · intro h
    unfold readHex at h
    split at h
    · split at h
      · next hvalue =>
        cases h
        obtain ⟨cs, hunit, hcs⟩ := hexValue?_eq_some_iff.mp hvalue
        exact ⟨cs, hunit, by rw [← hcs]; rfl⟩
      · cases h
    · cases h
  · rintro ⟨cs, hunit, rfl⟩
    have hlength : ∃ b₁ b₂ b₃ b₄, Utf8.encodeList cs = [b₁, b₂, b₃, b₄] := by
      obtain ⟨hc₁, hc₂, hc₃, hc₄⟩ := hunit
      simp [Utf8.encodeList, encodeChar_ascii hc₁.ascii, encodeChar_ascii hc₂.ascii,
        encodeChar_ascii hc₃.ascii, encodeChar_ascii hc₄.ascii]
    obtain ⟨b₁, b₂, b₃, b₄, hcs⟩ := hlength
    have hvalue := hexValue?_eq_some_iff.mpr ⟨cs, hunit, hcs.symm⟩
    simp [hcs, readHex, hvalue]

theorem map_find?_cons {α β : Type} (p : α → Bool) (f : α → β) (a : α) (as : List α) :
    ((a :: as).find? p).map f = if p a then some (f a) else (as.find? p).map f := by
  rw [List.find?_cons]
  cases p a <;> rfl

theorem shortEscape?_eq (b : UInt8) :
    shortEscape? b = (shortEscapes.find? fun e => b == byte e.1).map (·.2) := by
  simp only [shortEscapes, map_find?_cons]
  rfl

theorem shortEscape?_eq_some_iff : shortEscape? b = some c ↔
    ∃ x, (x, c) ∈ shortEscapes ∧ b = byte x := by
  constructor
  · intro h
    rw [shortEscape?_eq] at h
    obtain ⟨⟨x, _⟩, hfind, rfl⟩ := Option.map_eq_some_iff.mp h
    exact ⟨x, List.mem_of_find?_eq_some hfind, by simpa using List.find?_some hfind⟩
  · rintro ⟨x, hmem, rfl⟩
    have hall : ∀ e ∈ shortEscapes, shortEscape? (byte e.1) = some e.2 := by decide
    exact hall _ hmem

theorem short_ascii {x : Char} (h : (x, c) ∈ shortEscapes) :
    x.toNat < 0x80 ∧ byte x ≠ byte 'u' := by
  have hall : ∀ e ∈ shortEscapes, e.1.toNat < 0x80 ∧ byte e.1 ≠ byte 'u' := by decide
  exact hall _ h

theorem combined_eq (high low : Nat) :
    Char.ofNat ((high - 0xD800) * 1024 + (low - 0xDC00) + 0x10000) = combined high low := by
  rw [combined, Nat.add_comm, ← Nat.add_assoc]

theorem readPartner_eq_ok_iff {high : Nat} : readPartner high bs = .ok (c, rest) ↔
    ∃ ds low, HexUnit ds low ∧ IsLow low ∧ c = combined high low ∧
      bs = Utf8.encodeList ('\\' :: 'u' :: ds) ++ rest := by
  have hmark : ∀ ds, Utf8.encodeList ('\\' :: 'u' :: ds) =
      byte '\\' :: byte 'u' :: Utf8.encodeList ds := fun _ => rfl
  constructor
  · intro h
    unfold readPartner at h
    split at h
    · cases h
    split at h
    · cases h
    next hslash =>
    split at h
    · cases h
    split at h
    · cases h
    next hu =>
    split at h
    · cases h
    next low tail hhex =>
    split at h
    · cases h
    next hlow =>
    obtain ⟨ds, hunit, rfl⟩ := readHex_eq_ok_iff.mp hhex
    simp only [Except.ok.injEq, Prod.mk.injEq, combined_eq] at h
    simp only [bne_iff_ne, ne_eq, not_not] at hslash hu
    simp only [Bool.or_eq_true, decide_eq_true_eq, not_or, Nat.not_lt] at hlow
    exact ⟨ds, low, hunit, hlow, h.1.symm, by rw [hmark, hslash, hu, h.2]; rfl⟩
  · rintro ⟨ds, low, hunit, hlow, hc, rfl⟩
    have hhex : readHex (Utf8.encodeList ds ++ rest) = .ok (low, rest) :=
      readHex_eq_ok_iff.mpr ⟨ds, hunit, rfl⟩
    have hrange : ¬ (low < 0xDC00 || 0xDFFF < low) = true := by
      simpa [IsLow] using hlow
    simp only [hmark, List.cons_append, readPartner, bne_self_eq_false, Bool.false_eq_true,
      if_false, hhex, hrange, hc, combined_eq]

theorem readUnicode_eq_ok_iff : readUnicode bs = .ok (c, rest) ↔
    ∃ p, Piece ('\\' :: 'u' :: p) c ∧ bs = Utf8.encodeList p ++ rest := by
  constructor
  · intro h
    unfold readUnicode at h
    split at h
    · cases h
    next n tail hhex =>
    obtain ⟨cs, hunit, rfl⟩ := readHex_eq_ok_iff.mp hhex
    simp only [Bool.and_eq_true, decide_eq_true_eq] at h
    split at h
    · cases h
    next hlow =>
    split at h
    · next hhigh =>
      obtain ⟨ds, low, hunit', hlow', hc, rfl⟩ := readPartner_eq_ok_iff.mp h
      refine ⟨cs ++ '\\' :: 'u' :: ds, ?_, by rw [Utf8.encodeList_append, List.append_assoc]⟩
      rw [hc]
      exact .pair hunit hunit' hhigh hlow'
    · next hhigh =>
      cases h
      exact ⟨cs, .unit hunit hhigh hlow, rfl⟩
  · rintro ⟨p, hpiece, rfl⟩
    generalize hq : '\\' :: 'u' :: p = q at hpiece
    cases hpiece with
    | raw => cases hq
    | short hmem =>
      cases hq
      exact absurd rfl (short_ascii hmem).2
    | @unit cs n hunit hhigh hlow =>
      cases hq
      have hhex : readHex (Utf8.encodeList p ++ rest) = .ok (n, rest) :=
        readHex_eq_ok_iff.mpr ⟨p, hunit, rfl⟩
      have hlow' : ¬ (0xDC00 ≤ n && n ≤ 0xDFFF) = true := by simpa [IsLow] using hlow
      have hhigh' : ¬ (0xD800 ≤ n && n ≤ 0xDBFF) = true := by simpa [IsHigh] using hhigh
      rw [readUnicode, hhex]
      simp only [hlow', hhigh', if_false, Bool.false_eq_true]
    | @pair cs ds high low hunit hunit' hhigh hlow =>
      obtain rfl : p = cs ++ '\\' :: 'u' :: ds := by simpa using hq
      have hhex : readHex (Utf8.encodeList (cs ++ '\\' :: 'u' :: ds) ++ rest) =
          .ok (high, Utf8.encodeList ('\\' :: 'u' :: ds) ++ rest) :=
        readHex_eq_ok_iff.mpr ⟨cs, hunit, by rw [Utf8.encodeList_append, List.append_assoc]⟩
      have hlow' : ¬ (0xDC00 ≤ high && high ≤ 0xDFFF) = true := by
        simp only [Bool.and_eq_true, decide_eq_true_eq, IsHigh] at hhigh ⊢
        omega
      have hhigh' : (0xD800 ≤ high && high ≤ 0xDBFF) = true := by simpa [IsHigh] using hhigh
      have hpartner : readPartner high (Utf8.encodeList ('\\' :: 'u' :: ds) ++ rest) =
          .ok (combined high low, rest) :=
        readPartner_eq_ok_iff.mpr ⟨ds, low, hunit', hlow, rfl, rfl⟩
      rw [readUnicode, hhex]
      simp only [hlow', hhigh', if_false, if_true, Bool.false_eq_true, hpartner]

/-- What is taken after a backslash is the rest of a piece. -/
theorem readEscape_eq_ok_iff : readEscape bs = .ok (c, rest) ↔
    ∃ p, Piece ('\\' :: p) c ∧ bs = Utf8.encodeList p ++ rest := by
  have hmark : ∀ p, Utf8.encodeList ('u' :: p) = byte 'u' :: Utf8.encodeList p := fun _ => rfl
  constructor
  · intro h
    unfold readEscape at h
    split at h
    · cases h
    next b tail =>
    split at h
    · next hu =>
      obtain ⟨p, hpiece, rfl⟩ := readUnicode_eq_ok_iff.mp h
      rw [beq_iff_eq] at hu
      exact ⟨'u' :: p, hpiece, by rw [hmark, hu]; rfl⟩
    · split at h
      · next hshort =>
        cases h
        obtain ⟨x, hmem, rfl⟩ := shortEscape?_eq_some_iff.mp hshort
        refine ⟨[x], .short hmem, ?_⟩
        rw [encodeList_cons_ascii (short_ascii hmem).1]
        rfl
      · cases h
  · rintro ⟨p, hpiece, rfl⟩
    obtain ⟨x, q, rfl⟩ : ∃ x q, p = x :: q := by
      generalize hp : '\\' :: p = all at hpiece
      cases hpiece with
      | raw _ hslash =>
        cases hp
        exact absurd rfl hslash
      | short => exact ⟨_, _, (List.cons.inj hp).2⟩
      | unit => exact ⟨_, _, (List.cons.inj hp).2⟩
      | pair => exact ⟨_, _, (List.cons.inj hp).2⟩
    by_cases hu : x = 'u'
    · subst hu
      have hunicode : readUnicode (Utf8.encodeList q ++ rest) = .ok (c, rest) :=
        readUnicode_eq_ok_iff.mpr ⟨q, hpiece, rfl⟩
      simp only [hmark, List.cons_append, readEscape, beq_self_eq_true, if_true, hunicode]
    · generalize hp : '\\' :: x :: q = all at hpiece
      cases hpiece with
      | raw => cases hp
      | short hmem =>
        cases hp
        obtain ⟨hascii, hbyte⟩ := short_ascii hmem
        have hshort := shortEscape?_eq_some_iff.mpr ⟨x, hmem, rfl⟩
        simp [encodeList_cons_ascii hascii, readEscape, hbyte, hshort]
      | unit =>
        cases hp
        exact absurd rfl hu
      | pair =>
        cases hp
        exact absurd rfl hu

end Escape

/-! ## Reading a literal -/

section Literal

variable {p lit s done : List Char} {c : Char} {bad : Option Bytes} {bs rest : Bytes}

/-- A piece is a character of its own, or it starts with a backslash. -/
theorem Piece.cases (h : Piece p c) :
    (p = [c] ∧ c ≠ '"' ∧ c ≠ '\\' ∧ 0x20 ≤ c.toNat) ∨ ∃ q, p = '\\' :: q := by
  cases h with
  | raw hquote hslash h => exact .inl ⟨rfl, hquote, hslash, h⟩
  | short => exact .inr ⟨_, rfl⟩
  | unit => exact .inr ⟨_, rfl⟩
  | pair => exact .inr ⟨_, rfl⟩

/-- A byte that neither ends a literal nor is refused in it. -/
def PlainByte (b : UInt8) : Prop :=
  b ≠ byte '"' ∧ b ≠ byte '\\' ∧ ¬ b < 0x20

theorem plainByte_of_mem {b : UInt8} (hquote : c ≠ '"') (hslash : c ≠ '\\')
    (h : 0x20 ≤ c.toNat) (hb : b ∈ String.utf8EncodeChar c) : PlainByte b := by
  have hother : ∀ x : Char, x.toNat < 0x80 → c ≠ x → b ≠ byte x := by
    rintro x hx hne rfl
    have hbyte : (byte x).toNat = x.toNat :=
      UInt8.toNat_ofNat_of_lt' (Nat.lt_trans hx (by decide))
    exact hne (Char.toNat_inj.mp ((Utf8.toNat_eq_of_mem_encodeChar hb (by omega)).trans hbyte))
  refine ⟨hother _ (by decide) hquote, hother _ (by decide) hslash, fun hlt => ?_⟩
  have hlow : b.toNat < 0x20 := UInt8.lt_iff_toNat_lt.mp hlt
  have hc := Utf8.toNat_eq_of_mem_encodeChar hb (by omega)
  omega

theorem raw_of_bytes {b : UInt8} (hbytes : b :: bs = String.utf8EncodeChar c ++ rest)
    (hb : PlainByte b) : Piece [c] c := by
  obtain ⟨hquote, hslash, h⟩ := hb
  have hfirst : c.toNat < 0x80 → b = byte c := by
    intro hc
    rw [encodeChar_ascii hc] at hbytes
    exact (List.cons.inj hbytes).1
  refine .raw ?_ ?_ ?_
  · rintro rfl
    exact hquote (hfirst (by decide))
  · rintro rfl
    exact hslash (hfirst (by decide))
  · by_contra hc
    have hlt : c.toNat < 0x20 := Nat.lt_of_not_le hc
    refine h ?_
    rw [hfirst (Nat.lt_trans hlt (by decide)), UInt8.lt_iff_toNat_lt, byte,
      UInt8.toNat_ofNat_of_lt' (Nat.lt_trans hlt (by decide))]
    exact hlt

theorem readLiteralOnto_escape (h : readEscape bs = .ok (c, rest)) :
    readLiteralOnto done bad (byte '\\' :: bs) = readLiteralOnto (c :: done) bad rest := by
  rw [readLiteralOnto.eq_def]
  simp only [show (byte '\\' == byte '"') = false from rfl, Bool.false_eq_true, if_false,
    beq_self_eq_true, if_true]
  split <;> simp_all

theorem readLiteralOnto_raw (hquote : c ≠ '"') (hslash : c ≠ '\\') (h : 0x20 ≤ c.toNat) :
    readLiteralOnto done bad (String.utf8EncodeChar c ++ bs) =
      readLiteralOnto (c :: done) bad bs := by
  obtain ⟨b, tail, hbytes⟩ := Utf8.exists_encodeChar c
  obtain ⟨hb, hb', hb''⟩ := plainByte_of_mem (b := b) hquote hslash h (by simp [hbytes])
  have hfirst : Utf8.first b (tail ++ bs) = .char c bs :=
    Utf8.first_of_encodeChar (by rw [hbytes]; rfl)
  rw [hbytes, List.cons_append, readLiteralOnto.eq_def]
  simp only [beq_eq_false_iff_ne.mpr hb, beq_eq_false_iff_ne.mpr hb', Bool.false_eq_true, if_false,
    if_neg hb'']
  split <;> simp_all

/-- One step of reading: a piece is taken and its character is kept. -/
theorem readLiteralOnto_piece (h : Piece p c) :
    readLiteralOnto done bad (Utf8.encodeList p ++ bs) = readLiteralOnto (c :: done) bad bs := by
  obtain ⟨rfl, hquote, hslash, hc⟩ | ⟨q, rfl⟩ := h.cases
  · rw [Utf8.encodeList_cons, List.append_assoc]
    exact readLiteralOnto_raw hquote hslash hc
  · exact readLiteralOnto_escape (readEscape_eq_ok_iff.mpr ⟨q, h, rfl⟩)

/-- The characters denoted so far are kept, whatever follows. -/
theorem readLiteralOnto_denotes (h : Denotes lit s) :
    readLiteralOnto done bad (Utf8.encodeList lit ++ bs) =
      readLiteralOnto (s.reverse ++ done) bad bs := by
  induction h generalizing done with
  | nil => rfl
  | cons hp _ ih =>
    rw [Utf8.encodeList_append, List.append_assoc, readLiteralOnto_piece hp, ih]
    simp

theorem readLiteralOnto_quote :
    readLiteralOnto done none (byte '"' :: rest) = .ok (done.reverse, rest) := by
  rw [readLiteralOnto, if_pos (beq_self_eq_true _)]

/-- A quote among the bytes of a text is one of its characters. -/
theorem exists_quote_of_encodeList {cs : List Char}
    (h : Utf8.encodeList cs = Utf8.encodeList lit ++ byte '"' :: rest) :
    ∃ more, cs = lit ++ '"' :: more := by
  have hquote : Utf8.encodeList ['"'] = [byte '"'] := rfl
  rw [List.append_cons, ← hquote, ← Utf8.encodeList_append] at h
  obtain ⟨more, rfl, -⟩ := Utf8.exists_append_of_encodeList h
  exact ⟨more, by rw [List.append_assoc]; rfl⟩

/-- What reading takes are pieces up to a quote, and none of them was given up. -/
theorem readLiteralOnto_eq_ok (h : readLiteralOnto done bad bs = .ok (s, rest)) :
    bad = none ∧ ∃ lit more, Denotes lit more ∧ s = done.reverse ++ more ∧
      bs = Utf8.encodeList lit ++ byte '"' :: rest := by
  have hcons : ∀ {p c done lit more}, Piece p c → Denotes lit more →
      s = (c :: done).reverse ++ more →
      ∃ lit' more', Denotes lit' more' ∧ s = done.reverse ++ more' ∧
        Utf8.encodeList p ++ (Utf8.encodeList lit ++ byte '"' :: rest) =
          Utf8.encodeList lit' ++ byte '"' :: rest := by
    rintro p c done lit more hp hlit rfl
    exact ⟨p ++ lit, c :: more, .cons hp hlit, by simp,
      by rw [Utf8.encodeList_append, List.append_assoc]⟩
  fun_induction readLiteralOnto done bad bs with
  | case1 => cases h
  | case2 => cases h
  | case3 done b bs hb =>
    cases h
    rw [beq_iff_eq] at hb
    exact ⟨rfl, [], [], .nil, by simp, by rw [hb]; rfl⟩
  | case4 => cases h
  | case5 done bad b bs hquote hslash c tail hescape hle ih =>
    obtain ⟨rfl, lit, more, hlit, hs, rfl⟩ := ih h
    obtain ⟨p, hp, rfl⟩ := readEscape_eq_ok_iff.mp hescape
    rw [beq_iff_eq] at hslash
    exact ⟨rfl, by rw [hslash]; exact hcons hp hlit hs⟩
  | case6 => cases h
  | case7 done bad b bs hquote hslash hcontrol hle c tail hfirst hle' ih =>
    obtain ⟨rfl, lit, more, hlit, hs, rfl⟩ := ih h
    have hbytes := Utf8.encodeChar_of_first hfirst
    rw [beq_iff_eq] at hquote hslash
    have hraw := hcons (raw_of_bytes hbytes ⟨hquote, hslash, hcontrol⟩) hlit hs
    refine ⟨rfl, ?_⟩
    rw [hbytes]
    simpa [Utf8.encodeList] using hraw
  | case8 done bad b bs hquote hslash hcontrol hle tail hfirst hle' ih =>
    obtain ⟨hbad, -⟩ := ih h
    cases bad <;> cases hbad

/-- Reading takes exactly the literals, and gives the text that the literal denotes. -/
theorem readLiteral_eq_ok_iff {text : String} : readLiteral bs = .ok (text, rest) ↔
    ∃ lit, Denotes lit text.toList ∧ bs = Utf8.encodeList lit ++ byte '"' :: rest := by
  constructor
  · intro h
    unfold readLiteral at h
    cases hread : readLiteralOnto [] none bs with
    | error failure => rw [hread] at h; cases h
    | ok r =>
      obtain ⟨s, tail⟩ := r
      rw [hread] at h
      cases h
      obtain ⟨-, lit, more, hlit, rfl, rfl⟩ := readLiteralOnto_eq_ok hread
      exact ⟨lit, by simpa using hlit, rfl⟩
  · rintro ⟨lit, hlit, rfl⟩
    rw [readLiteral, readLiteralOnto_denotes hlit, readLiteralOnto_quote]
    simp [Except.map]

/-! ## Writing a literal -/

/-- What stands for a character in a literal that is written denotes it. -/
theorem piece_escapeChar (c : Char) : Piece (escapeChar c) c := by
  unfold escapeChar
  split_ifs with hmark hback hfeed hline hreturn htab hcontrol
  · obtain rfl | rfl : c = '"' ∨ c = '\\' := by simpa using hmark
    all_goals exact .short (by decide)
  · rw [beq_iff_eq.mp hback]
    exact .short (by decide)
  · rw [beq_iff_eq.mp hfeed]
    exact .short (by decide)
  · rw [beq_iff_eq.mp hline]
    exact .short (by decide)
  · rw [beq_iff_eq.mp hreturn]
    exact .short (by decide)
  · rw [beq_iff_eq.mp htab]
    exact .short (by decide)
  · have hdigit : ∀ n < 16, HexDigit (hexChar n) n := fun n hn => ⟨hn, .inl rfl⟩
    have hunit := HexUnit.intro (hdigit 0 (by decide)) (hdigit 0 (by decide))
      (hdigit (c.toNat / 16) (by omega)) (hdigit (c.toNat % 16) (by omega))
    have hvalue : 0 * 4096 + 0 * 256 + c.toNat / 16 * 16 + c.toNat % 16 = c.toNat := by omega
    rw [hvalue] at hunit
    have hpiece := Piece.unit hunit (by simp only [IsHigh]; omega) (by simp only [IsLow]; omega)
    rwa [Char.ofNat_toNat] at hpiece
  · simp only [Bool.or_eq_true, beq_iff_eq, not_or] at hmark
    exact .raw hmark.1 hmark.2 (Nat.le_of_not_lt hcontrol)

/-- Every text is denoted by the literal that is written for it. -/
theorem denotes_escaped (s : List Char) : Denotes (s.flatMap escapeChar) s := by
  induction s with
  | nil => exact .nil
  | cons c s ih => exact .cons (piece_escapeChar c) ih

/-! ## Skipping a literal -/

theorem skipLiteral_plain {tail : Bytes} (h : ∀ b ∈ tail, PlainByte b) :
    skipLiteral (tail ++ bs) = skipLiteral bs := by
  induction tail with
  | nil => rfl
  | cons b tail ih =>
    obtain ⟨hquote, hslash, hcontrol⟩ := h b List.mem_cons_self
    rw [List.cons_append, skipLiteral.eq_def]
    simp only [beq_eq_false_iff_ne.mpr hquote, beq_eq_false_iff_ne.mpr hslash, Bool.false_eq_true,
      if_false, if_neg hcontrol]
    exact ih fun b hb => h b (List.mem_cons_of_mem _ hb)

theorem skipLiteral_escape (h : skipEscape bs = .ok rest) :
    skipLiteral (byte '\\' :: bs) = skipLiteral rest := by
  rw [skipLiteral.eq_def]
  simp only [show (byte '\\' == byte '"') = false from rfl, Bool.false_eq_true, if_false,
    beq_self_eq_true, if_true]
  split <;> simp_all

theorem skipLiteral_unit {cs : List Char} {n : Nat} (h : HexUnit cs n) :
    skipLiteral (Utf8.encodeList ('\\' :: 'u' :: cs) ++ bs) = skipLiteral bs := by
  have hhex : readHex (Utf8.encodeList cs ++ bs) = .ok (n, bs) :=
    readHex_eq_ok_iff.mpr ⟨cs, h, rfl⟩
  have hescape : skipEscape (byte 'u' :: (Utf8.encodeList cs ++ bs)) = .ok bs := by
    rw [skipEscape, if_pos (beq_self_eq_true _), hhex]
    rfl
  exact skipLiteral_escape hescape

/-- Every piece is passed, although two units of one character are passed one by one. -/
theorem skipLiteral_piece (h : Piece p c) :
    skipLiteral (Utf8.encodeList p ++ bs) = skipLiteral bs := by
  cases h with
  | raw hquote hslash h =>
    rw [Utf8.encodeList_cons, List.append_assoc]
    exact skipLiteral_plain fun b hb => plainByte_of_mem hquote hslash h hb
  | @short x _ hmem =>
    obtain ⟨hascii, hbyte⟩ := short_ascii hmem
    have hshort := shortEscape?_eq_some_iff.mpr ⟨x, hmem, rfl⟩
    rw [encodeList_cons_ascii (by decide), encodeList_cons_ascii hascii]
    have hescape : skipEscape (byte x :: bs) = .ok bs := by
      simp [skipEscape, hbyte, hshort]
    exact skipLiteral_escape hescape
  | unit hunit => exact skipLiteral_unit hunit
  | pair hunit hunit' =>
    rw [Utf8.encodeList_append, List.append_assoc, skipLiteral_unit hunit,
      skipLiteral_unit hunit']

/-- A literal is passed whatever it denotes. -/
theorem skipLiteral_denotes (h : Denotes lit s) :
    skipLiteral (Utf8.encodeList lit ++ byte '"' :: rest) = .ok rest := by
  induction h with
  | nil =>
    rw [Utf8.encodeList, List.flatMap_nil, List.nil_append, skipLiteral.eq_def]
    exact if_pos (beq_self_eq_true _)
  | cons hp _ ih => rw [Utf8.encodeList_append, List.append_assoc, skipLiteral_piece hp, ih]

end Literal

/-! ## Literals that are refused -/

section Malformed

variable {p good bad s : List Char} {c : Char} {n m : Nat}

/-- Characters after a backslash that do not make a piece with it. -/
inductive BrokenEscape : List Char → Prop
  | ended : BrokenEscape []
  /-- A character that is not escaped by a backslash. -/
  | unknown {x : Char} {more : List Char} (hu : x ≠ 'u') (h : ∀ c, (x, c) ∉ shortEscapes) :
    BrokenEscape (x :: more)
  /-- Fewer than four hexadecimal digits. -/
  | incomplete {more : List Char} (h : ∀ cs n, HexUnit cs n → ¬ cs <+: more) :
    BrokenEscape ('u' :: more)
  /-- A second unit where a first one should be. -/
  | low {cs more : List Char} {n : Nat} (h : HexUnit cs n) (hlow : IsLow n) :
    BrokenEscape ('u' :: (cs ++ more))
  /-- A first unit without a second one. -/
  | high {cs more : List Char} {n : Nat} (h : HexUnit cs n) (hhigh : IsHigh n)
    (hpartner : ∀ ds low, HexUnit ds low → IsLow low → ¬ '\\' :: 'u' :: ds <+: more) :
    BrokenEscape ('u' :: (cs ++ more))

/-- Characters at which a literal breaks off: neither a piece nor the closing quote comes next. -/
inductive Malformed : List Char → Prop
  /-- A control character that is not escaped. -/
  | control {c : Char} {more : List Char} (h : c.toNat < 0x20) : Malformed (c :: more)
  | escape {more : List Char} (h : BrokenEscape more) : Malformed ('\\' :: more)

theorem HexDigit.unique (h : HexDigit c n) (h' : HexDigit c m) : n = m :=
  Option.some.inj ((hexDigit?_eq_some_iff.mpr ⟨c, h, rfl⟩).symm.trans
    (hexDigit?_eq_some_iff.mpr ⟨c, h', rfl⟩))

/-- Four digits in front of a text are the only four, and have one value. -/
theorem HexUnit.unique {cs ds more : List Char} (h : HexUnit cs n) (h' : HexUnit ds m)
    (hfront : ds <+: cs ++ more) : ds = cs ∧ m = n := by
  obtain ⟨h₁, h₂, h₃, h₄⟩ := h
  obtain ⟨h₁', h₂', h₃', h₄'⟩ := h'
  simp only [List.cons_append, List.cons_prefix_cons, List.nil_append] at hfront
  obtain ⟨rfl, rfl, rfl, rfl, -⟩ := hfront
  rw [h₁.unique h₁', h₂.unique h₂', h₃.unique h₃', h₄.unique h₄']
  exact ⟨rfl, rfl⟩

/-- What may follow the backslash of a piece. -/
theorem Piece.after_slash {q : List Char} (h : Piece ('\\' :: q) c) :
    (∃ x, q = [x] ∧ (x, c) ∈ shortEscapes) ∨ ∃ cs n more, q = 'u' :: (cs ++ more) ∧ HexUnit cs n ∧
      ¬ IsLow n ∧ (IsHigh n → ∃ ds low, more = '\\' :: 'u' :: ds ∧ HexUnit ds low ∧ IsLow low) := by
  generalize hall : '\\' :: q = all at h
  cases h with
  | raw _ hslash =>
    obtain ⟨rfl, -⟩ := List.cons.inj hall
    exact absurd rfl hslash
  | short h =>
    cases hall
    exact .inl ⟨_, rfl, h⟩
  | unit h hhigh hlow =>
    cases hall
    exact .inr ⟨_, _, [], by simp, h, hlow, fun hhigh' => absurd hhigh' hhigh⟩
  | pair h h' hhigh hlow =>
    cases hall
    refine .inr ⟨_, _, _, rfl, h, ?_, fun _ => ⟨_, _, rfl, h', hlow⟩⟩
    simp only [IsHigh, IsLow] at hhigh ⊢
    omega

theorem BrokenEscape.not_piece {q more : List Char} (h : BrokenEscape more)
    (hp : Piece ('\\' :: q) c) : ¬ q <+: more := by
  obtain ⟨x, rfl, hmem⟩ | ⟨cs, n, tail, rfl, hunit, hlow, hpartner⟩ := hp.after_slash
  · have hletter : x ≠ 'u' := fun hx => (short_ascii hmem).2 (hx ▸ rfl)
    cases h with
    | ended => simp
    | unknown hu hunknown =>
      rintro hfront
      obtain rfl := (List.cons_prefix_cons.mp hfront).1
      exact hunknown c hmem
    | incomplete => exact fun hfront => hletter (List.cons_prefix_cons.mp hfront).1
    | low => exact fun hfront => hletter (List.cons_prefix_cons.mp hfront).1
    | high => exact fun hfront => hletter (List.cons_prefix_cons.mp hfront).1
  · intro hfront
    cases h with
    | ended => simp at hfront
    | unknown hu => exact hu (List.cons_prefix_cons.mp hfront).1.symm
    | incomplete hincomplete =>
      exact hincomplete cs n hunit
        ((List.prefix_append cs tail).trans (List.cons_prefix_cons.mp hfront).2)
    | low hunit' hlow' =>
      have hcs := (List.prefix_append cs tail).trans (List.cons_prefix_cons.mp hfront).2
      obtain ⟨-, rfl⟩ := hunit'.unique hunit hcs
      exact hlow hlow'
    | high hunit' hhigh hlone =>
      have htail := (List.cons_prefix_cons.mp hfront).2
      obtain ⟨rfl, rfl⟩ := hunit'.unique hunit ((List.prefix_append cs tail).trans htail)
      obtain ⟨ds, low, rfl, hunit'', hlow''⟩ := hpartner hhigh
      exact hlone ds low hunit'' hlow'' ((List.prefix_append_right_inj _).mp htail)

/-- No piece can be taken where a literal breaks off. -/
theorem Malformed.not_piece (h : Malformed bad) (hp : Piece p c) : ¬ p <+: bad := by
  intro hfront
  obtain ⟨rfl, hquote, hslash, hc⟩ | ⟨q, rfl⟩ := hp.cases
  · cases h with
    | control h =>
      obtain rfl := (List.cons_prefix_cons.mp hfront).1
      omega
    | escape => exact hslash (List.cons_prefix_cons.mp hfront).1
  · cases h with
    | control h =>
      obtain rfl := (List.cons_prefix_cons.mp hfront).1
      exact absurd h (by decide)
    | escape h => exact h.not_piece hp (List.cons_prefix_cons.mp hfront).2

theorem Malformed.not_quote (h : Malformed bad) : ¬ ['"'] <+: bad := by
  intro hfront
  cases h with
  | control h =>
    obtain rfl := (List.cons_prefix_cons.mp hfront).1
    exact absurd h (by decide)
  | escape => exact absurd (List.cons_prefix_cons.mp hfront).1 (by decide)

/-- A literal that breaks off is refused. -/
theorem readLiteral_malformed (hgood : Denotes good s) (hbad : Malformed bad) :
    ∃ failure, readLiteral (Utf8.encodeList (good ++ bad)) = .error failure := by
  cases hread : readLiteralOnto s.reverse none (Utf8.encodeList bad) with
  | error failure =>
    refine ⟨failure, ?_⟩
    rw [readLiteral, Utf8.encodeList_append, readLiteralOnto_denotes hgood, List.append_nil, hread]
    rfl
  | ok r =>
    obtain ⟨-, lit, more, hlit, -, hbytes⟩ := readLiteralOnto_eq_ok hread
    obtain ⟨tail, rfl⟩ := exists_quote_of_encodeList hbytes
    exfalso
    cases hlit with
    | nil => exact hbad.not_quote ⟨tail, rfl⟩
    | cons hp _ => exact hbad.not_piece hp ⟨_, (List.append_assoc ..).symm⟩

end Malformed

end DiagramService.Json
