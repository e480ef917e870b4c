import Mathlib
import DiagramService.Json.Skip
import DiagramService.Proofs.Json.Literal
import DiagramService.Proofs.Text.Decimal

/-! The texts of JSON values. A value has many texts: white space may stand around every token, each
literal may be spelled with or without escapes, and a number stands as it is written. Skipping takes
every text of a value up to its end. -/

namespace DiagramService.Json

/-! ## Values and their texts -/

/-- A value. Members keep their order and may share a key, and a number is what is written. -/
inductive Value where
  | null
  | bool (value : Bool)
  | number (digits : List Char)
  | text (value : String)
  | list (items : List Value)
  | object (members : List (String × Value))

/-- White space between tokens. -/
def Blank (w : List Char) : Prop :=
  ∀ c ∈ w, c = ' ' ∨ c = '\n' ∨ c = '\t' ∨ c = '\r'

/-- One or more digits. -/
def Digits (cs : List Char) : Prop :=
  cs ≠ [] ∧ ∀ c ∈ cs, c.isDigit

/-- The whole part of a number, without leading zeros. -/
def Whole (cs : List Char) : Prop :=
  cs = ['0'] ∨ Digits cs ∧ cs.head? ≠ some '0'

/-- The fraction of a number, if it has one. -/
def Fraction (cs : List Char) : Prop :=
  cs = [] ∨ ∃ ds, Digits ds ∧ cs = '.' :: ds

/-- The exponent of a number, if it has one. -/
def Exponent (cs : List Char) : Prop :=
  cs = [] ∨ ∃ (e : Char) (sign : Text.Sign) (ds : List Char),
    (e = 'e' ∨ e = 'E') ∧ Digits ds ∧ cs = e :: (sign.mark ++ ds)

/-- The text of a number that has no sign. -/
def Unsigned (cs : List Char) : Prop :=
  ∃ whole fraction exponent : List Char, Whole whole ∧ Fraction fraction ∧ Exponent exponent ∧
    cs = whole ++ (fraction ++ exponent)

/-- The text of a number. -/
def NumberText (cs : List Char) : Prop :=
  Unsigned cs ∨ ∃ ds, Unsigned ds ∧ cs = '-' :: ds

/-- What a stretch of text may be. An element is a value with white space around it. -/
inductive Part where
  | value (v : Value)
  | element (v : Value)
  | member (key : String) (v : Value)
  | items (vs : List Value)
  | members (ms : List (String × Value))

/-- The texts of a part. -/
inductive Spells : List Char → Part → Prop
  | null : Spells ['n', 'u', 'l', 'l'] (.value .null)
  | true : Spells ['t', 'r', 'u', 'e'] (.value (.bool true))
  | false : Spells ['f', 'a', 'l', 's', 'e'] (.value (.bool false))
  | number {cs : List Char} (h : NumberText cs) : Spells cs (.value (.number cs))
  | text {lit : List Char} {s : String} (h : Denotes lit s.toList) :
    Spells ('"' :: (lit ++ ['"'])) (.value (.text s))
  | emptyList {w : List Char} (hw : Blank w) : Spells ('[' :: (w ++ [']'])) (.value (.list []))
  | list {cs : List Char} {vs : List Value} (h : Spells cs (.items vs)) :
    Spells ('[' :: (cs ++ [']'])) (.value (.list vs))
  | emptyObject {w : List Char} (hw : Blank w) :
    Spells ('\x7b' :: (w ++ ['\x7d'])) (.value (.object []))
  | object {cs : List Char} {ms : List (String × Value)} (h : Spells cs (.members ms)) :
    Spells ('\x7b' :: (cs ++ ['\x7d'])) (.value (.object ms))
  | element {w cs w' : List Char} {v : Value} (hw : Blank w) (h : Spells cs (.value v))
    (hw' : Blank w') : Spells (w ++ (cs ++ w')) (.element v)
  | item {cs : List Char} {v : Value} (h : Spells cs (.element v)) : Spells cs (.items [v])
  | items {cs ds : List Char} {v : Value} {vs : List Value} (h : Spells cs (.element v))
    (hmore : Spells ds (.items vs)) : Spells (cs ++ ',' :: ds) (.items (v :: vs))
  | member {w lit w' cs : List Char} {key : String} {v : Value} (hw : Blank w)
    (hkey : Denotes lit key.toList) (hw' : Blank w') (h : Spells cs (.element v)) :
    Spells (w ++ '"' :: (lit ++ '"' :: (w' ++ ':' :: cs))) (.member key v)
  | lastMember {cs : List Char} {key : String} {v : Value} (h : Spells cs (.member key v)) :
    Spells cs (.members [(key, v)])
  | members {cs ds : List Char} {key : String} {v : Value} {ms : List (String × Value)}
    (h : Spells cs (.member key v)) (hmore : Spells ds (.members ms)) :
    Spells (cs ++ ',' :: ds) (.members ((key, v) :: ms))

/-! ## White space and first characters -/

section First

variable {w cs : List Char} {bs rest : Bytes} {b : UInt8} {c : Char}

theorem skipSpace_cons (h : isSpace b = false) : skipSpace (b :: bs) = b :: bs := by
  rw [skipSpace, List.dropWhile_cons, h]
  rfl

theorem Blank.ascii (hw : Blank w) (hc : c ∈ w) : c.toNat < 0x80 ∧ isSpace (byte c) = true := by
  obtain rfl | rfl | rfl | rfl := hw c hc <;> decide

theorem skipSpace_blank (hw : Blank w) : skipSpace (Utf8.encodeList w ++ bs) = skipSpace bs := by
  induction w with
  | nil => rfl
  | cons c w ih =>
    obtain ⟨hascii, hspace⟩ := hw.ascii List.mem_cons_self
    rw [Utf8.encodeList_cons, encodeChar_ascii hascii, List.append_assoc, List.singleton_append,
      skipSpace, List.dropWhile_cons, hspace]
    exact ih fun x hx => hw x (List.mem_cons_of_mem _ hx)

/-- The characters that a value may start with. -/
def Value.Opens : Value → Char → Prop
  | .null, c => c = 'n'
  | .bool _, c => c = 't' ∨ c = 'f'
  | .number _, c => c = '-' ∨ c.isDigit
  | .text _, c => c = '"'
  | .list _, c => c = '['
  | .object _, c => c = '\x7b'

/-- The characters that a part may start with, after white space. -/
def Part.Opens : Part → Char → Prop
  | .value v, c | .element v, c | .items (v :: _), c => v.Opens c
  | .items [], _ => False
  | .member _ _, c | .members _, c => c = '"'

theorem Unsigned.first (h : Unsigned cs) : ∃ c ds, cs = c :: ds ∧ c.isDigit := by
  obtain ⟨whole, fraction, exponent, hwhole, -, -, rfl⟩ := h
  obtain rfl | ⟨⟨hne, hdigits⟩, -⟩ := hwhole
  · exact ⟨'0', _, rfl, rfl⟩
  · obtain ⟨c, whole, rfl⟩ := List.exists_cons_of_ne_nil hne
    exact ⟨c, _, rfl, hdigits c List.mem_cons_self⟩

theorem NumberText.first (h : NumberText cs) : ∃ c ds, cs = c :: ds ∧ (c = '-' ∨ c.isDigit) := by
  obtain h | ⟨ds, -, rfl⟩ := h
  · obtain ⟨c, ds, rfl, hc⟩ := h.first
    exact ⟨c, ds, rfl, .inr hc⟩
  · exact ⟨'-', ds, rfl, .inl rfl⟩

theorem Spells.first {part : Part} (h : Spells cs part) :
    ∃ w c ds, cs = w ++ c :: ds ∧ Blank w ∧ part.Opens c := by
  have hnil : Blank [] := fun _ hc => absurd hc List.not_mem_nil
  induction h with
  | null => exact ⟨[], _, _, rfl, hnil, rfl⟩
  | true => exact ⟨[], _, _, rfl, hnil, .inl rfl⟩
  | false => exact ⟨[], _, _, rfl, hnil, .inr rfl⟩
  | number h =>
    obtain ⟨c, ds, rfl, hc⟩ := h.first
    exact ⟨[], c, ds, rfl, hnil, hc⟩
  | text | emptyList | list | emptyObject | object => exact ⟨[], _, _, rfl, hnil, rfl⟩
  | @element w _ more _ hw h _ ih =>
    obtain ⟨w', c, ds, rfl, hw', hc⟩ := ih
    refine ⟨w ++ w', c, ds ++ more, by simp, fun x hx => ?_, hc⟩
    exact (List.mem_append.mp hx).elim (hw x) (hw' x)
  | item h ih => exact ih
  | items h _ ih _ =>
    obtain ⟨w, c, ds, rfl, hw, hc⟩ := ih
    exact ⟨w, c, _, by rw [List.append_assoc, List.cons_append], hw, hc⟩
  | member hw _ _ h _ => exact ⟨_, '"', _, rfl, hw, rfl⟩
  | lastMember h ih => exact ih
  | members h _ ih _ =>
    obtain ⟨w, c, ds, rfl, hw, hc⟩ := ih
    exact ⟨w, c, _, by rw [List.append_assoc, List.cons_append], hw, hc⟩

theorem byte_digit (h : c.isDigit) : c.toNat < 0x80 ∧ isDigit (byte c) = true := by
  have hbounds : 48 ≤ c.toNat ∧ c.toNat ≤ 57 := by
    simpa [Char.isDigit, UInt32.le_iff_toNat_le] using h
  have hdigits : ∀ n < 58, 48 ≤ n → isDigit (UInt8.ofNat n) = true := by decide
  exact ⟨by omega, hdigits c.toNat (by omega) hbounds.1⟩

theorem byte_inj {x : Char} (hc : c.toNat < 0x80) (hx : x.toNat < 0x80) :
    byte c = byte x ↔ c = x := by
  refine ⟨fun h => Char.toNat_inj.mp ?_, congrArg byte⟩
  rw [byte, byte, ← UInt8.toNat_inj, UInt8.toNat_ofNat_of_lt' (Nat.lt_trans hc (by decide)),
    UInt8.toNat_ofNat_of_lt' (Nat.lt_trans hx (by decide))] at h
  exact h

/-- Only a text starts with a quote, and only lists and objects with their brackets. -/
theorem Value.Opens.kind {v : Value} (h : v.Opens c) : (c = '"' → ∃ s, v = .text s) ∧
    (c = '[' → ∃ vs, v = .list vs) ∧ (c = '\x7b' → ∃ ms, v = .object ms) := by
  cases v with
  | null | text | list | object =>
    obtain rfl : c = _ := h
    simp
  | bool | number => refine ⟨?_, ?_, ?_⟩ <;> rintro rfl <;> obtain h | h := h <;> cases h

theorem Value.Opens.cases {v : Value} (h : v.Opens c) :
    c.isDigit ∨ c ∈ ['n', 't', 'f', '-', '"', '[', '\x7b'] := by
  cases v with
  | bool => obtain rfl | rfl := h <;> simp
  | number => exact h.elim (fun hc => .inr (by simp [hc])) .inl
  | _ =>
    obtain rfl : c = _ := h
    simp

theorem Part.Opens.cases {part : Part} (h : part.Opens c) :
    c.isDigit ∨ c ∈ ['n', 't', 'f', '-', '"', '[', '\x7b'] := by
  cases part with
  | value v => exact Value.Opens.cases (v := v) h
  | element v => exact Value.Opens.cases (v := v) h
  | items vs =>
    cases vs with
    | nil => exact h.elim
    | cons v vs => exact Value.Opens.cases (v := v) h
  | member | members =>
    obtain rfl : c = _ := h
    simp

theorem byte_digit_ne {x : Char} (h : c.isDigit) (hx : x.toNat < 0x80) (hx' : x.isDigit = false) :
    (byte c == byte x) = false := by
  refine beq_eq_false_iff_ne.mpr fun heq => ?_
  rw [(byte_inj (byte_digit h).1 hx).mp heq, hx'] at h
  cases h

/-- The first character of a part is neither white space nor a closing bracket. -/
theorem Part.Opens.plain {part : Part} (h : part.Opens c) : c.toNat < 0x80 ∧
    isSpace (byte c) = false ∧ ∀ nest : Nest, (byte c == nest.close) = false := by
  obtain hdigit | hmem := h.cases
  · refine ⟨(byte_digit hdigit).1, ?_, fun nest => ?_⟩
    · simp only [isSpace, Bool.or_eq_false_iff]
      exact ⟨⟨⟨byte_digit_ne (x := ' ') hdigit (by decide) rfl,
        byte_digit_ne (x := '\n') hdigit (by decide) rfl⟩,
        byte_digit_ne (x := '\t') hdigit (by decide) rfl⟩,
        byte_digit_ne (x := '\r') hdigit (by decide) rfl⟩
    · cases nest with
      | list => exact byte_digit_ne (x := ']') hdigit (by decide) rfl
      | object => exact byte_digit_ne (x := '\x7d') hdigit (by decide) rfl
  · simp only [List.mem_cons, List.not_mem_nil, or_false] at hmem
    obtain rfl | rfl | rfl | rfl | rfl | rfl | rfl := hmem
    all_goals exact ⟨by decide, rfl, fun nest => by cases nest <;> rfl⟩

/-- What a part's text starts with after white space. -/
theorem Spells.skipSpace {part : Part} (h : Spells cs part) : ∃ c, part.Opens c ∧
    ∀ rest, ∃ tail, skipSpace (Utf8.encodeList cs ++ rest) = byte c :: tail := by
  obtain ⟨w, c, ds, rfl, hw, hc⟩ := h.first
  obtain ⟨hascii, hspace, -⟩ := hc.plain
  refine ⟨c, hc, fun rest => ⟨Utf8.encodeList ds ++ rest, ?_⟩⟩
  rw [Utf8.encodeList_append, List.append_assoc, skipSpace_blank hw, Utf8.encodeList_cons,
    encodeChar_ascii hascii]
  exact skipSpace_cons hspace

theorem Spells.length_pos {part : Part} (h : Spells cs part) :
    0 < (Utf8.encodeList cs).length := by
  obtain ⟨w, c, ds, rfl, -, hc⟩ := h.first
  rw [Utf8.encodeList_append, encodeList_cons_ascii hc.plain.1, List.length_append,
    List.length_cons]
  omega

end First

/-! ## Skipping a number -/

section Number

variable {whole fraction exponent cs ds : List Char} {rest : Bytes}

/-- Bytes that do not go on with a number. -/
structure NumberEnds (rest : Bytes) : Prop where
  digit : startsWithDigit rest = false
  exponent : startsWithExponent rest = false
  point : (rest.head? == some 0x2E) = false

theorem encodeList_digit {d : Char} (h : d.isDigit) :
    Utf8.encodeList (d :: ds) ++ rest = byte d :: (Utf8.encodeList ds ++ rest) := by
  rw [Utf8.encodeList_cons, encodeChar_ascii (byte_digit h).1]
  rfl

theorem Digits.starts (h : Digits ds) :
    startsWithDigit (Utf8.encodeList ds ++ rest) = true := by
  obtain ⟨d, ds, rfl⟩ := List.exists_cons_of_ne_nil h.1
  have hd := h.2 d List.mem_cons_self
  rw [encodeList_digit hd]
  exact (byte_digit hd).2

theorem dropWhile_digits (h : ∀ d ∈ ds, d.isDigit) (hrest : startsWithDigit rest = false) :
    (Utf8.encodeList ds ++ rest).dropWhile isDigit = rest := by
  induction ds with
  | nil =>
    cases rest with
    | nil => rfl
    | cons b bs => exact List.dropWhile_cons_of_neg (Bool.eq_false_iff.mp hrest)
  | cons d ds ih =>
    have hd := h d List.mem_cons_self
    rw [encodeList_digit hd, List.dropWhile_cons_of_pos (byte_digit hd).2]
    exact ih fun c hc => h c (List.mem_cons_of_mem _ hc)

theorem skipExponent_text (sign : Text.Sign) (h : Digits ds)
    (hrest : startsWithDigit rest = false) :
    skipExponent (Utf8.encodeList (sign.mark ++ ds) ++ rest) = .ok rest := by
  have hdone : ∀ bs, bs = Utf8.encodeList ds ++ rest →
      (if startsWithDigit bs then Except.ok (bs.dropWhile isDigit)
        else .error (Failure.here .invalidNumber bs)) = .ok rest := by
    rintro bs rfl
    rw [if_pos h.starts, dropWhile_digits h.2 hrest]
  refine hdone _ ?_
  cases sign with
  | absent =>
    obtain ⟨d, ds, rfl⟩ := List.exists_cons_of_ne_nil h.1
    have hd := h.2 d List.mem_cons_self
    obtain ⟨-, hdigit⟩ := byte_digit hd
    have hsign : byte d ≠ 0x2D ∧ byte d ≠ 0x2B := by
      constructor <;> intro heq <;> rw [heq] at hdigit <;> cases hdigit
    rw [Text.Sign.mark, List.nil_append, encodeList_digit hd]
    simp [hsign]
  | plus => rfl
  | minus => rfl

/-- An exponent, or none, is taken before what does not go on with a number. -/
theorem exponent_taken (h : Exponent exponent) (hrest : NumberEnds rest) :
    startsWithDigit (Utf8.encodeList exponent ++ rest) = false ∧
    ((Utf8.encodeList exponent ++ rest).head? == some 0x2E) = false ∧
    (if startsWithExponent (Utf8.encodeList exponent ++ rest) then
      skipExponent (Utf8.encodeList exponent ++ rest).tail
      else .ok (Utf8.encodeList exponent ++ rest)) = .ok rest := by
  obtain rfl | ⟨e, sign, ds, he, hds, rfl⟩ := h
  · exact ⟨hrest.digit, hrest.point, if_neg (by simp [hrest.exponent, Utf8.encodeList])⟩
  · have hbytes : Utf8.encodeList (e :: (sign.mark ++ ds)) ++ rest =
        byte e :: (Utf8.encodeList (sign.mark ++ ds) ++ rest) := by
      obtain rfl | rfl := he <;> rfl
    rw [hbytes]
    obtain rfl | rfl := he
    all_goals exact ⟨rfl, rfl, skipExponent_text sign hds hrest.digit⟩

theorem skipAfterWhole_text (h : Fraction fraction) (h' : Exponent exponent)
    (hrest : NumberEnds rest) :
    startsWithDigit (Utf8.encodeList (fraction ++ exponent) ++ rest) = false ∧
    skipAfterWhole (Utf8.encodeList (fraction ++ exponent) ++ rest) = .ok rest := by
  obtain ⟨hdigit, hpoint, htaken⟩ := exponent_taken h' hrest
  obtain rfl | ⟨ds, hds, rfl⟩ := h
  · refine ⟨hdigit, ?_⟩
    rw [skipAfterWhole, List.nil_append, hpoint]
    exact htaken
  · refine ⟨rfl, ?_⟩
    have hfraction : skipFraction (Utf8.encodeList (ds ++ exponent) ++ rest) = .ok rest := by
      rw [Utf8.encodeList_append, List.append_assoc]
      simp only [skipFraction, dropWhile_digits hds.2 hdigit, hds.starts, Bool.not_true,
        Bool.false_eq_true, if_false]
      exact htaken
    exact hfraction

theorem skipNumber_unsigned (h : Unsigned cs) (hrest : NumberEnds rest) :
    skipNumber (Utf8.encodeList cs ++ rest) = .ok rest := by
  obtain ⟨whole, fraction, exponent, hwhole, hfraction, hexponent, rfl⟩ := h
  obtain ⟨hdigit, hafter⟩ := skipAfterWhole_text hfraction hexponent hrest
  obtain rfl | ⟨⟨hne, hdigits⟩, hzero⟩ := hwhole
  · have hbytes : Utf8.encodeList (['0'] ++ (fraction ++ exponent)) ++ rest =
        0x30 :: (Utf8.encodeList (fraction ++ exponent) ++ rest) := rfl
    rw [hbytes]
    simp only [skipNumber, beq_self_eq_true, if_true, hdigit, Bool.false_eq_true, if_false, hafter]
  · obtain ⟨d, ds, rfl⟩ := List.exists_cons_of_ne_nil hne
    have hd := hdigits d List.mem_cons_self
    obtain ⟨hascii, hbyte⟩ := byte_digit hd
    have hnot : byte d ≠ 0x30 := fun heq =>
      hzero (congrArg some ((byte_inj (x := '0') hascii (by decide)).mp heq))
    rw [List.cons_append, encodeList_digit hd, Utf8.encodeList_append, List.append_assoc,
      skipNumber, beq_eq_false_iff_ne.mpr hnot, if_neg Bool.false_ne_true, hbyte, if_pos rfl,
      dropWhile_digits (fun c hc => hdigits c (List.mem_cons_of_mem _ hc)) hdigit, hafter]

end Number

/-! ## Skipping a value -/

section Skip

variable {nest : Nest} {nests : List Nest} {w cs lit s : List Char} {b c : UInt8}
  {bs rest left tail : Bytes}

theorem skip_value_eq (nests : List Nest) (bs : Bytes) : skip nests .value bs =
    match skipSpace bs with
    | [] => .error (.after .endInValue [])
    | b :: rest =>
      match skipScalar b rest with
      | .error failure => .error failure
      | .ok (none, left) => skip nests .next left
      | .ok (some nest, left) =>
        match skipSpace left with
        | [] => .error (.after nest.ended [])
        | c :: tail =>
          if c == nest.close then skip nests .next tail
          else skip (nest :: nests) nest.element left := by
  rw [skip.eq_def]
  split <;> simp_all
  split <;> simp_all
  split <;> simp_all

theorem skip_scalar (hb : isSpace b = false) (h : skipScalar b rest = .ok (none, left)) :
    skip nests .value (b :: rest) = skip nests .next left := by
  simp only [skip_value_eq, skipSpace_cons hb, h]

theorem skip_empty (hb : isSpace b = false) (h : skipScalar b rest = .ok (some nest, left))
    (hclose : skipSpace left = nest.close :: tail) :
    skip nests .value (b :: rest) = skip nests .next tail := by
  simp only [skip_value_eq, skipSpace_cons hb, h, hclose, beq_self_eq_true, if_true]

theorem skip_open (hb : isSpace b = false) (h : skipScalar b rest = .ok (some nest, left))
    (hnext : skipSpace left = c :: tail) (hc : (c == nest.close) = false) :
    skip nests .value (b :: rest) = skip (nest :: nests) nest.element left := by
  simp only [skip_value_eq, skipSpace_cons hb, h, hnext, hc, Bool.false_eq_true, if_false]

theorem skip_key (h : skipSpace bs = byte '"' :: rest) (hkey : skipKey rest = .ok left) :
    skip nests .key bs = skip nests .value left := by
  rw [skip.eq_def]
  split <;> simp_all
  split <;> simp_all

theorem skip_next_eq (nest : Nest) (nests : List Nest) (bs : Bytes) :
    skip (nest :: nests) .next bs =
    match skipSpace bs with
    | [] => .error (.after nest.ended [])
    | b :: rest =>
      if b == byte ',' then skip (nest :: nests) nest.element rest
      else if b == nest.close then skip nests .next rest
      else .error (.after nest.expected rest) := by
  rw [skip.eq_def]
  split <;> simp_all

theorem Blank.numberEnds (hw : Blank w) (hrest : NumberEnds rest) :
    NumberEnds (Utf8.encodeList w ++ rest) := by
  cases w with
  | nil => exact hrest
  | cons c w =>
    obtain rfl | rfl | rfl | rfl := hw c List.mem_cons_self
    all_goals exact ⟨rfl, rfl, rfl⟩

theorem numberEnds_comma : NumberEnds (byte ',' :: rest) := ⟨rfl, rfl, rfl⟩

theorem numberEnds_close (nest : Nest) : NumberEnds (nest.close :: rest) := by
  cases nest <;> exact ⟨rfl, rfl, rfl⟩

theorem skip_done : skip [] .next bs = .ok bs := by
  rw [skip.eq_def]
  split <;> simp_all

theorem skip_value_blank (hw : Blank w) : skip nests .value (Utf8.encodeList w ++ bs) =
    skip nests .value bs := by
  rw [skip_value_eq, skip_value_eq, skipSpace_blank hw]

theorem skip_next_blank (hw : Blank w) : skip (nest :: nests) .next (Utf8.encodeList w ++ bs) =
    skip (nest :: nests) .next bs := by
  rw [skip_next_eq, skip_next_eq, skipSpace_blank hw]

theorem skip_next_comma : skip (nest :: nests) .next (byte ',' :: bs) =
    skip (nest :: nests) nest.element bs := by
  rw [skip_next_eq, skipSpace_cons rfl]
  exact if_pos rfl

theorem skip_next_close : skip (nest :: nests) .next (nest.close :: bs) =
    skip nests .next bs := by
  rw [skip_next_eq, skipSpace_cons (by cases nest <;> rfl)]
  cases nest <;> rfl

theorem skipKey_text (h : Denotes lit s) (hw : Blank w) :
    skipKey (Utf8.encodeList (lit ++ '"' :: (w ++ ':' :: cs)) ++ rest) =
      .ok (Utf8.encodeList cs ++ rest) := by
  have hbytes : Utf8.encodeList (lit ++ '"' :: (w ++ ':' :: cs)) ++ rest =
      Utf8.encodeList lit ++ byte '"' ::
        (Utf8.encodeList w ++ byte ':' :: (Utf8.encodeList cs ++ rest)) := by
    rw [Utf8.encodeList_append, encodeList_cons_ascii (by decide), Utf8.encodeList_append,
      encodeList_cons_ascii (by decide)]
    simp only [List.append_assoc, List.cons_append]
  rw [hbytes, skipKey, skipLiteral_denotes h]
  simp only [skipSpace_blank hw, skipSpace_cons (b := byte ':') rfl]
  rfl

theorem skipScalar_number (h : NumberText cs) (hrest : NumberEnds rest) :
    ∃ b tail, Utf8.encodeList cs ++ rest = b :: tail ∧ isSpace b = false ∧
      skipScalar b tail = .ok (none, rest) := by
  obtain h | ⟨ds, h, rfl⟩ := h
  · obtain ⟨d, ds, rfl, hd⟩ := h.first
    have hnumber := skipNumber_unsigned h hrest
    have hopens : (Part.value (.number [])).Opens d := .inr hd
    rw [encodeList_digit hd] at hnumber ⊢
    refine ⟨_, _, rfl, hopens.plain.2.1, ?_⟩
    have hne : ∀ {x : Char}, x.toNat < 0x80 → x.isDigit = false → (byte d == byte x) = false :=
      byte_digit_ne hd
    simp only [skipScalar, hne (x := 'n') (by decide) rfl, hne (x := 't') (by decide) rfl,
      hne (x := 'f') (by decide) rfl, hne (x := '-') (by decide) rfl, (byte_digit hd).2,
      Bool.false_eq_true, if_false, if_true, hnumber]
    rfl
  · refine ⟨byte '-', Utf8.encodeList ds ++ rest, rfl, rfl, ?_⟩
    have hscalar : skipScalar (byte '-') (Utf8.encodeList ds ++ rest) =
        (skipNumber (Utf8.encodeList ds ++ rest)).map (none, ·) := rfl
    rw [hscalar, skipNumber_unsigned h hrest]
    rfl

/-- What skipping makes of the texts of a part: it is taken, and what follows it comes next. -/
def Skipped (cs : List Char) : Part → Prop
  | .value _ => ∀ nests rest, NumberEnds rest →
    skip nests .value (Utf8.encodeList cs ++ rest) = skip nests .next rest
  | .element _ => ∀ nest nests rest, NumberEnds rest →
    skip (nest :: nests) .value (Utf8.encodeList cs ++ rest) = skip (nest :: nests) .next rest
  | .member _ _ => ∀ nests rest, NumberEnds rest →
    skip (.object :: nests) .key (Utf8.encodeList cs ++ rest) = skip (.object :: nests) .next rest
  | .items _ => ∀ nests rest,
    skip (.list :: nests) .value (Utf8.encodeList cs ++ Nest.list.close :: rest) =
      skip nests .next rest
  | .members _ => ∀ nests rest,
    skip (.object :: nests) .key (Utf8.encodeList cs ++ Nest.object.close :: rest) =
      skip nests .next rest

/-- Texts between brackets, and the bracket that closes them. -/
theorem encodeList_closed (nest : Nest) (x : Char) (hx : byte x = nest.close)
    (hascii : x.toNat < 0x80) :
    Utf8.encodeList (cs ++ [x]) ++ rest = Utf8.encodeList cs ++ nest.close :: rest := by
  rw [Utf8.encodeList_append, encodeList_cons_ascii hascii, hx, List.append_assoc]
  rfl

theorem Spells.skipped {part : Part} (h : Spells cs part) : Skipped cs part := by
  induction h with
  | null =>
    intro nests rest _
    exact skip_scalar rfl rfl
  | true =>
    intro nests rest _
    exact skip_scalar rfl rfl
  | false =>
    intro nests rest _
    exact skip_scalar rfl rfl
  | number h =>
    intro nests rest hrest
    obtain ⟨b, tail, hbytes, hspace, hscalar⟩ := skipScalar_number h hrest
    rw [hbytes]
    exact skip_scalar hspace hscalar
  | @text lit _ h =>
    intro nests rest _
    have hscalar : skipScalar (byte '"') (Utf8.encodeList lit ++ byte '"' :: rest) =
        .ok (none, rest) := by
      show (skipLiteral _).map _ = _
      rw [skipLiteral_denotes h]
      rfl
    rw [encodeList_cons_ascii (by decide), Utf8.encodeList_append, List.cons_append,
      List.append_assoc]
    exact skip_scalar rfl hscalar
  | emptyList hw =>
    intro nests rest _
    rw [encodeList_cons_ascii (by decide), List.cons_append,
      encodeList_closed .list ']' rfl (by decide)]
    exact skip_empty rfl rfl ((skipSpace_blank hw).trans (skipSpace_cons rfl))
  | list h ih =>
    intro nests rest _
    obtain ⟨c, hc, hfirst⟩ := h.skipSpace
    obtain ⟨tail, htail⟩ := hfirst (Nest.list.close :: rest)
    rw [encodeList_cons_ascii (by decide), List.cons_append,
      encodeList_closed .list ']' rfl (by decide), skip_open rfl rfl htail (hc.plain.2.2 .list)]
    exact ih nests rest
  | emptyObject hw =>
    intro nests rest _
    rw [encodeList_cons_ascii (by decide), List.cons_append,
      encodeList_closed .object '\x7d' rfl (by decide)]
    exact skip_empty rfl rfl ((skipSpace_blank hw).trans (skipSpace_cons rfl))
  | object h ih =>
    intro nests rest _
    obtain ⟨c, hc, hfirst⟩ := h.skipSpace
    obtain ⟨tail, htail⟩ := hfirst (Nest.object.close :: rest)
    rw [encodeList_cons_ascii (by decide), List.cons_append,
      encodeList_closed .object '\x7d' rfl (by decide),
      skip_open rfl rfl htail (hc.plain.2.2 .object)]
    exact ih nests rest
  | @element w cs w' _ hw h hw' ih =>
    intro nest nests rest hrest
    rw [Utf8.encodeList_append, Utf8.encodeList_append, List.append_assoc, List.append_assoc,
      skip_value_blank hw, ih _ _ (hw'.numberEnds hrest), skip_next_blank hw']
  | item h ih =>
    intro nests rest
    rw [ih _ _ _ (numberEnds_close _), skip_next_close]
  | items h hmore ih ihmore =>
    intro nests rest
    rw [Utf8.encodeList_append, encodeList_cons_ascii (by decide), List.append_assoc,
      List.cons_append, ih _ _ _ numberEnds_comma, skip_next_comma]
    exact ihmore nests rest
  | @member w lit w' cs key v hw hkey hw' h ih =>
    intro nests rest hrest
    rw [Utf8.encodeList_append, encodeList_cons_ascii (by decide), List.append_assoc,
      List.cons_append, skip_key ((skipSpace_blank hw).trans (skipSpace_cons rfl))
        (skipKey_text hkey hw')]
    exact ih _ _ _ hrest
  | lastMember h ih =>
    intro nests rest
    rw [ih _ _ (numberEnds_close _), skip_next_close]
  | members h hmore ih ihmore =>
    intro nests rest
    rw [Utf8.encodeList_append, encodeList_cons_ascii (by decide), List.append_assoc,
      List.cons_append, ih _ _ numberEnds_comma, skip_next_comma]
    exact ihmore nests rest

end Skip

end DiagramService.Json
