import DiagramService.Json.Failure

/-!
# String literals

A string literal of JSON stands in double quotes, with escapes for what cannot stand there raw.
`readLiteral` gives the text that a literal denotes and `skipLiteral` only finds its end, with fewer
demands: escapes of surrogates need no partner there. Control characters are refused by both.
`literal` writes a text so that reading gives it back.
-/

namespace DiagramService.Json

/-- The byte of an ASCII character. -/
def byte (c : Char) : UInt8 :=
  UInt8.ofNat c.toNat

/-- The value of a hexadecimal digit. -/
def hexDigit? (b : UInt8) : Option Nat :=
  let n := b.toNat
  if 0x30 ≤ n && n ≤ 0x39 then some (n - 0x30)
  else if 0x41 ≤ n && n ≤ 0x46 then some (n - 0x37)
  else if 0x61 ≤ n && n ≤ 0x66 then some (n - 0x57)
  else none

/-- The value of four hexadecimal digits. -/
def hexValue? (a b c d : UInt8) : Option Nat := do
  return ((← hexDigit? a) * 16 + (← hexDigit? b)) * 256 + ((← hexDigit? c) * 16 + (← hexDigit? d))

/-- Takes four hexadecimal digits. -/
def readHex : Bytes → Except Failure (Nat × Bytes)
  | a :: b :: c :: d :: rest =>
    match hexValue? a b c d with
    | some n => .ok (n, rest)
    | none => .error (.after .invalidEscape rest)
  | _ => .error (.after .endInText [])

/-- What a short escape stands for. -/
def shortEscape? (b : UInt8) : Option Char :=
  if b == byte '"' then some '"'
  else if b == byte '\\' then some '\\'
  else if b == byte '/' then some '/'
  else if b == byte 'b' then some '\x08'
  else if b == byte 'f' then some '\x0c'
  else if b == byte 'n' then some '\n'
  else if b == byte 'r' then some '\r'
  else if b == byte 't' then some '\t'
  else none

/-- Takes the second half of a surrogate pair. -/
def readPartner (high : Nat) : Bytes → Except Failure (Char × Bytes)
  | [] => .error (.after .endInText [])
  | a :: rest =>
    if a != byte '\\' then .error (.after .shortHexEscape rest)
    else
      match rest with
      | [] => .error (.after .endInText [])
      | b :: rest =>
        if b != byte 'u' then .error (.after .shortHexEscape rest)
        else
          match readHex rest with
          | .error failure => .error failure
          | .ok (low, rest) =>
            if low < 0xDC00 || 0xDFFF < low then .error (.after .loneSurrogate rest)
            else .ok (Char.ofNat ((high - 0xD800) * 1024 + (low - 0xDC00) + 0x10000), rest)

/-- Takes the digits of a `\u` escape, and of its partner if it has one. -/
def readUnicode (bs : Bytes) : Except Failure (Char × Bytes) :=
  match readHex bs with
  | .error failure => .error failure
  | .ok (n, rest) =>
    if 0xDC00 ≤ n && n ≤ 0xDFFF then .error (.after .loneSurrogate rest)
    else if 0xD800 ≤ n && n ≤ 0xDBFF then readPartner n rest
    else .ok (Char.ofNat n, rest)

/-- Takes what follows a backslash. -/
def readEscape : Bytes → Except Failure (Char × Bytes)
  | [] => .error (.after .endInText [])
  | b :: rest =>
    if b == byte 'u' then readUnicode rest
    else
      match shortEscape? b with
      | some c => .ok (c, rest)
      | none => .error (.after .invalidEscape rest)

theorem readHex_le {bs : Bytes} {n : Nat} {rest : Bytes} (h : readHex bs = .ok (n, rest)) :
    rest.length ≤ bs.length := by
  unfold readHex at h
  split at h
  · split at h
    · cases h; simp; omega
    · cases h
  · cases h

theorem readPartner_le {high : Nat} {bs : Bytes} {c : Char} {rest : Bytes}
    (h : readPartner high bs = .ok (c, rest)) : rest.length ≤ bs.length := by
  unfold readPartner at h
  split at h
  · cases h
  · split at h
    · cases h
    · split at h
      · cases h
      · split at h
        · cases h
        · split at h
          · cases h
          · rename_i heq
            have le := readHex_le heq
            split at h
            · cases h
            · simp only [Except.ok.injEq, Prod.mk.injEq] at h
              obtain ⟨-, rfl⟩ := h
              simp only [List.length_cons]
              omega

theorem readEscape_le {bs : Bytes} {c : Char} {rest : Bytes}
    (h : readEscape bs = .ok (c, rest)) : rest.length ≤ bs.length := by
  unfold readEscape at h
  split at h
  · cases h
  · split at h
    · unfold readUnicode at h
      split at h
      · cases h
      · rename_i heq
        have le := readHex_le heq
        split at h
        · cases h
        · split at h
          · have := readPartner_le h
            simp only [List.length_cons]
            omega
          · simp only [Except.ok.injEq, Prod.mk.injEq] at h
            obtain ⟨-, rfl⟩ := h
            simp only [List.length_cons]
            omega
    · split at h
      · simp only [Except.ok.injEq, Prod.mk.injEq] at h
        obtain ⟨-, rfl⟩ := h
        simp
      · cases h

/-- Takes the characters of a literal up to its closing quote. The first piece that is no character
is remembered by the bytes after its first byte, and refused when the literal is complete. -/
def readLiteralOnto (done : List Char) (bad : Option Bytes) : Bytes →
    Except Failure (List Char × Bytes)
  | [] => .error (.after .endInText [])
  | b :: bs =>
    if b == byte '"' then
      match bad with
      | some rest => .error (.after .invalidCodePoint rest)
      | none => .ok (done.reverse, bs)
    else if b == byte '\\' then
      match h : readEscape bs with
      | .error failure => .error failure
      | .ok (c, rest) =>
        have := readEscape_le h
        readLiteralOnto (c :: done) bad rest
    else if b < 0x20 then .error (.after .controlCharacter bs)
    else
      have le := Utf8.first_rest_le b bs
      match h : Utf8.first b bs with
      | .char c rest =>
        have : rest.length ≤ bs.length := by simpa [h, Utf8.First.rest] using le
        readLiteralOnto (c :: done) bad rest
      | .bad rest =>
        have : rest.length ≤ bs.length := by simpa [h, Utf8.First.rest] using le
        readLiteralOnto done (bad <|> some bs) rest
termination_by bs => bs.length
decreasing_by all_goals (simp; omega)

/-- Takes a literal after its opening quote and gives the text it denotes. -/
def readLiteral (bs : Bytes) : Except Failure (String × Bytes) :=
  (readLiteralOnto [] none bs).map fun r => (String.ofList r.1, r.2)

/-- Takes what follows a backslash in a literal that is only skipped. -/
def skipEscape : Bytes → Except Failure Bytes
  | [] => .error (.after .endInText [])
  | b :: rest =>
    if b == byte 'u' then (readHex rest).map (·.2)
    else if (shortEscape? b).isSome then .ok rest
    else .error (.after .invalidEscape rest)

theorem skipEscape_le {bs rest : Bytes} (h : skipEscape bs = .ok rest) :
    rest.length ≤ bs.length := by
  unfold skipEscape at h
  split at h
  · cases h
  · split at h
    · rename_i tail _
      cases hx : readHex tail with
      | error failure => rw [hx] at h; cases h
      | ok pair =>
        rw [hx] at h
        cases h
        have := readHex_le hx
        simp only [List.length_cons]
        omega
    · split at h
      · cases h; simp
      · cases h

/-- Finds the end of a literal after its opening quote. -/
def skipLiteral : Bytes → Except Failure Bytes
  | [] => .error (.after .endInText [])
  | b :: bs =>
    if b == byte '"' then .ok bs
    else if b == byte '\\' then
      match h : skipEscape bs with
      | .error failure => .error failure
      | .ok rest =>
        have := skipEscape_le h
        skipLiteral rest
    else if b < 0x20 then .error (.after .controlCharacter (b :: bs))
    else skipLiteral bs
termination_by bs => bs.length
decreasing_by all_goals (simp; try omega)

theorem skipLiteral_le {bs rest : Bytes} (h : skipLiteral bs = .ok rest) :
    rest.length ≤ bs.length := by
  fun_induction skipLiteral bs with
  | case1 => cases h
  | case2 => cases h; simp
  | case3 => cases h
  | case4 b bs _ _ tail htail le ih =>
    have := ih h
    simp only [List.length_cons]
    omega
  | case5 => cases h
  | case6 b bs _ _ _ ih =>
    have := ih h
    simp only [List.length_cons]
    omega

/-- A hexadecimal digit in lower case. -/
def hexChar (n : Nat) : Char :=
  Nat.digitChar n

/-- A character as a literal holds it. -/
def escapeChar (c : Char) : List Char :=
  if c == '"' || c == '\\' then ['\\', c]
  else if c == '\x08' then ['\\', 'b']
  else if c == '\x0c' then ['\\', 'f']
  else if c == '\n' then ['\\', 'n']
  else if c == '\r' then ['\\', 'r']
  else if c == '\t' then ['\\', 't']
  else if c.toNat < 0x20 then
    ['\\', 'u', '0', '0', hexChar (c.toNat / 16), hexChar (c.toNat % 16)]
  else [c]

/-- The literal that denotes a text. -/
def literal (s : String) : List Char :=
  '"' :: s.toList.flatMap escapeChar ++ ['"']

end DiagramService.Json
