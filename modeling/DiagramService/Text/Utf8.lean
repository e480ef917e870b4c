/-!
# Text as bytes

Contents are lists of bytes, and text is written in UTF-8. `decode?` reads back exactly what
`encode` writes and nothing else: overlong forms, surrogates and values past the last character are
refused. `decodeLossy` reads any bytes, with one replacement character for each longest piece that
begins a character and does not finish it.
-/

namespace DiagramService

/-- The contents of a file or a body. -/
abbrev Bytes := List UInt8

namespace Utf8

/-- The bytes of a text. -/
def encodeList (cs : List Char) : Bytes :=
  cs.flatMap String.utf8EncodeChar

/-- The bytes of a text. -/
def encode (s : String) : Bytes :=
  encodeList s.toList

/-- What the first bytes of a sequence are. -/
inductive First where
  /-- A character, and the bytes after it. -/
  | char (c : Char) (rest : Bytes)
  /-- A piece that no character starts with, and the bytes after it. -/
  | bad (rest : Bytes)

/-- A byte that continues a character. -/
def isTail (b : UInt8) : Bool :=
  0x80 ≤ b && b ≤ 0xBF

/-- The six bits that a continuation byte carries. -/
def tailBits (b : UInt8) : Nat :=
  b.toNat % 64

/-- The smallest second byte allowed after a lead byte. -/
def secondLow (lead : UInt8) : UInt8 :=
  if lead == 0xE0 then 0xA0 else if lead == 0xF0 then 0x90 else 0x80

/-- The largest second byte allowed after a lead byte. -/
def secondHigh (lead : UInt8) : UInt8 :=
  if lead == 0xED then 0x9F else if lead == 0xF4 then 0x8F else 0xBF

/-- A character of two bytes. -/
def first2 (a : UInt8) : Bytes → First
  | b :: rest =>
    if isTail b then .char (Char.ofNat (a.toNat % 32 * 64 + tailBits b)) rest else .bad (b :: rest)
  | [] => .bad []

/-- A character of three bytes. -/
def first3 (a : UInt8) : Bytes → First
  | b :: rest =>
    if secondLow a ≤ b && b ≤ secondHigh a then
      match rest with
      | c :: rest =>
        if isTail c then
          .char (Char.ofNat (a.toNat % 16 * 4096 + tailBits b * 64 + tailBits c)) rest
        else .bad (c :: rest)
      | [] => .bad []
    else .bad (b :: rest)
  | [] => .bad []

/-- A character of four bytes. -/
def first4 (a : UInt8) : Bytes → First
  | b :: rest =>
    if secondLow a ≤ b && b ≤ secondHigh a then
      match rest with
      | c :: rest =>
        if isTail c then
          match rest with
          | d :: rest =>
            if isTail d then
              .char (Char.ofNat
                (a.toNat % 8 * 262144 + tailBits b * 4096 + tailBits c * 64 + tailBits d)) rest
            else .bad (d :: rest)
          | [] => .bad []
        else .bad (c :: rest)
      | [] => .bad []
    else .bad (b :: rest)
  | [] => .bad []

/-- The first character of a non-empty sequence, or the piece to give up. -/
def first (a : UInt8) (rest : Bytes) : First :=
  if a < 0x80 then .char (Char.ofNat a.toNat) rest
  else if 0xC2 ≤ a && a ≤ 0xDF then first2 a rest
  else if 0xE0 ≤ a && a ≤ 0xEF then first3 a rest
  else if 0xF0 ≤ a && a ≤ 0xF4 then first4 a rest
  else .bad rest

/-- The bytes left after the first character or piece. -/
def First.rest : First → Bytes
  | .char _ rest => rest
  | .bad rest => rest

theorem first2_rest_le (a : UInt8) (bs : Bytes) : (first2 a bs).rest.length ≤ bs.length := by
  fun_cases first2 a bs <;> simp [First.rest]

theorem first3_rest_le (a : UInt8) (bs : Bytes) : (first3 a bs).rest.length ≤ bs.length := by
  fun_cases first3 a bs <;> simp [First.rest]; omega

theorem first4_rest_le (a : UInt8) (bs : Bytes) : (first4 a bs).rest.length ≤ bs.length := by
  fun_cases first4 a bs <;> simp [First.rest]; omega

/-- The first step never gives back a byte, so reading ends. -/
theorem first_rest_le (a : UInt8) (bs : Bytes) : (first a bs).rest.length ≤ bs.length := by
  unfold first
  split
  · simp [First.rest]
  · split
    · exact first2_rest_le a bs
    · split
      · exact first3_rest_le a bs
      · split
        · exact first4_rest_le a bs
        · simp [First.rest]

/-- Reads characters from the front, newest last read first. -/
def decodeOnto (done : List Char) : Bytes → Option (List Char)
  | [] => some done.reverse
  | a :: bs =>
    match h : first a bs with
    | .char c rest =>
      have : rest.length ≤ bs.length := by simpa [h, First.rest] using first_rest_le a bs
      decodeOnto (c :: done) rest
    | .bad _ => none
termination_by bs => bs.length
decreasing_by simp; omega

/-- The text that the bytes encode, if they are well formed. -/
def decode? (bs : Bytes) : Option String :=
  (decodeOnto [] bs).map String.ofList

/-- Reads characters from the front, with a replacement for each bad piece. -/
def decodeLossyOnto (done : List Char) : Bytes → List Char
  | [] => done.reverse
  | a :: bs =>
    have le := first_rest_le a bs
    match h : first a bs with
    | .char c rest =>
      have : rest.length ≤ bs.length := by simpa [h, First.rest] using le
      decodeLossyOnto (c :: done) rest
    | .bad rest =>
      have : rest.length ≤ bs.length := by simpa [h, First.rest] using le
      decodeLossyOnto ('\uFFFD' :: done) rest
termination_by bs => bs.length
decreasing_by all_goals (simp; omega)

/-- The text that the bytes encode, with the replacement character where they are ill formed. -/
def decodeLossy (bs : Bytes) : String :=
  String.ofList (decodeLossyOnto [] bs)

end Utf8

end DiagramService
