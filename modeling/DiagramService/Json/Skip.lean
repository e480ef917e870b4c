import DiagramService.Json.Literal
import DiagramService.Json.Numeral

/-!
# Skipping a value

The value of an unknown member is checked and dropped. Lists and objects may be nested to any depth:
the open ones stand on a stack, and every step takes a byte.
-/

namespace DiagramService.Json

/-- White space between tokens. -/
def isSpace (b : UInt8) : Bool :=
  b == 0x20 || b == 0x0A || b == 0x09 || b == 0x0D

/-- The bytes from the next token on. -/
def skipSpace (bs : Bytes) : Bytes :=
  bs.dropWhile isSpace

theorem skipSpace_le (bs : Bytes) : (skipSpace bs).length ≤ bs.length :=
  length_dropWhile_le ..

/-- Taking a token's first byte leaves fewer bytes. -/
theorem lt_of_skipSpace {b : UInt8} {bs rest : Bytes} (h : skipSpace bs = b :: rest) :
    rest.length < bs.length := by
  have le := skipSpace_le bs
  rw [h] at le
  exact le

/-- Takes the rest of a word such as `null`. -/
def readWord : List Char → Bytes → Except Failure Bytes
  | [], bs => .ok bs
  | _ :: _, [] => .error (.after .endInValue [])
  | c :: cs, b :: bs => if b == byte c then readWord cs bs else .error (.after .expectedWord bs)

theorem readWord_le {cs : List Char} {bs rest : Bytes} (h : readWord cs bs = .ok rest) :
    rest.length ≤ bs.length := by
  induction cs generalizing bs with
  | nil => cases h; exact Nat.le_refl _
  | cons c cs ih =>
    cases bs with
    | nil => cases h
    | cons b bs =>
      simp only [readWord] at h
      split at h
      · exact Nat.le_trans (ih h) (Nat.le_succ _)
      · cases h

/-- An open list or object. -/
inductive Nest where
  | list
  | object
deriving DecidableEq, Repr

/-- What is missing where a list or object goes on. -/
def Nest.expected : Nest → Cause
  | .list => .expectedListEnd
  | .object => .expectedObjectEnd

/-- What is missing where the bytes end inside. -/
def Nest.ended : Nest → Cause
  | .list => .endInList
  | .object => .endInObject

/-- The bracket that closes it. -/
def Nest.close : Nest → UInt8
  | .list => byte ']'
  | .object => byte '\x7d'

/-- What stands between the values of open lists and objects. -/
inductive SkipTask where
  /-- A value. -/
  | value
  /-- A key and its colon, then a value. -/
  | key
  /-- The end of a value just taken: a comma or a bracket. -/
  | next
deriving DecidableEq, Repr

/-- What an open list or object starts its next element with. -/
def Nest.element : Nest → SkipTask
  | .list => .value
  | .object => .key

/-- A value that is no list or object, or the bracket that opens one. -/
def skipScalar (b : UInt8) (bs : Bytes) : Except Failure (Option Nest × Bytes) :=
  if b == byte 'n' then (readWord ['u', 'l', 'l'] bs).map (none, ·)
  else if b == byte 't' then (readWord ['r', 'u', 'e'] bs).map (none, ·)
  else if b == byte 'f' then (readWord ['a', 'l', 's', 'e'] bs).map (none, ·)
  else if b == byte '-' then (skipNumber bs).map (none, ·)
  else if isDigit b then (skipNumber (b :: bs)).map (none, ·)
  else if b == byte '"' then (skipLiteral bs).map (none, ·)
  else if b == byte '[' then .ok (some .list, bs)
  else if b == byte '\x7b' then .ok (some .object, bs)
  else .error (.after .expectedValue bs)

theorem map_pair_eq_ok {r : Except Failure Bytes} {nest : Option Nest} {rest : Bytes}
    (h : r.map (none, ·) = .ok (nest, rest)) : r = .ok rest := by
  cases r with
  | error failure => cases h
  | ok bs => cases h; rfl

theorem skipScalar_le {b : UInt8} {bs rest : Bytes} {nest : Option Nest}
    (h : skipScalar b bs = .ok (nest, rest)) : rest.length ≤ bs.length := by
  unfold skipScalar at h
  split at h
  · exact readWord_le (map_pair_eq_ok h)
  split at h
  · exact readWord_le (map_pair_eq_ok h)
  split at h
  · exact readWord_le (map_pair_eq_ok h)
  split at h
  · exact Nat.le_of_lt (skipNumber_lt (map_pair_eq_ok h))
  split at h
  · exact Nat.le_of_lt_succ (skipNumber_lt (map_pair_eq_ok h))
  split at h
  · exact skipLiteral_le (map_pair_eq_ok h)
  split at h
  · cases h; exact Nat.le_refl _
  split at h
  · cases h; exact Nat.le_refl _
  · cases h

/-- Takes a key up to its colon, after the opening quote. -/
def skipKey (bs : Bytes) : Except Failure Bytes :=
  match skipLiteral bs with
  | .error failure => .error failure
  | .ok rest =>
    match skipSpace rest with
    | [] => .error (.after .endInObject [])
    | c :: rest => if c == byte ':' then .ok rest else .error (.after .expectedColon rest)

theorem skipKey_le {bs rest : Bytes} (h : skipKey bs = .ok rest) : rest.length ≤ bs.length := by
  unfold skipKey at h
  split at h
  · cases h
  · rename_i tail heq
    split at h
    · cases h
    · rename_i c cs heq'
      split at h
      · cases h
        exact Nat.le_of_lt (Nat.lt_of_lt_of_le (lt_of_skipSpace heq') (skipLiteral_le heq))
      · cases h

/-- Takes the values that are left to take, the innermost open list or object first. -/
def skip (nests : List Nest) (task : SkipTask) (bs : Bytes) : Except Failure Bytes :=
  match task, hs : skipSpace bs with
  | .value, [] => .error (.after .endInValue [])
  | .value, b :: rest =>
    match h : skipScalar b rest with
    | .error failure => .error failure
    | .ok (none, left) =>
      have : left.length < bs.length := Nat.lt_of_le_of_lt (skipScalar_le h) (lt_of_skipSpace hs)
      skip nests .next left
    | .ok (some nest, left) =>
      match hl : skipSpace left with
      | [] => .error (.after nest.ended [])
      | c :: tail =>
        have lt := Nat.lt_of_le_of_lt (skipScalar_le h) (lt_of_skipSpace hs)
        have : left.length < bs.length := lt
        have : tail.length < bs.length := Nat.lt_trans (lt_of_skipSpace hl) lt
        if c == nest.close then skip nests .next tail else skip (nest :: nests) nest.element left
  | .key, [] => .error (.after .endInObject [])
  | .key, b :: rest =>
    if b == byte '"' then
      match h : skipKey rest with
      | .error failure => .error failure
      | .ok left =>
        have : left.length < bs.length := Nat.lt_of_le_of_lt (skipKey_le h) (lt_of_skipSpace hs)
        skip nests .value left
    else .error (.after .keyNotText rest)
  | .next, [] =>
    match nests with
    | [] => .ok bs
    | nest :: _ => .error (.after nest.ended [])
  | .next, b :: rest =>
    match nests with
    | [] => .ok bs
    | nest :: outer =>
      have : rest.length < bs.length := lt_of_skipSpace hs
      if b == byte ',' then skip (nest :: outer) nest.element rest
      else if b == nest.close then skip outer .next rest
      else .error (.after nest.expected rest)
termination_by bs.length

/-- Takes one value. -/
def skipValue (bs : Bytes) : Except Failure Bytes :=
  skip [] .value bs

end DiagramService.Json
