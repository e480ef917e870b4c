import DiagramService.Http.MediaType
import DiagramService.Text.Decimal

/-!
# Byte ranges

A client may ask for a part of a file: the bytes from one position to another, from a position on,
or the last ones. A range must not be empty or start behind the end of the file, and several ranges
must not overlap.
-/

namespace DiagramService.Http

/-- A part of a file that is asked for. -/
inductive ByteRange where
  | between (first last : Nat)
  | from_ (first : Nat)
  /-- The last bytes, so many of them. -/
  | suffix (count : Nat)
deriving DecidableEq, Repr

namespace ByteRange

/-- A position: digits without a zero before others. -/
def position? (cs : List Char) : Option Nat :=
  if cs.head? == some '0' && 1 < cs.length then none
  else
    match Text.digits? cs with
    | some n => if n < UInt64.size then some n else none
    | none => none

/-- The range that a text spells. -/
def ofText? (cs : List Char) : Option ByteRange :=
  let first := cs.takeWhile (· != '-')
  match cs.drop first.length with
  | '-' :: last =>
    if first.isEmpty then
      (position? last).bind fun n => if n = 0 then none else some (.suffix n)
    else if last.isEmpty then (position? first).map .from_
    else
      match position? first, position? last with
      | some first, some last => some (.between first last)
      | _, _ => none
  | _ => none

/-- The ranges that a header value asks for. -/
def listOfText? (cs : List Char) : Option (List ByteRange) :=
  let unit := "bytes=".toList
  if unit.isPrefixOf cs then
    ((cs.drop unit.length).splitOn ',').mapM fun range =>
      ofText? ((range.dropWhile (· == ' ')).reverse.dropWhile (· == ' ')).reverse
  else none

/-- The first and the last position of a range in a file of a given size. -/
def bounds? (size : Nat) (range : ByteRange) : Option (Nat × Nat) :=
  let ordered (first last : Nat) : Option (Nat × Nat) :=
    if first ≤ last then some (first, last) else none
  match range with
  | .between first last => ordered first (min last (size - 1))
  | .from_ first => ordered first (size - 1)
  | .suffix count => if size < count then none else ordered (size - count) (size - 1)

/-- Whether no two ranges have a position in common. -/
def areApart : List (Nat × Nat) → Bool
  | [] => true
  | (first, last) :: rest =>
    (rest.all fun other => last < other.1 || other.2 < first) && areApart rest

/-- The bounds of the ranges that a header value asks for in a file of a given size. -/
def allBounds? (size : Nat) (cs : List Char) : Option (List (Nat × Nat)) := do
  let bounds ← (← listOfText? cs).mapM (bounds? size)
  if areApart bounds then some bounds else none

end ByteRange

end DiagramService.Http
