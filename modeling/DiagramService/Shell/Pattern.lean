import DiagramService.Text.Utf8

/-!
# Patterns

A pattern matches a text as a whole: a star stands for any bytes, a question mark for one, and
brackets for one out of a set. Cutting a matching start or end takes the shortest or the longest
one.
-/

namespace DiagramService.Shell

/-- An element of a pattern. -/
inductive Glob where
  | byte (b : UInt8)
  /-- One byte. -/
  | one
  /-- Any number of bytes. -/
  | many
  /-- One byte that is in one of the ranges, or in none of them. -/
  | oneOf (negated : Bool) (ranges : List (UInt8 × UInt8))
deriving DecidableEq, Repr

namespace Glob

/-- The ranges up to a closing bracket, of which at most `fuel` are left. -/
def ranges? (fuel : Nat) (done : List (UInt8 × UInt8)) (bs : Bytes) :
    Option (List (UInt8 × UInt8) × Bytes) :=
  match fuel, bs with
  | 0, _ => none
  | _, [] => none
  | fuel + 1, b :: rest =>
    if b == 0x5D && !done.isEmpty then some (done.reverse, rest)
    else
      match rest with
      | 0x2D :: c :: rest' =>
        if c == 0x5D then ranges? fuel ((b, b) :: done) rest
        else ranges? fuel ((b, c) :: done) rest'
      | _ => ranges? fuel ((b, b) :: done) rest

/-- The pattern that a text spells. A bracket that is not closed stands for itself. -/
def ofBytes (fuel : Nat) (bs : Bytes) : List Glob :=
  match fuel, bs with
  | 0, _ => []
  | _, [] => []
  | fuel + 1, b :: rest =>
    if b == 0x2A then .many :: ofBytes fuel rest
    else if b == 0x3F then .one :: ofBytes fuel rest
    else if b == 0x5B then
      let negated := rest.head? == some 0x21
      match ranges? rest.length [] (if negated then rest.tail else rest) with
      | some (ranges, rest) => .oneOf negated ranges :: ofBytes fuel rest
      | none => .byte b :: ofBytes fuel rest
    else .byte b :: ofBytes fuel rest

/-- Whether a pattern matches a text. -/
def matches_ (pattern : List Glob) (bs : Bytes) : Bool :=
  match pattern, bs with
  | [], bs => bs.isEmpty
  | .many :: pattern, [] => matches_ pattern []
  | .many :: pattern, b :: bs => matches_ pattern (b :: bs) || matches_ (.many :: pattern) bs
  | _ :: _, [] => false
  | .byte c :: pattern, b :: bs => b == c && matches_ pattern bs
  | .one :: pattern, _ :: bs => matches_ pattern bs
  | .oneOf negated ranges :: pattern, b :: bs =>
    (ranges.any fun r => r.1 ≤ b && b ≤ r.2) != negated && matches_ pattern bs
termination_by (pattern.length, bs.length)

/-- The text without a start that matches. -/
def cutStart (longest : Bool) (pattern : List Glob) (bs : Bytes) : Bytes :=
  let sizes := List.range (bs.length + 1)
  match (if longest then sizes.reverse else sizes).find? fun n => matches_ pattern (bs.take n) with
  | some n => bs.drop n
  | none => bs

/-- The text without an end that matches. -/
def cutEnd (longest : Bool) (pattern : List Glob) (bs : Bytes) : Bytes :=
  let sizes := List.range (bs.length + 1)
  match (if longest then sizes else sizes.reverse).find? fun n => matches_ pattern (bs.drop n) with
  | some n => bs.take n
  | none => bs

end Glob

end DiagramService.Shell
