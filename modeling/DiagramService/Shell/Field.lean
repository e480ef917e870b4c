import DiagramService.Shell.Pattern
import DiagramService.Shell.Program

/-!
# Fields

When a word has been expanded it consists of pieces. Pieces that were quoted stay together, the
values of parameters that were not are split at blanks, and the arguments of a script may be kept
apart. What comes out are the fields that a command gets as its arguments, or a pattern.
-/

namespace DiagramService.Shell

/-- A part of an expanded word. -/
inductive Piece where
  /-- Bytes that were quoted. -/
  | fixed (bytes : Bytes)
  /-- Bytes that stand in the script, whose signs count where a pattern is wanted. -/
  | plain (bytes : Bytes)
  /-- Bytes that are split at blanks. -/
  | loose (bytes : Bytes)
  /-- The end of a field. -/
  | gap
  /-- No arguments at all, which leaves nothing of empty quotes around it. -/
  | nothing
deriving DecidableEq, Repr

namespace Piece

/-- All the bytes of some pieces, for where nothing is split. -/
def joined : List Piece → Bytes
  | [] => []
  | .fixed bytes :: rest => bytes ++ joined rest
  | .plain bytes :: rest => bytes ++ joined rest
  | .loose bytes :: rest => bytes ++ joined rest
  | .gap :: rest => 0x20 :: joined rest
  | .nothing :: rest => joined rest

/-- A byte that splits. -/
def isSplit (b : UInt8) : Bool :=
  b == 0x20 || b == 0x09 || b == 0x0A

/-- Splits bytes at blanks behind a field that is being made. -/
def split (current : Option Bytes) : Bytes → List Bytes × Option Bytes
  | [] => ([], current)
  | b :: rest =>
    if isSplit b then
      let (fields, last) := split none rest
      (current.toList ++ fields, last)
    else split (some (current.getD [] ++ [b])) rest

/-- The fields of some pieces behind a field that is being made. -/
def fieldsFrom (current : Option Bytes) : List Piece → List Bytes
  | [] => current.toList
  | .fixed bytes :: rest => fieldsFrom (some (current.getD [] ++ bytes)) rest
  | .plain bytes :: rest => fieldsFrom (some (current.getD [] ++ bytes)) rest
  | .loose bytes :: rest =>
    let (fields, last) := split current bytes
    fields ++ fieldsFrom last rest
  | .gap :: rest => current.toList ++ fieldsFrom none rest
  | .nothing :: rest => fieldsFrom (if current == some [] then none else current) rest

/-- The fields of some pieces. -/
def fields (pieces : List Piece) : List Bytes :=
  fieldsFrom none pieces

/-- The pattern that some pieces spell behind bytes whose signs count. -/
def patternFrom (signs : Bytes) : List Piece → List Glob
  | [] => Glob.ofBytes signs.length signs
  | .fixed bytes :: rest =>
    Glob.ofBytes signs.length signs ++ bytes.map Glob.byte ++ patternFrom [] rest
  | .plain bytes :: rest => patternFrom (signs ++ bytes) rest
  | .loose bytes :: rest => patternFrom (signs ++ bytes) rest
  | .gap :: rest => patternFrom (signs ++ [0x20]) rest
  | .nothing :: rest => patternFrom signs rest

/-- The pattern that some pieces spell. -/
def pattern (pieces : List Piece) : List Glob :=
  patternFrom [] pieces

end Piece

end DiagramService.Shell
