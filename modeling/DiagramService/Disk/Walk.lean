import DiagramService.Disk.Basic
import DiagramService.Error.System

/-!
# Following paths

A path leads to a place through directories and symbolic links. Each name on the way has to be there
and, unless it is the last, has to be a directory; a link is replaced by its target. The last name
may be missing, and then the walk tells where it would be.
-/

namespace DiagramService

namespace Disk

/-- The names between the slashes of a path. A slash at the end asks for a directory as a dot
does. -/
def namesOf (p : Path) : List FileName :=
  let names := (p.chars.splitOn '/').filter (!·.isEmpty)
  if p.chars.getLast? == some '/' && !names.isEmpty then names ++ [['.']] else names

/-- Where a path leads. -/
inductive Target where
  /-- To an entry. -/
  | found (place : Place) (entry : Entry)
  /-- To a name that is missing in a directory. -/
  | missing (place : Place)
deriving Repr

/-- How many links a walk may follow. -/
def maxLinks : Nat := 40

/-- How many bytes a name may have. -/
def maxNameBytes : Nat := 255

/-- How many bytes a path may have with the zero after it. -/
def maxPathBytes : Nat := 4096

/-- The number of bytes of a text. -/
def byteLength (cs : List Char) : Nat :=
  cs.foldl (fun n c => n + c.utf8Size) 0

/-- Whether a link at the end of a path is followed. -/
inductive LastLink where
  | follow
  | keep
deriving DecidableEq, Repr

/-- Follows names from an entry at a place. -/
def walk (d : Disk) (last : LastLink) (links : Nat) (place : Place) (entry : Entry)
    (names : List FileName) : Except IoError Target :=
  match names with
  | [] => .ok (.found place entry)
  | name :: rest =>
    if entry != .directory then .error .notDirectory
    else if name == ['.'] then walk d last links place entry rest
    else if name == ['.', '.'] then walk d last links place.tail .directory rest
    else if maxNameBytes < byteLength name then .error .nameTooLong
    else
      match d.get? (name :: place) with
      | none => if rest.isEmpty then .ok (.missing (name :: place)) else .error .notFound
      | some (.link target) =>
        if rest.isEmpty && last == .keep then .ok (.found (name :: place) (.link target))
        else
          match links with
          | 0 => .error .tooManyLinks
          | links + 1 =>
            walk d last links (if target.isAbsolute then [] else place) .directory
              (namesOf target ++ rest)
      | some entry => walk d last links (name :: place) entry rest
termination_by (links, names.length)

/-- Where a path leads. -/
def locate (d : Disk) (last : LastLink) (p : Path) : Except IoError Target :=
  if p.chars.contains '\x00' then .error .zeroInPath
  else if p.chars.isEmpty then .error .notFound
  else if maxPathBytes ≤ byteLength p.chars then .error .nameTooLong
  else walk d last maxLinks (if p.isAbsolute then [] else d.working) .directory (namesOf p)

/-- The entry that a path leads to. -/
def find (d : Disk) (last : LastLink) (p : Path) : Except IoError (Place × Entry) :=
  match d.locate last p with
  | .error e => .error e
  | .ok (.missing _) => .error .notFound
  | .ok (.found place entry) => .ok (place, entry)

end Disk

end DiagramService
