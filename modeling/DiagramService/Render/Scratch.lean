import DiagramService.Diagram.Files
import DiagramService.Disk.Operation
import DiagramService.Text.Quoted

/-!
# Scratch directories

Every render gets a directory of its own below the work directory, so that no two renders share a
file. Its name ends in six letters or digits that are drawn until a name is free. Closing removes
the directory with everything in it.
-/

namespace DiagramService

/-- What the names of scratch directories start with. -/
def scratchStart : List Char := "umlserve-render-".toList

/-- The name of the source in a scratch directory. -/
def scratchSource : FileName := "diagram.puml".toList

/-- An error of an operation on one path. -/
def IoError.atPath (e : IoError) (p : Path) : IoError :=
  .worded e.kind (e.message ++ " at path " ++ Text.quoted p.toString)

/-- A directory for one render, with the source and the image in it. -/
structure Scratch where
  dir : Path
  files : DiagramFiles
deriving DecidableEq, Repr

namespace Scratch

/-- The letters and digits that endings are made of. -/
def endingChars : Array Char :=
  "abcdefghijklmnopqrstuvwxyzABCDEFGHIJKLMNOPQRSTUVWXYZ0123456789".toList.toArray

/-- The ending that has a number. -/
def ending (n : Nat) : List Char :=
  (List.range 6).map fun i =>
    endingChars.getD (n / Nat.pow endingChars.size i % endingChars.size) 'a'

/-- Some endings from a number on. -/
def endingsFrom (n : Nat) : List (List Char) :=
  (List.range 16).map fun i => ending (n + i)

/-- The scratch directory at a path. -/
def atPath (dir : Path) : Scratch :=
  ⟨dir, .forSource (dir.join scratchSource)⟩

/-- Makes the directory under the first ending that gives a free name. -/
def allocateIn (d : Disk) (root : Path) : List (List Char) → Disk.Answer Scratch
  | [] => d.fail (.atPath (.worded .alreadyExists "too many temporary files exist") root)
  | ending :: endings =>
    let dir := root.join (scratchStart ++ ending)
    match d.makeDir dir with
    | (.ok (), d) => (.ok (atPath dir), d)
    | (.error e, d) =>
      if e.kind = .alreadyExists then allocateIn d root endings else d.fail (e.atPath dir)

/-- Makes the root if it is missing and a directory in it. -/
def allocate (d : Disk) (root : Path) (endings : List (List Char)) : Disk.Answer Scratch :=
  match d.makeDirs root with
  | (.ok (), d) => allocateIn d (d.absolute root) endings
  | (.error e, d) => d.fail e

/-- Removes the directory with everything in it. -/
def close (scratch : Scratch) (d : Disk) : Disk.Answer Unit :=
  match d.removeTree scratch.dir with
  | (.ok (), d) => d.done
  | (.error e, d) => d.fail (e.atPath scratch.dir)

/-- Removes the directory with everything in it if that is possible. -/
def drop (scratch : Scratch) (d : Disk) : Disk :=
  (d.removeTree scratch.dir).2

end Scratch

end DiagramService
