import DiagramService.Disk.Walk

/-!
# Operations on files

The operations that the service and the renderer use. Each answers with an error or a result, and
with the disk after it, which is the disk before it if the operation failed.
-/

namespace DiagramService

namespace Disk

/-- What an operation answers, and the disk after it. -/
abbrev Answer (α : Type) := Except IoError α × Disk

/-- An operation that failed. -/
def fail {α : Type} (d : Disk) (e : IoError) : Answer α :=
  (.error e, d)

/-- An operation that only changes the disk. -/
def done (d : Disk) : Answer Unit :=
  (.ok (), d)

/-- The content of a file. -/
def contentAt (d : Disk) (p : Path) : Except IoError Bytes :=
  match d.find .follow p with
  | .error e => .error e
  | .ok (_, .file content _) => .ok content
  | .ok (_, .directory) => .error .isDirectory
  | .ok (_, .link _) => .error .tooManyLinks
  | .ok (_, .device _) => .ok []

/-- The content of a file that has to be text. -/
def readText (d : Disk) (p : Path) : Except IoError String :=
  (d.contentAt p).bind fun content =>
    match Utf8.decode? content with
    | some text => .ok text
    | none => .error .notText

/-- Whether a path asks for a directory at its end. -/
def asksDirectory (p : Path) : Bool :=
  p.chars.getLast? == some '/'

/-- A path without the slashes at its end. -/
def trimSlashes (p : Path) : Path :=
  let cs := (p.chars.reverse.dropWhile (· == '/')).reverse
  if cs.isEmpty then ⟨p.chars.take 1⟩ else ⟨cs⟩

/-- Opens a file for writing, makes it if it is missing, and gives it the content that `change`
makes of the old one. -/
def modify (d : Disk) (p : Path) (now : Int) (change : Bytes → Bytes) : Answer Unit :=
  match d.locate .follow p with
  | .error e =>
    if !asksDirectory p then d.fail e
    else
      match d.locate .follow (trimSlashes p) with
      | .ok (.missing _) => d.fail .isDirectory
      | _ => d.fail e
  | .ok (.missing place) => (d.set place (.file (change []) now)).done
  | .ok (.found place (.file content _)) => (d.set place (.file (change content) now)).done
  | .ok (.found _ .directory) => d.fail .isDirectory
  | .ok (.found _ (.link _)) => d.fail .tooManyLinks
  | .ok (.found _ (.device _)) => d.done

/-- Writes a file, which is made if it is missing. -/
def writeFile (d : Disk) (p : Path) (content : Bytes) (now : Int) : Answer Unit :=
  d.modify p now fun _ => content

/-- Adds to the end of a file, which is made if it is missing. -/
def appendFile (d : Disk) (p : Path) (content : Bytes) (now : Int) : Answer Unit :=
  d.modify p now (· ++ content)

/-- Makes an empty file under a name that nothing has yet. -/
def createNew (d : Disk) (p : Path) (now : Int) : Answer Unit :=
  match d.locate .keep p with
  | .error e => d.fail e
  | .ok (.missing place) => (d.set place (.file [] now)).done
  | .ok (.found ..) => d.fail .exists_

/-- Removes an entry that is no directory. -/
def removeFile (d : Disk) (p : Path) : Answer Unit :=
  match d.find .keep p with
  | .error e => d.fail e
  | .ok (_, .directory) => d.fail .isDirectory
  | .ok (place, _) => (d.erase place).done

/-- Makes a directory. -/
def makeDir (d : Disk) (p : Path) : Answer Unit :=
  match d.locate .keep (trimSlashes p) with
  | .error e => d.fail e
  | .ok (.missing place) => (d.set place .directory).done
  | .ok (.found ..) => d.fail .exists_

/-- Whether a path leads to a directory. -/
def isDir (d : Disk) (p : Path) : Bool :=
  match d.find .follow p with
  | .ok (_, .directory) => true
  | _ => false

/-- Whether a path leads to an entry. -/
def has (d : Disk) (p : Path) : Bool :=
  match d.find .follow p with
  | .ok _ => true
  | .error _ => false

/-- How many directories at most have to be made for a path. -/
def depth (p : Path) : Nat :=
  (namesOf p).length + 1

/-- Makes a directory and the missing ones on the way to it, of which there are at most `fuel`. -/
def makeDirsWithin : Nat → Disk → Path → Answer Unit
  | 0, d, _ => d.fail .notFound
  | fuel + 1, d, p =>
    if p.chars.isEmpty then d.done
    else
      match d.makeDir p with
      | (.ok (), d) => d.done
      | (.error e, d) =>
        if e.kind != .notFound then if d.isDir p then d.done else d.fail e
        else
          match p.parent? with
          | none => d.fail (.worded .other "failed to create whole tree")
          | some parent =>
            match makeDirsWithin fuel d parent with
            | (.error e, d) => d.fail e
            | (.ok (), d) =>
              match d.makeDir p with
              | (.ok (), d) => d.done
              | (.error e, d) => if d.isDir p then d.done else d.fail e

/-- Makes a directory and the missing ones on the way to it. The empty path needs none. -/
def makeDirs (d : Disk) (p : Path) : Answer Unit :=
  makeDirsWithin (depth p) d p

/-- The names of the entries of a directory. -/
def readDir (d : Disk) (p : Path) : Except IoError (List FileName) :=
  match d.find .follow p with
  | .error e => .error e
  | .ok (place, .directory) => .ok (d.names place)
  | .ok _ => .error .notDirectory

/-- Removes a directory with everything below it. A link to a directory is only removed itself. -/
def removeTree (d : Disk) (p : Path) : Answer Unit :=
  match d.find .keep p with
  | .error e => d.fail e
  | .ok (place, .directory) => (d.eraseTree place).done
  | .ok (place, .link _) => (d.erase place).done
  | .ok _ => d.fail .notDirectory

/-- Removes whatever a path leads to. -/
def removeAny (d : Disk) (p : Path) : Answer Unit :=
  match d.find .keep p with
  | .error e => d.fail e
  | .ok (place, .directory) => (d.eraseTree place).done
  | .ok (place, _) => (d.erase place).done

/-- The entries at a place and below it, moved to another place. -/
def moved (source target : Place) (entries : List (Place × Entry)) : List (Place × Entry) :=
  entries.map fun entry =>
    if source.isSuffixOf entry.1 then
      (entry.1.take (entry.1.length - source.length) ++ target, entry.2)
    else entry

/-- Gives an entry another name. What had the name before is replaced: a file by anything else, an
empty directory by a directory. -/
def rename (d : Disk) (p q : Path) : Answer Unit :=
  match d.find .keep p with
  | .error e => d.fail e
  | .ok (source, entry) =>
    match d.locate .keep (if entry == .directory then trimSlashes q else q) with
    | .error e => d.fail e
    | .ok (.missing target) =>
      if source.isSuffixOf target then d.fail .invalid
      else ({ d with entries := moved source target d.entries }).done
    | .ok (.found target old) =>
      if source = target then d.done
      else if source.isSuffixOf target then d.fail .invalid
      else if entry == .directory then
        if old != .directory then d.fail .notDirectory
        else if !(d.names target).isEmpty then d.fail .notEmpty
        else ({ d with entries := moved source target (d.erase target).entries }).done
      else if old == .directory then d.fail .isDirectory
      else ({ d with entries := moved source target (d.erase target).entries }).done

/-- Makes a symbolic link. -/
def makeLink (d : Disk) (target p : Path) : Answer Unit :=
  if target.chars.isEmpty then d.fail .notFound
  else
    match d.locate .keep p with
    | .error e => d.fail e
    | .ok (.missing place) => (d.set place (.link target)).done
    | .ok (.found ..) => d.fail .exists_

/-- The path of a place. -/
def pathOf (place : Place) : Path :=
  if place.isEmpty then ⟨['/']⟩ else ⟨place.reverse.flatMap ('/' :: ·)⟩

/-- A path that starts at the root. -/
def absolute (d : Disk) (p : Path) : Path :=
  if p.isAbsolute then p
  else if d.working.isEmpty then ⟨'/' :: p.chars⟩
  else ⟨(pathOf d.working).chars ++ '/' :: p.chars⟩

end Disk

end DiagramService
