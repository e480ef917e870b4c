/-!
# Paths

A path is a text in which slashes separate components. Empty components and `.` components count for
nothing, except a `.` at the very start, and two paths are the same if their components are. The
file name is the last component, if it names an entry rather than the place itself or its parent.

The path of the image that belongs to a source has the extension of the source replaced, see
`withExtension`. Its rule cuts in two steps, first the old extension and then whatever the file name
still has after its last dot.
-/

namespace DiagramService

/-- The name of a directory entry. -/
abbrev FileName := List Char

/-- The text of a path. -/
structure Path where
  chars : List Char
deriving DecidableEq, Repr, Inhabited

/-- A part of a path between slashes. -/
inductive Component where
  /-- The slash at the start. -/
  | root
  /-- A dot at the start. -/
  | current
  /-- Two dots. -/
  | parent
  /-- Any other name. -/
  | normal (name : FileName)
deriving DecidableEq, Repr

namespace Path

/-- The path that a text spells. -/
def ofString (s : String) : Path :=
  ⟨s.toList⟩

/-- The text of a path. -/
def toString (p : Path) : String :=
  String.ofList p.chars

/-- Whether the path starts at the root. -/
def isAbsolute (p : Path) : Bool :=
  p.chars.head? == some '/'

/-- The component that a name between slashes stands for, if it counts. -/
def componentOf (name : List Char) : Option Component :=
  if name.isEmpty || name == ['.'] then none
  else if name == ['.', '.'] then some .parent
  else some (.normal name)

/-- The components that count, in order. -/
def components (p : Path) : List Component :=
  let names := p.chars.splitOn '/'
  let body := names.filterMap componentOf
  if p.isAbsolute then .root :: body
  else if names.head? == some ['.'] then .current :: body
  else body

/-- Whether two texts spell the same path. -/
def same (p q : Path) : Bool :=
  p.components == q.components

/-- A reversed path without the slashes and dots that count for nothing at its end. -/
def dropVoid : List Char → List Char
  | '/' :: cs => dropVoid cs
  | '.' :: '/' :: cs => dropVoid cs
  | cs => cs

/-- The text up to the file name, and the file name. The first part is empty or ends in a slash. -/
def split? (p : Path) : Option (List Char × FileName) :=
  let cs := dropVoid p.chars.reverse
  let name := (cs.takeWhile (· != '/')).reverse
  if name.isEmpty || name == ['.'] || name == ['.', '.'] then none
  else some ((cs.dropWhile (· != '/')).reverse, name)

/-- The last component, if it is a name. -/
def fileName? (p : Path) : Option FileName :=
  p.split?.map (·.2)

end Path

namespace FileName

/-- The parts before and after the last dot. A dot at the start does not count. -/
def splitLastDot? (name : FileName) : Option (List Char × List Char) :=
  if name == ['.', '.'] then none
  else
    let cs := name.reverse
    match cs.dropWhile (· != '.') with
    | '.' :: before =>
      if before.isEmpty then none else some (before.reverse, (cs.takeWhile (· != '.')).reverse)
    | _ => none

/-- What stands after the last dot. -/
def extension? (name : FileName) : Option (List Char) :=
  (splitLastDot? name).map (·.2)

/-- What stands before the last dot, or the whole name. -/
def stem (name : FileName) : List Char :=
  match splitLastDot? name with
  | some (before, _) => before
  | none => name

end FileName

namespace Path

/-- The extension of the file name. -/
def extension? (p : Path) : Option (List Char) :=
  p.fileName?.bind FileName.extension?

/-- The part of the file name before its extension. -/
def fileStem? (p : Path) : Option (List Char) :=
  p.fileName?.map FileName.stem

/-- The path up to the stem of its file name, and then the extension. -/
def setExtension (p : Path) (ext : List Char) : Path :=
  match p.split? with
  | some (dir, name) => ⟨dir ++ FileName.stem name ++ '.' :: ext⟩
  | none => p

/-- The path with as many characters cut from its end as its extension has. -/
def cutExtension (p : Path) : Path :=
  match p.extension? with
  | some old => ⟨p.chars.take (p.chars.length - old.length)⟩
  | none => p

/-- The path with its extension replaced. A path without a file name is left as it is. -/
def withExtension (p : Path) (ext : List Char) : Path :=
  p.cutExtension.setExtension ext

/-- An entry of a directory. The empty path stands for no directory at all. -/
def join (p : Path) (name : FileName) : Path :=
  if p.chars.isEmpty || p.chars.getLast? == some '/' then ⟨p.chars ++ name⟩
  else ⟨p.chars ++ '/' :: name⟩

/-- The path without its last component, if it has one to lose. -/
def parent? (p : Path) : Option Path :=
  let cs := dropVoid p.chars.reverse
  if cs.isEmpty then none
  else
    let dir := (dropVoid (cs.dropWhile (· != '/'))).reverse
    if dir.isEmpty && p.isAbsolute then some ⟨['/']⟩ else some ⟨dir⟩

end Path

end DiagramService
