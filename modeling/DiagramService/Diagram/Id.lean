import DiagramService.Text.Decimal
import DiagramService.Path

/-!
# Diagram ids and file names

A saved diagram is known by a signed 64-bit number. Its two files spell the number in their names,
`diagram_<id>.puml` for the source and `diagram_<id>.png` for the image, and `ofFileName?` reads the
number back.
-/

namespace DiagramService

/-- The extension of diagram sources. -/
def sourceExtension : List Char := ['p', 'u', 'm', 'l']

/-- The extension of rendered images. -/
def imageExtension : List Char := ['p', 'n', 'g']

/-- What the file names of saved diagrams start with. -/
def savedStart : List Char := ['d', 'i', 'a', 'g', 'r', 'a', 'm', '_']

/-- The identity of a saved diagram: the time of its save in milliseconds, or a little later. -/
structure DiagramId where
  value : Int64
deriving DecidableEq, Repr, Inhabited

namespace DiagramId

/-- The decimal text of the id. -/
def text (id : DiagramId) : List Char :=
  Text.ofInt id.value.toInt

/-- The name of the source file. -/
def sourceName (id : DiagramId) : FileName :=
  savedStart ++ id.text ++ '.' :: sourceExtension

/-- The name of the image file. -/
def imageName (id : DiagramId) : FileName :=
  savedStart ++ id.text ++ '.' :: imageExtension

/-- The text without what saved names start with. -/
def afterStart? (name : FileName) : Option (List Char) :=
  if savedStart.isPrefixOf name then some (name.drop savedStart.length) else none

/-- The text up to the first dot, if there is one. -/
def upToDot? (cs : List Char) : Option (List Char) :=
  if '.' ∈ cs then some (cs.takeWhile (· != '.')) else none

/-- The id that a file name spells between the fixed start and the first dot. -/
def ofFileName? (name : FileName) : Option DiagramId :=
  ((afterStart? name).bind upToDot?).bind fun digits => (Text.signedWord? digits).map DiagramId.mk

/-- Ids are ordered as signed numbers. -/
def le (a b : DiagramId) : Bool :=
  a.value ≤ b.value

/-- The ids in increasing order. -/
def sort (ids : List DiagramId) : List DiagramId :=
  ids.mergeSort le

end DiagramId

end DiagramService
