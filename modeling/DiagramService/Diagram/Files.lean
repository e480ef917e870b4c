import DiagramService.Diagram.Id

/-!
# The files of a diagram

The renderer writes its image beside the source that it is given, under the same stem. A record of
the save directory names both of its files by its id.
-/

namespace DiagramService

/-- Where the renderer writes the image of a source. -/
def renderedImagePath (source : Path) : Path :=
  source.withExtension imageExtension

/-- A source file and the image that the renderer makes of it. -/
structure DiagramFiles where
  source : Path
  image : Path
deriving DecidableEq, Repr

/-- A source file with the image path that belongs to it. -/
def DiagramFiles.forSource (source : Path) : DiagramFiles :=
  ⟨source, renderedImagePath source⟩

/-- The paths of a saved diagram. -/
structure SavedDiagram where
  id : DiagramId
  source : Path
  image : Path
deriving DecidableEq, Repr

/-- The paths that an id has in a save directory. -/
def SavedDiagram.inDirectory (dir : Path) (id : DiagramId) : SavedDiagram :=
  ⟨id, dir.join id.sourceName, dir.join id.imageName⟩

end DiagramService
