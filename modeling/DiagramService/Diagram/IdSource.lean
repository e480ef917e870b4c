import DiagramService.Diagram.Id

/-!
# Issuing ids

Ids follow the clock. When the clock stands still or steps back, the id after the last one is issued
instead, so the ids of one source increase. The source is the last id it issued, and starts at zero.
-/

namespace DiagramService

/-- The last id issued. -/
structure IdSource where
  last : Int64
deriving DecidableEq, Repr

namespace IdSource

/-- A source that has issued nothing. -/
def fresh : IdSource := ⟨0⟩

/-- The id that a source issues when the clock shows `now`. -/
def candidate (source : IdSource) (now : Int64) : Int64 :=
  max now (source.last + 1)

/-- Issues an id. -/
def next (source : IdSource) (now : Int64) : DiagramId × IdSource :=
  (⟨source.candidate now⟩, ⟨source.candidate now⟩)

/-- The ids issued for a sequence of clock values. -/
def issue (source : IdSource) : List Int64 → List DiagramId
  | [] => []
  | now :: nows => (source.next now).1 :: (source.next now).2.issue nows

end IdSource

end DiagramService
