import DiagramService.Diagram.IdSource

/-!
# Callers of a source of ids

Many callers may ask one source at the same time, and none of them waits for another. A caller
looks at the last id, makes up the next one from what it has seen, and puts it in the place of the
one that it has seen. The exchange is refused if the last id is another one by now, and may be
refused for no reason. The caller is then told an id that was the last one, and tries again from
there.
-/

namespace DiagramService

/-- How far a caller of a source is. -/
inductive Caller where
  /-- It has not looked yet. -/
  | look
  /-- It has seen a last id, and is about to exchange it. -/
  | exchange (seen : Int64)
  | answered (id : DiagramId)
deriving DecidableEq, Repr

namespace Caller

/-- The number that a caller makes up from the one that it has seen. -/
def offer (seen now : Int64) : Int64 :=
  (IdSource.mk seen).candidate now

/-- The caller after it was told a number that is the last one, or has been. -/
def told (value : Int64) : Caller → Caller
  | .answered id => .answered id
  | _ => .exchange value

/-- The caller after its exchange was made. -/
def exchanged (now : Int64) : Caller → Caller
  | .exchange seen => .answered ⟨offer seen now⟩
  | caller => caller

end Caller

end DiagramService
