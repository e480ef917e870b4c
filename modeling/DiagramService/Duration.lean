import DiagramService.Number.Shortest

/-!
# Lengths of time

A length of time is given in whole seconds and nanoseconds, and is shown in seconds as a number of
single precision. The whole seconds and the fraction are rounded each for itself before they are
added.
-/

namespace DiagramService

/-- A length of time. -/
structure Duration where
  seconds : Nat
  nanoseconds : Nat
deriving DecidableEq, Repr

namespace Duration

/-- A whole number of seconds. -/
def ofSeconds (seconds : Nat) : Duration :=
  ⟨seconds, 0⟩

/-- The seconds in single precision. -/
def toSingle (d : Duration) : Number.Binary :=
  let round := Number.single.round
  let fraction := round ((round d.nanoseconds).toRat / 1000000000)
  round ((round d.seconds).toRat + fraction.toRat)

/-- The seconds with the fewest digits that tell them apart in single precision. -/
def text (d : Duration) : String :=
  String.ofList (d.toSingle.shortest Number.single .up).positional

end Duration

end DiagramService
