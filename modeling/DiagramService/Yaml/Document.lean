import DiagramService.Yaml.Event
import DiagramService.Yaml.Token.OfText

/-!
# Documents

A document is the sequence of its items. Names are replaced by numbers, and the place of a number is
the sequence that starts at the node it names. A number is the count of names known when it is
given: a name that is given twice takes a new number and keeps the count, so that the next new name
takes the same number, and the node of the last one to take it counts.
-/

namespace DiagramService.Yaml

/-- A part of a document. -/
inductive Item where
  | scalar (content : Scalar)
  | listStart
  | listEnd
  | mapStart
  | mapEnd
  /-- Another node, by its number. -/
  | alias (number : Nat)
deriving DecidableEq, Repr

/-- A document with its numbered nodes. -/
structure Document where
  items : List Item
  /-- Where the numbered nodes start, last first. -/
  places : List (Nat × Nat)

/-- The items and names so far. -/
structure Naming where
  /-- The items, last first. -/
  items : List Item
  count : Nat
  /-- The number of each name. -/
  names : List (List Char × Nat)
  places : List (Nat × Nat)

namespace Naming

/-- Gives a number to the name of the next item, if it has one. -/
def name (n : Naming) : Option (List Char) → Naming
  | none => n
  | some anchor =>
    let number := n.names.length
    { n with
      names := (anchor, number) :: n.names.filter (·.1 != anchor)
      places := (number, n.count) :: n.places }

/-- One more item. -/
def push (n : Naming) (item : Item) : Naming :=
  { n with items := item :: n.items, count := n.count + 1 }

/-- One more item for an event. `none` if the event names an unknown node. -/
def event? (n : Naming) : Event → Option Naming
  | .documentStart => some n
  | .documentEnd => some n
  | .alias name => (n.names.lookup name).map fun number => n.push (.alias number)
  | .scalar anchor content => some ((n.name anchor).push (.scalar content))
  | .listStart anchor => some ((n.name anchor).push .listStart)
  | .listEnd => some (n.push .listEnd)
  | .mapStart anchor => some ((n.name anchor).push .mapStart)
  | .mapEnd => some (n.push .mapEnd)

end Naming

namespace Document

/-- The document of some events. -/
def ofEvents? (events : List Event) : Option Document :=
  (events.foldlM Naming.event? ⟨[], 0, [], []⟩).map fun n => ⟨n.items.reverse, n.places⟩

/-- The only document of a text. A text without documents counts as one without items. -/
def ofText? (text : List Char) : Option Document := do
  let tokens ← Token.ofText? text
  let events ← Event.ofTokens? tokens
  if 1 < events.count .documentStart then none
  else ofEvents? events

/-- The items from a numbered node on. -/
def itemsAt (d : Document) (number : Nat) : List Item :=
  match d.places.lookup number with
  | some place => d.items.drop place
  | none => []

end Document

/-- The items after the first node, while `depth` lists and mappings are open. -/
def Item.skipNode : Nat → List Item → List Item
  | _, [] => []
  | depth, item :: items =>
    match item with
    | .scalar _ | .alias _ => if depth = 0 then items else skipNode depth items
    | .listStart | .mapStart => skipNode (depth + 1) items
    | .listEnd | .mapEnd => if depth ≤ 1 then items else skipNode (depth - 1) items

end DiagramService.Yaml
