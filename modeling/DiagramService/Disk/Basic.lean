import DiagramService.Path
import DiagramService.Text.Utf8

/-!
# The disk

A disk holds entries at places. A place is the list of names on the way to it, the last name first,
and the root is the place without names. What is at a place is read by `get?`; each operation
changes what `get?` reads at the places it names and at no other.
-/

namespace DiagramService

/-- The names on the way to an entry, the last one first. -/
abbrev Place := List FileName

/-- Files that are no place to keep anything. -/
inductive Device where
  /-- Reads as empty and drops what is written. -/
  | null
  /-- Reads as zero bytes without end. -/
  | zero
deriving DecidableEq, Repr

/-- What a disk holds at a place. -/
inductive Entry where
  /-- A file, and when it was last written, in milliseconds. -/
  | file (content : Bytes) (modified : Int)
  | directory
  /-- A symbolic link. -/
  | link (target : Path)
  | device (kind : Device)
deriving DecidableEq, Repr

/-- The entries at all places, and the place that relative paths start from. -/
structure Disk where
  entries : List (Place × Entry)
  working : Place
deriving Repr

namespace Disk

/-- A disk with nothing but its root. -/
def empty : Disk := ⟨[], []⟩

/-- What is at a place. The root is always a directory. -/
def get? (d : Disk) (p : Place) : Option Entry :=
  if p.isEmpty then some .directory else d.entries.lookup p

/-- The disk with another entry at a place. -/
def set (d : Disk) (p : Place) (e : Entry) : Disk :=
  { d with entries := (p, e) :: d.entries.filter (·.1 != p) }

/-- The disk with nothing at a place. -/
def erase (d : Disk) (p : Place) : Disk :=
  { d with entries := d.entries.filter (·.1 != p) }

/-- The disk with nothing at a place or below it. -/
def eraseTree (d : Disk) (p : Place) : Disk :=
  { d with entries := d.entries.filter fun entry => !p.isSuffixOf entry.1 }

/-- Whether two disks hold the same everywhere. -/
def Same (d e : Disk) : Prop :=
  d.working = e.working ∧ ∀ p, d.get? p = e.get? p

/-- The names of the entries of a directory. -/
def names (d : Disk) (p : Place) : List FileName :=
  d.entries.filterMap fun entry =>
    match entry.1 with
    | name :: parent => if parent = p then some name else none
    | [] => none

theorem lookup_filter_self (es : List (Place × Entry)) (p : Place) :
    (es.filter (·.1 != p)).lookup p = none := by
  induction es with
  | nil => rfl
  | cons e es ih =>
    obtain ⟨q, e⟩ := e
    by_cases h : q = p
    · simp only [h, List.filter_cons, bne_self_eq_false, Bool.false_eq_true, if_false, ih]
    · have ne : (p == q) = false := by simp [Ne.symm h]
      simp only [List.filter_cons, bne_iff_ne, ne_eq, h, not_false_eq_true, if_true,
        List.lookup_cons, ne, ih]

theorem lookup_filter_of_ne (es : List (Place × Entry)) {p q : Place} (h : q ≠ p) :
    (es.filter (·.1 != p)).lookup q = es.lookup q := by
  induction es with
  | nil => rfl
  | cons e es ih =>
    obtain ⟨r, e⟩ := e
    by_cases hr : r = p
    · have ne : (q == r) = false := by simp [hr, h]
      simp only [List.filter_cons, hr, bne_self_eq_false, Bool.false_eq_true, if_false, ih,
        List.lookup_cons, hr ▸ ne]
    · simp only [List.filter_cons, bne_iff_ne, ne_eq, hr, not_false_eq_true, if_true,
        List.lookup_cons, ih]

@[simp] theorem get?_root (d : Disk) : d.get? [] = some .directory := rfl

/-- What was set is read back, except at the root. -/
theorem get?_set_self (d : Disk) {p : Place} (h : p ≠ []) (e : Entry) :
    (d.set p e).get? p = some e := by
  simp [get?, set, h]

/-- Setting one place leaves the others. -/
theorem get?_set_of_ne (d : Disk) {p q : Place} (h : q ≠ p) (e : Entry) :
    (d.set p e).get? q = d.get? q := by
  have : (q == p) = false := by simp [h]
  simp [get?, set, List.lookup_cons, this, lookup_filter_of_ne _ h]

/-- Nothing is left at an erased place, except at the root. -/
theorem get?_erase_self (d : Disk) {p : Place} (h : p ≠ []) : (d.erase p).get? p = none := by
  simp [get?, erase, h, lookup_filter_self]

/-- Erasing one place leaves the others. -/
theorem get?_erase_of_ne (d : Disk) {p q : Place} (h : q ≠ p) :
    (d.erase p).get? q = d.get? q := by
  simp [get?, erase, lookup_filter_of_ne _ h]

end Disk

end DiagramService
