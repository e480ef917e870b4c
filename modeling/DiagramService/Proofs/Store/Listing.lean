import DiagramService.Proofs.Diagram.Files
import DiagramService.Proofs.Disk.Frame
import DiagramService.Store.Listing

/-! What a listing has found at each of its steps. The names are read once; from then on each name
is either still to be looked at, or it has been passed over, or there is an entry for it. -/

namespace DiagramService

/-! ## The names of a directory -/

namespace Disk

theorem mem_names {d : Disk} {D : Place} {name : FileName} :
    name ∈ d.names D ↔ d.get? (name :: D) ≠ none := by
  have hmem : name ∈ d.names D ↔ ∃ x, (name :: D, x) ∈ d.entries := by
    unfold names
    rw [List.mem_filterMap]
    constructor
    · rintro ⟨⟨q, x⟩, hx, hq⟩
      cases q with
      | nil => cases hq
      | cons name' q =>
        simp only [Option.ite_none_right_eq_some, Option.some.injEq] at hq
        obtain ⟨rfl, rfl⟩ := hq
        exact ⟨x, hx⟩
    · rintro ⟨x, hx⟩
      exact ⟨_, hx, by simp⟩
  have hget : d.get? (name :: D) = d.entries.lookup (name :: D) := rfl
  rw [hmem, hget, ne_eq, List.lookup_eq_none_iff]
  constructor
  · rintro ⟨x, hx⟩ hnone
    exact absurd (hnone _ hx) (by simp)
  · intro hsome
    refine Classical.byContradiction fun hnone => hsome ?_
    rintro ⟨q, x⟩ hx
    rw [bne_iff_ne]
    rintro rfl
    exact hnone ⟨x, hx⟩

/-- A path that can be looked up and leads to a directory is found there. -/
theorem Opens.locate_self {d : Disk} {p : Path} {D : Place} (h : d.Opens p D) (hs : Spelled p) :
    d.locate .follow p = .ok (.found D .directory) := by
  rw [locate_of_spelled d .follow hs]
  rcases namesOf_cases p with hnames | hnames <;> rw [hnames]
  · exact h
  · -- the dot at the end stays where the names before it lead
    obtain ⟨links, hw⟩ := walk_append d .follow maxLinks (d.startOf p) .directory (wayOf p) ['.']
    rw [hw, h]
    simp [walkOn, walk]

theorem Opens.readDir {d : Disk} {p : Path} {D : Place} (h : d.Opens p D) (hs : Spelled p) :
    d.readDir p = .ok (d.names D) := by
  rw [Disk.readDir, find, h.locate_self hs]

/-- The names that were read in a directory are those of its entries. -/
theorem Opens.mem_of_readDir {d : Disk} {p : Path} {D : Place} {names : List FileName}
    (h : d.Opens p D) (hread : d.readDir p = .ok names) {name : FileName} (hname : name ∈ names) :
    d.get? (name :: D) ≠ none := by
  have hs : Spelled p := by
    cases hl : d.locate .follow p with
    | error e =>
      rw [Disk.readDir, find, hl] at hread
      cases hread
    | ok target => exact spelled_of_locate hl
  rw [h.readDir hs] at hread
  cases hread
  exact mem_names.mp hname

end Disk

/-- A listing does not take the image of a record for a source. -/
theorem DiagramId.idOf?_imageName (id : DiagramId) : Listing.idOf? id.imageName = none := by
  have hext : FileName.extension? (id.stem ++ '.' :: imageExtension) = some imageExtension := by
    simp [FileName.extension?, FileName.splitLastDot?_stem id.stem imageExtension id.stem_ne_nil
      id.head?_stem (by decide)]
  have hname : id.imageName = id.stem ++ '.' :: imageExtension := rfl
  rw [Listing.idOf?, hname, hext, if_neg (by decide)]

namespace Listing

theorem mem_sort {entries : List SavedEntry} {entry : SavedEntry} :
    entry ∈ sort entries ↔ entry ∈ entries :=
  List.mem_mergeSort

section Step

variable {dir : Path} {phase : Phase} {store : Store} {d : Disk}

/-! ## No name is lost -/

/-- Some entry is for the record with an id. -/
def Finds (dir : Path) (id : DiagramId) (entries : List SavedEntry) : Prop :=
  ∃ entry ∈ entries, entry.record = .inDirectory dir id

/-- A name that belongs to an id has not been passed over. -/
def Phase.Awaits (dir : Path) (name : FileName) (id : DiagramId) : Phase → Prop
  | .names => True
  | .visit left found => name ∈ left ∨ Finds dir id found
  | .check _ id' left found => id' = id ∨ name ∈ left ∨ Finds dir id found
  | .done result => ∃ entries, result = .ok entries ∧ Finds dir id entries

/-- A name that is read in the directory is only passed over while its id is pending. -/
theorem Phase.Awaits.step {name : FileName} {id : DiagramId} (h : phase.Awaits store.dir name id)
    (hid : idOf? name = some id)
    (hread : phase = .names → ∃ names, d.readDir store.dir = .ok names ∧ name ∈ names) :
    (Listing.step phase store d).Awaits store.dir name id ∨
      (∃ names found, phase = .visit (name :: names) found) ∧ store.isPending id = true := by
  cases phase with
  | names =>
    obtain ⟨names, hnames, hmem⟩ := hread rfl
    simp only [Listing.step, start, hnames]
    exact .inl (.inl hmem)
  | visit names found =>
    cases names with
    | nil =>
      obtain ⟨entry, hentry, hrecord⟩ := h.resolve_left List.not_mem_nil
      exact .inl ⟨_, rfl, entry, mem_sort.mpr (List.mem_reverse.mpr hentry), hrecord⟩
    | cons name' names =>
      simp only [Listing.step]
      by_cases hname : name' = name
      · subst hname
        rw [hid]
        by_cases hpending : store.isPending id = true
        · exact .inr ⟨⟨names, found, rfl⟩, hpending⟩
        · simp only [hpending, Bool.false_eq_true, if_false]
          exact .inl (.inl rfl)
      · -- another name is looked at, and this one still stands behind it
        have h' : name ∈ names ∨ Finds store.dir id found :=
          h.imp_left fun hmem => (List.mem_cons.mp hmem).resolve_left (Ne.symm hname)
        refine .inl ?_
        split
        · split
          · exact h'
          · exact .inr h'
        · exact h'
  | check name' id' names found =>
    refine .inl ?_
    rcases h with rfl | hmem | ⟨entry, hentry, hrecord⟩
    · exact .inr ⟨_, List.mem_cons_self, rfl⟩
    · exact .inl hmem
    · exact .inr ⟨entry, List.mem_cons_of_mem _ hentry, hrecord⟩
  | done result => exact .inl h

/-! ## No entry comes from nowhere -/

/-- All entries are for records whose ids have a property. -/
def Only (dir : Path) (R : DiagramId → Prop) (entries : List SavedEntry) : Prop :=
  ∀ entry ∈ entries, ∃ id, entry.record = .inDirectory dir id ∧ R id

/-- The names that are left have one property, and the ids of what has been found another. -/
def Phase.Tells (dir : Path) (P : FileName → Prop) (R : DiagramId → Prop) : Phase → Prop
  | .names => True
  | .visit left found => (∀ name ∈ left, P name) ∧ Only dir R found
  | .check _ id left found => R id ∧ (∀ name ∈ left, P name) ∧ Only dir R found
  | .done result => ∀ entries, result = .ok entries → Only dir R entries

theorem Phase.Tells.mono {P : FileName → Prop} {R R' : DiagramId → Prop}
    (h : phase.Tells dir P R) (hsub : ∀ id, R id → R' id) : phase.Tells dir P R' := by
  have hfound : ∀ {entries}, Only dir R entries → Only dir R' entries := by
    intro entries honly entry hentry
    obtain ⟨id, hrecord, hid⟩ := honly entry hentry
    exact ⟨id, hrecord, hsub id hid⟩
  cases phase with
  | names => exact trivial
  | visit names found => exact ⟨h.1, hfound h.2⟩
  | check name id names found => exact ⟨hsub id h.1, h.2.1, hfound h.2.2⟩
  | done result => exact fun entries heq => hfound (h entries heq)

/-- What has been found belongs to names that were read, and to ids that were not pending. -/
theorem Phase.Tells.step {P : FileName → Prop} {R : DiagramId → Prop}
    (h : phase.Tells store.dir P R)
    (hread : phase = .names → ∀ names, d.readDir store.dir = .ok names → ∀ name ∈ names, P name)
    (hcheck : ∀ name id, P name → idOf? name = some id → store.isPending id = false → R id) :
    (Listing.step phase store d).Tells store.dir P R := by
  cases phase with
  | names =>
    simp only [Listing.step, start]
    split
    · next names hnames => exact ⟨hread rfl names hnames, nofun⟩
    · split
      · rintro entries ⟨⟩
        nofun
      · nofun
  | visit names found =>
    cases names with
    | nil =>
      rintro entries ⟨⟩ entry hentry
      exact h.2 entry (List.mem_reverse.mp (mem_sort.mp hentry))
    | cons name names =>
      -- the name is passed over, or its id is noted to be looked up
      have htail : ∀ name' ∈ names, P name' := fun name' hmem =>
        h.1 name' (List.mem_cons_of_mem name hmem)
      simp only [Listing.step]
      split
      · next id hid =>
        split
        · exact ⟨htail, h.2⟩
        · next hpending =>
          exact ⟨hcheck name id (h.1 name List.mem_cons_self) hid (Bool.eq_false_iff.mpr hpending),
            htail, h.2⟩
      · exact ⟨htail, h.2⟩
  | check name id names found =>
    refine ⟨h.2.1, fun entry hentry => ?_⟩
    rcases List.mem_cons.mp hentry with rfl | hentry
    · exact ⟨id, rfl, h.1⟩
    · exact h.2.2 entry hentry
  | done result => exact h

end Step

end Listing

end DiagramService
