import DiagramService.Proofs.Disk.Gone
import Mathlib.Data.List.Induction

/-! Paths that lead downwards from a directory. Below a directory that holds no link a path of names
leads to the place that has the same names, so nothing outside the directory is found under it. -/

namespace DiagramService

namespace Disk

/-- A name between slashes that stands for an entry, however long it is. -/
structure Named (name : FileName) : Prop where
  nonempty : name ≠ []
  noSlash : '/' ∉ name
  notDot : name ≠ ['.']
  notDots : name ≠ ['.', '.']

/-- No symbolic link is below the directory that a path leads to. -/
def NoLinksBelow (d : Disk) (dir : Path) : Prop :=
  ∀ D, d.Opens dir D → ∀ q target, D <:+ q → q ≠ D → d.get? q ≠ some (.link target)

section Descent

variable {d : Disk} {dir : Path}

/-- A step to a name that is no link leads to the entry of that name. -/
theorem Named.ordinary_of_walk {name : FileName} (hn : Named name) {last : LastLink} {links : Nat}
    {D q : Place} {x : Entry} (hlink : ∀ target, d.get? (name :: D) ≠ some (.link target))
    (h : d.walk last links D .directory [name] = .ok (.found q x)) :
    Ordinary name ∧ q = name :: D ∧ d.get? q = some x := by
  rw [walk] at h
  simp only [bne_self_eq_false, beq_iff_eq, hn.notDot, hn.notDots, if_false,
    Bool.false_eq_true] at h
  split at h
  · cases h
  · next hfits =>
    refine ⟨⟨hn.nonempty, hn.noSlash, hn.notDot, hn.notDots, Nat.not_lt.mp hfits⟩, ?_⟩
    split at h
    · simp at h
    · next target hget => exact absurd hget (hlink target)
    · next hget =>
      rw [walk] at h
      cases h
      exact ⟨rfl, hget⟩

/-- The names of the path to an entry, which does not ask for a directory at its end. -/
theorem Named.wayOf_join {name : FileName} (hn : Named name) (p : Path) :
    wayOf (p.join name) = wayOf p ++ [name] := by
  have hjoin := namesOf_join p hn.nonempty hn.noSlash
  rcases namesOf_cases (p.join name) with h | h
  · rw [← h, hjoin]
  · rw [h] at hjoin
    exact absurd (List.append_inj' hjoin rfl).2 fun heq => hn.notDot (List.cons.inj heq).1.symm

/-- One step further down from a directory without links below it. -/
theorem NoLinksBelow.step (h : d.NoLinksBelow dir) {D : Place} (hD : d.Opens dir D)
    {names : List FileName} (hnames : ∀ name ∈ names, Ordinary name) {name : FileName}
    (hn : Named name) {last : LastLink} {links : Nat} {q : Place} {x : Entry}
    (hstep : d.walk last links (names.reverse ++ D) .directory [name] = .ok (.found q x)) :
    q = (names ++ [name]).reverse ++ D ∧ d.get? q = some x ∧
      ∀ name' ∈ names ++ [name], Ordinary name' := by
  have hbelow : name :: (names.reverse ++ D) ≠ D := fun heq => by
    have hlength := congrArg List.length heq
    simp at hlength
    omega
  obtain ⟨hname, rfl, hget⟩ := hn.ordinary_of_walk
    (fun target => h D hD _ target ⟨name :: names.reverse, rfl⟩ hbelow) hstep
  refine ⟨by simp, hget, fun name' hmem => ?_⟩
  rcases List.mem_append.mp hmem with hmem | hmem
  · exact hnames name' hmem
  · rw [List.mem_singleton.mp hmem]
    exact hname

/-- A directory that names lead down to has these names. -/
theorem NoLinksBelow.opens (h : d.NoLinksBelow dir) {names : List FileName}
    (hnames : ∀ name ∈ names, Named name) {E : Place}
    (hE : d.Opens (names.foldl Path.join dir) E) :
    ∃ D, d.Opens dir D ∧ E = names.reverse ++ D ∧ ∀ name ∈ names, Ordinary name := by
  induction names using List.reverseRecOn generalizing E with
  | nil => exact ⟨E, hE, rfl, nofun⟩
  | append_singleton names name ih =>
    have hn : Named name := hnames name (by simp)
    rw [List.foldl_append, Opens, List.foldl_cons, List.foldl_nil, hn.wayOf_join,
      startOf_join d _ hn.nonempty hn.noSlash] at hE
    obtain ⟨P, links, hP, hstep⟩ := walk_snoc hE
    obtain ⟨D, hD, rfl, hord⟩ :=
      ih (fun name' hmem => hnames name' (List.mem_append_left _ hmem)) hP
    obtain ⟨hplace, -, hord'⟩ := h.step hD hord hn hstep
    exact ⟨D, hD, hplace, hord'⟩

/-- What is found under names that lead down has these names. -/
theorem NoLinksBelow.find (h : d.NoLinksBelow dir) {names : List FileName}
    (hnames : ∀ name ∈ names, Named name) (hne : names ≠ []) {q : Place} {x : Entry}
    (hfind : d.find .follow (names.foldl Path.join dir) = .ok (q, x)) :
    ∃ D, d.Opens dir D ∧ q = names.reverse ++ D ∧ d.get? q = some x ∧
      ∀ name ∈ names, Ordinary name := by
  obtain ⟨init, name, rfl⟩ : ∃ init name, names = init ++ [name] :=
    ⟨_, _, (List.dropLast_concat_getLast hne).symm⟩
  have hn : Named name := hnames name (by simp)
  have hl := locate_of_find hfind
  rw [locate_of_spelled _ _ (spelled_of_locate hl), List.foldl_append, List.foldl_cons,
    List.foldl_nil, startOf_join d _ hn.nonempty hn.noSlash,
    namesOf_join _ hn.nonempty hn.noSlash] at hl
  obtain ⟨P, links, hP, hstep⟩ := walk_snoc hl
  obtain ⟨D, hD, rfl, hord⟩ :=
    h.opens (fun name' hmem => hnames name' (List.mem_append_left _ hmem)) hP
  obtain ⟨hplace, hget, hord'⟩ := h.step hD hord hn hstep
  exact ⟨D, hD, hplace, hget, hord'⟩

end Descent

end Disk

end DiagramService
