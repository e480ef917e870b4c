import DiagramService.Proofs.Disk.Gone

/-! The places that a path leads along. Where a path leads is a matter of what is at these places:
on each of them is a directory or a link, but for the last, where the path may end. So a change
anywhere else does not turn a path aside. -/

namespace DiagramService

namespace Disk

/-- The places that a walk over names looks at, the first one first. -/
def placesOf (d : Disk) (last : LastLink) (links : Nat) (place : Place) (entry : Entry)
    (names : List FileName) : List Place :=
  match names with
  | [] => []
  | name :: rest =>
    if entry != .directory then []
    else if name == ['.'] then placesOf d last links place entry rest
    else if name == ['.', '.'] then placesOf d last links place.tail .directory rest
    else if maxNameBytes < byteLength name then []
    else
      (name :: place) ::
        match d.get? (name :: place) with
        | none => []
        | some (.link target) =>
          if rest.isEmpty && last == .keep then []
          else
            match links with
            | 0 => []
            | links + 1 =>
              placesOf d last links (if target.isAbsolute then [] else place) .directory
                (namesOf target ++ rest)
        | some entry => placesOf d last links (name :: place) entry rest
termination_by (links, names.length)

/-- The places that a path leads along, with the place that it leads to. -/
def trail (d : Disk) (last : LastLink) (p : Path) : List Place :=
  d.placesOf last maxLinks (d.startOf p) .directory (namesOf p)

section Walk

variable {d e : Disk} {last : LastLink} {links : Nat} {place : Place} {entry : Entry}
  {name : FileName} {names rest : List FileName}

/-- A name that is neither the directory nor its parent is looked at. -/
theorem mem_placesOf (hd : ¬ (entry != .directory) = true) (hdot : ¬ (name == ['.']) = true)
    (hdots : ¬ (name == ['.', '.']) = true) (hlong : ¬ maxNameBytes < byteLength name) :
    name :: place ∈ d.placesOf last links place entry (name :: rest) := by
  rw [placesOf]
  simp [hd, hdot, hdots, hlong]

/-- A walk is the same on a disk with the same at the places that it looks at. -/
theorem walk_congr (h : ∀ q ∈ d.placesOf last links place entry names, e.get? q = d.get? q) :
    e.walk last links place entry names = d.walk last links place entry names := by
  fun_induction walk d last links place entry names with
  | case1 => rw [walk]
  | case2 links place entry y rest hne => rw [walk]; simp only [hne, if_true]
  | case3 links place entry y rest hd hdot ih =>
    rw [walk]; simp only [hd, hdot, if_true]
    refine ih fun q hq => h q ?_
    rw [placesOf]; simpa [hd, hdot] using hq
  | case4 links place entry y rest hd hdot hdots ih =>
    rw [walk]; simp only [hd, hdot, hdots, if_true]
    refine ih fun q hq => h q ?_
    rw [placesOf]; simpa [hd, hdot, hdots] using hq
  | case5 links place entry y rest hd hdot hdots hlong =>
    rw [walk]; simp only [hd, hdot, hdots, hlong, if_true]; rfl
  | case6 links place entry y rest hd hdot hdots hlong hmissing hrest =>
    have hget := (h _ (mem_placesOf hd hdot hdots hlong)).trans hmissing
    rw [walk]; simp only [hd, hdot, hdots, hlong, hget, hrest, if_true]; rfl
  | case7 links place entry y rest hd hdot hdots hlong hmissing hrest =>
    have hget := (h _ (mem_placesOf hd hdot hdots hlong)).trans hmissing
    rw [walk]; simp only [hd, hdot, hdots, hlong, hget, hrest]; rfl
  | case8 links place entry y rest hd hdot hdots hlong target hlink hlast =>
    have hget := (h _ (mem_placesOf hd hdot hdots hlong)).trans hlink
    rw [walk]; simp only [hd, hdot, hdots, hlong, hget, hlast, if_true]; rfl
  | case9 place entry y rest hd hdot hdots hlong target hlink hlast =>
    have hget := (h _ (mem_placesOf hd hdot hdots hlong)).trans hlink
    rw [walk]; simp only [hd, hdot, hdots, hlong, hget, hlast]; rfl
  | case10 place entry y rest hd hdot hdots hlong target hlink hlast links ih =>
    have hget := (h _ (mem_placesOf hd hdot hdots hlong)).trans hlink
    rw [walk]; simp only [hd, hdot, hdots, hlong, hget, hlast]
    refine ih fun q hq => h q ?_
    rw [placesOf]; simp only [hd, hdot, hdots, hlong, hlink, hlast]
    exact List.mem_cons_of_mem _ hq
  | case11 links place entry y rest hd hdot hdots hlong old hold hfound ih =>
    have hget := (h _ (mem_placesOf hd hdot hdots hlong)).trans hfound
    have hrest : ∀ q ∈ d.placesOf last links (y :: place) old rest, e.get? q = d.get? q := by
      refine fun q hq => h q ?_
      rw [placesOf]; simp only [hd, hdot, hdots, hlong, hfound]
      cases old with
      | link target => exact absurd rfl (hold target)
      | _ => exact List.mem_cons_of_mem _ hq
    rw [walk]; simp only [hd, hdot, hdots, hlong, hget]
    cases old with
    | link target => exact absurd rfl (hold target)
    | _ => exact ih hrest

/-- A walk goes through directories and along links, until it comes to its end. -/
theorem placesOf_cases {t : Target} (hw : d.walk last links place entry names = .ok t) {q : Place}
    (hq : q ∈ d.placesOf last links place entry names) :
    d.get? q = some .directory ∨ (∃ target, d.get? q = some (.link target)) ∨ q = t.place := by
  fun_induction walk d last links place entry names with
  | case1 => simp [placesOf] at hq
  | case3 links place entry y rest hd hdot ih =>
    rw [placesOf] at hq
    exact ih hw (by simpa [hd, hdot] using hq)
  | case4 links place entry y rest hd hdot hdots ih =>
    rw [placesOf] at hq
    exact ih hw (by simpa [hd, hdot, hdots] using hq)
  | case6 links place entry y rest hd hdot hdots hlong hmissing hrest =>
    cases hw
    have hplace : q = y :: place := by
      rw [placesOf] at hq
      simpa [hd, hdot, hdots, hlong, hmissing] using hq
    exact .inr (.inr hplace)
  | case8 links place entry y rest hd hdot hdots hlong target hlink hlast =>
    cases hw
    have hplace : q = y :: place := by
      rw [placesOf] at hq
      simpa [hd, hdot, hdots, hlong, hlink, hlast] using hq
    exact .inr (.inr hplace)
  | case10 place entry y rest hd hdot hdots hlong target hlink hlast links ih =>
    rw [placesOf] at hq
    simp only [hd, hdot, hdots, hlong, hlink, hlast, List.mem_cons, if_false,
      Bool.false_eq_true] at hq
    rcases hq with rfl | hq
    · exact .inr (.inl ⟨target, hlink⟩)
    · exact ih hw hq
  | case11 links place entry y rest hd hdot hdots hlong old hold hfound ih =>
    have hq' : q = y :: place ∨ q ∈ d.placesOf last links (y :: place) old rest := by
      rw [placesOf] at hq
      simp only [hd, hdot, hdots, hlong, hfound] at hq
      cases old with
      | link target => exact absurd rfl (hold target)
      | _ => exact List.mem_cons.mp hq
    rcases hq' with rfl | hq'
    · cases rest with
      | nil =>
        rw [walk] at hw
        cases hw
        exact .inr (.inr rfl)
      | cons z rest =>
        -- only a directory is walked through
        obtain rfl : old = .directory := by
          refine Classical.byContradiction fun hne => ?_
          simp [walk, hne] at hw
        exact .inl hfound
    · exact ih hw hq'
  | _ => cases hw

end Walk

section Path

variable {d e : Disk} {last : LastLink} {p : Path} {q : Place}

/-- A path leads to the same on a disk with the same at the places that it leads along. -/
theorem locate_congr (hworking : e.working = d.working)
    (h : ∀ q ∈ d.trail last p, e.get? q = d.get? q) : e.locate last p = d.locate last p := by
  unfold locate
  rw [hworking]
  have hwalk : e.walk last maxLinks (d.startOf p) .directory (namesOf p) =
      d.walk last maxLinks (d.startOf p) .directory (namesOf p) := walk_congr h
  unfold startOf at hwalk
  rw [hwalk]

/-- A path leads through directories and along links to what is found under it. -/
theorem trail_cases {t : Target} (hl : d.locate last p = .ok t) (hq : q ∈ d.trail last p) :
    d.get? q = some .directory ∨ (∃ target, d.get? q = some (.link target)) ∨ q = t.place := by
  rw [locate_of_spelled _ _ (spelled_of_locate hl)] at hl
  exact placesOf_cases hl hq

/-- What is found under a path is found there as long as directories, links and the thing itself
stay where they are. -/
theorem find_of_agreesOff {free : Place → Prop} {x : Entry} (hfind : d.find last p = .ok (q, x))
    (hoff : AgreesOff free d e) (hq : ¬ free q)
    (hfree : ∀ r, free r → d.get? r ≠ some .directory ∧ ∀ target, d.get? r ≠ some (.link target)) :
    e.find last p = .ok (q, x) := by
  have hl := locate_of_find hfind
  refine find_of_locate ((locate_congr hoff.working fun r hr => hoff.get r fun hf => ?_).trans hl)
  obtain ⟨hdirectory, hlink⟩ := hfree r hf
  rcases trail_cases hl hr with h | ⟨target, h⟩ | rfl
  · exact hdirectory h
  · exact hlink target h
  · exact hq hf

end Path

end Disk

end DiagramService
