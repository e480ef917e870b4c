import Mathlib
import DiagramService.Proofs.Disk.Gone
import DiagramService.Proofs.Disk.Same
import DiagramService.Proofs.Path.Parts
import DiagramService.Proofs.Render.Scratch
import DiagramService.Proofs.Store.Listing

/-! Scratch directories that are held at the same time. Each was made where nothing was, in a root
that is in no other one, so none of them is in another: what is written to one and the removal of
one do not get at the rest of the disk. A name may come again once its directory has been removed. -/

namespace DiagramService

/-! ## Disks that stay well-formed -/

namespace Disk

variable {d : Disk} {name : FileName} {p : Place}

/-- A disk stays well-formed when a directory is removed that is not the working directory nor around
it. -/
theorem WellFormed.eraseTree (hd : d.WellFormed) (hp : p ≠ []) (hworking : ¬ p <:+ d.working) :
    (d.eraseTree p).WellFormed := by
  have hkeep : ∀ q, ¬ p <:+ q → d.get? q = some .directory →
      (d.eraseTree p).get? q = some .directory := by
    intro q hq hget
    rw [get?_eraseTree d hp, if_neg hq, hget]
  refine ⟨fun name q hq => ?_, hkeep _ hworking hd.working⟩
  rw [get?_eraseTree d hp] at hq
  split at hq
  · exact absurd rfl hq
  · next hbelow =>
    exact hkeep q (fun hs => hbelow (hs.trans (List.suffix_cons name q))) (hd.parent name q hq)

/-- What is found on a well-formed disk is there. -/
theorem WellFormed.find_get (hd : d.WellFormed) {path : Path} {last : LastLink} {q : Place}
    {x : Entry} (h : d.find last path = .ok (q, x)) : d.get? q = some x := by
  have hl := locate_of_find h
  rw [locate_of_spelled _ _ (spelled_of_locate hl)] at hl
  exact walk_found_get hd _ _ _ _ _ (hd.get_startOf path) hl

/-- Nothing has a name in a directory below which nothing is. -/
theorem names_eq_nil (h : ∀ name, d.get? (name :: p) = none) : d.names p = [] :=
  List.eq_nil_iff_forall_not_mem.mpr fun name hname => mem_names.mp hname (h name)

end Disk

/-! ## Making and removing a scratch directory -/

namespace Scratch

variable {d₀ d d' : Disk} {root : Path} {scratch : Scratch} {S W : Place}

/-- What is known when a scratch directory has been made in a root. -/
structure Allotted (d₀ d : Disk) (root : Path) (scratch : Scratch) (d' : Disk) (S W : Place) :
    Prop where
  /-- The disk when the root had been made. -/
  rooted : ∃ e, Disk.Grows d e ∧ e.WellFormed ∧ e.get? S = none ∧ d' = e.set S .directory
  wellFormed : d'.WellFormed
  inside : ∃ name, S = name :: W
  root : d'.Opens (d'.absolute root) W
  lodged : scratch.Lodged d₀ S
  spelled : Disk.Spelled scratch.dir
  opens : d'.Opens scratch.dir S

theorem allotted_of_allocate (hd₀ : Disk.Frame d₀ d) (hd : d.WellFormed)
    {endings : List (List Char)} (hdrawn : ∀ ending ∈ endings, Drawn ending)
    (h : allocate d root endings = (.ok scratch, d')) :
    ∃ S W, Allotted d₀ d root scratch d' S W := by
  have hgrow := Disk.makeDirs_grows d root
  have hwell := hd.makeDirs root
  unfold allocate at h
  split at h
  · next e hroot =>
    rw [hroot] at hgrow hwell
    obtain ⟨ending, hmem, rfl, hmake⟩ := allocateIn_made h
    have hn := ordinary_name (hdrawn ending hmem)
    obtain ⟨W, hopens, hl, rfl⟩ := Disk.makeDir_join_ok hn hmake
    have hnone := (Disk.locate_missing_get hl).1
    have hwell' := hwell.makeDir ((e.absolute root).join (scratchStart ++ ending))
    rw [hmake] at hwell'
    have hmade := Disk.grows_set_directory hnone (List.cons_ne_nil _ _)
    have hopens' := hopens.mono hmade.working fun _ _ => hmade.get_of_some
    have habsolute : (e.set ((scratchStart ++ ending) :: W) .directory).absolute root =
        e.absolute root := by
      simp only [Disk.absolute, hmade.working]
    refine ⟨_, W, ⟨e, hgrow, hwell, hnone, rfl⟩, hwell', ⟨_, rfl⟩, by rwa [habsolute],
      ⟨rfl, Disk.asksDirectory_join _ hn, ⟨ending, W, hdrawn ending hmem, rfl⟩, e,
        hd₀.grows hgrow, hl⟩, Disk.spelled_of_locate hl, ?_⟩
    exact hopens'.join hn (Disk.get?_set_self e (List.cons_ne_nil _ _) _)
  · cases h

/-- Two scratch directories at one path are at one place. -/
theorem Lodged.unique {other : Scratch} {T : Place} (h : scratch.Lodged d₀ S)
    (h' : other.Lodged d₀ T) (hdir : scratch.dir = other.dir) : S = T := by
  obtain ⟨d₂, h₂, hl⟩ := h'.made
  rw [← hdir] at hl
  exact (h.locate h₂ hl).symm

/-- Nothing was found under its path before. -/
theorem Allotted.unseen (h : Allotted d₀ d root scratch d' S W) (hd₀ : Disk.Frame d₀ d)
    (hd : d.WellFormed) (last : Disk.LastLink) (found : Place × Entry) :
    d.find last scratch.dir ≠ .ok found := by
  intro hfind
  obtain ⟨q, x⟩ := found
  obtain rfl : q = S := h.lodged.locate hd₀ (Disk.locate_of_find hfind)
  obtain ⟨e, hgrow, -, hnone, -⟩ := h.rooted
  rw [hgrow.get_of_some (hd.find_get hfind)] at hnone
  cases hnone

/-- It is empty when it is handed out. -/
theorem Allotted.empty (h : Allotted d₀ d root scratch d' S W) {q : Place} (hq : S <:+ q)
    (hne : q ≠ S) : d'.get? q = none := by
  obtain ⟨e, -, hwell, hnone, rfl⟩ := h.rooted
  rw [Disk.get?_set_of_ne e hne]
  exact hwell.get_below hnone hq

theorem Allotted.readDir (h : Allotted d₀ d root scratch d' S W) :
    d'.readDir scratch.dir = .ok [] := by
  rw [h.opens.readDir h.spelled, Disk.names_eq_nil fun name =>
    h.empty (List.suffix_cons name S) (List.cons_ne_self name S)]

/-- A scratch directory that is there is removed with all that is below it, and nothing else. -/
theorem Lodged.removed (h : scratch.Lodged d₀ S) (hd : Disk.Frame d₀ d)
    (hdir : d.get? S = some .directory) (hremove : d.removeTree scratch.dir = (.ok (), d')) :
    d' = d.eraseTree S := by
  unfold Disk.removeTree at hremove
  cases hfind : d.find .keep scratch.dir with
  | error e =>
    rw [hfind] at hremove
    cases hremove
  | ok found =>
    obtain ⟨q, x⟩ := found
    obtain rfl : q = S := h.locate hd (Disk.locate_of_find hfind)
    rw [hfind] at hremove
    cases x with
    | directory =>
      cases hremove
      rfl
    | link target =>
      have hlink := Disk.find_entry hfind nofun
      rw [hdir] at hlink
      cases hlink
    | _ => cases hremove

end Scratch

/-! ## Scratch directories that are held -/

/-- A scratch directory that is held, and the place where it was made. -/
structure Holding where
  scratch : Scratch
  place : Place

/-- Neither directory is in the other. -/
structure Holding.Apart (x y : Holding) : Prop where
  left : ¬ x.place <:+ y.place
  right : ¬ y.place <:+ x.place

theorem Holding.Apart.symm {x y : Holding} (h : x.Apart y) : y.Apart x :=
  ⟨h.right, h.left⟩

instance : Std.Symm Holding.Apart :=
  ⟨fun _ _ h => h.symm⟩

/-- Nothing is in both. -/
theorem Holding.Apart.not_below {x y : Holding} (h : x.Apart y) {q : Place} (hx : x.place <:+ q) :
    ¬ y.place <:+ q := by
  intro hy
  rcases List.suffix_or_suffix_of_suffix hx hy with hs | hs
  · exact h.left hs
  · exact h.right hs

/-- A disk and the scratch directories that are held on it. -/
structure Custody where
  disk : Disk
  held : List Holding

/-- One operation on scratch directories. The root of one that is made is in no other one, and what
is removed can be removed. -/
inductive Custody.Step : Custody → Custody → Prop
  | allocate (d held root endings scratch S d')
      (hdrawn : ∀ ending ∈ endings, Scratch.Drawn ending)
      (hmade : Scratch.allocate d root endings = (.ok scratch, d'))
      (hplace : d'.Opens scratch.dir S)
      (hroot : ∀ W, d'.Opens (d'.absolute root) W → ∀ x ∈ held, ¬ x.place <:+ W) :
    Step ⟨d, held⟩ ⟨d', ⟨scratch, S⟩ :: held⟩
  | refuse (d held root endings e d')
      (hfailed : Scratch.allocate d root endings = (.error e, d')) :
    Step ⟨d, held⟩ ⟨d', held⟩
  | write (d held x content now) (hx : x ∈ held) :
    Step ⟨d, held⟩ ⟨(d.writeFile x.scratch.files.source content now).2, held⟩
  | close (d before x after d') (hclosed : x.scratch.close d = (.ok (), d')) :
    Step ⟨d, before ++ x :: after⟩ ⟨d', before ++ after⟩
  | drop (d before x after) (hremoved : (d.removeTree x.scratch.dir).1 = .ok ()) :
    Step ⟨d, before ++ x :: after⟩ ⟨x.scratch.drop d, before ++ after⟩

/-- What holds of the scratch directories that are held. All that was on the disk at the start is
still there. -/
structure Custody.Kept (d₀ : Disk) (c : Custody) : Prop where
  frame : Disk.Frame d₀ c.disk
  wellFormed : c.disk.WellFormed
  lodged : ∀ x ∈ c.held, x.scratch.Lodged d₀ x.place
  there : ∀ x ∈ c.held, c.disk.get? x.place = some .directory
  apart : c.held.Pairwise Holding.Apart

namespace Custody

variable {d₀ d d' : Disk} {held before after : List Holding} {x : Holding}

theorem Kept.start (hd₀ : d₀.WellFormed) : Kept d₀ ⟨d₀, []⟩ :=
  ⟨.refl d₀, hd₀, nofun, nofun, .nil⟩

theorem Kept.grows (h : Kept d₀ ⟨d, held⟩) (hgrow : Disk.Grows d d') (hd' : d'.WellFormed) :
    Kept d₀ ⟨d', held⟩ :=
  ⟨h.frame.grows hgrow, hd', h.lodged, fun x hx => hgrow.get_of_some (h.there x hx), h.apart⟩

/-- A new scratch directory is in no other one, and no other one is in it. -/
theorem Kept.allocate (h : Kept d₀ ⟨d, held⟩) {root : Path} {scratch : Scratch} {S W : Place}
    (hallotted : scratch.Allotted d₀ d root d' S W) (hroot : ∀ x ∈ held, ¬ x.place <:+ W) :
    Kept d₀ ⟨d', ⟨scratch, S⟩ :: held⟩ := by
  obtain ⟨e, hgrow, hwell, hnone, rfl⟩ := hallotted.rooted
  obtain ⟨name, rfl⟩ := hallotted.inside
  have hthere : ∀ y ∈ held, e.get? y.place = some .directory := (h.grows hgrow hwell).there
  have hmade := Disk.grows_set_directory hnone (List.cons_ne_nil name W)
  have hkept := h.grows (hgrow.trans hmade) hallotted.wellFormed
  refine ⟨hkept.frame, hkept.wellFormed, fun y hy => ?_, fun y hy => ?_,
    List.pairwise_cons.mpr ⟨fun y hy => ⟨fun hs => ?_, fun hs => ?_⟩, h.apart⟩⟩
  · rcases List.mem_cons.mp hy with rfl | hy
    · exact hallotted.lodged
    · exact h.lodged y hy
  · rcases List.mem_cons.mp hy with rfl | hy
    · exact Disk.get?_set_self e (List.cons_ne_nil name W) _
    · exact hkept.there y hy
  · have hbelow := hwell.get_below hnone hs
    rw [hthere y hy] at hbelow
    cases hbelow
  · rcases List.suffix_cons_iff.mp hs with heq | hs
    · have hold := hthere y hy
      rw [show y.place = name :: W from heq, hnone] at hold
      cases hold
    · exact hroot y hy hs

theorem Kept.apart_of_ne (h : Kept d₀ ⟨d, held⟩) (hx : x ∈ held) {y : Holding} (hy : y ∈ held)
    (hne : x ≠ y) : x.Apart y :=
  h.apart.forall hx hy hne

/-- What is written to a source stays in its scratch directory. -/
theorem Kept.write (h : Kept d₀ ⟨d, held⟩) (hd₀ : d₀.WellFormed) (hx : x ∈ held) (content : Bytes)
    (now : Int) : Kept d₀ ⟨(d.writeFile x.scratch.files.source content now).2, held⟩ := by
  have hlodged := h.lodged x hx
  have hsource : ∀ t, d.locate .follow x.scratch.files.source = .ok t →
      t.place = scratchSource :: x.place := by
    intro t ht
    rw [hlodged.source_eq] at ht
    exact hlodged.locate_join hd₀ h.frame scratchSource_ordinary ht
  obtain ⟨hoff, hlinks⟩ := Disk.writeFile_onePlace hsource (List.cons_ne_nil _ _) content now
  have hother : ∀ y ∈ held, y.place ≠ scratchSource :: x.place := by
    intro y hy heq
    by_cases hyx : x = y
    · subst hyx
      exact List.cons_ne_self _ _ heq.symm
    · exact (h.apart_of_ne hx hy hyx).left (heq ▸ List.suffix_cons _ _)
  refine ⟨h.frame.agreesOff hoff hlinks fun q hq => ?_, ?_, h.lodged, fun y hy => ?_, h.apart⟩
  · exact hd₀.get_below hlodged.get_none (hq ▸ List.suffix_cons _ _)
  · obtain heq | ⟨t, q, hl, hplace, hold, heq⟩ :=
      Disk.writeFile_cases d x.scratch.files.source content now
    · rw [heq]
      exact h.wellFormed
    · obtain rfl : scratchSource :: x.place = q := (hsource t hl).symm.trans hplace
      rw [heq]
      exact h.wellFormed.set_entry (h.there x hx) fun hdir => absurd rfl (hold _ hdir).1
  · exact (hoff.get y.place (hother y hy)).trans (h.there y hy)

/-- The removal of one scratch directory leaves the others. -/
theorem Kept.remove (h : Kept d₀ ⟨d, before ++ x :: after⟩) (hd₀ : d₀.WellFormed) :
    Kept d₀ ⟨d.eraseTree x.place, before ++ after⟩ := by
  have hlodged := h.lodged x (by simp)
  have hmem : ∀ y ∈ before ++ after, y ∈ before ++ x :: after := by
    intro y hy
    rcases List.mem_append.mp hy with hy | hy
    · exact List.mem_append_left _ hy
    · exact List.mem_append_right _ (List.mem_cons_of_mem x hy)
  have happart := (List.pairwise_middle fun hxy => hxy.symm).mp h.apart
  obtain ⟨hx, hrest⟩ := List.pairwise_cons.mp happart
  have hbelow : ∀ q, x.place <:+ q → d₀.get? q = none := fun q hq =>
    hd₀.get_below hlodged.get_none hq
  refine ⟨h.frame.agreesOff (Disk.agreesOff_eraseTree d hlodged.ne_nil)
    (Disk.noNewLinks_eraseTree d hlodged.ne_nil) hbelow,
    h.wellFormed.eraseTree hlodged.ne_nil fun hs => ?_, fun y hy => h.lodged y (hmem y hy),
    fun y hy => ?_, hrest⟩
  · -- the working directory was there at the start
    have hnone := hbelow _ hs
    rw [h.frame.working, hd₀.working] at hnone
    cases hnone
  · show (d.eraseTree x.place).get? y.place = some .directory
    rw [Disk.get?_eraseTree d hlodged.ne_nil, if_neg (hx y hy).left]
    exact h.there y (hmem y hy)

/-- The disk after a scratch directory that is held was removed. -/
theorem Kept.removed (h : Kept d₀ ⟨d, held⟩) (hx : x ∈ held)
    (hremove : d.removeTree x.scratch.dir = (.ok (), d')) : d' = d.eraseTree x.place :=
  (h.lodged x hx).removed h.frame (h.there x hx) hremove

theorem removeTree_of_close (h : x.scratch.close d = (.ok (), d')) :
    d.removeTree x.scratch.dir = (.ok (), d') := by
  unfold Scratch.close at h
  split at h
  · next hremove =>
    cases h
    exact hremove
  · cases h

theorem removeTree_of_drop (h : (d.removeTree x.scratch.dir).1 = .ok ()) :
    d.removeTree x.scratch.dir = (.ok (), x.scratch.drop d) :=
  Prod.ext h rfl

theorem Kept.step {c c' : Custody} (h : Kept d₀ c) (hd₀ : d₀.WellFormed) (hstep : Step c c') :
    Kept d₀ c' := by
  cases hstep with
  | allocate d held root endings scratch S d' hdrawn hmade hplace hroot =>
    obtain ⟨S', W, hallotted⟩ :=
      Scratch.allotted_of_allocate h.frame h.wellFormed hdrawn hmade
    obtain rfl : S = S' := hplace.unique hallotted.opens
    exact h.allocate hallotted (hroot W hallotted.root)
  | refuse d held root endings e d' hfailed =>
    have hgrow := Disk.makeDirs_grows d root
    have hwell := h.wellFormed.makeDirs root
    unfold Scratch.allocate at hfailed
    split at hfailed
    · next hroot =>
      rw [hroot] at hgrow hwell
      rw [Scratch.allocateIn_error hfailed]
      exact h.grows hgrow hwell
    · next hroot =>
      rw [hroot] at hgrow hwell
      cases hfailed
      exact h.grows hgrow hwell
  | write d held x content now hx => exact h.write hd₀ hx content now
  | close d before x after d' hclosed =>
    rw [h.removed (by simp) (removeTree_of_close hclosed)]
    exact h.remove hd₀
  | drop d before x after hremoved =>
    rw [h.removed (by simp) (removeTree_of_drop hremoved)]
    exact h.remove hd₀

theorem Kept.run {c c' : Custody} (h : Kept d₀ c) (hd₀ : d₀.WellFormed)
    (hrun : Relation.ReflTransGen Step c c') : Kept d₀ c' := by
  induction hrun with
  | refl => exact h
  | tail _ hstep ih => exact ih.step hd₀ hstep

end Custody

/-- Scratch directories stay private, however they are made, written to and removed. Those that are
held are at different paths and not in each other, and each has its source and its image in it.
Nothing was found at the path of one before it was made, and then it is empty. The removal of one
takes away all that is below its place, and nothing else. -/
theorem scratch_directories_stay_private {d₀ d : Disk} {held : List Holding}
    (hd₀ : d₀.WellFormed) (hrun : Relation.ReflTransGen Custody.Step ⟨d₀, []⟩ ⟨d, held⟩) :
    held.Pairwise (fun x y => x.scratch.dir ≠ y.scratch.dir ∧ x.Apart y) ∧
    (∀ x ∈ held, d.get? x.place = some .directory ∧
      (∀ last t, d.locate last x.scratch.dir = .ok t → t.place = x.place) ∧
      x.scratch.files.source.components = x.scratch.dir.components ++ [.normal scratchSource] ∧
      x.scratch.files.image.components = x.scratch.dir.components ++ [.normal scratchImage] ∧
      x.scratch.files.source.same x.scratch.files.image = false) ∧
    (∀ root endings scratch d', (∀ ending ∈ endings, Scratch.Drawn ending) →
      Scratch.allocate d root endings = (.ok scratch, d') →
      (∀ last found, d.find last scratch.dir ≠ .ok found) ∧ d'.readDir scratch.dir = .ok [] ∧
      ∃ S, d.get? S = none ∧ d'.Opens scratch.dir S ∧
        ∀ q, S <:+ q → q ≠ S → d'.get? q = none) ∧
    ∀ x ∈ held, ∀ d', x.scratch.close d = (.ok (), d') ∨
        (d.removeTree x.scratch.dir).1 = .ok () ∧ d' = x.scratch.drop d →
      d'.working = d.working ∧ (∀ q, d'.get? q = if x.place <:+ q then none else d.get? q) ∧
      ∀ y ∈ held, x ≠ y → ∀ q, y.place <:+ q → d'.get? q = d.get? q := by
  have hkept := (Custody.Kept.start hd₀).run hd₀ hrun
  refine ⟨hkept.apart.imp_of_mem fun {x y} hx hy happart => ⟨fun hdir => ?_, happart⟩,
    fun x hx => ?_, fun root endings scratch d' hdrawn hmade => ?_, fun x hx d' hremoved => ?_⟩
  · have hplace := (hkept.lodged x hx).unique (hkept.lodged y hy) hdir
    exact happart.left (hplace ▸ List.suffix_refl _)
  · have hlodged := hkept.lodged x hx
    refine ⟨hkept.there x hx, fun last t => hlodged.locate hkept.frame, ?_, ?_, ?_⟩
    · rw [hlodged.source_eq]
      exact Path.components_join _ scratchSource_ordinary
    · rw [hlodged.image_eq]
      exact Path.components_join _ scratchImage_ordinary
    · rw [hlodged.source_eq, hlodged.image_eq]
      exact Path.not_same_entry _ scratchSource_ordinary scratchImage_ordinary (by decide)
  · obtain ⟨S, W, hallotted⟩ :=
      Scratch.allotted_of_allocate hkept.frame hkept.wellFormed hdrawn hmade
    obtain ⟨e, hgrow, -, hnone, -⟩ := hallotted.rooted
    refine ⟨hallotted.unseen hkept.frame hkept.wellFormed, hallotted.readDir, S, ?_,
      hallotted.opens, fun q => hallotted.empty⟩
    refine Option.eq_none_iff_forall_ne_some.mpr fun x hx => ?_
    rw [hgrow.get_of_some hx] at hnone
    cases hnone
  · have hremove : d.removeTree x.scratch.dir = (.ok (), d') := by
      rcases hremoved with hclosed | ⟨hok, rfl⟩
      · exact Custody.removeTree_of_close hclosed
      · exact Custody.removeTree_of_drop hok
    have hne := (hkept.lodged x hx).ne_nil
    obtain rfl := hkept.removed hx hremove
    refine ⟨rfl, Disk.get?_eraseTree d hne, fun y hy hxy q hq => ?_⟩
    rw [Disk.get?_eraseTree d hne, if_neg]
    exact fun hs => (hkept.apart_of_ne hx hy hxy).not_below hs hq

/-! ## Two scratch directories -/

theorem Scratch.Drawn.of_all {ending : List Char} (hlength : ending.length = 6)
    (h : ending.all endingChars.toList.contains = true) : Drawn ending := by
  refine ⟨hlength, fun c hc => ?_⟩
  have hmem := List.all_eq_true.mp h c hc
  exact Array.mem_toList_iff.mp (List.contains_iff_mem.mp hmem)

/-- The scratch directory with an ending in a work directory below the root. -/
def workScratch (ending : List Char) : Holding :=
  ⟨.atPath ⟨"/work/".toList ++ scratchStart ++ ending⟩, [scratchStart ++ ending, "work".toList]⟩

def endingA : List Char := "aaaaaa".toList

def endingB : List Char := "bbbbbb".toList

/-- The work directory with one scratch directory. -/
def oneWork : Disk :=
  (Disk.empty.set ["work".toList] .directory).set (workScratch endingA).place .directory

/-- The work directory with two scratch directories. -/
def twoWorks : Disk :=
  oneWork.set (workScratch endingB).place .directory

/-- The work directory is made with a scratch directory in it, then another one is made, for which
the first ending is taken, and something is written to the first. -/
theorem reaches_two_scratches : ∃ d, Relation.ReflTransGen Custody.Step ⟨.empty, []⟩
    ⟨d, [workScratch endingB, workScratch endingA]⟩ ∧
    d.get? (scratchSource :: (workScratch endingA).place) = some (.file [1] 5) ∧
    ∃ d', (workScratch endingA).scratch.close d = (.ok (), d') := by
  have hA : Scratch.Drawn endingA := .of_all rfl (by decide)
  have hB : Scratch.Drawn endingB := .of_all rfl (by decide)
  have hfirst : Custody.Step ⟨.empty, []⟩ ⟨oneWork, [workScratch endingA]⟩ :=
    .allocate _ _ ⟨"work".toList⟩ [endingA] _ _ _ (by simpa using hA) (by cbv) (by cbv) nofun
  have hroot : twoWorks.Opens (twoWorks.absolute ⟨"work".toList⟩) ["work".toList] := by cbv
  have hsecond : Custody.Step ⟨oneWork, [workScratch endingA]⟩
      ⟨twoWorks, [workScratch endingB, workScratch endingA]⟩ := by
    refine .allocate _ _ ⟨"work".toList⟩ [endingA, endingB] _ _ _ ?_ (by cbv) (by cbv) ?_
    · simpa using ⟨hA, hB⟩
    · intro W hW x hx
      obtain rfl := hroot.unique hW
      obtain rfl := List.mem_singleton.mp hx
      decide
  have hthird := Custody.Step.write twoWorks [workScratch endingB, workScratch endingA]
    (workScratch endingA) [1] 5 (by simp)
  exact ⟨_, .tail (.tail (.single hfirst) hsecond) hthird, by cbv, _, by cbv⟩

/-- One of two scratch directories is closed, and the other is still there. -/
theorem one_of_two_scratches_closes : ∃ d d', Relation.ReflTransGen Custody.Step ⟨.empty, []⟩
    ⟨d, [workScratch endingB, workScratch endingA]⟩ ∧
    d.get? (scratchSource :: (workScratch endingA).place) = some (.file [1] 5) ∧
    (workScratch endingA).scratch.close d = (.ok (), d') ∧
    d'.get? (scratchSource :: (workScratch endingA).place) = none ∧
    d'.get? (workScratch endingB).place = some .directory := by
  have hempty : Disk.empty.WellFormed := ⟨fun _ _ h => absurd rfl h, rfl⟩
  obtain ⟨d, hrun, hwritten, d', hclosed⟩ := reaches_two_scratches
  obtain ⟨hapart, hheld, -, hremoved⟩ := scratch_directories_stay_private hempty hrun
  obtain ⟨-, hget, hothers⟩ := hremoved (workScratch endingA) (by simp) d' (.inl hclosed)
  have hne : workScratch endingA ≠ workScratch endingB := fun heq =>
    absurd (congrArg Holding.place heq) (by decide)
  refine ⟨d, d', hrun, hwritten, hclosed, ?_, ?_⟩
  · rw [hget, if_pos (List.suffix_cons _ _)]
  · rw [hothers (workScratch endingB) (by simp) hne _ (List.suffix_refl _)]
    exact (hheld (workScratch endingB) (by simp)).1

end DiagramService
