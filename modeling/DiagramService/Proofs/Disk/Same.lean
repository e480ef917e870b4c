import DiagramService.Proofs.Disk.Slot
import DiagramService.Proofs.Disk.Trail

/-! Disks that hold the same, and what is under a path after a file was written. Operations do the
same on disks that hold the same, a file that was written is found again, and directories that are
made leave a disk well-formed. -/

namespace DiagramService

namespace Disk

section Same

variable {d e : Disk}

theorem Same.refl (d : Disk) : Same d d :=
  ⟨rfl, fun _ => rfl⟩

theorem Same.set (h : Same d e) (q : Place) (x : Entry) : Same (d.set q x) (e.set q x) := by
  refine ⟨h.1, fun r => ?_⟩
  by_cases hr : r = q
  · subst hr
    cases r with
    | nil => rfl
    | cons name r =>
      rw [get?_set_self d (List.cons_ne_nil _ _), get?_set_self e (List.cons_ne_nil _ _)]
  · rw [get?_set_of_ne d hr, get?_set_of_ne e hr, h.2]

theorem Same.grows {f : Disk} (h : Same d e) (hgrow : Grows f d) : Grows f e :=
  ⟨h.1.symm.trans hgrow.working, fun q => h.2 q ▸ hgrow.get q⟩

/-- A path leads to the same on disks that hold the same. -/
theorem Same.locate (h : Same d e) (last : LastLink) (p : Path) :
    e.locate last p = d.locate last p :=
  locate_congr h.1.symm fun q _ => (h.2 q).symm

theorem Same.find (h : Same d e) (last : LastLink) (p : Path) : e.find last p = d.find last p := by
  simp only [Disk.find, h.locate]

theorem Same.contentAt (h : Same d e) (p : Path) : e.contentAt p = d.contentAt p := by
  simp only [Disk.contentAt, h.find]

/-- A file is written alike on disks that hold the same. -/
theorem Same.writeFile (h : Same d e) (p : Path) (content : Bytes) (now : Int) :
    (e.writeFile p content now).1 = (d.writeFile p content now).1 ∧
      Same (d.writeFile p content now).2 (e.writeFile p content now).2 := by
  simp only [Disk.writeFile, modify, h.locate]
  cases d.locate .follow p with
  | error cause =>
    by_cases hasks : asksDirectory p
    · simp only [hasks, Bool.not_true, Bool.false_eq_true, if_false]
      split <;> exact ⟨rfl, h⟩
    · simp only [hasks, Bool.not_false, if_true]
      exact ⟨rfl, h⟩
  | ok t =>
    cases t with
    | missing place => exact ⟨rfl, h.set place _⟩
    | found place x =>
      cases x with
      | file old time => exact ⟨rfl, h.set place _⟩
      | _ => exact ⟨rfl, h⟩

end Same

/-! ## What was written -/

/-- A file that is written where a path leads is found there. -/
theorem find_set_file {d : Disk} {p : Path} {q : Place}
    (hl : d.locate .follow p = .ok (d.targetAt q)) (hq : d.Plain q) (content : Bytes) (now : Int) :
    (d.set q (.file content now)).find .follow p = .ok (q, .file content now) := by
  have hs := spelled_of_locate hl
  rw [locate_of_spelled _ _ hs] at hl
  have hkeep : ∀ r x, d.get? r = some x → (∀ content time, x ≠ .file content time) →
      (d.set q (.file content now)).get? r = some x := by
    intro r x hr hx
    rw [get?_set_of_ne d ?_, hr]
    rintro rfl
    obtain ⟨content, time, rfl⟩ := hq x hr
    exact hx content time rfl
  have hnew := get?_set_self d hq.ne_nil (.file content now)
  have hfile : ∀ r x, d.targetAt q = .found r x → ∃ content time, x = .file content time := by
    intro r x hfound
    rw [targetAt] at hfound
    split at hfound
    · next hget =>
      cases hfound
      exact hq _ hget
    · cases hfound
  have hwalk := walk_lands (fun r hr => hkeep r _ hr (by simp))
    (fun r target hr => hkeep r _ hr (by simp)) rfl hl hfile
    (fun target h => by rw [targetAt_place, hnew] at h; cases h)
  rw [targetAt_place, targetAt, hnew] at hwalk
  exact find_of_locate ((locate_of_spelled _ _ hs).trans hwalk)

/-- A file can be written under a path, whatever is to be in it. -/
def Writable (d : Disk) (p : Path) : Prop :=
  ∀ content now, (d.writeFile p content now).1 = .ok ()

theorem Writable.written {d : Disk} {p : Path} (h : d.Writable p) (content : Bytes) (now : Int) :
    ∃ e, d.writeFile p content now = (.ok (), e) :=
  ⟨_, Prod.ext (h content now) rfl⟩

/-- A path where a file can be written leads to no directory and to no link that is not followed. -/
theorem Writable.locate {d : Disk} {p : Path} (h : d.Writable p) :
    (∃ q, d.locate .follow p = .ok (.missing q)) ∨
    (∃ q content time, d.locate .follow p = .ok (.found q (.file content time))) ∨
    ∃ q kind, d.locate .follow p = .ok (.found q (.device kind)) := by
  obtain ⟨e, hwrite⟩ := h.written [] 0
  obtain ⟨q, hl, hq, -⟩ | ⟨⟨q, kind, hfind⟩, -⟩ := writeFile_ok hwrite
  · rw [targetAt] at hl
    cases hget : d.get? q with
    | none =>
      rw [hget] at hl
      exact .inl ⟨q, hl⟩
    | some x =>
      obtain ⟨content, time, rfl⟩ := hq x hget
      rw [hget] at hl
      exact .inr (.inl ⟨q, content, time, hl⟩)
  · exact .inr (.inr ⟨q, kind, locate_of_find hfind⟩)

/-- What was written is read again, unless it went to a device. -/
theorem Writable.contentAt {d : Disk} {p : Path} (h : d.Writable p) (content : Bytes) (now : Int)
    (hdevice : ∀ q kind, d.find .follow p ≠ .ok (q, .device kind)) :
    (d.writeFile p content now).2.contentAt p = .ok content := by
  obtain ⟨e, hwrite⟩ := h.written content now
  rw [hwrite]
  obtain ⟨q, hl, hq, rfl⟩ | ⟨⟨q, kind, hfind⟩, -⟩ := writeFile_ok hwrite
  · simp only [Disk.contentAt, find_set_file hl hq]
  · exact absurd hfind (hdevice q kind)

/-- When directories are made a file can still be written under a path, unless one of them has come
there. -/
theorem Writable.grows {d e : Disk} {p : Path} (h : d.Writable p) (hgrow : Grows d e)
    (hdir : ∀ q, e.find .follow p ≠ .ok (q, .directory)) : e.Writable p := by
  intro content now
  have hsame : ∀ {q x}, d.locate .follow p = .ok (.found q x) →
      e.locate .follow p = .ok (.found q x) :=
    fun hl => locate_of_find (hgrow.find (find_of_locate hl))
  unfold writeFile modify
  obtain ⟨q, hl⟩ | ⟨q, old, time, hl⟩ | ⟨q, kind, hl⟩ := h.locate
  · obtain ⟨hnone, -⟩ := locate_missing_get hl
    have hs := spelled_of_locate hl
    have hlinks : ∀ target, e.get? q ≠ some (.link target) := fun target hlink => by
      cases hnone.symm.trans (hgrow.noNewLinks q target hlink)
    rw [locate_of_spelled _ _ hs] at hl
    have hwalk := walk_lands (fun _ => hgrow.get_of_some) (fun _ _ => hgrow.get_of_some) rfl hl
      (by simp) hlinks
    rw [show d.startOf p = e.startOf p by simp only [startOf, hgrow.working],
      ← locate_of_spelled e .follow hs, Target.place, targetAt] at hwalk
    obtain hget | ⟨-, hget⟩ := hgrow.get q
    · rw [hget, hnone] at hwalk
      rw [hwalk]
      rfl
    · rw [hget] at hwalk
      exact absurd (find_of_locate hwalk) (hdir q)
  · rw [hsame hl]
    rfl
  · rw [hsame hl]
    rfl

/-! ## Directories that are made -/

/-- On a well-formed disk a missing name is missing in a directory. -/
theorem walk_missing_parent {d : Disk} (hd : d.WellFormed) {last : LastLink} {links : Nat}
    {place : Place} {entry : Entry} {names : List FileName} (hp : d.get? place = some entry)
    {q : Place} (hw : d.walk last links place entry names = .ok (.missing q)) :
    ∃ name p, q = name :: p ∧ d.get? p = some .directory := by
  fun_induction walk d last links place entry names with
  | case3 links place entry y rest _ _ ih => exact ih hp hw
  | case4 links place entry y rest hne _ _ ih =>
    obtain rfl : entry = .directory := by simpa using hne
    refine ih ?_ hw
    cases place with
    | nil => rfl
    | cons name p => exact hd.parent name p (by simp [hp])
  | case6 links place entry y rest hne _ _ _ _ _ =>
    obtain rfl : entry = .directory := by simpa using hne
    cases hw
    exact ⟨y, place, rfl, hp⟩
  | case10 place entry y rest hne _ _ _ target _ _ links ih =>
    obtain rfl : entry = .directory := by simpa using hne
    refine ih ?_ hw
    split
    · rfl
    · exact hp
  | case11 links place entry y rest _ _ _ _ old _ hget ih => exact ih hget hw
  | _ => cases hw

theorem locate_missing_parent {d : Disk} (hd : d.WellFormed) {last : LastLink} {p : Path}
    {q : Place} (h : d.locate last p = .ok (.missing q)) :
    ∃ name r, q = name :: r ∧ d.get? r = some .directory := by
  rw [locate_of_spelled _ _ (spelled_of_locate h)] at h
  exact walk_missing_parent hd (hd.get_startOf p) h

/-- A disk is well-formed with one more entry in a directory, which is not put in the place of a
directory unless it is one. -/
theorem WellFormed.set_entry {d : Disk} (hd : d.WellFormed) {name : FileName} {p : Place}
    (hp : d.get? p = some .directory) {x : Entry}
    (hx : d.get? (name :: p) = some .directory → x = .directory) :
    (d.set (name :: p) x).WellFormed := by
  have hkeep : ∀ q, d.get? q = some .directory →
      (d.set (name :: p) x).get? q = some .directory := by
    intro q hq
    by_cases hqp : q = name :: p
    · subst hqp
      rw [get?_set_self d (List.cons_ne_nil _ _), hx hq]
    · rw [get?_set_of_ne d hqp, hq]
  refine ⟨fun other q hq => hkeep q ?_, hkeep _ hd.working⟩
  by_cases hqp : other :: q = name :: p
  · rw [(List.cons.inj hqp).2, hp]
  · rw [get?_set_of_ne d hqp] at hq
    exact hd.parent other q hq

theorem WellFormed.set_directory {d : Disk} (hd : d.WellFormed) {name : FileName} {p : Place}
    (hp : d.get? p = some .directory) : (d.set (name :: p) .directory).WellFormed :=
  hd.set_entry hp fun _ => rfl

theorem WellFormed.makeDir {d : Disk} (hd : d.WellFormed) (p : Path) :
    (d.makeDir p).2.WellFormed := by
  unfold Disk.makeDir
  split
  · exact hd
  · next q hl =>
    obtain ⟨name, r, rfl, hr⟩ := locate_missing_parent hd hl
    exact hd.set_directory hr
  · exact hd

/-- A disk stays well-formed when a directory is made with its parents. -/
theorem WellFormed.makeDirs {d : Disk} (hd : d.WellFormed) (p : Path) :
    (d.makeDirs p).2.WellFormed :=
  makeDirsWithin_keeps (fun _ q _ h => h.makeDir q) _ .self hd

theorem WellFormed.same {d e : Disk} (hd : d.WellFormed) (h : Same d e) : e.WellFormed :=
  ⟨fun name q hq => by rw [← h.2] at hq ⊢; exact hd.parent name q hq,
    by rw [← h.2, ← h.1]; exact hd.working⟩

/-- A disk stays well-formed when things are put in a directory where nothing was. -/
theorem WellFormed.agreesOff {d e : Disk} (hd : d.WellFormed) {free : Place → Prop} {p : Place}
    (hp : d.get? p = some .directory) (hoff : AgreesOff free d e)
    (hfree : ∀ q, free q → d.get? q = none ∧ ∃ name, q = name :: p) : e.WellFormed := by
  have hkeep : ∀ q, d.get? q = some .directory → e.get? q = some .directory := by
    intro q hq
    rw [hoff.get q, hq]
    intro hf
    rw [(hfree q hf).1] at hq
    cases hq
  refine ⟨fun name q hq => hkeep q ?_, hoff.working ▸ hkeep _ hd.working⟩
  by_cases hf : free (name :: q)
  · obtain ⟨-, other, heq⟩ := hfree _ hf
    rw [(List.cons.inj heq).2, hp]
  · rw [hoff.get _ hf] at hq
    exact hd.parent name q hq

/-- What a path leads to is the same on disks that hold the same. -/
theorem Opens.same {d e : Disk} {p : Path} {D : Place} (hD : d.Opens p D) (h : Same d e) :
    e.Opens p D :=
  hD.mono h.1.symm fun q _ hq => (h.2 q).symm.trans hq

/-! ## What was removed -/

/-- A disk is what it was when all that has changed is below a place where nothing was, and all
that is there is removed. -/
theorem Same.of_eraseTree {d e : Disk} {S : Place} (hS : S ≠ [])
    (hoff : AgreesOff (S <:+ ·) d e) (hnone : ∀ q, S <:+ q → d.get? q = none) :
    Same d (e.eraseTree S) := by
  refine ⟨hoff.working.symm, fun q => ?_⟩
  rw [get?_eraseTree e hS]
  split
  · next hq => exact hnone q hq
  · next hq => exact (hoff.get q hq).symm

end Disk

end DiagramService
