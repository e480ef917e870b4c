import DiagramService.Proofs.Disk.Gone

/-! Places in a directory where a file can come and go. What is there does not decide where a path
leads, so a path that names such a place goes on naming it, and the file is written and removed
there. -/

namespace DiagramService

namespace Disk

/-- A file or nothing is at a place. -/
def Plain (d : Disk) (q : Place) : Prop :=
  ∀ x, d.get? q = some x → ∃ content time, x = .file content time

/-- A path names a place in a directory that is there, and a file or nothing is at this place. -/
structure Slot (d : Disk) (p : Path) (q : Place) : Prop where
  leads : d.locate .keep p = .ok (d.targetAt q)
  plain : d.Plain q

section Slot

variable {d e : Disk} {p : Path} {q r : Place} {free : Place → Prop}

theorem Plain.ne_nil (h : d.Plain q) : q ≠ [] := by
  rintro rfl
  obtain ⟨content, time, hfile⟩ := h .directory rfl
  cases hfile

theorem Plain.no_link (h : d.Plain q) (target : Path) : d.get? q ≠ some (.link target) := by
  intro hget
  obtain ⟨content, time, hfile⟩ := h _ hget
  cases hfile

theorem plain_of_get? (h : d.get? q = none) : d.Plain q := by
  intro x hx
  rw [h] at hx
  cases hx

theorem plain_of_file {content : Bytes} {time : Int} (h : d.get? q = some (.file content time)) :
    d.Plain q := by
  intro x hx
  rw [h] at hx
  cases hx
  exact ⟨content, time, rfl⟩

/-- In a directory every name is a slot, unless something other than a file has it. -/
theorem Opens.slot {D : Place} {name : FileName} (h : d.Opens p D) (hn : Ordinary name)
    (hs : Spelled (p.join name)) (hplain : d.Plain (name :: D)) :
    d.Slot (p.join name) (name :: D) := by
  refine ⟨?_, hplain⟩
  rw [targetAt]
  cases hget : d.get? (name :: D) with
  | none => exact h.locate_missing hn hs .keep hget
  | some x => exact h.locate_found hn hs .keep hget fun _ _ => rfl

/-- A path leads to the same place when all that changes are places where a file or nothing was. -/
theorem Slot.locate (h : d.Slot p q) (hoff : AgreesOff free d e) (hd : ∀ r, free r → d.Plain r)
    (he : e.Plain q) (last : LastLink) : e.locate last p = .ok (e.targetAt q) := by
  have hs := spelled_of_locate h.leads
  have hkeep : ∀ r x, (∀ content time, x ≠ .file content time) → d.get? r = some x →
      e.get? r = some x := by
    intro r x hx hget
    rw [hoff.get r ?_, hget]
    intro hfree
    obtain ⟨content, time, hfile⟩ := hd r hfree x hget
    exact hx content time hfile
  have hw := h.leads
  rw [locate_of_spelled _ _ hs] at hw
  rw [locate_of_spelled _ _ hs, hoff.startOf]
  have hlands := walk_lands_on (fun r => hkeep r _ nofun) (fun r target => hkeep r _ nofun)
    (fun _ => rfl : last = .keep → LastLink.keep = .keep) rfl hw ?_ ?_
  · rwa [targetAt_place] at hlands
  · intro r x hfound
    rw [targetAt] at hfound
    cases hget : d.get? q with
    | none =>
      rw [hget] at hfound
      cases hfound
    | some y =>
      rw [hget] at hfound
      cases hfound
      exact h.plain x hget
  · rw [targetAt_place]
    exact he.no_link

/-- A slot stays one, whatever file comes or goes. -/
theorem Slot.carry (h : d.Slot p q) (hoff : AgreesOff free d e) (hd : ∀ r, free r → d.Plain r)
    (he : e.Plain q) : e.Slot p q :=
  ⟨h.locate hoff hd he .keep, he⟩

/-- What has gone from a slot cannot be read. -/
theorem Slot.contentAt_of_get? (h : d.Slot p q) (hget : d.get? q = none) :
    d.contentAt p = .error .notFound := by
  have hlocate := h.locate (.refl (fun _ => False) d) nofun h.plain .follow
  unfold contentAt find
  rw [hlocate, targetAt, hget]

/-- A file is written to a slot. -/
theorem Slot.writeFile (h : d.Slot p q) (content : Bytes) (now : Int) :
    d.writeFile p content now = (d.set q (.file content now)).done := by
  have hlocate := h.locate (.refl (fun _ => False) d) nofun h.plain .follow
  unfold Disk.writeFile modify
  rw [hlocate, targetAt]
  cases hget : d.get? q with
  | none => rfl
  | some x =>
    obtain ⟨old, time, rfl⟩ := h.plain x hget
    rfl

/-- What is in a slot is removed, if there is anything. -/
theorem Slot.removeFile (h : d.Slot p q) : d.removeFile p =
    if d.get? q = none then d.fail .notFound else (d.erase q).done := by
  unfold Disk.removeFile find
  rw [h.leads, targetAt]
  cases hget : d.get? q with
  | none => rfl
  | some x =>
    obtain ⟨content, time, rfl⟩ := h.plain x hget
    rfl

theorem plain_set_file (hr : d.Plain r) (hq : d.Plain q) (content : Bytes) (time : Int) :
    (d.set r (.file content time)).Plain q := by
  by_cases hqr : q = r
  · subst hqr
    exact plain_of_file (get?_set_self d hr.ne_nil _)
  · intro x hx
    rw [get?_set_of_ne d hqr] at hx
    exact hq x hx

/-- A file that is written to one slot leaves the others slots. -/
theorem Slot.set_file (h : d.Slot p q) (hr : d.Plain r) (content : Bytes) (time : Int) :
    (d.set r (.file content time)).Slot p q :=
  h.carry (agreesOff_set_self d r _) (fun _ hfree => hfree ▸ hr)
    (plain_set_file hr h.plain content time)

end Slot

end Disk

end DiagramService
