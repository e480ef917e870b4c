import Mathlib
import DiagramService.Proofs.Service.Marks
import DiagramService.Proofs.Service.SharedDirectory

/-! The saves and listings of one store. They are those of stores that share a directory, only that
no store is opened again and the clock stays in its range. -/

namespace DiagramService

/-! ## The store and its steps -/

/-- Saves and listings of the stores that are there. The clock may do anything below `2 ^ 62`. A
renderer changes nothing but the image path that belongs to its source. -/
def Rules.sole : Rules :=
  { Rules.shared with
    reopens := fun _ _ => False
    clock := fun now => -2 ^ 63 ≤ now ∧ now < 2 ^ 62 }

section Shared

variable {e e' : Errand} {store store' : Store} {d d' : Disk} {n : Nat} {w w' : World}

theorem Errand.Step.shared (h : Errand.Step .sole e store d e' store' d') :
    Errand.Step .shared e store d e' store' d' := by
  cases h with
  | advance task number work _ _ endings now hwait =>
    exact .advance task number work store d endings now hwait trivial trivial
  | begin task number _ _ source hwait => exact .begin task number store d source hwait
  | act task number given _ _ source _ hwait hact =>
    exact .act task number given store d source d' hwait hact
  | finish task number given _ _ source outcome hwait =>
    exact .finish task number given store d source outcome hwait trivial

theorem World.Step.shared (h : World.Step .sole w w') : World.Step .shared w w' := by
  cases h with
  | accept stores d errands task number hadmits =>
    exact .accept stores d errands task number hadmits
  | move stores d errands i e store e' store' d' he hs hmove =>
    exact .move stores d errands i e store e' store' d' he hs hmove.shared
  | reopen stores d errands config s d' hopen => exact hopen.elim

theorem World.Run.shared (h : World.Run .sole n w w') : World.Run .shared n w w' := by
  induction h with
  | refl w => exact .refl w
  | tail _ hs ih => exact .tail ih hs.shared

end Shared

/-! ## Turns of one store -/

/-- A turn of saves and listings, at a time after the beginning. -/
def Turn.ofSole : Turn → Bool
  | .accept (.save _ .makeDir) _ => true
  | .accept (.list .names) _ => true
  | .accept _ _ => false
  | .go _ (.advance _ now) => 0 ≤ now && now < 2 ^ 62
  | .go _ _ => true

theorem Rules.sole_permits {w w' : World} {turn : Turn} (h : w.turn? turn = some w')
    (hsole : turn.ofSole) : Rules.sole.Permits w turn := by
  cases turn with
  | accept task number =>
    simp only [World.turn?] at h
    split at h
    · next hnumber =>
      unfold Turn.ofSole at hsole
      split at hsole
      · next heq =>
        cases heq
        exact ⟨trivial, (fun _ _ h => by cases h), hnumber⟩
      · next heq =>
        cases heq
        exact ⟨trivial, (fun _ _ h => by cases h), hnumber⟩
      · cases hsole
      all_goals next heq => cases heq
    · cases h
  | go i move =>
    cases move with
    | advance endings now =>
      simp only [Turn.ofSole, Bool.and_eq_true, decide_eq_true_eq] at hsole
      exact ⟨⟨by omega, hsole.2⟩, fun _ _ => trivial⟩
    | begin => exact trivial
    | leave x => exact Rules.shared_permits h rfl
    | finish outcome => exact fun _ _ _ _ => trivial

theorem Rules.Permits.shared {w : World} {turn : Turn} (h : Rules.sole.Permits w turn) :
    Rules.shared.Permits w turn := by
  cases turn with
  | accept task number => exact h
  | go i move =>
    cases move with
    | advance endings now => exact ⟨trivial, h.2⟩
    | _ => exact h

theorem World.Run.of_sole {turns : List Turn} {w w' : World}
    (h : w.play? (fun _ => Turn.ofSole) turns = some w') : World.Run .sole turns.length w w' :=
  .of_play (P := fun _ => True) trivial h fun _ _ _ _ hturn hsole =>
    ⟨Rules.sole_permits hturn hsole, trivial⟩

/-- The shelf with an empty file on it. -/
def shelfWith (name : FileName) : Disk :=
  emptyShelf.set [name, "saved".toList] (.file [] 0)

/-- One store on a disk, and nothing to do. -/
def soleStore (d : Disk) : World :=
  ⟨[.open_ ⟨"saved".toList⟩], d, []⟩

theorem shelfWith_steady (name : FileName) :
    Steady (shelfWith name) ["saved".toList] ⟨"saved".toList⟩ :=
  steady_name saved_ordinary rfl ((Disk.get?_set_of_ne _ (by simp) _).trans rfl)

theorem shelf_holds (name : FileName) :
    (Upkeep.shared (shelfWith name) ["saved".toList]).Holds (soleStore (shelfWith name)) := by
  refine Upkeep.start (fun store hs => ?_) (.refl _ _)
  rw [List.mem_singleton.mp hs]
  exact shelfWith_steady name

theorem get?_shelfWith (name : FileName) :
    (shelfWith name).get? [name, "saved".toList] ≠ none := by
  rw [shelfWith, Disk.get?_set_self _ (List.cons_ne_nil _ _)]
  nofun

/-- A save and a listing are taken up. -/
def saveAndList : List Turn :=
  [.accept (.save ⟨.standard, "a"⟩ .makeDir) 0, .accept (.list .names) 0]

/-- Nothing has been drawn, and the listing has not begun. -/
def unbegun (w : World) : Bool :=
  match w.errands with
  | [Errand.mk (.save _ .makeDir) _ _, Errand.mk (.list .names) 0 _] => true
  | _ => false

theorem unbegun_sound {w : World} (h : unbegun w) :
    (∀ f ∈ w.errands, f.task.bears? = none) ∧
      ∃ work, w.errands[1]? = some ⟨.list .names, 0, work⟩ := by
  unfold unbegun at h
  split at h
  · next s number work work' herrands =>
    rw [herrands]
    refine ⟨fun f hf => ?_, work', rfl⟩
    simp only [List.mem_cons, List.not_mem_nil, or_false] at hf
    rcases hf with rfl | rfl <;> rfl
  · cases h

/-- The listing has returned ids that pass a test. -/
def returned (w : World) (test : List DiagramId → Bool) : Bool :=
  match w.errands[1]? with
  | some (Errand.mk (.list (.done (.ok entries))) 0 _) =>
    test (entries.map fun entry => entry.record.id)
  | _ => false

theorem returned_sound {w : World} {test : List DiagramId → Bool} (h : returned w test) :
    ∃ entries work, w.errands[1]? = some ⟨.list (.done (.ok entries)), 0, work⟩ ∧
      test (entries.map fun entry => entry.record.id) := by
  unfold returned at h
  split at h
  · next entries work he => exact ⟨entries, work, he, h⟩
  · cases h

end DiagramService
