import Mathlib
import DiagramService.Proofs.Diagram.IdSource
import DiagramService.Proofs.Store.Failure

/-! Which id a save claims. The numbers that it tries follow the clock and increase, and the first
of them whose source is not there yet is claimed. If all of the bounded number of tries find a
source, nothing is made. Either way the ids that were tried in vain are not pending afterwards. -/

namespace DiagramService

open Disk

/-! ## The ids that are tried -/

theorem IdSource.number_strictMono (source : IdSource) {clock : Nat → Int} :
    StrictMono (source.number clock) :=
  fun _ _ => source.number_lt

/-- The id that a store tries after some others. -/
def Store.tried (store : Store) (clock : Nat → Int) (k : Nat) : DiagramId :=
  ⟨clockId (store.ids.number clock (k + 1))⟩

/-- There is an entry with the name of the source of an id, whatever it is. -/
def Disk.Taken (d : Disk) (D : Place) (id : DiagramId) : Prop :=
  d.get? (id.sourceName :: D) ≠ none

/-- A try is possible: no number overflows, and the path of the source is not too long. -/
structure Store.CanTry (store : Store) (clock : Nat → Int) (k : Nat) : Prop where
  time : -2 ^ 63 ≤ clock k
  number : store.ids.number clock (k + 1) < 2 ^ 63
  spelled : Spelled (store.dir.join (store.tried clock k).sourceName)

/-- A store after some tries. Of the ids that were tried at most the one that is kept is pending.
-/
structure Store.Spent (store : Store) (clock : Nat → Int) (k : Nat) (kept : Option DiagramId)
    (after : Store) : Prop where
  dir : after.dir = store.dir
  last : after.ids.last.toInt = store.ids.number clock k
  pending : ∀ id, after.isPending id ↔
    kept = some id ∨ store.isPending id ∧ ∀ j < k, id ≠ store.tried clock j

section Tries

variable {store after : Store} {clock : Nat → Int} {k : Nat} {d : Disk} {D : Place}

/-! ## One try -/

theorem Store.CanTry.value (h : store.CanTry clock k) :
    (store.tried clock k).value.toInt = store.ids.number clock (k + 1) := by
  have hclock : clock k ≤ store.ids.number clock (k + 1) := Int.le_max_left _ _
  exact clockId_toInt (Int.le_trans h.time hclock) h.number

/-- The next try is for the next number. -/
theorem Store.Spent.issue (h : store.Spent clock k none after) (hcan : store.CanTry clock k) :
    (after.issue (clock k)).1 = store.tried clock k := by
  have hnumber : store.ids.number clock (k + 1) =
      max (clock k) (store.ids.number clock k + 1) := rfl
  have hrange := hcan.number
  have hvalue : (after.ids.candidate (clockId (clock k))).toInt =
      (store.tried clock k).value.toInt := by
    rw [after.ids.candidate_clockId hcan.time (by omega) (by rw [h.last]; omega), h.last,
      hcan.value]
    rfl
  exact congrArg DiagramId.mk (Int64.toInt_inj.mp hvalue)

/-- The id that is tried is pending, and none of those before it. -/
theorem Store.Spent.mark (h : store.Spent clock k none after) (hcan : store.CanTry clock k) :
    store.Spent clock (k + 1) (some (store.tried clock k))
      ((after.issue (clock k)).2.mark (store.tried clock k)) := by
  refine ⟨mark_dir.trans h.dir, ?_, fun id => ?_⟩
  · rw [mark_ids, ← hcan.value, ← h.issue hcan]
    rfl
  · rw [isPending_mark_iff]
    constructor
    · rintro (rfl | hid)
      · exact .inl rfl
      · obtain hnone | ⟨hid, hne⟩ := (h.pending id).mp hid
        · cases hnone
        · by_cases heq : id = store.tried clock k
          · exact .inl (congrArg some heq.symm)
          · refine .inr ⟨hid, fun j hj => ?_⟩
            obtain hlt | rfl := Nat.lt_succ_iff_lt_or_eq.mp hj
            · exact hne j hlt
            · exact heq
    · rintro (heq | ⟨hid, hne⟩)
      · exact .inl (Option.some.inj heq).symm
      · exact .inr ((h.pending id).mpr
          (.inr ⟨hid, fun j hj => hne j (Nat.lt_succ_of_lt hj)⟩))

/-- An id that is given up is not pending any more. -/
theorem Store.Spent.unmark (h : store.Spent clock (k + 1) (some (store.tried clock k)) after) :
    store.Spent clock (k + 1) none (after.unmark (store.tried clock k)) := by
  refine ⟨h.dir, h.last, fun id => ?_⟩
  rw [isPending_unmark_iff, h.pending, Option.some_inj]
  constructor
  · rintro ⟨hne, heq | hid⟩
    · exact absurd heq.symm hne
    · exact .inr hid
  · rintro (hnone | hid)
    · cases hnone
    · exact ⟨hid.2 k (Nat.lt_succ_self k), .inr hid⟩

/-- A try for an id that is taken gives it up and leaves the disk as it is. -/
theorem claimWithin_taken (h : store.Spent clock k none after) (hcan : store.CanTry clock k)
    (hopens : d.Opens store.dir D) (htaken : d.Taken D (store.tried clock k)) (tries : Nat) :
    ∃ after', store.Spent clock (k + 1) none after' ∧
      Save.claimWithin (tries + 1) after d (fun n => clock (k + n)) =
        Save.claimWithin tries after' d (fun n => clock (k + 1 + n)) := by
  refine ⟨_, (h.mark hcan).unmark, ?_⟩
  have hclock : (fun n => clock (k + (n + 1))) = fun n => clock (k + 1 + n) := by
    funext n
    congr 1
    omega
  simp only [Save.claimWithin, Nat.add_zero, h.issue hcan, Store.record, SavedDiagram.inDirectory,
    h.dir, hopens.createNew (DiagramId.sourceName_ordinary _) hcan.spelled, if_neg htaken, hclock]
  rfl

/-- A try for an id that is free makes its source. -/
theorem claimWithin_free (h : store.Spent clock k none after) (hcan : store.CanTry clock k)
    (hopens : d.Opens store.dir D) (hfree : ¬ d.Taken D (store.tried clock k)) (tries : Nat) :
    ∃ after', store.Spent clock (k + 1) (some (store.tried clock k)) after' ∧
      Save.claimWithin (tries + 1) after d (fun n => clock (k + n)) =
        (.ok (store.record (store.tried clock k)), after',
          d.set ((store.tried clock k).sourceName :: D) (.file [] (clock k))) := by
  refine ⟨_, h.mark hcan, ?_⟩
  simp only [Save.claimWithin, Nat.add_zero, h.issue hcan, Store.record, SavedDiagram.inDirectory,
    h.dir, hopens.createNew (DiagramId.sourceName_ordinary _) hcan.spelled,
    if_pos (not_not.mp hfree)]
  rfl

/-! ## All tries -/

/-- Tries for ids that are taken come to nothing. -/
theorem claimWithin_all_taken (hopens : d.Opens store.dir D) (k tries : Nat)
    (htaken : ∀ j < k, d.Taken D (store.tried clock j)) (hcan : ∀ j < k, store.CanTry clock j) :
    ∃ after, store.Spent clock k none after ∧ Save.claimWithin (k + tries) store d clock =
      Save.claimWithin tries after d (fun n => clock (k + n)) := by
  induction k generalizing tries with
  | zero => exact ⟨store, ⟨rfl, rfl, by simp⟩, by simp⟩
  | succ k ih =>
    obtain ⟨after, hspent, hclaim⟩ := ih (tries + 1) (fun j hj => htaken j (Nat.lt_succ_of_lt hj))
      fun j hj => hcan j (Nat.lt_succ_of_lt hj)
    obtain ⟨after', hspent', hnext⟩ := claimWithin_taken hspent (hcan k (Nat.lt_succ_self k)) hopens
      (htaken k (Nat.lt_succ_self k)) tries
    refine ⟨after', hspent', ?_⟩
    rw [← hnext, ← hclaim]
    congr 1
    omega

/-- If all ids that are tried are taken there is none left. -/
theorem claimWithin_exhausted (hopens : d.Opens store.dir D) {tries : Nat}
    (htaken : ∀ j < tries, d.Taken D (store.tried clock j))
    (hcan : ∀ j < tries, store.CanTry clock j) :
    ∃ after, store.Spent clock tries none after ∧
      Save.claimWithin tries store d clock = (.error noFreeId, after, d) := by
  obtain ⟨after, hspent, hclaim⟩ := claimWithin_all_taken hopens tries 0 htaken hcan
  exact ⟨after, hspent, hclaim⟩

/-- The first id that is free is claimed. -/
theorem claimWithin_first_free (hopens : d.Opens store.dir D) {tries : Nat} (hk : k < tries)
    (htaken : ∀ j < k, d.Taken D (store.tried clock j))
    (hfree : ¬ d.Taken D (store.tried clock k)) (hcan : ∀ j ≤ k, store.CanTry clock j) :
    ∃ after, store.Spent clock (k + 1) (some (store.tried clock k)) after ∧
      Save.claimWithin tries store d clock =
        (.ok (store.record (store.tried clock k)), after,
          d.set ((store.tried clock k).sourceName :: D) (.file [] (clock k))) := by
  obtain ⟨rest, rfl⟩ := Nat.exists_eq_add_of_lt hk
  obtain ⟨before, hbefore, hclaim⟩ := claimWithin_all_taken hopens k (rest + 1) htaken
    fun j hj => hcan j (Nat.le_of_lt hj)
  obtain ⟨after, hafter, hlast⟩ :=
    claimWithin_free hbefore (hcan k (Nat.le_refl k)) hopens hfree rest
  exact ⟨after, hafter, hclaim.trans hlast⟩

/-! ## Step by step -/

/-- Takes steps of a save with nothing in between. The clock shows the values of `times`. -/
def Save.steps (s : Save) (times : Nat → Int) : Nat → Phase × Store × Disk → Phase × Store × Disk
  | 0, at_ => at_
  | n + 1, at_ => s.steps (fun i => times (i + 1)) n (s.step at_.1 at_.2.1 at_.2.2 (times 0))

/-- What follows when a store has claimed an id or has failed to. -/
def Save.afterClaim : Except IoError SavedDiagram × Store × Disk → Phase × Store × Disk
  | (.ok record, store, d) => (.invoke record .write, store, d)
  | (.error error, store, d) => (.done (.error (.io error)), store, d)

/-- In three steps of a try an id is drawn and marked, and its source is made or not. -/
theorem Save.steps_try (s : Save) (times : Nat → Int) (tries n : Nat) (store : Store) (d : Disk)
    (h : times 2 = times 0) : s.steps times (n + 3) (.draw (tries + 1), store, d) =
      s.steps (fun i => times (i + 3)) n
        ((claim tries (store.record (store.issue (times 0)).1) d (times 0)).1,
          (store.issue (times 0)).2.mark (store.issue (times 0)).1,
          (claim tries (store.record (store.issue (times 0)).1) d (times 0)).2) := by
  simp only [steps, step, h]
  rfl

/-- The steps of a save claim what is claimed at once. A try takes one step more if it has failed.
-/
theorem Save.steps_claimWithin (s : Save) (tries : Nat) (store : Store) (d : Disk)
    (clock : Nat → Int) : ∃ n, s.steps (fun i => clock (i / 4)) n (.draw tries, store, d) =
      afterClaim (claimWithin tries store d clock) := by
  induction tries generalizing store d clock with
  | zero => exact ⟨1, rfl⟩
  | succ tries ih =>
    have htry := fun n => s.steps_try (fun i => clock (i / 4)) tries n store d rfl
    have htimes : (fun i => clock ((i + 1 + 3) / 4)) = fun i => clock (i / 4 + 1) := by
      funext i
      rw [Nat.add_assoc, Nat.add_div_right i (by decide)]
    simp only [Nat.zero_div] at htry
    simp only [claimWithin]
    generalize store.issue (clock 0) = issued at htry ⊢
    rcases hnew : d.createNew (store.record issued.1).source (clock 0) with ⟨error | _, d₁⟩
    · by_cases hkind : error.kind = .alreadyExists
      · obtain ⟨n, hn⟩ :=
          ih ((issued.2.mark issued.1).unmark issued.1) d₁ fun n => clock (n + 1)
        refine ⟨n + 4, ?_⟩
        rw [show n + 4 = n + 1 + 3 from rfl, htry, steps, htimes]
        simp only [claim, hnew, hkind, if_true]
        exact hn
      · refine ⟨4, ?_⟩
        rw [htry 1, steps]
        simp only [claim, hnew, hkind, if_false]
        rfl
    · refine ⟨3, ?_⟩
      rw [htry 0, steps]
      simp only [claim, hnew]
      rfl

/-- A save whose steps are taken one after another claims what is claimed at once. The directory is
made in the first step. -/
theorem Save.steps_claimAtOnce (s : Save) (store : Store) (d : Disk) (clock : Nat → Int) :
    ∃ n, s.steps (fun i => clock ((i - 1) / 4)) n (.makeDir, store, d) =
      afterClaim (claimAtOnce store d clock) := by
  unfold claimAtOnce
  rcases hmade : d.makeDirs store.dir with ⟨error | _, d₁⟩
  · refine ⟨1, ?_⟩
    simp only [steps, step, hmade]
    rfl
  · obtain ⟨n, hn⟩ := s.steps_claimWithin maxClaims store d₁ clock
    refine ⟨n + 1, ?_⟩
    simp only [steps, step, hmade, Nat.add_sub_cancel]
    exact hn

/-! ## Claiming an id -/

/-- If not all ids are taken one of them is the first that is free. -/
theorem exists_first_free {n : Nat} (hfree : ¬ ∀ k < n, d.Taken D (store.tried clock k)) :
    ∃ k < n, (∀ j < k, d.Taken D (store.tried clock j)) ∧ ¬ d.Taken D (store.tried clock k) := by
  classical
  have hsome : ∃ k, k < n ∧ ¬ d.Taken D (store.tried clock k) := by
    simpa using hfree
  obtain ⟨hlt, hfree⟩ := Nat.find_spec hsome
  refine ⟨Nat.find hsome, hlt, fun j hj => ?_, hfree⟩
  exact not_not.mp fun hnot => Nat.find_min hsome hj ⟨Nat.lt_trans hj hlt, hnot⟩

/-- A directory that is there is not made again. -/
theorem claimAtOnce_eq (hopens : d.Opens store.dir D) (hcan : store.CanTry clock k) :
    Save.claimAtOnce store d clock = Save.claimWithin maxClaims store d clock := by
  unfold Save.claimAtOnce
  rw [hopens.makeDirs_done hcan.spelled.of_join]
  rfl

/-- The tries of a store can be made one after another while they find ids that are taken. -/
theorem canTry_upTo (hcan : ∀ k < maxClaims,
      (∀ j < k, d.Taken D (store.tried clock j)) → store.CanTry clock k)
    {n : Nat} (hn : n < maxClaims) (htaken : ∀ j < n, d.Taken D (store.tried clock j)) :
    ∀ j ≤ n, store.CanTry clock j :=
  fun j hj => hcan j (Nat.lt_of_le_of_lt hj hn) fun i hi => htaken i (Nat.lt_of_lt_of_le hi hj)

/-- While the clock stands still every number from the first one on is that of a try. -/
theorem exists_tried (hstill : ∀ n < maxClaims, clock n = clock 0) {n : Nat} (hn : n ≤ maxClaims)
    {m : Int} (hlow : store.ids.number clock 1 ≤ m) (hhigh : m < store.ids.number clock 1 + n) :
    ∃ j < n, store.ids.number clock (j + 1) = m ∧
      (⟨clockId m⟩ : DiagramId) = store.tried clock j := by
  have hj : (m - store.ids.number clock 1).toNat < n := by omega
  have hm : store.ids.number clock ((m - store.ids.number clock 1).toNat + 1) = m := by
    rw [IdSource.number_of_still store.ids fun i hi => hstill i (by omega)]
    omega
  exact ⟨_, hj, hm, by rw [Store.tried, hm]⟩

/-- If one of these numbers is free the least free one is that of a try too. -/
theorem exists_least_free (hstill : ∀ n < maxClaims, clock n = clock 0) {m : Int}
    (hlow : store.ids.number clock 1 ≤ m) (hhigh : m < store.ids.number clock 1 + maxClaims)
    (hfree : ¬ d.Taken D ⟨clockId m⟩) : ∃ k < maxClaims,
      store.ids.number clock (k + 1) ≤ m ∧ ¬ d.Taken D (store.tried clock k) ∧
      ∀ i, store.ids.number clock 1 ≤ i → i < store.ids.number clock (k + 1) →
        d.Taken D ⟨clockId i⟩ := by
  obtain ⟨j, hj, hm, hid⟩ := exists_tried hstill (Nat.le_refl _) hlow hhigh
  have hsome : ¬ ∀ k < j + 1, d.Taken D (store.tried clock k) := fun h =>
    hfree (hid ▸ h j (Nat.lt_succ_self j))
  obtain ⟨k, hk, htaken, hk_free⟩ := exists_first_free hsome
  have hk' : k < maxClaims := Nat.lt_of_lt_of_le hk hj
  refine ⟨k, hk', ?_, hk_free, fun i hi hik => ?_⟩
  · rw [← hm, store.ids.number_strictMono.le_iff_le]
    exact hk
  · rw [IdSource.number_of_still store.ids fun n hn => hstill n (Nat.lt_of_le_of_lt hn hk')] at hik
    obtain ⟨j', hj', -, hid'⟩ := exists_tried hstill (Nat.le_of_lt hk') hi hik
    rw [hid']
    exact htaken j' hj'

end Tries

/-- A store whose directory is there claims the first free one of the ids that it tries, and makes
its source and nothing else. The ids increase, and each is what the clock shows or one more than the
one before. If all of them are taken the claim fails, and nothing is made. In both cases the last id
issued is the last one tried, and of the ids tried none but the one claimed is pending. A clock that
stands still leads to the least id that is free. The steps of a save come to the same. -/
theorem claim_takes_first_free (store : Store) (d : Disk) (D : Place) (clock : Nat → Int)
    (hopens : d.Opens store.dir D)
    (hcan : ∀ k < maxClaims, (∀ j < k, d.Taken D (store.tried clock j)) →
      store.CanTry clock k) :
    StrictMono (store.ids.number clock) ∧
    (∀ k < maxClaims, (∀ j < k, d.Taken D (store.tried clock j)) →
      (store.tried clock k).value.toInt = store.ids.number clock (k + 1)) ∧
    (∀ k < maxClaims, (∀ j < k, d.Taken D (store.tried clock j)) →
      ¬ d.Taken D (store.tried clock k) →
      ∃ after, store.Spent clock (k + 1) (some (store.tried clock k)) after ∧
        Save.claimAtOnce store d clock =
          (.ok (store.record (store.tried clock k)), after,
            d.set ((store.tried clock k).sourceName :: D) (.file [] (clock k)))) ∧
    ((Save.claimAtOnce store d clock).1 = .error noFreeId ↔
      ∀ k < maxClaims, d.Taken D (store.tried clock k)) ∧
    ((∀ k < maxClaims, d.Taken D (store.tried clock k)) →
      ∃ after, store.Spent clock maxClaims none after ∧
        Save.claimAtOnce store d clock = (.error noFreeId, after, d)) ∧
    ((∀ n < maxClaims, clock n = clock 0) →
      ∀ m, store.ids.number clock 1 ≤ m → m < store.ids.number clock 1 + maxClaims →
      ¬ d.Taken D ⟨clockId m⟩ →
      ∃ k < maxClaims, store.ids.number clock (k + 1) ≤ m ∧
        ¬ d.Taken D (store.tried clock k) ∧
        (∀ i, store.ids.number clock 1 ≤ i → i < store.ids.number clock (k + 1) →
          d.Taken D ⟨clockId i⟩) ∧
        (Save.claimAtOnce store d clock).1 = .ok (store.record (store.tried clock k))) ∧
    ∀ s : Save, ∃ n, s.steps (fun i => clock ((i - 1) / 4)) n (.makeDir, store, d) =
      Save.afterClaim (Save.claimAtOnce store d clock) := by
  have hfirst : store.CanTry clock 0 := hcan 0 (by decide) (by simp)
  have hclaimed : ∀ k < maxClaims, (∀ j < k, d.Taken D (store.tried clock j)) →
      ¬ d.Taken D (store.tried clock k) →
      ∃ after, store.Spent clock (k + 1) (some (store.tried clock k)) after ∧
        Save.claimAtOnce store d clock =
          (.ok (store.record (store.tried clock k)), after,
            d.set ((store.tried clock k).sourceName :: D) (.file [] (clock k))) := by
    intro k hk htaken hfree
    rw [claimAtOnce_eq hopens hfirst]
    exact claimWithin_first_free hopens hk htaken hfree (canTry_upTo hcan hk htaken)
  have hfailed : (∀ k < maxClaims, d.Taken D (store.tried clock k)) →
      ∃ after, store.Spent clock maxClaims none after ∧
        Save.claimAtOnce store d clock = (.error noFreeId, after, d) := by
    intro htaken
    rw [claimAtOnce_eq hopens hfirst]
    exact claimWithin_exhausted hopens htaken fun j hj =>
      hcan j hj fun i hi => htaken i (Nat.lt_trans hi hj)
  refine ⟨store.ids.number_strictMono, fun k hk htaken => (hcan k hk htaken).value, hclaimed, ?_,
    hfailed, ?_, fun s => s.steps_claimAtOnce store d clock⟩
  · refine ⟨fun herror => not_not.mp fun hfree => ?_, fun htaken => ?_⟩
    · obtain ⟨k, hk, htaken, hfree⟩ := exists_first_free hfree
      obtain ⟨after, -, hclaim⟩ := hclaimed k hk htaken hfree
      rw [hclaim] at herror
      cases herror
    · obtain ⟨after, -, hclaim⟩ := hfailed htaken
      rw [hclaim]
  · intro hstill m hlow hhigh hfree
    obtain ⟨k, hk, hle, hfree, htaken⟩ := exists_least_free hstill hlow hhigh hfree
    refine ⟨k, hk, hle, hfree, htaken, ?_⟩
    have hbefore : ∀ j < k, d.Taken D (store.tried clock j) := fun j hj =>
      htaken _ (store.ids.number_strictMono.monotone (Nat.le_add_left 1 j))
        (store.ids.number_strictMono (Nat.succ_lt_succ hj))
    obtain ⟨after, -, hclaim⟩ := hclaimed k hk hbefore hfree
    rw [hclaim]

/-! ## A directory with two ids in the way -/

/-- A directory with the source of 5, and with a link to nothing in the place of the source of 6. -/
def crowdedShelf : Disk where
  entries :=
    [(["saved".toList], .directory), (["diagram_5.puml".toList, "saved".toList], .file [] 0),
      (["diagram_6.puml".toList, "saved".toList], .link ⟨"gone".toList⟩)]
  working := []

/-- A store of this directory that has issued 3. -/
def crowdedStore : Store := ⟨⟨"saved".toList⟩, ⟨3⟩, []⟩

/-- A clock that steps back after it has shown 5, and then forward to 9. -/
def unsteady (n : Nat) : Int :=
  if n = 0 then 5 else if n = 1 then 4 else 9

/-- The ids 7 and 8 are free, but the clock passes them over. -/
theorem crowdedShelf_claim : ∃ after,
    crowdedStore.Spent unsteady 3 (some ⟨9⟩) after ∧
    Save.claimAtOnce crowdedStore crowdedShelf unsteady =
      (.ok (crowdedStore.record ⟨9⟩), after,
        crowdedShelf.set ["diagram_9.puml".toList, "saved".toList] (.file [] 9)) := by
  have hopens : crowdedShelf.Opens crowdedStore.dir ["saved".toList] := by
    unfold Disk.Opens
    cbv
  have hfree : ¬ crowdedShelf.Taken ["saved".toList] (crowdedStore.tried unsteady 2) :=
    not_not.mpr (by decide)
  have htaken : ∀ j < 2, crowdedShelf.Taken ["saved".toList] (crowdedStore.tried unsteady j) := by
    intro j hj
    unfold Disk.Taken
    obtain rfl | rfl : j = 0 ∨ j = 1 := by omega
    all_goals decide
  have hcan : ∀ k < maxClaims,
      (∀ j < k, crowdedShelf.Taken ["saved".toList] (crowdedStore.tried unsteady j)) →
      crowdedStore.CanTry unsteady k := by
    intro k _ hbefore
    have hk : k < 3 := Nat.lt_of_not_le fun hle => hfree (hbefore 2 hle)
    obtain rfl | rfl | rfl : k = 0 ∨ k = 1 ∨ k = 2 := by omega
    all_goals exact ⟨by decide, by decide, by decide, by decide, by decide⟩
  obtain ⟨-, -, hclaim, -⟩ := claim_takes_first_free crowdedStore crowdedShelf ["saved".toList]
    unsteady hopens hcan
  have hid : crowdedStore.tried unsteady 2 = ⟨9⟩ := by decide
  have hname : (⟨9⟩ : DiagramId).sourceName = "diagram_9.puml".toList := by decide
  have hlast := hclaim 2 (by decide) htaken hfree
  rw [hid, hname] at hlast
  exact hlast

end DiagramService
