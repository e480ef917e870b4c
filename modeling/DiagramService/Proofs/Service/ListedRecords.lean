import Mathlib
import DiagramService.Proofs.Service.SoleStore

/-! A record that stays in its directory is listed, whatever goes on while the names are looked at,
unless its name is looked at while a save of the same store has its id marked. A save marks the id
that it is about to claim, and that may be the id of a record that is there. -/

namespace DiagramService

/-! ## A listing that looks for a record -/

/-- A listing has not passed over a name that belongs to an id. -/
structure World.Awaits (i number : Nat) (dir : Path) (name : FileName) (id : DiagramId) (w : World)
    (phase : Listing.Phase) (store : Store) : Prop where
  listing : ∃ work, w.errands[i]? = some ⟨.list phase, number, work⟩
  store_eq : w.stores[number]? = some store
  dir_eq : store.dir = dir
  awaits : phase.Awaits dir name id

/-- A listing is about to look at a name whose id is marked by a save of the same store. -/
def World.Overlooks (w : World) (i number : Nat) (name : FileName) (id : DiagramId) : Prop :=
  ∃ (names : List FileName) (found : List SavedEntry) (work : Work) (j : Nat) (f : Errand),
    w.errands[i]? = some ⟨.list (.visit (name :: names) found), number, work⟩ ∧
    w.errands[j]? = some f ∧ f.store = number ∧ f.task.marked? = some id

/-- The directory is there, and a name in it. -/
def World.Keeps (dir : Path) (D : Place) (name : FileName) (w : World) : Prop :=
  w.disk.Opens dir D ∧ w.disk.get? (name :: D) ≠ none

section Listing

variable {R : Rules} {w w' : World} {i number : Nat} {dir : Path} {D : Place} {name : FileName}
  {id : DiagramId} {phase : Listing.Phase} {store : Store}

/-- A step of the world passes over the name only where the listing overlooks it. -/
theorem World.Awaits.step (h : w.Awaits i number dir name id phase store) (hbacked : w.Backed)
    (hid : Listing.idOf? name = some id) (hs : Disk.Spelled dir) (hkeeps : w.Keeps dir D name)
    (hover : ¬ w.Overlooks i number name id) (hstep : World.Step R w w') :
    ∃ phase' store', w'.Awaits i number dir name id phase' store' := by
  obtain ⟨⟨work, he⟩, hstore, rfl, hawaits⟩ := h
  obtain ⟨⟨store', hstore', hdir⟩, hcases⟩ := hstep.listing he hstore
  rcases hcases with he' | he'
  · exact ⟨phase, store', ⟨work, he'⟩, hstore', hdir, hawaits⟩
  -- the listing takes a step; if it reads the names now, this one is among them
  have hread : phase = .names →
      ∃ names, w.disk.readDir store.dir = .ok names ∧ name ∈ names := fun _ =>
    ⟨_, hkeeps.1.readDir hs, Disk.mem_names.mpr hkeeps.2⟩
  rcases hawaits.step hid hread with hawaits' | ⟨⟨names, found, rfl⟩, hpending⟩
  · exact ⟨_, store', ⟨work, he'⟩, hstore', hdir, hawaits'⟩
  · obtain ⟨j, f, hf, hnumber, hmarked⟩ := hbacked number store id hstore hpending
    exact absurd ⟨names, found, work, j, f, he, hf, hnumber, hmarked⟩ hover

theorem World.Awaits.run {n : Nat} (h : w.Awaits i number dir name id phase store)
    (hbacked : w.Backed) (hid : Listing.idOf? name = some id) (hs : Disk.Spelled dir)
    (hduring : World.During R (fun v => v.Keeps dir D name ∧ ¬ v.Overlooks i number name id)
      n w w') : ∃ phase' store', w'.Awaits i number dir name id phase' store' := by
  induction hduring with
  | refl => exact ⟨phase, store, h⟩
  | tail hduring hstep _ ih =>
    obtain ⟨phase', store', h'⟩ := ih h hbacked
    have hbacked' := hduring.run.keeps (fun _ _ hs h => World.Backed.step h hs) hbacked
    obtain ⟨hkeeps, hover⟩ := hduring.last
    exact h'.step hbacked' hid hs hkeeps hover hstep

end Listing

/-- A listing returns an entry for every record that is in the directory from when it begins until
it returns, if it never looks at the name of the record while a save of the same store has the id
marked. -/
theorem listing_finds_records {R : Rules} (stores : List Store) (d : Disk)
    (hidle : ∀ store ∈ stores, store.pending = []) {n m : Nat} {w w' : World}
    (hrun : World.Run R n ⟨stores, d, []⟩ w) {i number : Nat} {work : Work} {store : Store}
    (he : w.errands[i]? = some ⟨.list .names, number, work⟩)
    (hstore : w.stores[number]? = some store) (hs : Disk.Spelled store.dir) (D : Place)
    (name : FileName) (id : DiagramId) (hid : Listing.idOf? name = some id)
    (hduring : World.During R
      (fun v => v.Keeps store.dir D name ∧ ¬ v.Overlooks i number name id) m w w')
    {number' : Nat} {work' : Work} {result : Except IoError (List SavedEntry)}
    (hdone : w'.errands[i]? = some ⟨.list (.done result), number', work'⟩) :
    ∃ entries, result = .ok entries ∧ ∃ entry ∈ entries, entry.record = store.record id := by
  have hbacked : w.Backed :=
    hrun.keeps (fun _ _ hs h => World.Backed.step h hs) (.start hidle d)
  have hawaits : w.Awaits i number store.dir name id .names store :=
    ⟨⟨work, he⟩, hstore, rfl, trivial⟩
  obtain ⟨phase, store', ⟨work'', he'⟩, -, -, h⟩ := hawaits.run hbacked hid hs hduring
  rw [hdone] at he'
  cases he'
  exact h

/-! ## Records on a shelf -/

/-- Saves and listings leave a record that is there where it is. -/
theorem World.Keeps.of_shared {d : Disk} {D : Place} {dir : Path} (hdir : Steady d D dir)
    {name : FileName} {id : DiagramId} (hid : Listing.idOf? name = some id)
    (hget : d.get? (name :: D) ≠ none) {w : World} (h : (Upkeep.shared d D).Holds w) :
    w.Keeps dir D name := by
  have htight : ¬ Loose d D (name :: D) := by
    rintro (hnone | ⟨id', heq⟩)
    · exact hget hnone
    · rw [(List.cons.inj heq).1, id'.idOf?_imageName] at hid
      cases hid
  refine ⟨hdir _ h.disk, ?_⟩
  rw [h.disk.get _ htight]
  exact hget

/-- Nothing that goes on has an id marked. -/
def World.unmarked (w : World) (id : DiagramId) : Bool :=
  w.errands.all fun f => f.task.marked? != some id

theorem World.not_overlooks_of_unmarked {w : World} {id : DiagramId} (h : w.unmarked id)
    (i number : Nat) (name : FileName) : ¬ w.Overlooks i number name id := by
  rintro ⟨_, _, _, j, f, -, hf, -, hmarked⟩
  have hne := List.all_eq_true.mp h f (List.mem_of_getElem? hf)
  rw [hmarked] at hne
  simp at hne

/-- A save claims another id while the names are looked at. -/
def listBesideSave : List Turn :=
  Turn.steps 0 2 5 ++ Turn.steps 1 1 5 ++ Turn.steps 0 2 5 ++ Turn.steps 1 3 5

/-- Then the record on the shelf is listed. -/
theorem shelf_record_is_listed : ∃ (w w' : World) (work : Work) (entries : List SavedEntry),
    World.Run .sole saveAndList.length (soleStore (shelfWith "diagram_3.puml".toList)) w ∧
    World.Run .sole listBesideSave.length w w' ∧
    w'.errands[1]? = some ⟨.list (.done (.ok entries)), 0, work⟩ ∧
    ∃ entry ∈ entries, entry.record = .inDirectory ⟨"saved".toList⟩ ⟨3⟩ := by
  have h : (((soleStore (shelfWith "diagram_3.puml".toList)).play? (fun _ => Turn.ofSole)
      saveAndList).any fun w => unbegun w &&
        ((w.stores[0]?.any fun store => store.dir == ⟨"saved".toList⟩) &&
          (w.play? (fun v turn => turn.ofSole && v.unmarked ⟨3⟩) listBesideSave).any fun w' =>
            returned w' (fun _ => true) && w'.unmarked ⟨3⟩)) = true := by cbv
  simp only [Option.any_eq_true, Bool.and_eq_true, beq_iff_eq] at h
  obtain ⟨w, hw, hunbegun, ⟨store, hstore, hdir⟩, w', hw', hreturned, hunmarked⟩ := h
  obtain ⟨-, work, he⟩ := unbegun_sound hunbegun
  obtain ⟨entries, work', he', -⟩ := returned_sound hreturned
  have hid : Listing.idOf? "diagram_3.puml".toList = some ⟨3⟩ := by decide
  have hrun := World.Run.of_sole hw
  have hholds := (shelf_holds "diagram_3.puml".toList).run hrun.shared
  have hkeeps : ∀ v, (Upkeep.shared _ _).Holds v → v.Keeps _ _ _ := fun v =>
    World.Keeps.of_shared (shelfWith_steady _) hid (get?_shelfWith _)
  have hduring : World.During .sole (fun v => v.Keeps ⟨"saved".toList⟩ ["saved".toList]
      "diagram_3.puml".toList ∧ ¬ v.Overlooks 1 0 "diagram_3.puml".toList ⟨3⟩)
      listBesideSave.length w w' := by
    refine .of_play hholds hw' (fun v v' turn hv hturn hallows => ?_) fun hv =>
      ⟨hkeeps w' hv, World.not_overlooks_of_unmarked hunmarked _ _ _⟩
    obtain ⟨hsole, hv'⟩ := Bool.and_eq_true_iff.mp hallows
    have hpermits := Rules.sole_permits hturn hsole
    exact ⟨hpermits, ⟨hkeeps v hv, World.not_overlooks_of_unmarked hv' _ _ _⟩,
      hv.step (World.Step.of_turn hturn hpermits).shared⟩
  obtain ⟨entries', heq, hentry⟩ := listing_finds_records _ _ (by simp [Store.open_]) hrun he
    hstore (hdir ▸ ⟨by decide, by decide, by decide⟩) _ _ _ hid (hdir ▸ hduring) he'
  cases heq
  exact ⟨w, w', work', entries, hrun, hduring.run, he', hdir ▸ hentry⟩

/-- A record is there from when a listing begins, while nothing is saved, until the listing returns
without it. -/
def Overlooked (name : FileName) (id : DiagramId) : Prop :=
  Listing.idOf? name = some id ∧ ∃ (n m : Nat) (w w' : World) (work work' : Work)
    (entries : List SavedEntry), World.Run .sole n (soleStore (shelfWith name)) w ∧
    (∀ f ∈ w.errands, f.task.bears? = none) ∧
    w.errands[1]? = some ⟨.list .names, 0, work⟩ ∧
    World.During .sole (World.Keeps ⟨"saved".toList⟩ ["saved".toList] name) m w w' ∧
    w'.errands[1]? = some ⟨.list (.done (.ok entries)), 0, work'⟩ ∧
    ∀ entry ∈ entries, entry.record.id ≠ id

/-- A listing overlooks the record whose id a save is about to find taken, and the one whose name
only differs in its leading zero from the source of a save. -/
theorem record_can_be_overlooked :
    Overlooked "diagram_5.puml".toList ⟨5⟩ ∧ Overlooked "diagram_05.puml".toList ⟨5⟩ := by
  have play : ∀ (name : FileName) (id : DiagramId) (turns : List Turn),
      Listing.idOf? name = some id →
      (((soleStore (shelfWith name)).play? (fun _ => Turn.ofSole) saveAndList).any fun w =>
        unbegun w && (w.play? (fun _ => Turn.ofSole) turns).any fun w' =>
          returned w' (fun ids => !ids.contains id)) = true →
      Overlooked name id := by
    intro name id turns hid h
    simp only [Option.any_eq_true, Bool.and_eq_true] at h
    obtain ⟨w, hw, hunbegun, w', hw', hreturned⟩ := h
    obtain ⟨hnone, work, he⟩ := unbegun_sound hunbegun
    obtain ⟨entries, work', he', hids⟩ := returned_sound hreturned
    have hrun := World.Run.of_sole hw
    have hduring := (World.Run.of_sole hw').during ((shelf_holds name).run hrun.shared)
      (fun _ _ hs hv => hv.step hs.shared) fun v =>
        World.Keeps.of_shared (shelfWith_steady name) hid (get?_shelfWith name)
    refine ⟨hid, _, _, w, w', work, work', entries, hrun, hnone, he, hduring, he', ?_⟩
    rintro entry hentry rfl
    simp only [Bool.not_eq_true', List.contains_eq_mem, decide_eq_false_iff_not] at hids
    exact hids (List.mem_map_of_mem hentry)
  exact ⟨play _ _ (Turn.steps 0 3 5 ++ Turn.steps 1 3 5) (by decide) (by cbv),
    play _ _ (Turn.steps 0 4 5 ++ Turn.steps 1 4 5) (by decide) (by cbv)⟩

end DiagramService
