import Mathlib
import DiagramService.Proofs.Service.Bookkeeping

/-! What a listing shows of the saves that go on beside it. An entry is for a record that was there
before any of them, or for a save that had made its source when the names were read and was over
when the listing returned. Such a save may have failed in between; every other save stays unseen. -/

namespace DiagramService

/-- A request that has made the source of an id and may still change its files, or has succeeded. -/
def Task.Claims (id : DiagramId) (task : Task) : Prop :=
  task.worksOn? = some id ∨ task.held? = some id

theorem Task.Claims.bears? {id : DiagramId} {task : Task} (h : task.Claims id) :
    task.bears? = some id := by
  rcases h with h | h
  · exact bears?_of_worksOn? h
  · exact bears?_of_held? h

/-- A state on one of two runs, of which the second goes on where the first ends. -/
def World.OnTheWay (n : Nat) (w₀ w₁ : World) (m : Nat) (w₂ v : World) : Prop :=
  (∃ k l, k + l = n ∧ World.Run .sole k w₀ v ∧ World.Run .sole l v w₁) ∨
    ∃ k l, k + l = m ∧ World.Run .sole k w₁ v ∧ World.Run .sole l v w₂

/-- A source was in the directory when the names were read, and whoever held it then is over now. -/
structure Shown (d₀ : Disk) (D : Place) (w₁ w : World) (id : DiagramId) : Prop where
  present : d₀.get? (id.sourceName :: D) ≠ none ∨
    ∃ (j : Nat) (f : Errand), w₁.errands[j]? = some f ∧ f.task.held? = some id
  ended : ∀ (j : Nat) (f : Errand), w₁.errands[j]? = some f → f.task.held? = some id →
    ∃ f' s result, w.errands[j]? = some f' ∧ f'.task = .save s (.done result) ∧
      ∀ r, result = .ok r → r.id = id

/-- A listing has read the names of a directory in a state of a run, or has yet to read them. -/
def World.Tells (d₀ : Disk) (D : Place) (dir : Path) (i number : Nat) (work : Work) (m : Nat)
    (w v : World) : Prop :=
  ∃ phase, v.errands[i]? = some ⟨.list phase, number, work⟩ ∧
    (phase = .names ∨ ∃ k l w₁, k + l = m ∧ World.Run .sole k w w₁ ∧ World.Run .sole l w₁ v ∧
      w₁.errands[i]? = some ⟨.list .names, number, work⟩ ∧
      phase.Tells dir (fun name => w₁.disk.get? (name :: D) ≠ none) (Shown d₀ D w₁ v))

section Listing

variable {d₀ : Disk} {D : Place} {dir : Path} {n k : Nat} {w w₁ v v' : World} {id : DiagramId}
  {name : FileName}

theorem Shown.step (h : Shown d₀ D w₁ v id) (hstep : World.Step .sole v v') :
    Shown d₀ D w₁ v' id := by
  refine ⟨h.present, fun j f hf hid => ?_⟩
  obtain ⟨f', s, result, hf', htask, hresult⟩ := h.ended j f hf hid
  exact ⟨f', s, result, hstep.over hf' htask, htask, hresult⟩

section Canonical

-- at the start only sources belong to ids
variable (hcanonical : ∀ name id, d₀.get? (name :: D) ≠ none → Listing.idOf? name = some id →
  name = id.sourceName)

include hcanonical

/-- What belongs to an id in the directory is its source. -/
theorem Sole.source (h : Sole d₀ D dir n w)
    (hname : w.disk.get? (name :: D) ≠ none) (hid : Listing.idOf? name = some id) :
    w.disk.get? (id.sourceName :: D) ≠ none := by
  by_cases hplace : ∃ id', PlaceOf D id' (name :: D)
  · obtain ⟨id', heq | heq⟩ := hplace
    · rw [(List.cons.inj heq).1, id'.idOf?_sourceName] at hid
      cases hid
      rwa [← heq]
    · rw [(List.cons.inj heq).1, id'.idOf?_imageName] at hid
      cases hid
  · have hold := h.sourced.agreesOff.get _ hplace
    rw [hold] at hname
    rw [hcanonical name id hname hid] at hold hname
    rwa [hold]

/-- A save that holds an id is over when its id is not pending any more. -/
theorem Sole.shown (h : Sole d₀ D dir n w₁)
    (hrun : World.Run .sole k w₁ v) (hn : n + k ≤ 2 ^ 62)
    (hname : w₁.disk.get? (name :: D) ≠ none) (hid : Listing.idOf? name = some id) {store : Store}
    (hstore : v.stores = [store]) (hpending : store.isPending id = false) :
    Shown d₀ D w₁ v id := by
  refine ⟨h.sourced.source id (h.source hcanonical hname hid), fun j f hf hheld => ?_⟩
  obtain ⟨f', hf', hengaged⟩ := h.engaged_run hrun hn hf (Task.engaged_of_held? hheld)
  rcases hengaged.marked_or_done with hmarked | ⟨s, result, htask, hresult⟩
  · obtain ⟨-, -, store', hstore', -, hbooked⟩ := (h.run hrun hn).1
    obtain rfl : store = store' := List.singleton_inj.mp (hstore.symm.trans hstore')
    rw [hbooked.pending j f' id hf' hmarked] at hpending
    cases hpending
  · exact ⟨f', s, result, hf', htask, hresult⟩

/-- A listing that has read the names keeps telling of them, whoever takes the next step. -/
theorem World.Tells.step {i number m : Nat} {work : Work}
    (h : World.Tells d₀ D dir i number work m w v) (hw : Sole d₀ D dir n w)
    (hrun : World.Run .sole m w v) (hn : n + m ≤ 2 ^ 62) (hstep : World.Step .sole v v') :
    World.Tells d₀ D dir i number work (m + 1) w v' := by
  obtain ⟨phase, he, htells⟩ := h
  have hv := (hw.run hrun hn).1
  obtain ⟨store, hstores, hdir, -⟩ := hv.booked
  obtain ⟨st, hst, -⟩ := hv.shared.ledger.settled i _ he
  obtain rfl : st = store := by
    rw [hstores] at hst
    exact List.mem_singleton.mp (List.mem_of_getElem? hst)
  subst hdir
  -- what is found now belongs to a name that was read, and to an id that is not pending
  have hnext : ∀ k l w₁, k + l = m → World.Run .sole k w w₁ → World.Run .sole l w₁ v →
      phase.Tells st.dir (fun name => w₁.disk.get? (name :: D) ≠ none) (Shown d₀ D w₁ v) →
      (phase = .names → w₁ = v) →
      (Listing.step phase st v.disk).Tells st.dir
        (fun name => w₁.disk.get? (name :: D) ≠ none) (Shown d₀ D w₁ v') := by
    intro k l w₁ hkl hrun₁ hrun₂ htells hnames
    have hw₁ := (hw.run hrun₁ (by omega)).1
    refine (htells.step (fun heq names hread name hname => ?_) fun name id hname hid hpending =>
      hw₁.shown hcanonical hrun₂ (by omega) hname hid hstores hpending).mono
        fun id hid => hid.step hstep
    rw [hnames heq]
    have hopens := hv.shared.ledger.opens st (List.mem_of_getElem? hst)
    exact hopens.mem_of_readDir hread hname
  rcases (hstep.listing he hst).2 with he' | he'
  · refine ⟨phase, he', htells.imp_right ?_⟩
    rintro ⟨k, l, w₁, hkl, hrun₁, hrun₂, he₁, htells⟩
    exact ⟨k, l + 1, w₁, by omega, hrun₁, .tail hrun₂ hstep, he₁, htells.mono fun id hid =>
      hid.step hstep⟩
  · refine ⟨_, he', .inr ?_⟩
    by_cases hnames : phase = .names
    · subst hnames
      exact ⟨m, 1, v, rfl, hrun, .tail (.refl v) hstep, he,
        hnext m 0 v rfl hrun (.refl v) trivial fun _ => rfl⟩
    · obtain ⟨k, l, w₁, hkl, hrun₁, hrun₂, he₁, htells⟩ := htells.resolve_left hnames
      exact ⟨k, l + 1, w₁, by omega, hrun₁, .tail hrun₂ hstep, he₁,
        hnext k l w₁ hkl hrun₁ hrun₂ htells fun heq => absurd heq hnames⟩

theorem World.Tells.run {i number m : Nat} {work : Work}
    (he : w.errands[i]? = some ⟨.list .names, number, work⟩) (hw : Sole d₀ D dir n w)
    (hrun : World.Run .sole m w v) (hn : n + m ≤ 2 ^ 62) :
    World.Tells d₀ D dir i number work m w v := by
  induction hrun with
  | refl w => exact ⟨.names, he, .inl rfl⟩
  | tail hrun hstep ih =>
    exact (ih he hw (by omega)).step hcanonical hw hrun (by omega) hstep

end Canonical

/-- Whoever has made the source of an id has it alone, before the names were read and after. -/
theorem Sole.alone {m : Nat} {start : World} (hstart : Sole d₀ D dir 0 start)
    (hrun : World.Run .sole n start w₁) (hn : n + m ≤ 2 ^ 62) {v' : World}
    (hway : World.OnTheWay n start w₁ m v v') {i : Nat}
    {e : Errand} (he : v'.errands[i]? = some e) (hid : e.task.Claims id) :
    d₀.get? (id.sourceName :: D) = none ∧
      ∀ j f, w₁.errands[j]? = some f → f.task.held? = some id → j = i := by
  -- in both cases the two states are on one run, and an id is borne by one request only
  have hfresh : ∀ {k}, Sole d₀ D dir k v' → d₀.get? (id.sourceName :: D) = none := by
    intro k hv'
    rcases hid with hworks | hheld
    · exact hv'.sourced.fresh i e id he hworks
    · exact (hv'.shared.tasks i e he).fresh id hheld
  rcases hway with ⟨k, l, hkl, hrun₁, hrun₂⟩ | ⟨k, l, hkl, hrun₁, hrun₂⟩
  · obtain ⟨hv', -⟩ := hstart.run hrun₁ (by omega)
    refine ⟨hfresh hv', fun j f hf hheld => ?_⟩
    have howns := (hv'.run hrun₂ (by omega)).2 i id (hv'.owns he hid.bears?)
    exact howns.eq hf (Task.bears?_of_held? hheld)
  · obtain ⟨hw₁, -⟩ := hstart.run hrun (by omega)
    obtain ⟨hv', -⟩ := hw₁.run hrun₁ (by omega)
    refine ⟨hfresh hv', fun j f hf hheld => ?_⟩
    have howns := (hw₁.run hrun₁ (by omega)).2 j id (hw₁.owns hf (Task.bears?_of_held? hheld))
    exact (howns.eq he hid.bears?).symm

end Listing

/-- Every entry of a listing is for a record that was there at the start and that no save ever
touches, or for the only save that ever has its id. That save had made its source when the names
were read, and it is over when the listing returns. -/
theorem listing_shows_saves_that_are_over (store : Store) (d : Disk) (D : Place)
    (hsteady : Steady d D store.dir) (hlast : store.ids.last.toInt < 2 ^ 62)
    (hcanonical : ∀ name id, d.get? (name :: D) ≠ none → Listing.idOf? name = some id →
      name = id.sourceName)
    {n m : Nat} {w w' : World} (hrun : World.Run .sole n ⟨[store], d, []⟩ w)
    (hrun' : World.Run .sole m w w') (hn : n + m ≤ 2 ^ 62) {i number number' : Nat}
    {work work' : Work} {entries : List SavedEntry}
    (he : w.errands[i]? = some ⟨.list .names, number, work⟩)
    (hdone : w'.errands[i]? = some ⟨.list (.done (.ok entries)), number', work'⟩) :
    ∃ k l w₁, k + l = m ∧ World.Run .sole k w w₁ ∧ World.Run .sole l w₁ w' ∧
      w₁.errands[i]? = some ⟨.list .names, number, work⟩ ∧
      ∀ entry ∈ entries, ∃ id, entry.record = store.record id ∧
        (d.get? (id.sourceName :: D) ≠ none ∧
          (∀ v, World.OnTheWay (n + k) ⟨[store], d, []⟩ w₁ l w' v →
            ∀ (j : Nat) (f : Errand), v.errands[j]? = some f → ¬ f.task.Claims id) ∨
        ∃ (j : Nat) (f f' : Errand) (s : Save) (result : Except RenderError SavedDiagram),
          w₁.errands[j]? = some f ∧ f.task.held? = some id ∧ w'.errands[j]? = some f' ∧
          f'.task = .save s (.done result) ∧ (∀ r, result = .ok r → r.id = id) ∧
          ∀ v, World.OnTheWay (n + k) ⟨[store], d, []⟩ w₁ l w' v →
            ∀ (j' : Nat) (f : Errand), v.errands[j']? = some f → f.task.Claims id → j' = j) := by
  have hstart := Sole.start hsteady hlast
  have hw := (hstart.run hrun (by omega)).1
  obtain ⟨phase, he', hphase⟩ := World.Tells.run hcanonical he hw hrun' (by omega)
  rw [hdone] at he'
  cases he'
  -- in between there is the state in which the names were read
  obtain ⟨k, l, w₁, hkl, hrun₁, hrun₂, he₁, htells⟩ := hphase.resolve_left nofun
  refine ⟨k, l, w₁, hkl, hrun₁, hrun₂, he₁, fun entry hentry => ?_⟩
  obtain ⟨id, hrecord, hshown⟩ := htells entries rfl entry hentry
  refine ⟨id, hrecord, ?_⟩
  have halone : ∀ v, World.OnTheWay (n + k) ⟨[store], d, []⟩ w₁ l w' v → ∀ (j : Nat) (f : Errand),
      v.errands[j]? = some f → f.task.Claims id → _ := fun v hv j f hf hid =>
    hstart.alone (hrun.append hrun₁) (by omega) hv hf hid
  rcases hshown.present with hold | ⟨j, f, hf, hheld⟩
  · exact .inl ⟨hold, fun v hv j f hf hid => hold (halone v hv j f hf hid).1⟩
  · obtain ⟨f', s, result, hf', htask, hresult⟩ := hshown.ended j f hf hheld
    exact .inr ⟨j, f, f', s, result, hf, hheld, hf', htask, hresult, fun v hv j' f₁ hf₁ hid =>
      ((halone v hv j' f₁ hf₁ hid).2 j f hf hheld).symm⟩

/-! ## Listings of a shelf -/

theorem name_of_get?_shelfWith {name₀ name : FileName}
    (h : (shelfWith name₀).get? [name, "saved".toList] ≠ none) : name = name₀ := by
  refine Classical.byContradiction fun hne => ?_
  have hother : [name, "saved".toList] ≠ [name₀, "saved".toList] := fun heq =>
    hne (List.cons.inj heq).1
  rw [shelfWith, Disk.get?_set_of_ne _ hother] at h
  cases (get?_emptyShelf h).2

/-- The one name on the shelf is that of a source. -/
theorem shelf_canonical {name : FileName} {id : DiagramId}
    (hname : (shelfWith "diagram_3.puml".toList).get? [name, "saved".toList] ≠ none)
    (hid : Listing.idOf? name = some id) : name = id.sourceName := by
  rw [name_of_get?_shelfWith hname] at hid ⊢
  obtain rfl : id = ⟨3⟩ := Option.some.inj (hid.symm.trans (by decide))
  decide

/-- A save has made its source when the names are read, and succeeds before they are looked at. -/
def listDuringSave : List Turn :=
  Turn.steps 0 4 5 ++ Turn.steps 1 1 5 ++ Turn.steps 0 2 5 ++ Turn.renderer 0 (.file [1] 5) 0 ++
    Turn.steps 0 3 5 ++ Turn.steps 1 5 5

/-- Then its record is listed in front of the one that was there. -/
theorem shelf_save_is_listed : ∃ (w w' : World) (work : Work) (entries : List SavedEntry),
    World.Run .sole saveAndList.length (soleStore (shelfWith "diagram_3.puml".toList)) w ∧
    World.Run .sole listDuringSave.length w w' ∧
    w'.errands[1]? = some ⟨.list (.done (.ok entries)), 0, work⟩ ∧
    entries.map (fun entry => entry.record.id) = [⟨5⟩, ⟨3⟩] ∧
    ∃ (j : Nat) (f : Errand) (s : Save) (result : Except RenderError SavedDiagram),
      w'.errands[j]? = some f ∧ f.task = .save s (.done result) ∧
      ∀ r, result = .ok r → r.id = ⟨5⟩ := by
  have h : (((soleStore (shelfWith "diagram_3.puml".toList)).play? (fun _ => Turn.ofSole)
      saveAndList).any fun w => unbegun w &&
        (w.play? (fun _ => Turn.ofSole) listDuringSave).any fun w' =>
          returned w' (· == [⟨5⟩, ⟨3⟩])) = true := by cbv
  simp only [Option.any_eq_true, Bool.and_eq_true] at h
  obtain ⟨w, hw, hunbegun, w', hw', hreturned⟩ := h
  obtain ⟨-, work, he⟩ := unbegun_sound hunbegun
  obtain ⟨entries, work', he', hids⟩ := returned_sound hreturned
  rw [beq_iff_eq] at hids
  have hrun := World.Run.of_sole hw
  have hrun' := World.Run.of_sole hw'
  obtain ⟨k, l, w₁, -, -, -, -, hentries⟩ := listing_shows_saves_that_are_over _ _ _
    (shelfWith_steady _) (by decide) (fun _ _ => shelf_canonical) hrun hrun' (by decide) he he'
  refine ⟨w, w', work', entries, hrun, hrun', he', hids, ?_⟩
  obtain ⟨entry, hentry, hid⟩ : ∃ entry ∈ entries, entry.record.id = ⟨5⟩ := by
    have hmem : (⟨5⟩ : DiagramId) ∈ entries.map fun entry => entry.record.id := by simp [hids]
    exact List.mem_map.mp hmem
  obtain ⟨id, hrecord, hcases⟩ := hentries entry hentry
  obtain rfl : id = ⟨5⟩ := by
    rw [hrecord] at hid
    exact hid
  rcases hcases with ⟨hold, -⟩ | ⟨j, f, f', s, result, -, -, hf', htask, hresult, -⟩
  · have hname := name_of_get?_shelfWith hold
    exact absurd hname (by decide)
  · exact ⟨j, f', s, result, hf', htask, hresult⟩

/-- A listing returns an entry with the id of a save that works on it and then fails. -/
def ShowsFailure (start : World) (id : DiagramId) : Prop :=
  ∃ (n m : Nat) (v w : World) (e e' : Errand) (s : Save) (error : RenderError)
    (entries : List SavedEntry) (work : Work),
    World.Run .sole n start v ∧ World.Run .sole m v w ∧
    v.errands[0]? = some e ∧ e.task.worksOn? = some id ∧
    w.errands[0]? = some e' ∧ e'.task = .save s (.done (.error error)) ∧
    w.errands[1]? = some ⟨.list (.done (.ok entries)), 0, work⟩ ∧
    ∃ entry ∈ entries, entry.record.id = id

/-- A listing returns an entry with the id of a save that still works on it. -/
def ShowsUnfinished (start : World) (id : DiagramId) : Prop :=
  ∃ (n : Nat) (w : World) (e : Errand) (entries : List SavedEntry) (work : Work),
    World.Run .shared n start w ∧ w.errands[0]? = some e ∧ e.task.worksOn? = some id ∧
    w.errands[1]? = some ⟨.list (.done (.ok entries)), 0, work⟩ ∧
    ∃ entry ∈ entries, entry.record.id = id

/-- The renderer of a save fails, and the save comes to its end. -/
def failing : List Turn :=
  Turn.steps 0 2 5 ++ [.go 0 .begin, .go 0 (.finish (.ended (some 1) []))] ++ Turn.steps 0 5 5

/-- Two saves draw the greatest id, and the second finds it taken. -/
def drawTwice : List Turn :=
  saveAndList ++ [.accept (.save ⟨.standard, "b"⟩ .makeDir) 0] ++ Turn.steps 0 4 (2 ^ 63 - 1) ++
    Turn.steps 2 5 (2 ^ 63 - 1) ++ Turn.steps 1 4 0

/-- The first request is a save that works on an id. -/
def working (w : World) (id : DiagramId) : Bool :=
  w.errands[0]?.any fun e => e.task.worksOn? == some id

theorem working_sound {w : World} {id : DiagramId} (h : working w id) :
    ∃ e, w.errands[0]? = some e ∧ e.task.worksOn? = some id := by
  simpa [working, Option.any_eq_true] using h

/-- The first request is a save that has failed. -/
def failed (w : World) : Bool :=
  match w.errands[0]? with
  | some (Errand.mk (.save _ (.done (.error _))) _ _) => true
  | _ => false

theorem returned_mem {w : World} {id : DiagramId} (h : returned w (·.contains id)) :
    ∃ entries work, w.errands[1]? = some ⟨.list (.done (.ok entries)), 0, work⟩ ∧
      ∃ entry ∈ entries, entry.record.id = id := by
  obtain ⟨entries, work, he, hids⟩ := returned_sound h
  exact ⟨entries, work, he, List.mem_map.mp (List.contains_iff_mem.mp hids)⟩

/-- A listing that has read the names shows a save that fails before they are looked at. It shows a
failed save where another name belongs to its id. And at the end of the clock it shows one that goes
on. -/
theorem listing_can_mislead :
    ShowsFailure (soleStore emptyShelf) ⟨5⟩ ∧
    ShowsFailure (soleStore (shelfWith "diagram_5.x.puml".toList)) ⟨5⟩ ∧
    ShowsUnfinished (soleStore emptyShelf) ⟨2 ^ 63 - 1⟩ := by
  have play : ∀ (start : World) (id : DiagramId) (turns turns' : List Turn),
      ((start.play? (fun _ => Turn.ofSole) turns).any fun v => working v id &&
        (v.play? (fun _ => Turn.ofSole) turns').any fun w => failed w &&
          returned w (·.contains id)) = true →
      ShowsFailure start id := by
    intro start id turns turns' h
    simp only [Option.any_eq_true, Bool.and_eq_true] at h
    obtain ⟨v, hv, hworking, w, hw, hfailed, hreturned⟩ := h
    obtain ⟨e, he, hid⟩ := working_sound hworking
    obtain ⟨entries, work, he', hentry⟩ := returned_mem hreturned
    unfold failed at hfailed
    split at hfailed
    · next s error number work' hw₀ =>
      exact ⟨_, _, v, w, e, _, s, error, entries, work, .of_sole hv, .of_sole hw, he, hid, hw₀, rfl,
        he', hentry⟩
    · cases hfailed
  refine ⟨play _ _ (saveAndList ++ Turn.steps 0 4 5 ++ Turn.steps 1 1 5)
      (failing ++ Turn.steps 1 3 5) (by cbv),
    play _ _ (saveAndList ++ Turn.steps 0 4 5) (failing ++ Turn.steps 1 4 5) (by cbv), ?_⟩
  have h : ((soleStore emptyShelf).play? (fun _ turn => turn.ofSole || turn.ofSaves)
      drawTwice).any (fun w => working w ⟨2 ^ 63 - 1⟩ &&
        returned w (·.contains ⟨2 ^ 63 - 1⟩)) = true := by cbv
  simp only [Option.any_eq_true, Bool.and_eq_true] at h
  obtain ⟨w, hw, hworking, hreturned⟩ := h
  obtain ⟨e, he, hid⟩ := working_sound hworking
  obtain ⟨entries, work, he', hentry⟩ := returned_mem hreturned
  refine ⟨_, w, e, entries, work, .of_play (P := fun _ => True) trivial hw ?_, he, hid, he', hentry⟩
  -- the second save has a time that is no time of a single store
  intro v v' turn _ hturn hallows
  rcases Bool.or_eq_true_iff.mp hallows with hsole | hsaves
  · exact ⟨(Rules.sole_permits hturn hsole).shared, trivial⟩
  · exact ⟨Rules.shared_permits hturn hsaves, trivial⟩

end DiagramService
