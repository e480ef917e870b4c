import DiagramService.Proofs.Service.World

/-! Runs that a list of turns spells out. A turn tells which request takes the next step and what
comes from outside at this step, so that the run can be computed. The renderer of such a run only
ever leaves an entry at its image path. -/

namespace DiagramService

/-- A step of one request. -/
inductive Move where
  | advance (endings : List (List Char)) (now : Int)
  | begin
  /-- The renderer leaves an entry at its image path. -/
  | leave (x : Entry)
  | finish (outcome : RunOutcome)

/-- A step of the world. -/
inductive Turn where
  | accept (task : Task) (number : Nat)
  | go (i : Nat) (move : Move)

/-- A request with its store and the disk after a step, if the step is possible. -/
def Errand.move? (e : Errand) (store : Store) (d : Disk) (move : Move) :
    Option (Errand × Store × Disk) :=
  match move, e.task.waiting?, e.work with
  | .advance endings now, none, _ =>
    let next := e.task.step endings store d now
    some ({ e with task := next.1 }, next.2.1, next.2.2)
  | .begin, some source, .idle =>
    some ({ e with work := .running (d.contentAt source).toOption }, store, d)
  | .leave x, some source, .running _ => some (e, store, d.leave (renderedImagePath source) x)
  | .finish outcome, some source, .running _ =>
    some ({ e with
      task := e.task.hear outcome
      work := .over (d.contentAt (renderedImagePath source)).toOption }, store, d)
  | _, _, _ => none

namespace World

/-- The world after a turn, if the turn is possible. -/
def turn? (w : World) : Turn → Option World
  | .accept task number =>
    if number < w.stores.length then
      some ⟨w.stores, w.disk, w.errands ++ [⟨task, number, .idle⟩]⟩
    else none
  | .go i move =>
    w.errands[i]?.bind fun e => w.stores[e.store]?.bind fun store =>
      (e.move? store w.disk move).map fun next =>
        ⟨w.stores.set e.store next.2.1, next.2.2, w.errands.set i next.1⟩

/-- The world after some turns, if all are possible and allowed. -/
def play? (allows : World → Turn → Bool) (w : World) : List Turn → Option World
  | [] => some w
  | turn :: turns =>
    if allows w turn then (w.turn? turn).bind fun w => w.play? allows turns else none

end World

/-- The rules allow a turn. -/
def Rules.Permits (R : Rules) (w : World) : Turn → Prop
  | .accept task number => R.admits w task number
  | .go i (.advance endings now) =>
    R.clock now ∧ ∀ e, w.errands[i]? = some e → R.draws e.task endings w.disk
  | .go _ .begin => True
  | .go i (.leave x) => ∀ e source, w.errands[i]? = some e → e.task.waiting? = some source →
    R.acts e.task w.disk (w.disk.leave (renderedImagePath source) x)
  | .go i (.finish outcome) => ∀ e given, w.errands[i]? = some e → e.work = .running given →
    R.ends e.task given w.disk outcome

section Play

variable {R : Rules} {w w' : World}

/-- A turn leaves the number of stores as it is. -/
theorem World.length_of_turn {turn : Turn} (h : w.turn? turn = some w') :
    w'.stores.length = w.stores.length := by
  cases turn with
  | accept task number =>
    simp only [World.turn?] at h
    split at h
    · cases h
      rfl
    · cases h
  | go i move =>
    simp only [World.turn?, Option.bind_eq_some_iff, Option.map_eq_some_iff] at h
    obtain ⟨e, he, store, hs, next, hnext, rfl⟩ := h
    exact List.length_set

theorem World.Step.of_turn {turn : Turn} (h : w.turn? turn = some w') (hp : R.Permits w turn) :
    World.Step R w w' := by
  cases turn with
  | accept task number =>
    simp only [World.turn?] at h
    split at h
    · cases h
      exact .accept _ _ _ task number hp
    · cases h
  | go i move =>
    simp only [World.turn?, Option.bind_eq_some_iff, Option.map_eq_some_iff] at h
    obtain ⟨e, he, store, hs, next, hnext, rfl⟩ := h
    refine .move _ _ _ i e store _ _ _ he hs ?_
    obtain ⟨task, number, work⟩ := e
    -- who waits for its renderer takes no step of its own, and who does not has no renderer
    cases hwait : task.waiting? with
    | none =>
      cases move with
      | advance endings now =>
        simp only [Errand.move?, hwait] at hnext
        cases hnext
        exact .advance task number work store _ endings now hwait hp.1 (hp.2 _ he)
      | _ => simp [Errand.move?, hwait] at hnext
    | some source =>
      cases move with
      | advance endings now => simp [Errand.move?, hwait] at hnext
      | begin =>
        cases work with
        | idle =>
          simp only [Errand.move?, hwait] at hnext
          cases hnext
          exact .begin task number store _ source hwait
        | _ => simp [Errand.move?, hwait] at hnext
      | leave x =>
        cases work with
        | running given =>
          simp only [Errand.move?, hwait] at hnext
          cases hnext
          exact .act task number given store _ source _ hwait (hp _ source he hwait)
        | _ => simp [Errand.move?, hwait] at hnext
      | finish outcome =>
        cases work with
        | running given =>
          simp only [Errand.move?, hwait] at hnext
          cases hnext
          exact .finish task number given store _ source outcome hwait (hp _ given he rfl)
        | _ => simp [Errand.move?, hwait] at hnext

theorem World.During.cons {P : World → Prop} {n : Nat} {w₀ : World} (hw : P w₀)
    (h : World.Step R w₀ w) (hrun : World.During R P n w w') :
    World.During R P (n + 1) w₀ w' := by
  induction hrun with
  | refl hw' => exact .tail (.refl hw) h hw'
  | tail _ hs hw'' ih => exact .tail (ih h) hs hw''

/-- What is played is a run, if the rules permit what is allowed in the worlds that turns lead to.
What allows a turn may tell of the world before it. -/
theorem World.During.of_play {P Q : World → Prop} {allows : World → Turn → Bool}
    {turns : List Turn} (hw : Q w) (h : w.play? allows turns = some w')
    (hp : ∀ v v' turn, Q v → World.turn? v turn = some v' → allows v turn →
      R.Permits v turn ∧ P v ∧ Q v') (hlast : Q w' → P w') :
    World.During R P turns.length w w' := by
  induction turns generalizing w with
  | nil =>
    cases h
    exact .refl (hlast hw)
  | cons turn turns ih =>
    rw [World.play?] at h
    split at h
    · next hallows =>
      obtain ⟨v, hturn, hplay⟩ := Option.bind_eq_some_iff.mp h
      obtain ⟨hpermits, hbefore, hv⟩ := hp w v turn hw hturn hallows
      exact .cons hbefore (.of_turn hturn hpermits) (ih hv hplay)
    · cases h

theorem World.Run.of_play {P : World → Prop} {allows : World → Turn → Bool} {turns : List Turn}
    (hw : P w) (h : w.play? allows turns = some w')
    (hp : ∀ v v' turn, P v → World.turn? v turn = some v' → allows v turn →
      R.Permits v turn ∧ P v') : World.Run R turns.length w w' := by
  refine (World.During.of_play (P := P) hw h (fun v v' turn hv hturn hallows => ?_) id).run
  obtain ⟨hpermits, hv'⟩ := hp v v' turn hv hturn hallows
  exact ⟨hpermits, hv, hv'⟩

end Play

/-! ## A directory to begin with -/

/-- Some steps of a request while the clock shows one time. -/
def Turn.steps (i n : Nat) (now : Int) : List Turn :=
  List.replicate n (.go i (.advance [] now))

/-- A renderer that leaves an image and ends. -/
def Turn.renderer (i : Nat) (x : Entry) (code : Int) : List Turn :=
  [.go i .begin, .go i (.leave x), .go i (.finish (.ended (some code) []))]

/-- A disk with an empty directory. -/
def emptyShelf : Disk := Disk.empty.set ["saved".toList] .directory

/-- Nothing is on the shelf but the directory. -/
theorem get?_emptyShelf {name : FileName} {q : Place} (h : emptyShelf.get? (name :: q) ≠ none) :
    name = "saved".toList ∧ q = [] := by
  refine Classical.byContradiction fun hne => h ?_
  refine (Disk.get?_set_of_ne _ (fun heq => hne ?_) _).trans rfl
  cases heq
  exact ⟨rfl, rfl⟩

theorem saved_ordinary : Disk.Ordinary "saved".toList :=
  ⟨by decide, by decide, by decide, by decide, by decide⟩

/-- A relative path of one name leads to the directory with this name. -/
theorem Disk.opens_name {d : Disk} {name : FileName} (hn : Ordinary name) (hd : d.working = [])
    (hget : d.get? [name] = some .directory) : d.Opens ⟨name⟩ [name] := by
  have hslash : Path.isAbsolute ⟨name⟩ = false := by
    obtain ⟨c, cs, rfl⟩ := List.exists_cons_of_ne_nil hn.nonempty
    have hc : c ≠ '/' := fun h => hn.noSlash (h ▸ List.mem_cons_self)
    simp [Path.isAbsolute, hc]
  have hway : wayOf ⟨name⟩ = [name] := by
    simp [wayOf, List.splitOn_eq_singleton hn.noSlash, hn.nonempty]
  have hstart : d.startOf ⟨name⟩ = [] := by
    simp [startOf, hslash, hd]
  unfold Opens
  rw [hway, hstart]
  exact walk_ordinary_found d .follow _ hn hget (by simp)

/-- So does the absolute one. -/
theorem Disk.opens_rooted {d : Disk} {name : FileName} (hn : Ordinary name)
    (hget : d.get? [name] = some .directory) : d.Opens ⟨'/' :: name⟩ [name] := by
  have hway : wayOf ⟨'/' :: name⟩ = [name] := by
    have hsplit := List.splitOn_append_cons_self (a := '/') [] name
    rw [List.nil_append, List.splitOn_eq_singleton hn.noSlash] at hsplit
    simp [wayOf, hsplit, hn.nonempty]
  unfold Opens
  rw [hway]
  exact walk_ordinary_found d .follow _ hn hget (by simp)

theorem emptyShelf_opens : emptyShelf.Opens ⟨"saved".toList⟩ ["saved".toList] :=
  Disk.opens_name saved_ordinary rfl (Disk.get?_set_self _ (List.cons_ne_nil _ _) _)

theorem emptyShelf_vacant (name : FileName) : emptyShelf.get? [name, "saved".toList] = none :=
  Classical.byContradiction fun h => by cases (get?_emptyShelf h).2

theorem emptyShelf_wellFormed : emptyShelf.WellFormed := by
  refine ⟨fun name q h => ?_, rfl⟩
  rw [(get?_emptyShelf h).2]
  rfl

end DiagramService
