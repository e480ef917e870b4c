import DiagramService.Proofs.Diagram.Files
import DiagramService.Proofs.Disk.Effect
import DiagramService.Proofs.Render.Invocation
import DiagramService.Store.Save

/-! What a step of a save does while its directory is there: `Advance` lists the steps with what
they find at the two places of the record and what they leave there. Everything that is said about
saves among other requests is read off from it. -/

namespace DiagramService

/-! ## The state of a store -/

section Store

variable {store : Store} {id id' : DiagramId}

@[simp]
theorem Store.mark_dir : (store.mark id).dir = store.dir := by
  unfold mark
  split <;> rfl

@[simp]
theorem Store.mark_ids : (store.mark id).ids = store.ids := by
  unfold mark
  split <;> rfl

theorem Store.isPending_mark_iff :
    (store.mark id).isPending id' = true ↔ id' = id ∨ store.isPending id' = true := by
  unfold mark isPending
  split
  · next hmem =>
    refine ⟨.inr, fun h => h.elim (fun heq => ?_) fun h => h⟩
    rw [heq, decide_eq_true_eq]
    exact hmem
  · simp

theorem Store.isPending_unmark_iff :
    (store.unmark id).isPending id' = true ↔ id' ≠ id ∧ store.isPending id' = true := by
  simp [isPending, unmark, and_comm]

end Store

/-- The places of the two files of a record. -/
def PlaceOf (D : Place) (id : DiagramId) (q : Place) : Prop :=
  q = id.sourceName :: D ∨ q = id.imageName :: D

namespace Save

/-! ## Phases -/

namespace Phase

/-- The id whose source a save has made and not removed. -/
def held? : Phase → Option DiagramId
  | .invoke record _ => some record.id
  | .relocate record => some record.id
  | .discard record paths _ => if paths = leftovers record then some record.id else none
  | .unmark record (.ok _) => some record.id
  | .done (.ok record) => some record.id
  | _ => none

/-- The id whose files a save may still change. -/
def worksOn? : Phase → Option DiagramId
  | .invoke record _ => some record.id
  | .relocate record => some record.id
  | .discard record _ _ => some record.id
  | _ => none

/-- The id that a save has claimed, unless the save has failed. -/
def keeps? : Phase → Option DiagramId
  | .invoke record _ => some record.id
  | .relocate record => some record.id
  | .unmark record (.ok _) => some record.id
  | .done (.ok record) => some record.id
  | _ => none

/-- The id of a save that has found its image. -/
def imaged? : Phase → Option DiagramId
  | .relocate record => some record.id
  | .unmark record (.ok _) => some record.id
  | .done (.ok record) => some record.id
  | _ => none

/-- The id that a save has drawn and not given up. -/
def drawn? : Phase → Option DiagramId
  | .mark _ record => some record.id
  | .claim _ record => some record.id
  | .release _ record => some record.id
  | .invoke record _ => some record.id
  | .relocate record => some record.id
  | .discard record _ _ => some record.id
  | .unmark record _ => some record.id
  | _ => none

/-- A save has come to its end. -/
def Over : Phase → Prop
  | .done _ => True
  | _ => False

/-- A save will claim no other id any more. -/
def Claimed : Phase → Prop
  | .invoke _ _ => True
  | .relocate _ => True
  | .discard _ _ _ => True
  | .unmark _ _ => True
  | .done _ => True
  | _ => False

/-- The places that a step may change: the source that the save holds or claims and the image of the
record that it works on. -/
def Reaches (phase : Phase) (D : Place) (d : Disk) (q : Place) : Prop :=
  ∃ id : DiagramId,
    q = id.sourceName :: D ∧ (phase.held? = some id ∨ d.get? q = none) ∨
    q = id.imageName :: D ∧ phase.worksOn? = some id

theorem Reaches.placeOf {phase : Phase} {D : Place} {d : Disk} {q : Place}
    (h : phase.Reaches D d q) : ∃ id, PlaceOf D id q := by
  obtain ⟨id, ⟨h, -⟩ | ⟨h, -⟩⟩ := h
  · exact ⟨id, .inl h⟩
  · exact ⟨id, .inr h⟩

/-- The text has not been written to the source that a save has made. -/
def Blank : Phase → Prop
  | .invoke _ .write => True
  | .discard _ _ _ => True
  | _ => False

/-- The record of a phase belongs to the directory of the store, and a source that has been made can
be looked up. -/
def Proper (dir : Path) : Phase → Prop
  | .makeDir => True
  | .draw _ => True
  | .mark _ record => record = .inDirectory dir record.id
  | .claim _ record => record = .inDirectory dir record.id
  | .release _ record => record = .inDirectory dir record.id
  | .invoke record phase => record = .inDirectory dir record.id ∧ Disk.Spelled record.source ∧
      phase.result? = none
  | .relocate record => record = .inDirectory dir record.id ∧ Disk.Spelled record.source
  | .discard record paths _ => record = .inDirectory dir record.id ∧ Disk.Spelled record.source ∧
      (paths = leftovers record ∨ ∃ n, paths = List.replicate n record.image)
  | .unmark record (.ok record') => record = .inDirectory dir record.id ∧
      Disk.Spelled record.source ∧ record' = record
  | .unmark record (.error _) => record = .inDirectory dir record.id
  | .done (.ok record) => record = .inDirectory dir record.id ∧ Disk.Spelled record.source
  | .done (.error _) => True

end Phase

/-- A record is left with its source and twice with its image. -/
theorem leftovers_inDirectory (dir : Path) (id : DiagramId) :
    leftovers (.inDirectory dir id) =
      dir.join id.sourceName :: List.replicate 2 (dir.join id.imageName) := by
  simp [leftovers, filesOf, DiagramFiles.forSource, SavedDiagram.inDirectory,
    renderedImagePath_record]

theorem invocation_image (s : Save) (dir : Path) (id : DiagramId) :
    (s.invocation (.inDirectory dir id)).files.image = dir.join id.imageName :=
  renderedImagePath_record dir id

/-- The renderer leaves the image of a record where the record has it. -/
theorem image_same (dir : Path) (id : DiagramId) :
    (filesOf (.inDirectory dir id)).image.same (SavedDiagram.inDirectory dir id).image = true := by
  simp [filesOf, DiagramFiles.forSource, SavedDiagram.inDirectory, renderedImagePath_record,
    Path.same]

theorem replicate_ne_leftovers (dir : Path) (id : DiagramId) (n : Nat) :
    List.replicate n (dir.join id.imageName) ≠ leftovers (.inDirectory dir id) := by
  rw [leftovers_inDirectory]
  intro h
  have hmem : dir.join id.sourceName ∈ List.replicate n (dir.join id.imageName) :=
    h ▸ List.mem_cons_self
  obtain ⟨base, hjoin, -⟩ := Disk.join_eq dir
  have heq := List.eq_of_mem_replicate hmem
  rw [hjoin, hjoin, Path.mk.injEq] at heq
  exact id.sourceName_ne_imageName id (List.append_cancel_left heq)

theorem held?_giveUp (record : SavedDiagram) (error : RenderError) :
    (giveUp record error).held? = some record.id := by
  simp [giveUp, Phase.held?]

theorem held?_discard_replicate (dir : Path) (id : DiagramId) (n : Nat) (error : RenderError) :
    (Phase.discard (.inDirectory dir id) (List.replicate n (dir.join id.imageName)) error).held? =
      none :=
  if_neg (replicate_ne_leftovers dir id n)

/-! ## Steps -/

/-- The steps of a save whose directory is there. `dir` is the path of the directory and `D` its
place. -/
inductive Advance (s : Save) (dir : Path) (D : Place) (now : Int) :
    Phase → Store → Disk → Phase → Store → Disk → Prop
  | ready (store d) : Advance s dir D now .makeDir store d (.draw maxClaims) store d
  | noDir (store d e) : Advance s dir D now .makeDir store d (.done (.error (.io e))) store d
  | exhausted (store d) :
    Advance s dir D now (.draw 0) store d (.done (.error (.io noFreeId))) store d
  | draw (store d tries) : Advance s dir D now (.draw (tries + 1)) store d
      (.mark tries (.inDirectory dir (store.issue now).1)) (store.issue now).2 d
  | mark (store d tries id) : Advance s dir D now (.mark tries (.inDirectory dir id)) store d
      (.claim tries (.inDirectory dir id)) (store.mark id) d
  | claim (store d tries id) (hs : Disk.Spelled (dir.join id.sourceName))
      (hget : d.get? (id.sourceName :: D) = none) :
    Advance s dir D now (.claim tries (.inDirectory dir id)) store d
      (.invoke (.inDirectory dir id) .write) store (d.set (id.sourceName :: D) (.file [] now))
  | taken (store d tries id) (hget : d.get? (id.sourceName :: D) ≠ none) :
    Advance s dir D now (.claim tries (.inDirectory dir id)) store d
      (.release tries (.inDirectory dir id)) store d
  | unclaimable (store d tries id e) : Advance s dir D now
      (.claim tries (.inDirectory dir id)) store d
      (.unmark (.inDirectory dir id) (.error (.io e))) store d
  | release (store d tries id) : Advance s dir D now
      (.release tries (.inDirectory dir id)) store d (.draw tries) (store.unmark id) d
  | write (store d id) : Advance s dir D now (.invoke (.inDirectory dir id) .write) store d
      (.invoke (.inDirectory dir id) .clear) store
      (d.set (id.sourceName :: D) (.file (Utf8.encode s.text) now))
  | clear (store d id x) (hget : d.get? (id.imageName :: D) = some x) (hx : x ≠ .directory) :
    Advance s dir D now (.invoke (.inDirectory dir id) .clear) store d
      (.invoke (.inDirectory dir id) .run) store (d.erase (id.imageName :: D))
  | clean (store d id) (hget : d.get? (id.imageName :: D) = none) :
    Advance s dir D now (.invoke (.inDirectory dir id) .clear) store d
      (.invoke (.inDirectory dir id) .run) store d
  | blocked (store d id) (hget : d.get? (id.imageName :: D) = some .directory) :
    Advance s dir D now (.invoke (.inDirectory dir id) .clear) store d
      (giveUp (.inDirectory dir id) (.io .isDirectory)) store d
  | running (store d id) : Advance s dir D now (.invoke (.inDirectory dir id) .run) store d
      (.invoke (.inDirectory dir id) .run) store d
  | read (store d id content) (h : d.contentAt (dir.join id.imageName) = .ok content) :
    Advance s dir D now (.invoke (.inDirectory dir id) .read) store d
      (.relocate (.inDirectory dir id)) store d
  | unread (store d id error) : Advance s dir D now
      (.invoke (.inDirectory dir id) .read) store d
      (giveUp (.inDirectory dir id) error) store d
  | relocate (store d id) : Advance s dir D now (.relocate (.inDirectory dir id)) store d
      (.unmark (.inDirectory dir id) (.ok (.inDirectory dir id))) store d
  | discardSource (store d id error) : Advance s dir D now
      (.discard (.inDirectory dir id) (leftovers (.inDirectory dir id)) error) store d
      (.discard (.inDirectory dir id) (List.replicate 2 (dir.join id.imageName)) error) store
      (d.erase (id.sourceName :: D))
  | discardImage (store d id n error x) (hget : d.get? (id.imageName :: D) = some x)
      (hx : x ≠ .directory) : Advance s dir D now
      (.discard (.inDirectory dir id) (List.replicate (n + 1) (dir.join id.imageName)) error)
      store d
      (.discard (.inDirectory dir id) (List.replicate n (dir.join id.imageName)) error) store
      (d.erase (id.imageName :: D))
  | discardNothing (store d id n error) : Advance s dir D now
      (.discard (.inDirectory dir id) (List.replicate (n + 1) (dir.join id.imageName)) error)
      store d
      (.discard (.inDirectory dir id) (List.replicate n (dir.join id.imageName)) error) store d
  | discarded (store d id error) : Advance s dir D now
      (.discard (.inDirectory dir id) [] error) store d
      (.unmark (.inDirectory dir id) (.error error)) store d
  | unmark (store d id result) : Advance s dir D now
      (.unmark (.inDirectory dir id) result) store d (.done result) (store.unmark id) d
  | done (store d result) : Advance s dir D now (.done result) store d (.done result) store d

/-- What a save relies on when it takes a step. -/
structure Settled (s : Save) (dir : Path) (D : Place) (phase : Phase) (d : Disk) : Prop where
  opens : d.Opens dir D
  proper : phase.Proper dir
  /-- The source that the save has made is a file, with the text once that has been written. -/
  source : ∀ id, phase.held? = some id → ∃ content time,
    d.get? (id.sourceName :: D) = some (.file content time) ∧
      (¬ phase.Blank → content = Utf8.encode s.text)

section Step

variable {s : Save} {dir : Path} {D : Place} {d : Disk} {store : Store} {id : DiagramId} {now : Int}

theorem step_claim (s : Save) (h : d.Opens dir D) (tries : Nat) :
    Advance s dir D now (.claim tries (.inDirectory dir id)) store d
      (s.step (.claim tries (.inDirectory dir id)) store d now).1 store
      (s.step (.claim tries (.inDirectory dir id)) store d now).2.2 := by
  have hname := id.sourceName_ordinary
  simp only [step, claim, SavedDiagram.inDirectory]
  by_cases hs : Disk.Spelled (dir.join id.sourceName)
  · rw [h.createNew hname hs now]
    by_cases hget : d.get? (id.sourceName :: D) = none
    · rw [if_pos hget]
      exact .claim store d tries id hs hget
    · rw [if_neg hget]
      exact .taken store d tries id hget
  · obtain ⟨x, hx, hfail⟩ := Disk.createNew_of_not_spelled dir hname hs
    rw [hfail d now]
    simp only [Disk.fail, hx]
    exact .unclaimable store d tries id x

theorem step_write (s : Save) (h : d.Opens dir D) (hs : Disk.Spelled (dir.join id.sourceName))
    {content : Bytes} {time : Int}
    (hget : d.get? (id.sourceName :: D) = some (.file content time)) :
    Advance s dir D now (.invoke (.inDirectory dir id) .write) store d
      (s.step (.invoke (.inDirectory dir id) .write) store d now).1 store
      (s.step (.invoke (.inDirectory dir id) .write) store d now).2.2 := by
  simp only [step, Invocation.step, Invocation.write, invocation, filesOf,
    DiagramFiles.forSource, SavedDiagram.inDirectory]
  rw [h.writeFile id.sourceName_ordinary hs hget]
  exact .write store d id

theorem step_clear (s : Save) (h : d.Opens dir D) (hs : Disk.Spelled (dir.join id.sourceName)) :
    Advance s dir D now (.invoke (.inDirectory dir id) .clear) store d
      (s.step (.invoke (.inDirectory dir id) .clear) store d now).1 store
      (s.step (.invoke (.inDirectory dir id) .clear) store d now).2.2 := by
  simp only [step, Invocation.step, Invocation.clear, invocation, filesOf,
    DiagramFiles.forSource, SavedDiagram.inDirectory, renderedImagePath_record]
  rw [h.removeFile id.imageName_ordinary (DiagramId.spelled_imageName hs)]
  cases hget : d.get? (id.imageName :: D) with
  | none => exact .clean store d id hget
  | some x =>
    cases x with
    | directory => exact .blocked store d id hget
    | _ => exact .clear store d id _ hget (by simp)

theorem step_read (s : Save) :
    Advance s dir D now (.invoke (.inDirectory dir id) .read) store d
      (s.step (.invoke (.inDirectory dir id) .read) store d now).1 store
      (s.step (.invoke (.inDirectory dir id) .read) store d now).2.2 := by
  simp only [step, Invocation.step, Invocation.read, invocation, filesOf,
    DiagramFiles.forSource, SavedDiagram.inDirectory, renderedImagePath_record]
  cases hread : d.contentAt (dir.join id.imageName) with
  | ok content => exact .read store d id content hread
  | error e => exact .unread store d id _

theorem step_discard (s : Save) (h : d.Opens dir D)
    (hs : Disk.Spelled (dir.join id.sourceName)) {paths : List Path} {error : RenderError}
    (hpaths : paths = leftovers (.inDirectory dir id) ∨
      ∃ n, paths = List.replicate n (dir.join id.imageName))
    (hheld : paths = leftovers (.inDirectory dir id) →
      ∃ content time, d.get? (id.sourceName :: D) = some (.file content time)) :
    Advance s dir D now (.discard (.inDirectory dir id) paths error) store d
      (s.step (.discard (.inDirectory dir id) paths error) store d now).1
      (s.step (.discard (.inDirectory dir id) paths error) store d now).2.1
      (s.step (.discard (.inDirectory dir id) paths error) store d now).2.2 := by
  rcases hpaths with rfl | ⟨n, rfl⟩
  · obtain ⟨content, time, hget⟩ := hheld rfl
    have hadv : Advance s dir D now _ store d _ store _ := .discardSource store d id error
    rw [leftovers_inDirectory] at hadv ⊢
    simp only [step]
    rw [h.removeFile id.sourceName_ordinary hs, hget]
    exact hadv
  · cases n with
    | zero => exact .discarded store d id error
    | succ n =>
      simp only [List.replicate_succ, step]
      rw [h.removeFile id.imageName_ordinary (DiagramId.spelled_imageName hs)]
      cases hget : d.get? (id.imageName :: D) with
      | none => exact .discardNothing store d id n error
      | some x =>
        cases x with
        | directory => exact .discardNothing store d id n error
        | _ => exact .discardImage store d id n error _ hget nofun

/-- Every step of a save whose directory is there is one of those that are listed. -/
theorem Settled.advance {phase : Phase} (h : Settled s store.dir D phase d) (now : Int) :
    Advance s store.dir D now phase store d (s.step phase store d now).1
      (s.step phase store d now).2.1 (s.step phase store d now).2.2 := by
  obtain ⟨hopens, hproper, hsource⟩ := h
  cases phase with
  | makeDir =>
    have hsame := hopens.makeDirs
    simp only [step]
    rcases hm : d.makeDirs store.dir with ⟨e | _, d'⟩ <;> rw [hm] at hsame <;> subst hsame
    · exact .noDir store d' e
    · exact .ready store d'
  | draw tries =>
    cases tries with
    | zero => exact .exhausted store d
    | succ tries => exact .draw store d tries
  | mark tries record =>
    have hrecord : record = .inDirectory store.dir record.id := hproper
    rw [hrecord]
    exact .mark store d tries record.id
  | claim tries record =>
    have hrecord : record = .inDirectory store.dir record.id := hproper
    rw [hrecord]
    exact step_claim s hopens tries
  | release tries record =>
    have hrecord : record = .inDirectory store.dir record.id := hproper
    rw [hrecord]
    exact .release store d tries record.id
  | invoke record phase =>
    obtain ⟨hrecord, hs, hphase⟩ := hproper
    obtain ⟨content, time, hget, -⟩ := hsource record.id rfl
    rw [hrecord] at hs ⊢
    cases phase with
    | write => exact step_write s hopens hs hget
    | clear => exact step_clear s hopens hs
    | run => exact .running store d record.id
    | read => exact step_read s
    | done result => cases hphase
  | relocate record =>
    obtain ⟨hrecord, -⟩ := hproper
    rw [hrecord]
    simp only [step, relocate, image_same, if_true]
    exact .relocate store d record.id
  | discard record paths error =>
    obtain ⟨hrecord, hs, hpaths⟩ := hproper
    -- the source is there as long as nothing has been removed
    have hfile : paths = leftovers record →
        ∃ content time, d.get? (record.id.sourceName :: D) = some (.file content time) := by
      intro h
      obtain ⟨content, time, hget, -⟩ := hsource record.id (by simp [Phase.held?, h])
      exact ⟨content, time, hget⟩
    rw [hrecord] at hs hpaths hfile ⊢
    exact step_discard s hopens hs hpaths hfile
  | unmark record result =>
    have hrecord : record = .inDirectory store.dir record.id := by
      cases result with
      | ok record' => exact hproper.1
      | error error => exact hproper
    rw [hrecord]
    exact .unmark store d record.id result
  | done result => exact .done store d result

/-! ## What a step keeps -/

section Keep

variable {phase phase' : Phase} {store' : Store} {d' : Disk}

theorem Advance.dir_eq (h : Advance s dir D now phase store d phase' store' d') :
    store'.dir = store.dir := by
  cases h with
  | mark => exact Store.mark_dir
  | _ => rfl

theorem Advance.proper (h : Advance s dir D now phase store d phase' store' d')
    (hp : phase.Proper dir) : phase'.Proper dir := by
  cases h with
  | ready => exact trivial
  | noDir => exact trivial
  | exhausted => exact trivial
  | draw => exact rfl
  | mark => exact rfl
  | claim _ _ tries id hs => exact ⟨rfl, hs, rfl⟩
  | taken => exact rfl
  | unclaimable => exact rfl
  | release => exact trivial
  | write => exact ⟨rfl, hp.2.1, rfl⟩
  | clear => exact ⟨rfl, hp.2.1, rfl⟩
  | clean => exact ⟨rfl, hp.2.1, rfl⟩
  | blocked => exact ⟨rfl, hp.2.1, .inl rfl⟩
  | running => exact hp
  | read => exact ⟨rfl, hp.2.1⟩
  | unread => exact ⟨rfl, hp.2.1, .inl rfl⟩
  | relocate => exact ⟨rfl, hp.2, rfl⟩
  | discardSource => exact ⟨rfl, hp.2.1, .inr ⟨2, rfl⟩⟩
  | discardImage _ _ id n => exact ⟨rfl, hp.2.1, .inr ⟨n, rfl⟩⟩
  | discardNothing _ _ id n => exact ⟨rfl, hp.2.1, .inr ⟨n, rfl⟩⟩
  | discarded => exact rfl
  | unmark _ _ id result =>
    cases result with
    | ok record' =>
      obtain ⟨-, hs, rfl⟩ := hp
      exact ⟨rfl, hs⟩
    | error error => exact trivial
  | done => exact hp

theorem Advance.agreesOff (h : Advance s dir D now phase store d phase' store' d') :
    Disk.AgreesOff (phase.Reaches D d) d d' := by
  cases h with
  | claim _ _ tries id hs hget => exact Disk.agreesOff_set d ⟨id, .inl ⟨rfl, .inr hget⟩⟩ _
  | write _ _ id => exact Disk.agreesOff_set d ⟨id, .inl ⟨rfl, .inl rfl⟩⟩ _
  | clear _ _ id => exact Disk.agreesOff_erase d ⟨id, .inr ⟨rfl, rfl⟩⟩
  | discardSource _ _ id error =>
    have hheld :
        (Phase.discard (.inDirectory dir id) (leftovers (.inDirectory dir id)) error).held? =
          some id := by simp [Phase.held?, SavedDiagram.inDirectory]
    exact Disk.agreesOff_erase d ⟨id, .inl ⟨rfl, .inl hheld⟩⟩
  | discardImage _ _ id => exact Disk.agreesOff_erase d ⟨id, .inr ⟨rfl, rfl⟩⟩
  | _ => exact .refl _ d

/-- What was there is a link only if it was one before. -/
theorem Advance.get_link (h : Advance s dir D now phase store d phase' store' d') {q : Place}
    {target : Path} (hq : d'.get? q = some (.link target)) : d.get? q = some (.link target) := by
  have hset : ∀ {p : Place} {content : Bytes} {time : Int}, p ≠ [] →
      (d.set p (.file content time)).get? q = some (.link target) →
      d.get? q = some (.link target) := by
    intro p content time hp hq
    by_cases hqp : q = p
    · rw [hqp, Disk.get?_set_self d hp] at hq
      cases hq
    · rwa [Disk.get?_set_of_ne d hqp] at hq
  have herase : ∀ {p : Place}, p ≠ [] → (d.erase p).get? q = some (.link target) →
      d.get? q = some (.link target) := by
    intro p hp hq
    by_cases hqp : q = p
    · rw [hqp, Disk.get?_erase_self d hp] at hq
      cases hq
    · rwa [Disk.get?_erase_of_ne d hqp] at hq
  cases h with
  | claim => exact hset (List.cons_ne_nil _ _) hq
  | write => exact hset (List.cons_ne_nil _ _) hq
  | clear => exact herase (List.cons_ne_nil _ _) hq
  | discardSource => exact herase (List.cons_ne_nil _ _) hq
  | discardImage => exact herase (List.cons_ne_nil _ _) hq
  | _ => exact hq

/-- An id is held from when its source is made, which nothing had the place of before. -/
theorem Advance.held (h : Advance s dir D now phase store d phase' store' d')
    (hp : phase.Proper dir) : phase'.held? = phase.held? ∨ phase'.held? = none ∨
      ∃ id, phase'.held? = some id ∧ d.get? (id.sourceName :: D) = none := by
  cases h with
  | claim _ _ tries id hs hget => exact .inr (.inr ⟨id, rfl, hget⟩)
  | blocked => exact .inl (held?_giveUp _ _)
  | unread => exact .inl (held?_giveUp _ _)
  | discardSource => exact .inr (.inl (held?_discard_replicate _ _ _ _))
  | discardImage => exact .inr (.inl (held?_discard_replicate _ _ _ _))
  | discardNothing => exact .inr (.inl (held?_discard_replicate _ _ _ _))
  | discarded => exact .inr (.inl rfl)
  | unmark _ _ id result =>
    cases result with
    | ok record' =>
      obtain ⟨-, -, rfl⟩ := hp
      exact .inl rfl
    | error error => exact .inl rfl
  | _ => exact .inl rfl

/-- A save only ever works on the id that it has claimed. -/
theorem Advance.worksOn (h : Advance s dir D now phase store d phase' store' d') :
    phase'.worksOn? = phase.worksOn? ∨ phase'.worksOn? = none ∨
      ∃ id, phase'.worksOn? = some id ∧ d.get? (id.sourceName :: D) = none := by
  cases h with
  | claim _ _ tries id hs hget => exact .inr (.inr ⟨id, rfl, hget⟩)
  | relocate => exact .inr (.inl rfl)
  | discarded => exact .inr (.inl rfl)
  | _ => exact .inl rfl

theorem Advance.claimed (h : Advance s dir D now phase store d phase' store' d')
    (hc : phase.Claimed) : phase'.Claimed := by
  cases h <;> first | exact trivial | exact hc

/-- After its claim a save keeps its id until it fails. -/
theorem Advance.keeps (h : Advance s dir D now phase store d phase' store' d')
    (hp : phase.Proper dir) (hc : phase.Claimed) :
    phase'.keeps? = phase.keeps? ∨ phase'.keeps? = none := by
  cases h with
  | blocked => exact .inr rfl
  | unread => exact .inr rfl
  | unmark _ _ id result =>
    cases result with
    | ok record' =>
      obtain ⟨-, -, rfl⟩ := hp
      exact .inl rfl
    | error error => exact .inl rfl
  | claim => exact hc.elim
  | _ => exact .inl rfl

/-- A save that comes to be sure of its id has claimed it, or has failed already. -/
theorem Advance.claims (h : Advance s dir D now phase store d phase' store' d')
    (hc : ¬ phase.Claimed) (hc' : phase'.Claimed) :
    (∃ tries id, phase = .claim tries (.inDirectory dir id) ∧
      phase' = .invoke (.inDirectory dir id) .write) ∨
    phase'.keeps? = none ∧ phase'.imaged? = none := by
  cases h with
  | claim _ _ tries id => exact .inl ⟨tries, id, rfl, rfl⟩
  | noDir => exact .inr ⟨rfl, rfl⟩
  | exhausted => exact .inr ⟨rfl, rfl⟩
  | unclaimable => exact .inr ⟨rfl, rfl⟩
  | ready => exact hc'.elim
  | draw => exact hc'.elim
  | mark => exact hc'.elim
  | taken => exact hc'.elim
  | release => exact hc'.elim
  | _ => exact absurd trivial hc

/-- The source of ids moves on when an id is drawn, and only then. -/
theorem Advance.draws (h : Advance s dir D now phase store d phase' store' d') :
    store'.ids = store.ids ∧ (phase'.drawn? = phase.drawn? ∨ phase'.drawn? = none) ∨
    store'.ids = ⟨store.ids.candidate (clockId now)⟩ ∧
      phase'.drawn? = some ⟨store.ids.candidate (clockId now)⟩ := by
  cases h with
  | draw => exact .inr ⟨rfl, rfl⟩
  | mark => exact .inl ⟨Store.mark_ids, .inl rfl⟩
  | release => exact .inl ⟨rfl, .inr rfl⟩
  | unmark => exact .inl ⟨rfl, .inr rfl⟩
  | _ => exact .inl ⟨rfl, .inl rfl⟩

theorem Advance.over (h : Advance s dir D now phase store d phase' store' d')
    (ho : phase.Over) : phase'.Over := by
  cases h <;> first | exact ho | exact ho.elim

theorem Phase.drawn?_of_worksOn? {id : DiagramId} (h : phase.worksOn? = some id) :
    phase.drawn? = some id := by
  cases phase <;> first | exact h | cases h

theorem Phase.not_over_of_drawn? {id : DiagramId} (h : phase.drawn? = some id) : ¬ phase.Over := by
  intro ho
  cases phase <;> first | exact ho.elim | cases h

theorem Phase.held?_of_keeps? {id : DiagramId} (h : phase.keeps? = some id) :
    phase.held? = some id := by
  cases phase with
  | invoke record phase => exact h
  | relocate record => exact h
  | unmark record result =>
    cases result with
    | ok record' => exact h
    | error error => cases h
  | done result =>
    cases result with
    | ok record => exact h
    | error error => cases h
  | _ => cases h

theorem Phase.keeps?_of_imaged? {id : DiagramId} (h : phase.imaged? = some id) :
    phase.keeps? = some id := by
  cases phase with
  | relocate record => exact h
  | unmark record result =>
    cases result with
    | ok record' => exact h
    | error error => cases h
  | done result =>
    cases result with
    | ok record => exact h
    | error error => cases h
  | _ => cases h

/-- A save has found its image when it could read it, and then does nothing to the disk any more. -/
theorem Advance.imaged (h : Advance s dir D now phase store d phase' store' d')
    (hp : phase.Proper dir) {id : DiagramId} (hid : phase'.imaged? = some id) :
    d' = d ∧ (phase.imaged? = some id ∨ phase = .invoke (.inDirectory dir id) .read ∧
      ∃ content, d.contentAt (dir.join id.imageName) = .ok content) := by
  cases h with
  | read _ _ id' content hread =>
    cases hid
    exact ⟨rfl, .inr ⟨rfl, content, hread⟩⟩
  | relocate => exact ⟨rfl, .inl hid⟩
  | unmark _ _ id' result =>
    cases result with
    | ok record' =>
      obtain ⟨-, -, rfl⟩ := hp
      exact ⟨rfl, .inl hid⟩
    | error error => cases hid
  | done => exact ⟨rfl, .inl hid⟩
  | _ => cases hid

theorem source_ne_image (D : Place) (id id' : DiagramId) :
    id.sourceName :: D ≠ id'.imageName :: D := fun h =>
  id.sourceName_ne_imageName id' (List.cons.inj h).1

/-- The source that a save holds stays a file, with the text once that has been written. -/
theorem Advance.settled (h : Advance s dir D now phase store d phase' store' d')
    (hset : Settled s dir D phase d) (hopens : d'.Opens dir D) :
    Settled s dir D phase' d' := by
  obtain ⟨-, hp, hsource⟩ := hset
  refine ⟨hopens, h.proper hp, ?_⟩
  intro id hid
  cases h with
  | claim _ _ tries id' hs hget =>
    cases hid
    exact ⟨[], now, Disk.get?_set_self d (List.cons_ne_nil _ _) _, fun h => absurd trivial h⟩
  | write _ _ id' =>
    cases hid
    exact ⟨_, now, Disk.get?_set_self d (List.cons_ne_nil _ _) _, fun _ => rfl⟩
  | clear _ _ id' x hget hx =>
    cases hid
    obtain ⟨content, time, hfile, htext⟩ := hsource _ rfl
    exact ⟨content, time, (Disk.get?_erase_of_ne d (source_ne_image D _ _)).trans hfile, htext⟩
  | blocked _ _ id' =>
    rw [held?_giveUp] at hid
    obtain ⟨content, time, hfile, -⟩ := hsource id hid
    exact ⟨content, time, hfile, fun h => absurd trivial h⟩
  | unread _ _ id' =>
    rw [held?_giveUp] at hid
    obtain ⟨content, time, hfile, -⟩ := hsource id hid
    exact ⟨content, time, hfile, fun h => absurd trivial h⟩
  | discardSource => rw [held?_discard_replicate] at hid; cases hid
  | discardImage => rw [held?_discard_replicate] at hid; cases hid
  | discardNothing => rw [held?_discard_replicate] at hid; cases hid
  | unmark _ _ id' result =>
    cases result with
    | ok record' =>
      obtain ⟨-, -, rfl⟩ := hp
      exact hsource id hid
    | error error => cases hid
  | clean => exact hsource id hid
  | running => exact hsource id hid
  | read => exact hsource id hid
  | relocate => exact hsource id hid
  | done => exact hsource id hid
  | _ => cases hid

end Keep

/-- A save that was successful has left its text. -/
theorem Settled.saved {record : SavedDiagram} (h : Settled s dir D (.done (.ok record)) d) :
    record = .inDirectory dir record.id ∧ ∃ time,
      d.get? (record.id.sourceName :: D) = some (.file (Utf8.encode s.text) time) ∧
      d.contentAt record.source = .ok (Utf8.encode s.text) := by
  obtain ⟨hopens, ⟨hrecord, hs⟩, hsource⟩ := h
  obtain ⟨content, time, hget, htext⟩ := hsource record.id rfl
  rw [htext nofun] at hget
  refine ⟨hrecord, time, hget, ?_⟩
  rw [hrecord] at hs ⊢
  exact hopens.contentAt_file record.id.sourceName_ordinary hs hget

/-! ## Hearing of the renderer -/

theorem eq_run_of_waiting? {phase : Phase} {source : Path} (h : waiting? phase = some source) :
    ∃ record, phase = .invoke record .run ∧ source = record.source := by
  cases phase with
  | invoke record phase =>
    cases phase with
    | run => exact ⟨record, rfl, (Option.some.inj h).symm⟩
    | _ => cases h
  | _ => cases h

/-- After its renderer a save reads the image or gives up. -/
theorem hear_run (s : Save) (record : SavedDiagram) (outcome : RunOutcome) :
    s.hear (.invoke record .run) outcome = .invoke record .read ∨
      ∃ error, s.hear (.invoke record .run) outcome = giveUp record error := by
  simp only [hear, Invocation.hear]
  rcases (s.invocation record).afterRun_cases outcome with h | ⟨error, h⟩ <;> rw [h]
  · exact .inl rfl
  · exact .inr ⟨error, rfl⟩

theorem held?_hear_run (s : Save) (record : SavedDiagram) (outcome : RunOutcome) :
    (s.hear (.invoke record .run) outcome).held? = some record.id := by
  rcases hear_run s record outcome with h | ⟨error, h⟩ <;> rw [h]
  · rfl
  · exact held?_giveUp record error

theorem worksOn?_hear_run (s : Save) (record : SavedDiagram) (outcome : RunOutcome) :
    (s.hear (.invoke record .run) outcome).worksOn? = some record.id := by
  rcases hear_run s record outcome with h | ⟨error, h⟩ <;> rw [h] <;> rfl

theorem Settled.hear {record : SavedDiagram} (h : Settled s dir D (.invoke record .run) d)
    (outcome : RunOutcome) : Settled s dir D (s.hear (.invoke record .run) outcome) d := by
  obtain ⟨hopens, ⟨hrecord, hs, -⟩, hsource⟩ := h
  refine ⟨hopens, ?_, ?_⟩
  · rcases hear_run s record outcome with h | ⟨error, h⟩ <;> rw [h]
    · exact ⟨hrecord, hs, rfl⟩
    · exact ⟨hrecord, hs, .inl rfl⟩
  · intro id hid
    rw [held?_hear_run] at hid
    obtain ⟨content, time, hget, htext⟩ := hsource id hid
    exact ⟨content, time, hget, fun _ => htext nofun⟩

end Step

end Save

end DiagramService
