import DiagramService.Proofs.Diagram.IdSource
import DiagramService.Proofs.Store.Failure

/-! What a save claims, and what it hands to its renderer. A claimed id is greater than all that
the store has issued before, as long as the clock is in its range, and a save that is successful has
left the disk as its renderer did. -/

namespace DiagramService

/-- The record that a save claims, and the disk that its renderer is run on. -/
def Save.staged? (s : Save) (store : Store) (d : Disk) (clock : Nat → Int) :
    Option (SavedDiagram × Disk) :=
  match claimAtOnce store d clock with
  | (.ok record, _, d) => some (record, ((s.invocation record).prepare d (clock maxClaims)).2)
  | (.error _, _, _) => none

/-- A clock that shows no time after a bound, nor any before the first that an id can spell. -/
def Within (top : Int) (clock : Nat → Int) : Prop :=
  ∀ n, -2 ^ 63 ≤ clock n ∧ clock n ≤ top

theorem Within.mono {top top' : Int} {clock : Nat → Int} (h : Within top clock) (hle : top ≤ top') :
    Within top' clock :=
  fun n => ⟨(h n).1, Int.le_trans (h n).2 hle⟩

section Claimed

variable {d : Disk} {D : Place} {store : Store} {clock : Nat → Int} {record : SavedDiagram}

/-! ## Ids -/

/-- A store that claims an id goes on from its last one. -/
theorem claimWithin_ids {top : Int} (tries : Nat) (d : Disk) (hclock : Within top clock)
    (hlast : store.ids.last.toInt ≤ top) (htop : top + tries < 2 ^ 63) :
    store.ids.last.toInt ≤ (Save.claimWithin tries store d clock).2.1.ids.last.toInt ∧
    (Save.claimWithin tries store d clock).2.1.ids.last.toInt ≤ top + tries ∧
    ∀ record, (Save.claimWithin tries store d clock).1 = .ok record →
      store.ids.last.toInt < record.id.value.toInt ∧
      record.id.value.toInt ≤ (Save.claimWithin tries store d clock).2.1.ids.last.toInt := by
  induction tries generalizing d store clock top with
  | zero =>
    refine ⟨Int.le_refl _, by simpa [Save.claimWithin] using hlast, fun record hrecord => ?_⟩
    cases hrecord
  | succ tries ih =>
    obtain ⟨hlow, hhigh⟩ := hclock 0
    have hid : (store.issue (clock 0)).1.value.toInt = max (clock 0) (store.ids.last.toInt + 1) :=
      store.ids.candidate_clockId hlow (by omega) (by omega)
    generalize hissued : (store.issue (clock 0)).1 = id at hid
    have hmarked : ((store.issue (clock 0)).2.mark id).ids.last = id.value := by
      rw [Store.mark_ids, ← hissued]
      rfl
    have hunmarked : (((store.issue (clock 0)).2.mark id).unmark id).ids.last = id.value := hmarked
    simp only [Save.claimWithin, hissued, Store.record, SavedDiagram.inDirectory]
    rcases d.createNew (store.dir.join id.sourceName) (clock 0) with ⟨error | _, d₁⟩
    · simp only
      split
      · -- the id is taken, and the next one is greater
        have hclock' : Within (top + 1) fun n => clock (n + 1) := fun n =>
          ⟨(hclock (n + 1)).1, Int.le_trans (hclock (n + 1)).2 (by omega)⟩
        obtain ⟨hgrow, hbound, hrecord⟩ :=
          ih d₁ hclock' (by rw [hunmarked, hid]; omega) (by omega)
        rw [hunmarked, hid] at hgrow hrecord
        refine ⟨by omega, by omega, fun record h => ?_⟩
        obtain ⟨hlt, hle⟩ := hrecord record h
        exact ⟨by omega, hle⟩
      · simp only [hunmarked, hid]
        refine ⟨by omega, by omega, fun record hrecord => ?_⟩
        cases hrecord
    · simp only [hmarked, hid]
      refine ⟨by omega, by omega, fun record hrecord => ?_⟩
      cases hrecord
      simp only [hid]
      omega

theorem claimAtOnce_ids {top : Int} (hclock : Within top clock) (hlast : store.ids.last.toInt ≤ top)
    (htop : top + maxClaims < 2 ^ 63) :
    store.ids.last.toInt ≤ (Save.claimAtOnce store d clock).2.1.ids.last.toInt ∧
    (Save.claimAtOnce store d clock).2.1.ids.last.toInt ≤ top + maxClaims ∧
    ∀ record, (Save.claimAtOnce store d clock).1 = .ok record →
      store.ids.last.toInt < record.id.value.toInt ∧
      record.id.value.toInt ≤ (Save.claimAtOnce store d clock).2.1.ids.last.toInt := by
  unfold Save.claimAtOnce
  rcases d.makeDirs store.dir with ⟨error | _, d₁⟩
  · exact ⟨Int.le_refl _, by simp only; omega, nofun⟩
  · exact claimWithin_ids maxClaims d₁ hclock hlast htop

/-- So does one that saves a diagram, whatever comes of it. -/
theorem perform_ids {top : Int} (hclock : Within top clock) (hlast : store.ids.last.toInt ≤ top)
    (htop : top + maxClaims < 2 ^ 63) (s : Save) (renderer : Renderer) :
    store.ids.last.toInt ≤ (s.perform renderer store d clock).2.1.ids.last.toInt ∧
    (s.perform renderer store d clock).2.1.ids.last.toInt ≤ top + maxClaims ∧
    ∀ record, Save.claimed? store d clock = some record →
      store.ids.last.toInt < record.id.value.toInt ∧
      record.id.value.toInt ≤ (s.perform renderer store d clock).2.1.ids.last.toInt := by
  have hids := claimAtOnce_ids (d := d) hclock hlast htop
  rw [Save.perform_eq, Save.claimed?_eq]
  generalize Save.claimAtOnce store d clock = claimed at hids ⊢
  obtain ⟨hgrows, hbounded, hrecord⟩ := hids
  obtain ⟨error | record, store₁, d₁⟩ := claimed
  · exact ⟨hgrows, hbounded, nofun⟩
  · have hrecord' : ∀ record', (Except.ok (ε := IoError) record).toOption = some record' →
        store.ids.last.toInt < record'.id.value.toInt ∧
        record'.id.value.toInt ≤ store₁.ids.last.toInt := by
      rintro _ ⟨⟩
      exact hrecord record rfl
    simp only
    split <;> exact ⟨hgrows, hbounded, hrecord'⟩

/-! ## The store and the claimed record -/

/-- A save keeps its store at its directory, and no id is pending that was not. -/
theorem perform_store (hopens : d.Opens store.dir D) (s : Save) (renderer : Renderer)
    (clock : Nat → Int) :
    (s.perform renderer store d clock).2.1.dir = store.dir ∧
    ∀ id, (s.perform renderer store d clock).2.1.isPending id → store.isPending id := by
  have hclaiming := claimAtOnce_claiming hopens clock
  rw [Save.perform_eq]
  generalize Save.claimAtOnce store d clock = claimed at hclaiming ⊢
  obtain ⟨result, store₁, d₁⟩ := claimed
  cases hclaiming with
  | failed error _ hdir hpending => exact ⟨hdir, hpending⟩
  | claimed id _ _ now hdir hpending hs hget hset =>
    have hgone : ∀ id', (store₁.unmark id).isPending id' → store.isPending id' := by
      intro id' h
      obtain ⟨hne, h⟩ := Store.isPending_unmark_iff.mp h
      exact (hpending id' h).resolve_left hne
    simp only
    split <;> exact ⟨hdir, hgone⟩

/-- The source of a claimed record can be looked up, and was not there. -/
theorem claimed?_vacant (hopens : d.Opens store.dir D)
    (h : Save.claimed? store d clock = some record) :
    record = .inDirectory store.dir record.id ∧
      Disk.Spelled (store.dir.join record.id.sourceName) ∧
      d.get? (record.id.sourceName :: D) = none := by
  have hclaiming := claimAtOnce_claiming hopens clock
  rw [Save.claimed?_eq] at h
  generalize Save.claimAtOnce store d clock = claimed at hclaiming h
  obtain ⟨result, store₁, d₁⟩ := claimed
  cases hclaiming with
  | failed error _ hdir hpending => cases h
  | claimed id _ _ now hdir hpending hs hget hset =>
    cases h
    exact ⟨rfl, hs, hget⟩

theorem claimed?_of_staged? {s : Save} {staged : Disk}
    (h : s.staged? store d clock = some (record, staged)) :
    Save.claimed? store d clock = some record := by
  unfold Save.staged? at h
  rw [Save.claimed?_eq]
  rcases hclaim : Save.claimAtOnce store d clock with ⟨error | record', store₁, d₁⟩
  · rw [hclaim] at h
    cases h
  · rw [hclaim] at h
    cases h
    rfl

/-! ## What the renderer leaves -/

/-- An invocation that returns an image has left the disk as its renderer did. -/
theorem Invocation.perform_ok {i : Invocation} {renderer : Renderer} {now : Int} {image : Bytes}
    (h : (i.perform renderer d now).1 = .ok image) :
    (i.perform renderer d now).2 = (renderer i.files.source (i.prepare d now).2).2 ∧
      (i.perform renderer d now).2.contentAt i.files.image = .ok image := by
  obtain ⟨e, hprepare⟩ | ⟨cause, hblocked⟩ := i.prepare_cases d now
  · obtain ⟨hdisk, ⟨-, hread⟩ | ⟨error, -, herror⟩⟩ := perform_of_prepare hprepare renderer
    · rw [h] at hread
      rw [hprepare]
      exact ⟨hdisk, hdisk ▸ contentAt_of_read hread.symm⟩
    · rw [h] at herror
      cases herror
  · obtain ⟨e, hprepare⟩ := prepare_of_blocked hblocked
    simp [perform, hprepare, run] at h

/-- A save that is successful has left the disk as its renderer did, with the image of its
record. -/
theorem Save.perform_ok (s : Save) (renderer : Renderer)
    (h : (s.perform renderer store d clock).1 = .ok record) (hdir : ∀ record,
      Save.claimed? store d clock = some record → record = .inDirectory store.dir record.id) :
    ∃ staged image, s.staged? store d clock = some (record, staged) ∧
      (s.perform renderer store d clock).2.2 = (renderer record.source staged).2 ∧
      (renderer record.source staged).2.contentAt record.image = .ok image := by
  rw [perform_eq] at h ⊢
  rw [claimed?_eq] at hdir
  unfold staged?
  generalize claimAtOnce store d clock = claimed at h hdir ⊢
  obtain ⟨error | record', store₁, d₁⟩ := claimed
  · cases h
  · have hrecord := hdir record' rfl
    generalize record'.id = id at hrecord
    subst hrecord
    simp only [render_eq] at h ⊢
    cases hresult : ((s.invocation (.inDirectory store.dir id)).perform renderer d₁
        (clock maxClaims)).1 with
    | error error =>
      rw [hresult] at h
      cases h
    | ok image =>
      obtain ⟨hdisk, hcontent⟩ := Invocation.perform_ok hresult
      rw [hresult] at h
      cases h
      rw [hdisk, Save.invocation_image] at hcontent
      exact ⟨_, image, rfl, hdisk, hcontent⟩

end Claimed

end DiagramService
