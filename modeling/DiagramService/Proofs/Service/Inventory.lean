import DiagramService.Proofs.Disk.Paved
import DiagramService.Proofs.Http.Answer
import DiagramService.Proofs.Render.Traceless
import DiagramService.Proofs.Store.Claimed
import DiagramService.Service.Basic

/-! What the save directory of a service holds that answers one request after another. Besides the
directories on the way to its work directory there are the files of the saves that were successful,
and no others: a save adds its two files or none, a rendering adds none, and no other request
changes anything. -/

namespace DiagramService

/-- What was kept of a successful save. -/
structure Deposit where
  id : DiagramId
  text : Bytes
  image : Bytes

/-- The files of a deposit are in a directory, and can be looked up. -/
structure Deposit.On (k : Deposit) (dir : Path) (D : Place) (d : Disk) : Prop where
  spelled : Disk.Spelled (dir.join k.id.sourceName)
  source : ∃ time, d.get? (k.id.sourceName :: D) = some (.file k.text time)
  image : ∃ time, d.get? (k.id.imageName :: D) = some (.file k.image time)

/-- A name belongs to a file of a deposit. -/
def Deposit.Has (k : Deposit) (name : FileName) : Prop :=
  name = k.id.sourceName ∨ name = k.id.imageName

/-- A service whose save directory holds deposits and nothing else but directories that the path of
the work directory names. -/
structure Service.Keeps (config : Config) (D : Place) (kept : List Deposit) (s : Service) :
    Prop where
  settings : s.config = config
  dir : s.store.dir = config.saveDir
  opens : s.disk.Opens config.saveDir D
  wellFormed : s.disk.WellFormed
  idle : ∀ id, s.store.isPending id = false
  files : ∀ k ∈ kept, k.On config.saveDir D s.disk
  only : ∀ name, s.disk.get? (name :: D) ≠ none → (∃ k ∈ kept, k.Has name) ∨
    s.disk.get? (name :: D) = some .directory ∧ name ∈ Disk.wayOf config.workDir

/-- The service after a sequence of requests. -/
def Service.after (s : Service) (calls : List (Setting × Http.Request)) : Service :=
  calls.foldl (fun s call => (s.handle call.1 call.2).2) s

/-- A setting whose renderer touches nothing but its image, and where names are drawn for scratch
directories. -/
structure Setting.Tidy (e : Setting) : Prop where
  renderer : e.renderer.Tidy
  endings : ∀ ending ∈ e.endings, Scratch.Drawn ending

theorem Deposit.On.grows {k : Deposit} {dir : Path} {D : Place} {d e : Disk} (h : k.On dir D d)
    (hkeep : ∀ q content time, d.get? q = some (.file content time) →
      e.get? q = some (.file content time)) : k.On dir D e := by
  obtain ⟨hs, ⟨time, hsource⟩, time', himage⟩ := h
  exact ⟨hs, ⟨time, hkeep _ _ _ hsource⟩, time', hkeep _ _ _ himage⟩

/-- A tidy renderer stays inside of its directory. -/
theorem Renderer.Tidy.staysInside {renderer : Renderer} (h : renderer.Tidy) :
    renderer.StaysInside := by
  intro dir d S text time hopens _ _ _
  have halters := h (dir.join scratchSource) d
  rw [renderedImagePath_scratch] at halters
  refine halters.off.mono fun q hq => ?_
  rw [hopens.at_join scratchImage_ordinary hq]
  exact ⟨S, hopens, List.suffix_cons _ _, by simp⟩

namespace Service

section Keeps

variable {config : Config} {D : Place} {kept : List Deposit} {s : Service} {e : Setting}

/-- Nothing is known of a claimed id, so at most a directory is in the place of its image. -/
theorem Keeps.claimed (h : Keeps config D kept s) {id : DiagramId}
    (hget : s.disk.get? (id.sourceName :: D) = none) :
    (∀ k ∈ kept, k.id ≠ id) ∧ (s.disk.get? (id.imageName :: D) = none ∨
      s.disk.get? (id.imageName :: D) = some .directory) := by
  have hnew : ∀ k ∈ kept, k.id ≠ id := by
    rintro k hk rfl
    obtain ⟨time, hsource⟩ := (h.files k hk).source
    rw [hget] at hsource
    cases hsource
  refine ⟨hnew, ?_⟩
  by_cases himage : s.disk.get? (id.imageName :: D) = none
  · exact .inl himage
  · rcases h.only _ himage with ⟨k, hk, hname | hname⟩ | ⟨hdir, -⟩
    · exact absurd hname.symm (DiagramId.sourceName_ne_imageName _ _)
    · exact absurd (DiagramId.imageName_injective hname).symm (hnew k hk)
    · exact .inr hdir

/-- A service keeps what it has while its disk holds the same. -/
theorem Keeps.same (h : Keeps config D kept s) {t : Service} (hsettings : t.config = s.config)
    (hdir : t.store.dir = s.store.dir) (hidle : ∀ id, t.store.isPending id → s.store.isPending id)
    (hsame : s.disk.Same t.disk) : Keeps config D kept t where
  settings := hsettings.trans h.settings
  dir := hdir.trans h.dir
  opens := h.opens.same hsame
  wellFormed := h.wellFormed.same hsame
  idle id := Bool.eq_false_iff.mpr fun hpending =>
    Bool.eq_false_iff.mp (h.idle id) (hidle id hpending)
  files k hk := (h.files k hk).grows fun q _ _ hq => (hsame.2 q).symm.trans hq
  only name hname := by
    rw [← hsame.2] at hname ⊢
    exact h.only name hname

/-- A rendering adds no more than directories on the way to the work directory. -/
theorem Keeps.render (h : Keeps config D kept s) (htidy : e.Tidy) (text : String) :
    Keeps config D kept (s.render e text).2 := by
  have hgrow := Disk.makeDirs_grows s.disk s.config.workDir
  have hnamed := Disk.makeDirs_namedBy s.disk s.config.workDir
  -- what was made is there before the renderer runs, and nothing else is there after it
  have hmade : Keeps config D kept { s with disk := (s.disk.makeDirs s.config.workDir).2 } := by
    refine ⟨h.settings, h.dir, h.opens.mono hgrow.working fun _ _ => hgrow.get_of_some,
      h.wellFormed.makeDirs _, h.idle,
      fun k hk => (h.files k hk).grows fun _ _ _ => hgrow.get_of_some, fun name hname => ?_⟩
    rcases hgrow.get (name :: D) with hold | ⟨hnone, hdir⟩
    · simp only [hold] at hname ⊢
      exact h.only name hname
    · refine .inr ⟨hdir, ?_⟩
      rw [← h.settings]
      refine (hnamed name D).resolve_left fun hold => ?_
      rw [hdir, hnone] at hold
      cases hold
  exact hmade.same rfl rfl (fun _ hpending => hpending)
    (Rendering.perform_same ⟨s.config.renderer, s.config.workDir, text⟩ h.wellFormed htidy.endings
      htidy.renderer.staysInside (e.clock 0))

/-- A record that has been made is one more deposit. -/
theorem Keeps.recorded (h : Keeps config D kept s) (t : Service) (k : Deposit)
    (hsettings : t.config = s.config) (hdir : t.store.dir = s.store.dir)
    (hidle : ∀ id, t.store.isPending id → s.store.isPending id)
    (hs : Disk.Spelled (config.saveDir.join k.id.sourceName))
    (hrecorded : Recorded s.disk D k.id k.text t.disk)
    (himage : ∃ time, t.disk.get? (k.id.imageName :: D) = some (.file k.image time)) :
    Keeps config D (k :: kept) t := by
  have hv := hrecorded.vacant
  have hnone : ∀ q, PlaceOf D k.id q → s.disk.get? q = none := by
    rintro q (rfl | rfl)
    · exact hv.source
    · exact hv.image
  have hkeep : ∀ q x, s.disk.get? q = some x → t.disk.get? q = some x := by
    intro q x hq
    rw [hrecorded.off.get q, hq]
    intro hplace
    rw [hnone q hplace] at hq
    cases hq
  refine ⟨hsettings.trans h.settings, hdir.trans h.dir, hv.opens h.opens hrecorded.off,
    h.wellFormed.agreesOff (h.opens.get h.wellFormed) hrecorded.off
      fun q hq => ⟨hnone q hq, ?_⟩, fun id => ?_, fun k' hk' => ?_, fun name hname => ?_⟩
  · rcases hq with rfl | rfl <;> exact ⟨_, rfl⟩
  · exact Bool.eq_false_iff.mpr fun hpending =>
      Bool.eq_false_iff.mp (h.idle id) (hidle id hpending)
  · rcases List.mem_cons.mp hk' with rfl | hk'
    · exact ⟨hs, hrecorded.source, himage⟩
    · exact (h.files k' hk').grows fun q _ _ => hkeep q _
  · by_cases hplace : PlaceOf D k.id (name :: D)
    · refine .inl ⟨k, List.mem_cons_self, ?_⟩
      exact hplace.imp (fun heq => (List.cons.inj heq).1) fun heq => (List.cons.inj heq).1
    · rw [hrecorded.off.get _ hplace] at hname ⊢
      exact (h.only name hname).imp_left fun ⟨k', hk', hhas⟩ =>
        ⟨k', List.mem_cons_of_mem k hk', hhas⟩

/-- A save adds its files or nothing. What it adds is the text that was to be saved and the image
that the renderer has left. -/
theorem Keeps.save (h : Keeps config D kept s) (htidy : e.Tidy) (text : String) :
    (∃ error, (s.save e text).1 = .error error ∧ Keeps config D kept (s.save e text).2) ∨
    ∃ id staged image, (s.save e text).1 = .ok (.inDirectory config.saveDir id) ∧
      Save.staged? ⟨s.config.renderer, text⟩ s.store s.disk e.clock =
        some (.inDirectory config.saveDir id, staged) ∧
      (e.renderer (config.saveDir.join id.sourceName) staged).2.contentAt
        (config.saveDir.join id.imageName) = .ok image ∧
      Keeps config D (⟨id, Utf8.encode text, image⟩ :: kept) (s.save e text).2 := by
  have hopens : s.disk.Opens s.store.dir D := h.dir ▸ h.opens
  have hclaimed : ∀ record, Save.claimed? s.store s.disk e.clock = some record →
      record = .inDirectory s.store.dir record.id ∧
        Disk.Spelled (s.store.dir.join record.id.sourceName) ∧
        s.disk.get? (record.id.sourceName :: D) = none := fun _ => claimed?_vacant hopens
  have hsaving := perform_saving_or_blocked htidy.renderer ⟨s.config.renderer, text⟩ hopens
    fun record hrecord => (h.claimed (hclaimed record hrecord).2.2).2
  obtain ⟨hdir, hidle⟩ := perform_store hopens ⟨s.config.renderer, text⟩ e.renderer e.clock
  simp only [Service.save]
  generalize hperformed : Save.perform ⟨s.config.renderer, text⟩ e.renderer s.store s.disk e.clock =
    performed at hsaving hdir hidle ⊢
  obtain ⟨result, store', d'⟩ := performed
  cases hsaving with
  | failed error _ _ hsame => exact .inl ⟨error, rfl, h.same rfl hdir hidle hsame⟩
  | saved record _ _ hrecord hrecorded =>
    obtain ⟨heq, hs, -⟩ := hclaimed record hrecord
    obtain ⟨staged, image, hstaged, hdisk, hcontent⟩ :=
      Save.perform_ok ⟨s.config.renderer, text⟩ e.renderer (congrArg Prod.fst hperformed)
        fun record hrecord => (hclaimed record hrecord).1
    obtain ⟨id, rfl⟩ : ∃ id, record = .inDirectory config.saveDir id := ⟨record.id, h.dir ▸ heq⟩
    rw [h.dir] at hs
    -- what was read at the end is what the renderer has left
    obtain rfl : d' = (e.renderer (config.saveDir.join id.sourceName) staged).2 := by
      rw [hperformed] at hdisk
      exact hdisk
    obtain ⟨content, time, himage⟩ := hrecorded.image
    have hread := (hrecorded.vacant.opens h.opens hrecorded.off).contentAt_file
      id.imageName_ordinary (DiagramId.spelled_imageName hs) himage
    obtain rfl : content = image := Except.ok.inj (hread.symm.trans hcontent)
    refine .inr ⟨id, staged, content, rfl, hstaged, hcontent, ?_⟩
    exact h.recorded ⟨s.config, store', _⟩ ⟨id, _, content⟩ rfl hdir hidle hs hrecorded
      ⟨time, himage⟩

/-! ## Ids -/

/-- The last id that the store has issued. -/
def lastId (s : Service) : Int :=
  s.store.ids.last.toInt

/-- New deposits have ids after the last one, and the last id has gone up to a bound at most. -/
structure Issues (s t : Service) (new : List Deposit) (bound : Int) : Prop where
  grows : s.lastId ≤ t.lastId
  bounded : t.lastId ≤ bound
  later : ∀ k ∈ new, s.lastId < k.id.value.toInt

/-- A save issues ids after the last one. -/
theorem save_issues {top : Int} (hclock : Within top e.clock) (hlast : s.lastId ≤ top)
    (htop : top + maxClaims < 2 ^ 63) (text : String) {new : List Deposit}
    (hnew : ∀ k ∈ new, ∃ record, Save.claimed? s.store s.disk e.clock = some record ∧
      k.id = record.id) : Issues s (s.save e text).2 new (top + maxClaims) := by
  obtain ⟨hgrows, hbounded, hlater⟩ :=
    perform_ids (d := s.disk) hclock hlast htop ⟨s.config.renderer, text⟩ e.renderer
  refine ⟨hgrows, hbounded, fun k hk => ?_⟩
  obtain ⟨record, hrecord, hid⟩ := hnew k hk
  rw [hid]
  exact (hlater record hrecord).1

/-! ## Requests -/

/-- A request adds at most one deposit. -/
theorem Keeps.handle (h : Keeps config D kept s) (htidy : e.Tidy) (request : Http.Request) :
    ∃ new, Keeps config D (new ++ kept) (s.handle e request).2 ∧
      ∀ top, Within top e.clock → s.lastId ≤ top → top + maxClaims < 2 ^ 63 →
        Issues s (s.handle e request).2 new (top + maxClaims) := by
  have hkept : ∀ {t : Service}, Keeps config D kept t → t.store = s.store →
      ∃ new, Keeps config D (new ++ kept) t ∧ ∀ top, Within top e.clock → s.lastId ≤ top →
        top + maxClaims < 2 ^ 63 → Issues s t new (top + maxClaims) := by
    intro t ht hstore
    have hlast : t.lastId = s.lastId := by rw [lastId, hstore, lastId]
    exact ⟨[], ht, fun top _ hle _ => ⟨by omega, by omega, nofun⟩⟩
  unfold Service.handle
  cases Http.Action.ofRequest request with
  | reply response => exact hkept h rfl
  | render text => exact hkept (h.render htidy text) rfl
  | save text =>
    obtain ⟨error, -, hsame⟩ | ⟨id, staged, image, -, hstaged, -, hmore⟩ := h.save htidy text
    · exact ⟨[], hsame, fun top hclock hle htop => save_issues hclock hle htop text nofun⟩
    · refine ⟨[⟨id, Utf8.encode text, image⟩], hmore, fun top hclock hle htop => ?_⟩
      refine save_issues hclock hle htop text fun k hk => ?_
      rw [List.mem_singleton.mp hk]
      exact ⟨_, claimed?_of_staged? hstaged, rfl⟩
  | list => exact hkept h rfl
  | file path => exact hkept h rfl

/-- So does every further request. Nothing that was kept is ever lost. -/
theorem Keeps.after (h : Keeps config D kept s) {calls : List (Setting × Http.Request)}
    (htidy : ∀ call ∈ calls, call.1.Tidy) :
    ∃ new, Keeps config D (new ++ kept) (s.after calls) ∧
      ∀ top, (∀ call ∈ calls, Within top call.1.clock) → s.lastId ≤ top →
        top + maxClaims * calls.length < 2 ^ 63 →
        Issues s (s.after calls) new (top + maxClaims * calls.length) := by
  induction calls generalizing s kept with
  | nil =>
    exact ⟨[], h, fun top _ hle _ => ⟨Int.le_refl _, by simpa [after] using hle, nofun⟩⟩
  | cons call calls ih =>
    obtain ⟨new₁, h₁, hissues₁⟩ := h.handle (htidy call List.mem_cons_self) call.2
    obtain ⟨new₂, h₂, hissues₂⟩ := ih h₁ fun call hmem => htidy call (List.mem_cons_of_mem _ hmem)
    refine ⟨new₂ ++ new₁, by rwa [List.append_assoc], fun top hclock hle htop => ?_⟩
    have hlength : (maxClaims : Int) * (call :: calls).length =
        maxClaims + maxClaims * calls.length := by
      rw [List.length_cons, Nat.add_comm, Int.natCast_add, Int.mul_add, Int.natCast_one,
        Int.mul_one]
    rw [hlength] at htop ⊢
    have hnonneg : 0 ≤ (maxClaims : Int) * calls.length := Int.mul_nonneg (by omega) (by omega)
    obtain ⟨hgrows₁, hbounded₁, hlater₁⟩ :=
      hissues₁ top (hclock call List.mem_cons_self) hle (by omega)
    obtain ⟨hgrows₂, hbounded₂, hlater₂⟩ := hissues₂ (top + maxClaims)
      (fun call hmem => (hclock call (List.mem_cons_of_mem _ hmem)).mono (by omega)) hbounded₁
      (by omega)
    refine ⟨Int.le_trans hgrows₁ hgrows₂, Int.le_trans hbounded₂ (by omega), fun k hk => ?_⟩
    rcases List.mem_append.mp hk with hk | hk
    · exact Int.lt_of_le_of_lt hgrows₁ (hlater₂ k hk)
    · exact hlater₁ k hk

end Keeps

end Service

end DiagramService
