import DiagramService.Proofs.Store.Save

/-! A save that fails leaves nothing. Until its end a save has changed the two files of its record
at most, and neither of them was there before; so to remove them is to go back to where it began. -/

namespace DiagramService

open Disk

/-- A renderer changes nothing but the image path of its source, and leaves a file there or nothing.
-/
def Renderer.Tidy (renderer : Renderer) : Prop :=
  ∀ source d, Alters (renderedImagePath source) d (renderer source d).2

/-! ## The two files of a record -/

/-- Neither file of a record is there. -/
structure Vacant (d : Disk) (D : Place) (id : DiagramId) : Prop where
  source : d.get? (id.sourceName :: D) = none
  image : d.get? (id.imageName :: D) = none

/-- A disk with the source of a record, and maybe its image, besides what was there before. -/
structure Draft (d : Disk) (D : Place) (id : DiagramId) (e : Disk) : Prop where
  off : AgreesOff (PlaceOf D id) d e
  source : ∃ content time, e.get? (id.sourceName :: D) = some (.file content time)
  image : e.get? (id.imageName :: D) = none ∨
    ∃ content time, e.get? (id.imageName :: D) = some (.file content time)

section Draft

variable {d e : Disk} {dir : Path} {D : Place} {id : DiagramId}

/-- The directory is there whatever becomes of a record that was not. -/
theorem Vacant.opens (hv : Vacant d D id) (hopens : d.Opens dir D)
    (hoff : AgreesOff (PlaceOf D id) d e) : e.Opens dir D := by
  refine hopens.mono hoff.working fun q x hq => ?_
  rw [hoff.get q ?_, hq]
  rintro (rfl | rfl)
  · rw [hv.source] at hq
    cases hq
  · rw [hv.image] at hq
    cases hq

/-- Without the two files everything is as it was. -/
theorem Vacant.same (hv : Vacant d D id) (hoff : AgreesOff (PlaceOf D id) d e)
    (hsource : e.get? (id.sourceName :: D) = none) (himage : e.get? (id.imageName :: D) = none) :
    Same d e := by
  refine ⟨hoff.working.symm, fun q => ?_⟩
  by_cases hq : PlaceOf D id q
  · rcases hq with rfl | rfl
    · rw [hv.source, hsource]
    · rw [hv.image, himage]
  · exact (hoff.get q hq).symm

/-- A file is gone once it has been removed. -/
theorem Disk.Opens.removeFile_gone {p : Path} {name : FileName} (h : d.Opens p D)
    (hn : Ordinary name)
    (hs : Spelled (p.join name)) (hfile : d.get? (name :: D) = none ∨
      ∃ content time, d.get? (name :: D) = some (.file content time)) :
    (d.removeFile (p.join name)).2.get? (name :: D) = none ∧
      AgreesOff (· = name :: D) d (d.removeFile (p.join name)).2 := by
  rw [h.removeFile hn hs]
  rcases hfile with hget | ⟨content, time, hget⟩ <;> rw [hget]
  · exact ⟨hget, .refl _ d⟩
  · exact ⟨get?_erase_self d (List.cons_ne_nil _ _), agreesOff_erase d rfl⟩

/-- The image is gone once it has been removed, and everything else is as it was. -/
theorem Vacant.removeImage (hv : Vacant d D id) (hopens : d.Opens dir D)
    (hs : Spelled (dir.join id.sourceName)) (hoff : AgreesOff (PlaceOf D id) d e)
    (hsource : e.get? (id.sourceName :: D) = none) (himage : e.get? (id.imageName :: D) = none ∨
      ∃ content time, e.get? (id.imageName :: D) = some (.file content time)) :
    AgreesOff (PlaceOf D id) d (e.removeFile (dir.join id.imageName)).2 ∧
      (e.removeFile (dir.join id.imageName)).2.get? (id.sourceName :: D) = none ∧
      (e.removeFile (dir.join id.imageName)).2.get? (id.imageName :: D) = none := by
  obtain ⟨hgone, hoff'⟩ := (hv.opens hopens hoff).removeFile_gone id.imageName_ordinary
    (DiagramId.spelled_imageName hs) himage
  refine ⟨hoff.trans (hoff'.mono fun q hq => .inr hq), ?_, hgone⟩
  rw [hoff'.get _ (Save.source_ne_image D id id), hsource]

/-- To remove what is left of a record is to go back to the beginning. -/
theorem Draft.discard (h : Draft d D id e) (hv : Vacant d D id) (hopens : d.Opens dir D)
    (hs : Spelled (dir.join id.sourceName)) :
    Same d (Save.removeAll e (Save.leftovers (.inDirectory dir id))) := by
  obtain ⟨content, time, hsource⟩ := h.source
  obtain ⟨hgone₁, hoff₁⟩ := (hv.opens hopens h.off).removeFile_gone id.sourceName_ordinary hs
    (.inr ⟨content, time, hsource⟩)
  have hd₁ := h.off.trans (hoff₁.mono fun q hq => .inl hq)
  have himage₁ := hoff₁.get _ fun heq => Save.source_ne_image D id id heq.symm
  obtain ⟨hd₂, hgone₂, himage₂⟩ := hv.removeImage hopens hs hd₁ hgone₁ (by
    rw [himage₁]
    exact h.image)
  obtain ⟨hd₃, hgone₃, himage₃⟩ := hv.removeImage hopens hs hd₂ hgone₂ (.inl himage₂)
  rw [Save.leftovers_inDirectory]
  exact hv.same hd₃ hgone₃ himage₃

end Draft

/-! ## Claiming an id -/

/-- What it comes to when a store claims an id. -/
inductive Claiming (store : Store) (D : Place) (d : Disk) :
    Except IoError SavedDiagram → Store → Disk → Prop
  | failed (e store') (hdir : store'.dir = store.dir)
      (hpending : ∀ id, store'.isPending id → store.isPending id) :
    Claiming store D d (.error e) store' d
  | claimed (id store' d' now) (hdir : store'.dir = store.dir)
      (hpending : ∀ id', store'.isPending id' → id' = id ∨ store.isPending id')
      (hs : Spelled (store.dir.join id.sourceName)) (hget : d.get? (id.sourceName :: D) = none)
      (hset : d' = d.set (id.sourceName :: D) (.file [] now)) :
    Claiming store D d (.ok (.inDirectory store.dir id)) store' d'

section Claim

variable {d : Disk} {D : Place} {store : Store} {id : DiagramId}

/-- The pending ids of a store after it has given up one that it has drawn. -/
theorem isPending_given_up {now : Int} {id' : DiagramId}
    (h : (((store.issue now).2.mark id).unmark id).isPending id') : store.isPending id' := by
  obtain ⟨hne, h⟩ := Store.isPending_unmark_iff.mp h
  exact (Store.isPending_mark_iff.mp h).resolve_left hne

theorem Claiming.after {store₁ store' : Store} {d' : Disk} {result : Except IoError SavedDiagram}
    (h : Claiming store₁ D d result store' d') (hdir : store₁.dir = store.dir)
    (hpending : ∀ id, store₁.isPending id → store.isPending id) :
    Claiming store D d result store' d' := by
  cases h with
  | failed e _ hdir' hpending' =>
    exact .failed e _ (hdir'.trans hdir) fun id h => hpending id (hpending' id h)
  | claimed id _ _ now hdir' hpending' hs hget hset =>
    rw [hdir] at hs ⊢
    exact .claimed id _ _ now (hdir'.trans hdir)
      (fun id' h => (hpending' id' h).imp_right (hpending id')) hs hget hset

/-- A store claims an id whose source was not there, or changes nothing on the disk. -/
theorem claimWithin_claiming (hopens : d.Opens store.dir D) (tries : Nat) (clock : Nat → Int) :
    Claiming store D d (Save.claimWithin tries store d clock).1
      (Save.claimWithin tries store d clock).2.1 (Save.claimWithin tries store d clock).2.2 := by
  induction tries generalizing store clock with
  | zero => exact .failed _ store rfl fun _ h => h
  | succ tries ih =>
    have hname := (store.issue (clock 0)).1.sourceName_ordinary
    have hdir : ((store.issue (clock 0)).2.mark (store.issue (clock 0)).1).dir = store.dir :=
      Store.mark_dir
    simp only [Save.claimWithin, Store.record, SavedDiagram.inDirectory]
    by_cases hs : Spelled (store.dir.join (store.issue (clock 0)).1.sourceName)
    · rw [hopens.createNew hname hs]
      by_cases hget : d.get? ((store.issue (clock 0)).1.sourceName :: D) = none
      · rw [if_pos hget]
        exact .claimed _ _ _ _ hdir (fun _ => Store.isPending_mark_iff.mp) hs hget rfl
      · rw [if_neg hget]
        -- the id is taken, and the next one is tried
        have hopens' : d.Opens (((store.issue (clock 0)).2.mark (store.issue (clock 0)).1).unmark
            (store.issue (clock 0)).1).dir D := hdir.symm ▸ hopens
        exact (ih hopens' _).after hdir fun _ => isPending_given_up
    · obtain ⟨x, hx, hfail⟩ := createNew_of_not_spelled store.dir hname hs
      rw [hfail d]
      simp only [Disk.fail, hx]
      exact .failed x _ hdir fun _ => isPending_given_up

end Claim

/-! ## Rendering the record -/

/-- A record that was not there before, with this text in its source and with an image. -/
structure Recorded (d : Disk) (D : Place) (id : DiagramId) (text : Bytes) (e : Disk) : Prop where
  vacant : Vacant d D id
  off : AgreesOff (PlaceOf D id) d e
  source : ∃ time, e.get? (id.sourceName :: D) = some (.file text time)
  image : ∃ content time, e.get? (id.imageName :: D) = some (.file content time)

section Render

variable {d e : Disk} {dir : Path} {D : Place} {id : DiagramId}

theorem Draft.claimed (hv : Vacant d D id) (now : Int) :
    Draft d D id (d.set (id.sourceName :: D) (.file [] now)) := by
  refine ⟨agreesOff_set d (.inl rfl) _, ⟨[], now, get?_set_self d (List.cons_ne_nil _ _) _⟩,
    .inl ?_⟩
  rw [get?_set_of_ne d (fun heq => Save.source_ne_image D id id heq.symm), hv.image]

theorem Draft.write (h : Draft d D id e) (text : Bytes) (now : Int) :
    Draft d D id (e.set (id.sourceName :: D) (.file text now)) := by
  refine ⟨h.off.trans (agreesOff_set e (.inl rfl) _),
    ⟨text, now, get?_set_self e (List.cons_ne_nil _ _) _⟩, ?_⟩
  rw [get?_set_of_ne e fun heq => Save.source_ne_image D id id heq.symm]
  exact h.image

/-- A tidy renderer changes nothing but the image of the record. -/
theorem Draft.alters {e' : Disk} (h : Draft d D id e) (hopens : e.Opens dir D)
    (halters : Alters (dir.join id.imageName) e e') :
    Draft d D id e' ∧ e'.get? (id.sourceName :: D) = e.get? (id.sourceName :: D) := by
  have hoff : AgreesOff (· = id.imageName :: D) e e' :=
    halters.off.mono fun q hq => hopens.at_join id.imageName_ordinary hq
  have hsource := hoff.get _ (Save.source_ne_image D id id)
  refine ⟨⟨h.off.trans (hoff.mono fun q hq => .inr hq), ?_, ?_⟩, hsource⟩
  · rw [hsource]
    exact h.source
  · by_cases hat : e.At (dir.join id.imageName) (id.imageName :: D)
    · rcases halters.left _ hat with heq | hnone | hfile
      · rw [heq]
        exact h.image
      · exact .inl hnone
      · exact .inr hfile
    · rw [halters.off.get _ hat]
      exact h.image

/-- An image of a draft that can be read is a file. -/
theorem Draft.image_of_read (h : Draft d D id e) (hopens : e.Opens dir D) {content : Bytes}
    (hread : e.contentAt (dir.join id.imageName) = .ok content) :
    ∃ content time, e.get? (id.imageName :: D) = some (.file content time) := by
  rcases h.image with hget | hfile
  · have hn := id.imageName_ordinary
    rw [hopens.contentAt_missing hn (spelled_of_contentAt hn hread) hget] at hread
    cases hread
  · exact hfile

/-- Before its renderer runs a save writes its text and removes an image that is there already. If
that is a directory the renderer does not run. -/
theorem prepare_record (s : Save) (hopens : e.Opens dir D) (hs : Spelled (dir.join id.sourceName))
    {content : Bytes} {time : Int}
    (hsource : e.get? (id.sourceName :: D) = some (.file content time)) {text : Bytes}
    (htext : text = Utf8.encode s.text) {now : Int} {e' : Disk}
    (he' : e.set (id.sourceName :: D) (.file text now) = e') (hopens' : e'.Opens dir D) :
    (s.invocation (.inDirectory dir id)).prepare e now =
      match e'.get? (id.imageName :: D) with
      | none => (.run, e')
      | some .directory => (Invocation.failed .isDirectory, e')
      | some _ => (.run, e'.erase (id.imageName :: D)) := by
  subst htext he'
  simp only [Invocation.prepare, Invocation.write, Save.invocation, Save.filesOf,
    DiagramFiles.forSource, SavedDiagram.inDirectory, renderedImagePath_record]
  rw [hopens.writeFile id.sourceName_ordinary hs hsource]
  simp only [Disk.done, Invocation.step, Invocation.clear]
  rw [hopens'.removeFile id.imageName_ordinary (DiagramId.spelled_imageName hs)]
  cases (e.set (id.sourceName :: D) (.file (Utf8.encode s.text) now)).get? (id.imageName :: D) with
  | none => rfl
  | some x => cases x <;> rfl

/-- The directory is there when the source of a record has been made in it. -/
theorem opens_set_source (hopens : d.Opens dir D) (hget : d.get? (id.sourceName :: D) = none)
    (content : Bytes) (time : Int) :
    (d.set (id.sourceName :: D) (.file content time)).Opens dir D := by
  refine hopens.mono rfl fun q x hq => ?_
  rwa [get?_set_of_ne d]
  intro heq
  rw [heq, hget] at hq
  cases hq

/-- The text of a record that has been claimed is in its source when the renderer runs, and no image
is there. -/
theorem prepare_claimed (s : Save) (hopens : d.Opens dir D)
    (hs : Spelled (dir.join id.sourceName)) (hget : d.get? (id.sourceName :: D) = none)
    (time now : Int) : ∃ phase e, (s.invocation (.inDirectory dir id)).prepare
        (d.set (id.sourceName :: D) (.file [] time)) now = (phase, e) ∧
      AgreesOff (PlaceOf D id) d e ∧
      e.get? (id.sourceName :: D) = some (.file (Utf8.encode s.text) now) ∧
      (phase = .run ∧ e.get? (id.imageName :: D) = none ∧
          d.get? (id.imageName :: D) ≠ some .directory ∨
        phase = Invocation.failed .isDirectory ∧
          e.get? (id.imageName :: D) = some .directory ∧
          d.get? (id.imageName :: D) = some .directory) := by
  have hne : id.imageName :: D ≠ id.sourceName :: D := (Save.source_ne_image D id id).symm
  generalize he : (d.set (id.sourceName :: D) (.file [] time)).set (id.sourceName :: D)
    (.file (Utf8.encode s.text) now) = e
  have hoff : AgreesOff (PlaceOf D id) d e := by
    rw [← he]
    exact (agreesOff_set d (.inl rfl) _).trans (agreesOff_set _ (.inl rfl) _)
  have hsource : e.get? (id.sourceName :: D) = some (.file (Utf8.encode s.text) now) := by
    rw [← he, get?_set_self _ (List.cons_ne_nil _ _)]
  have himage : e.get? (id.imageName :: D) = d.get? (id.imageName :: D) := by
    rw [← he, get?_set_of_ne _ hne, get?_set_of_ne _ hne]
  have hopens' : e.Opens dir D := by
    refine hopens.mono hoff.working fun q x hq => ?_
    rw [← he, get?_set_of_ne, get?_set_of_ne, hq]
    all_goals
      intro heq
      rw [heq, hget] at hq
      cases hq
  have hprepare := prepare_record s (opens_set_source hopens hget [] time) hs
    (get?_set_self d (List.cons_ne_nil _ _) _) rfl he hopens'
  rw [himage] at hprepare
  cases hold : d.get? (id.imageName :: D) with
  | none =>
    rw [hold] at hprepare himage
    exact ⟨_, _, hprepare, hoff, hsource, .inl ⟨rfl, himage, nofun⟩⟩
  | some x =>
    rw [hold] at hprepare himage
    by_cases hx : x = .directory
    · subst hx
      exact ⟨_, _, hprepare, hoff, hsource, .inr ⟨rfl, himage, rfl⟩⟩
    · -- what is in the place of the image is removed
      have hrun : (s.invocation (.inDirectory dir id)).prepare
          (d.set (id.sourceName :: D) (.file [] time)) now =
            (.run, e.erase (id.imageName :: D)) := by
        cases x <;> first | exact hprepare | exact absurd rfl hx
      refine ⟨_, _, hrun, hoff.trans (agreesOff_erase e (.inr rfl)), ?_,
        .inl ⟨rfl, get?_erase_self e (List.cons_ne_nil _ _), fun h => hx (Option.some.inj h)⟩⟩
      rw [get?_erase_of_ne e hne.symm, hsource]

/-- A record is rendered by one run of the renderer on its source. -/
theorem render_eq (s : Save) (renderer : Renderer) (dir : Path) (id : DiagramId) (d : Disk)
    (now : Int) : s.render renderer (.inDirectory dir id) d now =
      (((s.invocation (.inDirectory dir id)).perform renderer d now).1.map fun _ => (),
        ((s.invocation (.inDirectory dir id)).perform renderer d now).2) := by
  unfold Save.render
  rcases (s.invocation (.inDirectory dir id)).perform renderer d now with ⟨error | content, d'⟩
  · rfl
  · simp only [Save.image_same, if_true]
    rfl

/-- However the rendering of a record ends, there is a draft of it; if it ends well there is all. -/
theorem render_draft {renderer : Renderer} (htidy : renderer.Tidy) (s : Save)
    (hv : Vacant d D id) (hopens : d.Opens dir D) (hs : Spelled (dir.join id.sourceName))
    (h : Draft d D id e) (himage : e.get? (id.imageName :: D) = none) (now : Int) :
    Draft d D id (s.render renderer (.inDirectory dir id) e now).2 ∧
      ((s.render renderer (.inDirectory dir id) e now).1 = .ok () →
        Recorded d D id (Utf8.encode s.text)
          (s.render renderer (.inDirectory dir id) e now).2) := by
  obtain ⟨content, time, hsource⟩ := h.source
  have hdraft₁ := h.write (Utf8.encode s.text) now
  generalize he₁ : e.set (id.sourceName :: D) (.file (Utf8.encode s.text) now) = e₁ at hdraft₁
  have hprepare := prepare_record s (hv.opens hopens h.off) hs hsource rfl he₁
    (hv.opens hopens hdraft₁.off)
  have himage₁ : e₁.get? (id.imageName :: D) = none := by
    rw [← he₁, get?_set_of_ne e fun heq => Save.source_ne_image D id id heq.symm, himage]
  rw [himage₁] at hprepare
  have halters := htidy (dir.join id.sourceName) e₁
  rw [renderedImagePath_record] at halters
  obtain ⟨hdraft₂, hsource₂⟩ := hdraft₁.alters (hv.opens hopens hdraft₁.off) halters
  have htext : ∃ time, (renderer (dir.join id.sourceName) e₁).2.get? (id.sourceName :: D) =
      some (.file (Utf8.encode s.text) time) := by
    rw [hsource₂, ← he₁]
    exact ⟨now, get?_set_self e (List.cons_ne_nil _ _) _⟩
  obtain ⟨hdisk, hresult⟩ := Invocation.perform_of_prepare hprepare renderer
  rw [show (s.invocation (.inDirectory dir id)).files.source = dir.join id.sourceName from rfl]
    at hdisk hresult
  rw [← hdisk] at hdraft₂ htext hresult
  rw [render_eq]
  generalize (s.invocation (.inDirectory dir id)).perform renderer e now = performed
    at hdraft₂ htext hresult ⊢
  obtain ⟨result, e₂⟩ := performed
  refine ⟨hdraft₂, fun hok => ⟨hv, hdraft₂.off, htext, ?_⟩⟩
  -- the image was read, so it is there
  cases result with
  | error error => cases hok
  | ok content =>
    rcases hresult with ⟨-, hread⟩ | ⟨error, -, herror⟩
    · have hcontent := Invocation.contentAt_of_read hread.symm
      rw [Save.invocation_image] at hcontent
      exact hdraft₂.image_of_read (hv.opens hopens hdraft₂.off) hcontent
    · cases herror

/-- A directory in the place of the image keeps the renderer from running, and what has been made of
the record is removed. -/
theorem render_blocked (s : Save) (renderer : Renderer) (hopens : d.Opens dir D)
    (hs : Spelled (dir.join id.sourceName)) (hget : d.get? (id.sourceName :: D) = none)
    (himage : d.get? (id.imageName :: D) = some .directory) (time now : Int) :
    ∃ e, s.render renderer (.inDirectory dir id) (d.set (id.sourceName :: D) (.file [] time)) now =
        (.error (.io .isDirectory), e) ∧
      Same d (Save.removeAll e (Save.leftovers (.inDirectory dir id))) := by
  have hne : id.imageName :: D ≠ id.sourceName :: D := (Save.source_ne_image D id id).symm
  have hopens' : ∀ {e' : Disk}, AgreesOff (PlaceOf D id) d e' →
      e'.get? (id.imageName :: D) = some .directory → e'.Opens dir D := by
    intro e' hoff' himage'
    refine hopens.mono hoff'.working fun q x hq => ?_
    by_cases hplace : PlaceOf D id q
    · rcases hplace with rfl | rfl
      · rw [hget] at hq
        cases hq
      · rwa [himage', ← himage]
    · rw [hoff'.get q hplace, hq]
  obtain ⟨phase, e, hprepare, hoff, hsource, ⟨-, -, hfree⟩ | ⟨rfl, hblocked, -⟩⟩ :=
    prepare_claimed s hopens hs hget time now
  · exact absurd himage hfree
  · refine ⟨e, ?_, ?_⟩
    · rw [render_eq]
      simp [Invocation.perform, hprepare, Invocation.run, Invocation.failed, Except.map]
    · obtain ⟨hgone, hoff₁⟩ := (hopens' hoff hblocked).removeFile_gone id.sourceName_ordinary hs
        (.inr ⟨_, _, hsource⟩)
      have hd₁ := hoff.trans (hoff₁.mono fun q hq => .inl hq)
      have hblocked₁ := (hoff₁.get _ hne).trans hblocked
      have hkept := (hopens' hd₁ hblocked₁).removeFile id.imageName_ordinary
        (DiagramId.spelled_imageName hs)
      rw [hblocked₁] at hkept
      rw [Save.leftovers_inDirectory]
      simp only [Save.removeAll, List.replicate, List.foldl_cons, List.foldl_nil, hkept, Disk.fail]
      refine ⟨hd₁.working.symm, fun q => ?_⟩
      by_cases hplace : PlaceOf D id q
      · rcases hplace with rfl | rfl
        · rw [hget, hgone]
        · rw [himage, hblocked₁]
      · exact (hd₁.get q hplace).symm

end Render

/-! ## The whole save -/

/-- The record that a save claims, if it claims one. -/
def Save.claimed? (store : Store) (d : Disk) (clock : Nat → Int) : Option SavedDiagram :=
  match d.makeDirs store.dir with
  | (.ok (), d) => (claimWithin maxClaims store d clock).1.toOption
  | (.error _, _) => none

/-- Makes the directory of a store and claims an id. -/
def Save.claimAtOnce (store : Store) (d : Disk) (clock : Nat → Int) :
    Except IoError SavedDiagram × Store × Disk :=
  match d.makeDirs store.dir with
  | (.ok (), d) => claimWithin maxClaims store d clock
  | (.error error, d) => (.error error, store, d)

theorem Save.claimed?_eq (store : Store) (d : Disk) (clock : Nat → Int) :
    claimed? store d clock = (claimAtOnce store d clock).1.toOption := by
  unfold claimed? claimAtOnce
  rcases d.makeDirs store.dir with ⟨error | _, d₁⟩ <;> rfl

/-- A save renders the record that it has claimed, or has failed. -/
theorem Save.perform_eq (s : Save) (renderer : Renderer) (store : Store) (d : Disk)
    (clock : Nat → Int) : s.perform renderer store d clock =
      match claimAtOnce store d clock with
      | (.error error, store, d) => (.error (.io error), store, d)
      | (.ok record, store, d) =>
        match s.render renderer record d (clock maxClaims) with
        | (.ok (), d) => (.ok record, store.unmark record.id, d)
        | (.error error, d) =>
          (.error error, store.unmark record.id, removeAll d (leftovers record)) := by
  unfold perform claimAtOnce
  rcases d.makeDirs store.dir with ⟨error | _, d₁⟩ <;> rfl

/-- Where the directory is there, nothing but the source of the claimed record is new. -/
theorem claimAtOnce_claiming {d : Disk} {D : Place} {store : Store} (hopens : d.Opens store.dir D)
    (clock : Nat → Int) : Claiming store D d (Save.claimAtOnce store d clock).1
      (Save.claimAtOnce store d clock).2.1 (Save.claimAtOnce store d clock).2.2 := by
  have hmade := hopens.makeDirs
  unfold Save.claimAtOnce
  rcases hm : d.makeDirs store.dir with ⟨error | _, d₁⟩
  · obtain rfl : d₁ = d := by rw [hm] at hmade; exact hmade
    exact .failed _ _ rfl fun _ h => h
  · obtain rfl : d₁ = d := by rw [hm] at hmade; exact hmade
    exact claimWithin_claiming hopens maxClaims clock

/-- What it comes to when a text is saved. -/
inductive Saving (text : Bytes) (store : Store) (D : Place) (d : Disk)
    (claimed? : Option SavedDiagram) :
    Except RenderError SavedDiagram → Store → Disk → Prop
  | failed (error store' d') (hsame : Same d d')
      (hpending : ∀ id, store'.isPending id → store.isPending id)
      (hclaimed : ∀ record, claimed? = some record → store'.isPending record.id = false) :
    Saving text store D d claimed? (.error error) store' d'
  | saved (record store' d') (hclaimed : claimed? = some record)
      (hrecorded : Recorded d D record.id text d') :
    Saving text store D d claimed? (.ok record) store' d'

section Perform

variable {d : Disk} {D : Place} {store : Store} {renderer : Renderer} {clock : Nat → Int}

/-- A save either makes its record or leaves the disk as it was. Of what may be in the place of its
image a directory is left there. -/
theorem perform_saving_or_blocked (htidy : renderer.Tidy) (s : Save)
    (hopens : d.Opens store.dir D)
    (hnew : ∀ record, Save.claimed? store d clock = some record →
      d.get? (record.id.imageName :: D) = none ∨
        d.get? (record.id.imageName :: D) = some .directory) :
    Saving (Utf8.encode s.text) store D d (Save.claimed? store d clock)
      (s.perform renderer store d clock).1 (s.perform renderer store d clock).2.1
      (s.perform renderer store d clock).2.2 := by
  have hclaiming := claimAtOnce_claiming hopens clock
  rw [Save.claimed?_eq] at hnew ⊢
  rw [Save.perform_eq]
  generalize Save.claimAtOnce store d clock = claimed at hnew hclaiming ⊢
  obtain ⟨result, store₁, d₁⟩ := claimed
  simp only at hnew hclaiming ⊢
  cases hclaiming with
  | failed e _ hdir hpending => exact .failed _ _ _ ⟨rfl, fun _ => rfl⟩ hpending nofun
  | claimed id _ _ now hdir hpending hs hget hset =>
    have hfailed : ∀ {error : RenderError} {d' : Disk}, Same d d' →
        Saving (Utf8.encode s.text) store D d (some (.inDirectory store.dir id))
          (.error error) (store₁.unmark id) d' := by
      refine fun hsame => .failed _ _ _ hsame (fun id' h => ?_) fun record h => ?_
      · obtain ⟨hne, h⟩ := Store.isPending_unmark_iff.mp h
        exact (hpending id' h).resolve_left hne
      · cases h
        exact Bool.eq_false_iff.mpr fun h => (Store.isPending_unmark_iff.mp h).1 rfl
    rcases hnew (.inDirectory store.dir id) rfl with hnone | hblocked
    · -- from here on there is a draft, which a failure takes away again
      have hv : Vacant d D id := ⟨hget, hnone⟩
      have hdraft : Draft d D id d₁ := by
        rw [hset]
        exact .claimed hv now
      have himage : d₁.get? (id.imageName :: D) = none := by
        rw [hset, get?_set_of_ne d fun heq => Save.source_ne_image D id id heq.symm, hv.image]
      obtain ⟨hdraft', hrecorded⟩ :=
        render_draft htidy s hv hopens hs hdraft himage (clock maxClaims)
      simp only
      generalize s.render renderer (.inDirectory store.dir id) d₁ (clock maxClaims) = rendered
        at hdraft' hrecorded ⊢
      obtain ⟨rendered, d₂⟩ := rendered
      cases rendered with
      | error error => exact hfailed (hdraft'.discard hv hopens hs)
      | ok => exact .saved _ _ _ rfl (hrecorded rfl)
    · obtain ⟨e, hrender, hsame⟩ :=
        render_blocked s renderer hopens hs hget hblocked now (clock maxClaims)
      simp only [hset, hrender]
      exact hfailed hsame

end Perform

end DiagramService
