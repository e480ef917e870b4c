import Mathlib
import DiagramService.Proofs.Service.Isolation
import DiagramService.Proofs.Service.SaveAnswer

/-! To save a text is to render it and to keep the result. With a renderer that goes by its source
alone, a request to save is successful exactly when a request to render is, the image that is kept
is the one that a client gets to see, and so is the image of the text that is kept. A failure is
told in the same words. -/

namespace DiagramService

open Disk

/-! ## States in which both can be done -/

/-- The work directory can be made, and some name that is drawn for a scratch directory is free. -/
def Service.CanRender (s : Service) (e : Setting) : Prop :=
  ∃ root W d, s.disk.makeDirs s.config.workDir = (.ok (), d) ∧
    Rendering.Room s.config.workDir root W d ∧ Scratch.Free W e.endings d

/-- A save claims a record, of which no directory has the place of the image. The save directory is
there whatever becomes of the two files of the record. -/
structure Service.CanSave (s : Service) (e : Setting) (record : SavedDiagram) (D : Place) :
    Prop where
  claimed : Save.claimed? s.store s.disk e.clock = some record
  kept : ∀ d, AgreesOff (PlaceOf D record.id) (s.disk.makeDirs s.store.dir).2 d →
    d.Opens s.store.dir D
  image : (s.disk.makeDirs s.store.dir).2.get? (record.id.imageName :: D) ≠ some .directory

section Agree

variable {b : Behaviour} {renderer : Renderer}

/-! ## One rendering and one save -/

/-- A rendering shows what becomes of its text. -/
theorem Service.CanRender.shows {s : Service} {e : Setting} (h : s.CanRender e)
    (hdepicts : e.renderer.Depicts b) (text : String) :
    b.Shows s.config.renderer (Utf8.encode text) (s.render e text).1 := by
  obtain ⟨root, W, d, hmade, hroom, hfree⟩ := h
  obtain ⟨ending, d₂, e₂, hprepare, -, hl, ⟨time, hsource⟩, himage, hopens, hperform⟩ :=
    Rendering.perform_fresh (r := ⟨s.config.renderer, s.config.workDir, text⟩) hmade hroom hfree
      e.renderer (e.clock 0)
  have hread := (hl.opens (hopens e₂ (.refl _ e₂))).contentAt_file scratchSource_ordinary
    (hroom.fits.spelled_source hl.drawn) hsource
  -- the image is not the scratch directory, so this is still there with any image
  have hkept : ∀ e', AgreesOff (· = scratchImage :: Scratch.placeOf W ending) e₂ e' →
      e'.Opens (Scratch.named root ending).dir (Scratch.placeOf W ending) := by
    intro e' hoff
    have hl' : Scratch.Lodges root W (.named root ending) ending e' :=
      ⟨hl.drawn, rfl, (hoff.get _ (List.cons_ne_self _ _).symm).trans hl.get⟩
    apply hl'.opens
    exact hopens e' (hoff.mono fun q hq => hq ▸ List.suffix_cons _ _)
  obtain ⟨hshows, -⟩ := hdepicts.perform hprepare scratchImage_ordinary
    (hroom.fits.spelled_image hl.drawn) (Rendering.image_named root ending)
    (renderedImagePath_scratch _) hread himage hkept
  rw [← hperform] at hshows
  exact hshows

/-- A record that has been claimed is rendered as any source is, and then its files are there. -/
theorem render_shows (hdepicts : renderer.Depicts b) (s : Save) {d : Disk} {dir : Path} {D : Place}
    {id : DiagramId} (hs : Spelled (dir.join id.sourceName))
    (hget : d.get? (id.sourceName :: D) = none)
    (himage : d.get? (id.imageName :: D) ≠ some .directory)
    (hkept : ∀ e, AgreesOff (PlaceOf D id) d e → e.Opens dir D) (time now : Int) :
    ∃ result, b.Shows s.config (Utf8.encode s.text) result ∧
      (s.render renderer (.inDirectory dir id) (d.set (id.sourceName :: D) (.file [] time)) now).1 =
        result.map (fun _ => ()) ∧
      ∀ content, result = .ok content → ∀ e, e = (s.render renderer (.inDirectory dir id)
          (d.set (id.sourceName :: D) (.file [] time)) now).2 →
        e.contentAt (dir.join id.sourceName) = .ok (Utf8.encode s.text) ∧
        e.contentAt (dir.join id.imageName) = .ok content := by
  obtain ⟨phase, e, hprepare, hoff, hsource, hphase⟩ :=
    prepare_claimed s (hkept d (.refl _ d)) hs hget time now
  rcases hphase with ⟨rfl, hnone, -⟩ | ⟨-, -, hdir⟩
  · have hread := (hkept e hoff).contentAt_file id.sourceName_ordinary hs hsource
    have hkept' : ∀ e', AgreesOff (· = id.imageName :: D) e e' → e'.Opens dir D := fun e' h =>
      hkept e' (hoff.trans (h.mono fun q hq => .inr hq))
    obtain ⟨hshows, hoff'⟩ := hdepicts.perform hprepare id.imageName_ordinary
      (DiagramId.spelled_imageName hs) (Save.invocation_image s dir id)
      (renderedImagePath_record dir id) hread hnone hkept'
    refine ⟨_, hshows, by rw [render_eq], ?_⟩
    rintro content hresult e' rfl
    rw [render_eq]
    constructor
    · -- the renderer leaves the source as it is
      exact (hkept' _ hoff').contentAt_file id.sourceName_ordinary hs
        ((hoff'.get _ (Save.source_ne_image D id id)).trans hsource)
    · rw [← Save.invocation_image s dir id]
      rcases (Invocation.perform_of_prepare hprepare renderer).2 with ⟨-, h⟩ | ⟨error, -, h⟩
      · rw [h] at hresult
        rw [(Invocation.perform_of_prepare hprepare renderer).1]
        exact Invocation.contentAt_of_read hresult
      · rw [h] at hresult
        cases hresult
  · exact absurd hdir himage

/-- A save shows what becomes of its text, and keeps it with its image. -/
theorem Service.CanSave.shows {s : Service} {e : Setting} {record : SavedDiagram} {D : Place}
    (h : s.CanSave e record D) (hdepicts : e.renderer.Depicts b) (text : String) :
    ∃ result, b.Shows s.config.renderer (Utf8.encode text) result ∧
      (s.save e text).1 = result.map (fun _ => record) ∧
      ∀ content, result = .ok content →
        (s.save e text).2.disk.contentAt record.source = .ok (Utf8.encode text) ∧
        (s.save e text).2.disk.contentAt record.image = .ok content := by
  obtain ⟨hclaimed, hkept, himage⟩ := h
  unfold Save.claimed? at hclaimed
  unfold Service.save Save.perform
  rcases hmade : s.disk.makeDirs s.store.dir with ⟨made, d⟩
  rw [hmade] at hclaimed hkept himage
  cases made with
  | error error => cases hclaimed
  | ok =>
    -- the save has claimed the record, so its source was not there
    have hclaiming := claimWithin_claiming (hkept d (.refl _ d)) maxClaims e.clock
    simp only at hclaimed himage ⊢
    generalize Save.claimWithin maxClaims s.store d e.clock = claimed at hclaimed hclaiming ⊢
    obtain ⟨claimed, store₁, d₁⟩ := claimed
    simp only at hclaimed hclaiming ⊢
    cases hclaiming with
    | failed error => cases hclaimed
    | claimed id _ _ time _ _ hs hget hset =>
      cases hclaimed
      subst hset
      obtain ⟨result, hshows, hrender, hfiles⟩ := render_shows hdepicts
        ⟨s.config.renderer, text⟩ hs hget himage hkept time (e.clock maxClaims)
      refine ⟨result, hshows, ?_⟩
      simp only
      generalize Save.render ⟨s.config.renderer, text⟩ e.renderer (.inDirectory s.store.dir id) _
        (e.clock maxClaims) = rendered at hrender hfiles ⊢
      obtain ⟨rendered, d₂⟩ := rendered
      cases result with
      | error error =>
        obtain rfl : rendered = .error error := hrender
        exact ⟨rfl, nofun⟩
      | ok image =>
        obtain rfl : rendered = .ok () := hrender
        exact ⟨rfl, fun content h => hfiles content h d₂ rfl⟩

/-! ## The answers -/

/-- What a save and a rendering show of one source they show alike. -/
theorem Behaviour.Shows.status_iff {config : RendererConfig} {source : Bytes}
    {kept shown : Except RenderError Bytes} (h : b.Shows config source kept)
    (h' : b.Shows config source shown) (record : SavedDiagram) :
    (∃ image, kept = .ok image ∧ shown = .ok image ∧
      (Http.Response.ofSave (kept.map fun _ => record)).status = 200) ∨
    (Http.Response.ofSave (kept.map fun _ => record)).status ≠ 200 ∧
      Http.Response.ofSave (kept.map fun _ => record) = .ofRender shown := by
  have hsame : Http.Response.ofRender kept = .ofRender shown := h.trans h'.symm
  cases kept with
  | ok image =>
    obtain ⟨image', rfl, hbody⟩ := Http.Response.ofRender_ok
      (show (Http.Response.ofRender shown).status = 200 by rw [← hsame]; rfl)
    rw [← hsame] at hbody
    obtain rfl : image = image' := hbody
    exact .inl ⟨image, rfl, rfl, rfl⟩
  | error error => exact .inr ⟨Http.Response.ofError_status _, hsame⟩

/-- A request that brings a text which has been kept is answered with its image. -/
theorem Service.CanRender.again {s : Service} {e : Setting} (h : s.CanRender e)
    (hdepicts : e.renderer.Depicts b) {text : String} {image : Bytes}
    (hshown : b.Shows s.config.renderer (Utf8.encode text) (.ok image)) {request : Http.Request}
    (hmethod : request.method = "POST") (hpath : request.path = "/render".toList)
    (htext : request.text = .ok text) :
    (s.handle e request).1.status = 200 ∧ (s.handle e request).1.body = image := by
  have hsame : Http.Response.ofRender (s.render e text).1 = .ofRender (.ok image) :=
    (h.shows hdepicts text).trans hshown.symm
  rw [handle_post_render hmethod hpath, htext]
  simp only
  rw [Http.Response.finished_status, Http.Response.finished_body _ hmethod, hsame]
  exact ⟨rfl, rfl⟩

end Agree

/-- A request to save and a request to render the same text are successful together. Then the
trimmed text is kept with the image that the other request is answered with, and whoever asks for an
image of the text that is kept gets the same one. Otherwise the two answers have the same status and
the same body. -/
theorem save_and_render_agree (b : Behaviour) (s : Service) (e e' : Setting)
    (record : SavedDiagram) (D : Place) (hsave : s.CanSave e record D) (hrender : s.CanRender e')
    (hdepicts : e.renderer.Depicts b) (hdepicts' : e'.renderer.Depicts b)
    (save render : Http.Request) (hmethod : save.method = "POST")
    (hpath : save.path = "/save".toList)
    (hmethod' : render.method = "POST") (hpath' : render.path = "/render".toList)
    (htext : save.text = render.text) :
    ((s.handle e save).1.status = 200 ↔ (s.handle e' render).1.status = 200) ∧
    ((s.handle e save).1.status = 200 → ∃ body rest text,
      DiagramRequest.read save.body = .ok (body, rest) ∧ text = Text.trim body.uml ∧
      (s.handle e save).2.disk.contentAt record.source = .ok (Utf8.encode text) ∧
      (s.handle e save).2.disk.contentAt record.image = .ok (s.handle e' render).1.body ∧
      ∀ (s' : Service) (e'' : Setting) (again : Http.Request) (rest' : Bytes),
        s'.config.renderer = s.config.renderer → s'.CanRender e'' → e''.renderer.Depicts b →
        again.method = "POST" → again.path = "/render".toList → again.hasJson →
        again.body.length ≤ Http.maxBody →
        DiagramRequest.read again.body = .ok (⟨text⟩, rest') →
        (s'.handle e'' again).1.status = 200 ∧
          (s'.handle e'' again).1.body = (s.handle e' render).1.body) ∧
    ((s.handle e save).1.status ≠ 200 →
      (s.handle e save).1.status = (s.handle e' render).1.status ∧
      (s.handle e save).1.body = (s.handle e' render).1.body) := by
  rw [handle_post_save hmethod hpath, handle_post_render hmethod' hpath', ← htext]
  cases hread : save.text with
  | error response =>
    -- neither request has a text, and both get the answer that says so
    simp only
    rw [Http.Response.finished_status, Http.Response.finished_status,
      Http.Response.finished_body _ hmethod, Http.Response.finished_body _ hmethod']
    exact ⟨.rfl, fun h => absurd h (Http.Request.text_error hread), fun _ => ⟨rfl, rfl⟩⟩
  | ok text =>
    obtain ⟨kept, hkept, hresult, hfiles⟩ := hsave.shows hdepicts text
    have hshown := hrender.shows hdepicts' text
    simp only
    rw [Http.Response.finished_status, Http.Response.finished_status,
      Http.Response.finished_body _ hmethod, Http.Response.finished_body _ hmethod', hresult]
    rcases hkept.status_iff hshown record with ⟨image, rfl, himage, hstatus⟩ | ⟨hstatus, hsame⟩
    · obtain ⟨hsource, hcontent⟩ := hfiles image rfl
      obtain ⟨body, rest, hbody, rfl⟩ := Http.Request.text_ok hread
      rw [himage, hstatus]
      refine ⟨⟨fun _ => rfl, fun _ => rfl⟩, fun _ => ?_, fun h => absurd rfl h⟩
      refine ⟨body, rest, _, hbody, rfl, hsource, hcontent, ?_⟩
      intro s' e'' again rest' hconfig hrender' hdepicts'' hmethod'' hpath'' hjson hlength hagain
      have htext' := Http.Request.text_of_read hjson hlength hagain (Http.Request.text_again hread)
      rw [← hconfig] at hkept
      exact hrender'.again hdepicts'' hkept hmethod'' hpath'' htext'
    · rw [hsame] at hstatus ⊢
      exact ⟨.rfl, fun h => absurd h hstatus, fun _ => ⟨rfl, rfl⟩⟩

/-! ## A text that is saved and rendered -/

/-- The service on the shelf with the work directory beside it. -/
def inWorkshop : Service :=
  ⟨workshopConfig, .open_ ⟨"saved".toList⟩, workshop⟩

theorem copier_depicts : copier.Depicts tracing := by
  intro source d text q hsource hmissing
  have hcopy : copier source d = (.ended (some 0) [], d.set q (.file text 5)) := by
    simp only [copier, hsource, Disk.leave, hmissing, Target.place]
  rw [hcopy]
  exact ⟨rfl, agreesOff_set_self d q _, fun _ => ⟨5, get?_set_self d (locate_missing_get hmissing).2 _⟩⟩

/-- What becomes of records leaves the work directory as it is. -/
theorem workshop_canRender {d : Disk}
    (hd : AgreesOff (fun q => ∃ id, PlaceOf ["saved".toList] id q) workshop d)
    (hmade : d.makeDirs workshopConfig.workDir = (.ok (), d))
    (hfree : Scratch.hasFree ["work".toList] copying.endings d) :
    Service.CanRender ⟨workshopConfig, .open_ ⟨"saved".toList⟩, d⟩ copying := by
  obtain ⟨-, e, he, hready⟩ := workshop_usable.made d hd
  rw [hmade] at he
  cases he
  exact ⟨_, _, _, hmade, hready.room workshop_usable.fits, Scratch.free_of_hasFree hfree⟩

theorem workshop_opens {d : Disk}
    (hd : AgreesOff (fun q => ∃ id, PlaceOf ["saved".toList] id q) workshop d) :
    d.Opens ⟨"saved".toList⟩ ["saved".toList] :=
  (workshop_usable.made d hd).1

theorem inWorkshop_canRender : inWorkshop.CanRender copying :=
  workshop_canRender (.refl _ _) (by cbv) (by cbv)

theorem inWorkshop_canSave : inWorkshop.CanSave copying
    (.inDirectory ⟨"saved".toList⟩ ⟨5⟩) ["saved".toList] := by
  have hmade : (inWorkshop.disk.makeDirs inWorkshop.store.dir).2 = workshop := by cbv
  refine ⟨by cbv, fun d hoff => ?_, ?_⟩
  · rw [hmade] at hoff
    exact workshop_opens (hoff.mono fun q hq => ⟨_, hq⟩)
  · rw [hmade, get?_workshop (by simp)]
    exact (Option.some_ne_none _).symm

/-- A request to save a text with white space around it. -/
def paddedSave : Http.Request :=
  ⟨"POST", "/save", [.ofText "content-type" "application/json"], Utf8.encode "[\" a \"]"⟩

theorem paddedSave_asks : paddedSave.path = "/save".toList ∧ paddedSave.text = .ok "a" :=
  ⟨by decide +kernel, Http.Request.text_of_toOption (by decide +kernel)⟩

theorem paddedRender_asks : (renderRequest " a ").path = "/render".toList ∧
    (renderRequest " a ").text = .ok "a" :=
  ⟨by decide +kernel, Http.Request.text_of_toOption (by decide +kernel)⟩

theorem DiagramRequest.read_of_toOption {body : Bytes} {text : String}
    (h : (DiagramRequest.read body).toOption.map (·.1.uml) = some text) :
    ∃ rest, DiagramRequest.read body = .ok (⟨text⟩, rest) := by
  cases hread : DiagramRequest.read body with
  | error failure =>
    rw [hread] at h
    cases h
  | ok result =>
    rw [hread] at h
    cases h
    exact ⟨result.2, rfl⟩

/-- The trimmed text is kept with the image that a rendering of the text shows, and a rendering of
what is kept shows the same. -/
theorem inWorkshop_agrees :
    (inWorkshop.handle copying paddedSave).1.status = 200 ∧
    (inWorkshop.handle copying (renderRequest " a ")).1.status = 200 ∧
    (inWorkshop.handle copying paddedSave).2.disk.contentAt ⟨"saved/diagram_5.puml".toList⟩ =
      .ok (Utf8.encode "a") ∧
    (inWorkshop.handle copying paddedSave).2.disk.contentAt ⟨"saved/diagram_5.png".toList⟩ =
      .ok (inWorkshop.handle copying (renderRequest " a ")).1.body ∧
    (inWorkshop.handle copying (renderRequest "a")).1.body =
      (inWorkshop.handle copying (renderRequest " a ")).1.body := by
  have hstatus : (inWorkshop.handle copying paddedSave).1.status = 200 := by
    rw [(handle_save rfl paddedSave_asks.1 paddedSave_asks.2).1, Http.Response.ofSave_status]
    cbv
  obtain ⟨hiff, hagree, -⟩ := save_and_render_agree tracing inWorkshop copying copying _ _
    inWorkshop_canSave inWorkshop_canRender copier_depicts copier_depicts paddedSave
    (renderRequest " a ") rfl paddedSave_asks.1 rfl paddedRender_asks.1
    (paddedSave_asks.2.trans paddedRender_asks.2.symm)
  obtain ⟨body, rest, text, hread, rfl, hsource, himage, hagain⟩ := hagree hstatus
  have hbody : Text.trim body.uml = "a" := by
    have h : (DiagramRequest.read paddedSave.body).toOption.map (Text.trim ·.1.uml) = some "a" := by
      decide +kernel
    rw [hread] at h
    exact Option.some.inj h
  rw [hbody] at hsource hagain
  obtain ⟨rest', hread'⟩ : ∃ rest', DiagramRequest.read (renderRequest "a").body =
      .ok (⟨"a"⟩, rest') := DiagramRequest.read_of_toOption (by decide +kernel)
  have hsame := hagain inWorkshop copying (renderRequest "a") rest' rfl inWorkshop_canRender
    copier_depicts rfl (by decide +kernel) (by decide +kernel) (by decide +kernel) hread'
  exact ⟨hstatus, hiff.mp hstatus, hsource, himage, hsame.2⟩

/-! ## An image that cannot be removed -/

/-- The workshop with a directory where the image of a record is to be. -/
def blocked : Service :=
  ⟨workshopConfig, .open_ ⟨"saved".toList⟩,
    workshop.set ["diagram_5.png".toList, "saved".toList] .directory⟩

/-- Both directories can be used, an id is free and the text can be rendered. But the directory in
the way of the image is no leftover that a save removes, and the save fails. -/
theorem blocked_image_disagrees :
    Save.claimed? blocked.store blocked.disk copying.clock =
      some (.inDirectory ⟨"saved".toList⟩ ⟨5⟩) ∧
    (∀ d, AgreesOff (PlaceOf ["saved".toList] ⟨5⟩) blocked.disk d →
      d.Opens blocked.store.dir ["saved".toList]) ∧
    blocked.CanRender copying ∧ copying.renderer.Depicts tracing ∧
    paddedSave.text = (renderRequest " a ").text ∧
    (blocked.handle copying paddedSave).1.status ≠ 200 ∧
    (blocked.handle copying (renderRequest " a ")).1.status = 200 := by
  have hplace : ["diagram_5.png".toList, "saved".toList] =
      DiagramId.imageName ⟨5⟩ :: ["saved".toList] := by decide
  have hoff : AgreesOff (PlaceOf ["saved".toList] ⟨5⟩) workshop blocked.disk :=
    agreesOff_set workshop (.inr hplace) _
  have hsome : ∀ d, AgreesOff (PlaceOf ["saved".toList] ⟨5⟩) workshop d →
      AgreesOff (fun q => ∃ id, PlaceOf ["saved".toList] id q) workshop d :=
    fun d h => h.mono fun q hq => ⟨_, hq⟩
  refine ⟨by cbv, fun d hd => workshop_opens (hsome d (hoff.trans hd)),
    workshop_canRender (hsome _ hoff) (by cbv) (by cbv), copier_depicts,
    paddedSave_asks.2.trans paddedRender_asks.2.symm, ?_, ?_⟩
  · rw [(handle_save rfl paddedSave_asks.1 paddedSave_asks.2).1, ne_eq,
      Http.Response.ofSave_status, Bool.not_eq_true]
    cbv
  · rw [handle_post_render rfl paddedRender_asks.1, paddedRender_asks.2]
    simp only
    rw [Http.Response.finished_status, Http.Response.ofRender_status]
    cbv

end DiagramService
