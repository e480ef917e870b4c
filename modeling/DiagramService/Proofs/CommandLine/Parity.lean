import DiagramService.CommandLine.Run
import DiagramService.Proofs.Render.Verdict
import DiagramService.Proofs.Service.Agreement

/-! The command line and the service render alike. Both trim the text, refuse it if nothing is left,
and tell of the rendering what is told of any, each in its own words. So one of them succeeds when
the other does, with the same image, and a failure is told with the same message. -/

namespace DiagramService

/-! ## Texts that are posted -/

theorem Text.trim_eq_empty_iff {s : String} : trim s = "" ↔ trimList s.toList = [] :=
  String.ofList_eq_empty_iff

/-- A request that posts a text to be rendered. -/
structure Http.Request.Posts (request : Request) (text : String) : Prop where
  method : request.method = "POST"
  path : request.path = "/render".toList
  json : request.hasJson
  fits : request.body.length ≤ maxBody
  body : ∃ rest, DiagramRequest.read request.body = .ok (⟨text⟩, rest)

/-- What is to be rendered is the trimmed text, unless nothing is left of it. -/
theorem Http.Request.Posts.text_eq {request : Request} {text : String} (h : request.Posts text) :
    request.text = if Text.trim text = "" then .error (.ofError .emptyInput)
      else .ok (Text.trim text) := by
  obtain ⟨rest, hread⟩ := h.body
  have hfits : ¬ maxBody < request.body.length := Nat.not_lt.mpr h.fits
  by_cases hblank : Text.trimList text.toList = []
  · rw [if_pos (Text.trim_eq_empty_iff.mpr hblank)]
    simp [Request.text, h.json, hfits, hread, DiagramRequest.text, hblank]
  · rw [if_neg (mt Text.trim_eq_empty_iff.mp hblank)]
    simp [Request.text, h.json, hfits, hread, DiagramRequest.text, hblank]

/-! ## What is told of a rendering -/

namespace Http

/-- What a client gets to see of a rendering is what is told of it. -/
theorem Response.ofRender_told {result : Except RenderError Bytes} :
    (∃ image, told result = .ok image ∧ (ofRender result).status = 200 ∧
      (ofRender result).body = image) ∨
    ∃ message, told result = .error message ∧ (ofRender result).status = 500 ∧
      (ofRender result).body =
        (Json.object [("status", .int 500), ("error", .text message)]).encode := by
  cases result with
  | ok image => exact .inl ⟨image, rfl, rfl, rfl⟩
  | error error => exact .inr ⟨error.message, rfl, rfl, rfl⟩

end Http

namespace CommandLine

section Told

variable {s : Surroundings} {input : Path} {output : Option String} {text : String}

/-- Without a text the command fails and does nothing. -/
theorem render_blank (hinput : s.disk.readText input = .ok text) (hblank : Text.trim text = "") :
    render s input output =
      .failure (input.toString ++ " contains no diagram text") s.disk := by
  unfold render
  rw [hinput]
  exact if_pos hblank

/-- The rendering that the command performs on a text. -/
def rendering (s : Surroundings) (text : String) : Rendering :=
  ⟨(Config.ofEnvironment s.disk s.lookup).renderer, (Config.ofEnvironment s.disk s.lookup).workDir,
    Text.trim text⟩

/-- How the rendering of the command ends. -/
def performed (s : Surroundings) (text : String) : Except RenderError Bytes × Disk :=
  (rendering s text).perform (s.renderer (rendering s text).config) s.endings s.disk s.now

/-- The image is written when the rendering is over. -/
theorem render_text (hinput : s.disk.readText input = .ok text) (htext : Text.trim text ≠ "") :
    render s input output =
      match performed s text with
      | (.error error, d) => .failure ("Render error: " ++ error.message) d
      | (.ok image, d) =>
        match d.writeFile (outputPath input output) image s.now with
        | (.error cause, d) => .failure cause.message d
        | (.ok (), d) =>
          .success ("Rendered " ++ (outputPath input output).toString ++ " (" ++
            Text.natText image.length ++ " bytes)\n") d := by
  unfold render
  rw [hinput]
  exact if_neg htext

/-- What the command shows of a rendering is what is told of it. -/
theorem render_told (hinput : s.disk.readText input = .ok text) (htext : Text.trim text ≠ "")
    (hwritable : (performed s text).2.Writable (outputPath input output)) :
    (∃ image, told (performed s text).1 = .ok image ∧ (render s input output).code = 0 ∧
      (render s input output).disk =
        ((performed s text).2.writeFile (outputPath input output) image s.now).2) ∨
    ∃ message, told (performed s text).1 = .error message ∧
      render s input output = .failure ("Render error: " ++ message) (performed s text).2 := by
  rw [render_text hinput htext]
  generalize performed s text = done at hwritable ⊢
  obtain ⟨result, d⟩ := done
  cases result with
  | error error => exact .inr ⟨error.message, rfl, rfl⟩
  | ok image =>
    have hok : (d.writeFile (outputPath input output) image s.now).1 = .ok () := hwritable _ _
    refine .inl ⟨image, rfl, ?_⟩
    simp only
    generalize d.writeFile (outputPath input output) image s.now = written at hok ⊢
    obtain ⟨answer, e⟩ := written
    obtain rfl : answer = .ok () := hok
    exact ⟨rfl, rfl⟩

end Told

/-! ## The command and the service -/

/-- The command and the service find the same files and are configured alike. Their renderers treat
a source in the same way, and it does not matter which of the names are drawn. -/
structure Counterparts (s : Surroundings) (service : Service) (setting : Setting) (v : Verdict) :
    Prop where
  config : service.config = Config.ofEnvironment s.disk s.lookup
  disk : service.disk = s.disk
  wellFormed : s.disk.WellFormed
  obeys : (s.renderer service.config.renderer).Obeys v
  obeys' : setting.renderer.Obeys v
  drawn : ∀ ending ∈ s.endings, Scratch.Drawn ending
  drawn' : ∀ ending ∈ setting.endings, Scratch.Drawn ending
  draws : Scratch.SameDraws s.disk service.config.workDir s.endings setting.endings

section Counterparts

variable {s : Surroundings} {service : Service} {setting : Setting} {v : Verdict}

/-- The same is told of both renderings, and that of the command does no more to the disk than to
make the work directory. -/
theorem Counterparts.told (h : Counterparts s service setting v) (text : String) :
    told (performed s text).1 = told (service.render setting (Text.trim text)).1 ∧
      Disk.Same (s.disk.makeDirs service.config.workDir).2 (performed s text).2 := by
  have hobeys : (s.renderer (rendering s text).config).Obeys v := by
    rw [rendering, ← h.config]
    exact h.obeys
  have hdraws : Scratch.SameDraws s.disk (rendering s text).workDir s.endings setting.endings := by
    rw [rendering, ← h.config]
    exact h.draws
  have htold := Rendering.told_perform (r := rendering s text) h.wellFormed h.drawn hobeys s.now
  have hsame := (rendering s text).perform_same h.wellFormed h.drawn hobeys.staysInside s.now
  have htold' := Rendering.told_perform (r := rendering s text) h.wellFormed h.drawn' h.obeys'
    (setting.clock 0)
  refine ⟨?_, by rw [h.config]; exact hsame⟩
  rw [performed, htold, Rendering.forecast_sameDraws hdraws h.drawn h.drawn' v, ← htold',
    Service.render, h.disk, h.config]
  rfl

/-- A request with a text is answered with what is told of the rendering. -/
theorem handle_told (service : Service) (setting : Setting) {request : Http.Request}
    {text : String} (hpost : request.Posts text) (htext : Text.trim text ≠ "") :
    (∃ image, told (service.render setting (Text.trim text)).1 = .ok image ∧
      (service.handle setting request).1.status = 200 ∧
      (service.handle setting request).1.body = image) ∨
    ∃ message, told (service.render setting (Text.trim text)).1 = .error message ∧
      (service.handle setting request).1.status = 500 ∧
      (service.handle setting request).1.body =
        (Json.object [("status", .int 500), ("error", .text message)]).encode := by
  rw [handle_post_render hpost.method hpost.path, hpost.text_eq, if_neg htext]
  simp only [Http.Response.finished_status, Http.Response.finished_body _ hpost.method]
  exact Http.Response.ofRender_told

/-- With a text the command writes the image that the request is answered with, or both tell the
same error. -/
theorem Counterparts.rendered (h : Counterparts s service setting v) {input : Path}
    {output : Option String} {text : String} (hinput : s.disk.readText input = .ok text)
    (htext : Text.trim text ≠ "") {request : Http.Request} (hpost : request.Posts text)
    (hwritable : (s.disk.makeDirs service.config.workDir).2.Writable (outputPath input output)) :
    (∃ image, (render s input output).code = 0 ∧
      Disk.Same ((s.disk.makeDirs service.config.workDir).2.writeFile (outputPath input output)
        image s.now).2 (render s input output).disk ∧
      (service.handle setting request).1.status = 200 ∧
      (service.handle setting request).1.body = image) ∨
    ∃ message d, render s input output = .failure ("Render error: " ++ message) d ∧
      Disk.Same (s.disk.makeDirs service.config.workDir).2 d ∧
      (service.handle setting request).1.status = 500 ∧
      (service.handle setting request).1.body =
        (Json.object [("status", .int 500), ("error", .text message)]).encode := by
  obtain ⟨htold, hsame⟩ := h.told text
  have hwritable' : (performed s text).2.Writable (outputPath input output) :=
    fun content now => (hsame.writeFile _ _ _).1.trans (hwritable content now)
  obtain ⟨image, hcommand, hcode, hdisk⟩ | ⟨message, hcommand, hfailure⟩ :=
    render_told hinput htext hwritable'
  · obtain ⟨image', hrequest, hanswer⟩ | ⟨message, hrequest, -⟩ :=
      handle_told service setting hpost htext
    · obtain rfl : image = image' := Except.ok.inj (hcommand.symm.trans (htold.trans hrequest))
      refine .inl ⟨image, hcode, ?_, hanswer⟩
      rw [hdisk]
      exact (hsame.writeFile _ _ _).2
    · cases hcommand.symm.trans (htold.trans hrequest)
  · obtain ⟨image, hrequest, -⟩ | ⟨message', hrequest, hanswer⟩ :=
      handle_told service setting hpost htext
    · cases hcommand.symm.trans (htold.trans hrequest)
    · obtain rfl : message = message' :=
        Except.error.inj (hcommand.symm.trans (htold.trans hrequest))
      exact .inr ⟨message, _, hfailure, hsame, hanswer⟩

end Counterparts

/-! ## A file on the desk -/

/-- The workshop with a text that has white space around it. -/
def desk : Disk := workshop.set ["in.puml".toList] (.file (Utf8.encode " a ") 0)

theorem desk_wellFormed : desk.WellFormed := by
  refine ⟨fun name q hq => ?_, rfl⟩
  cases q with
  | nil => rfl
  | cons name' q =>
    rw [desk, Disk.get?_set_of_ne _ (by simp), get?_workshop (by simp)] at hq
    exact absurd rfl hq

/-- What is copied is the source. -/
theorem copier_obeys : copier.Obeys ⟨fun _ => .ended (some 0) [], .ok⟩ := by
  intro dir d S text time hopens hs hget himage
  have hs' : Disk.Spelled (dir.join scratchImage) :=
    hs.join_of_le scratchImage_ordinary (by decide) (by decide)
  rw [copier_run hopens hs hget]
  refine ⟨rfl, ?_, fun _ => ?_⟩
  · exact Disk.agreesOff_set d ⟨S, hopens, List.suffix_cons _ _, List.cons_ne_self _ _⟩ _
  · -- the directory is there after the image has been left
    have hopens' : (d.set (scratchImage :: S) (.file text 5)).Opens dir S := by
      refine hopens.mono rfl fun q x hq => ?_
      rw [Disk.get?_set_of_ne d ?_, hq]
      rintro rfl
      exact nomatch himage.symm.trans hq
    exact hopens'.contentAt_file scratchImage_ordinary hs'
      (Disk.get?_set_self d (List.cons_ne_nil _ _) _)

/-- The program at the desk, with a renderer that copies. -/
def atDesk : Surroundings where
  lookup name :=
    if name = "WORK_DIR" then some "work" else if name = "SAVE_DIR" then some "saved" else none
  disk := desk
  renderer _ := copier
  endings := ["aaaaaa".toList]
  now := 5

theorem atDesk_counterparts : Counterparts atDesk
    ⟨workshopConfig, .open_ ⟨"saved".toList⟩, desk⟩ copying
    ⟨fun _ => .ended (some 0) [], .ok⟩ := by
  have hfree : Scratch.Free ["work".toList] copying.endings desk := Scratch.free_of_hasFree (by cbv)
  exact ⟨by decide +kernel, rfl, desk_wellFormed, copier_obeys, copier_obeys, hfree.1, hfree.1,
    .same _⟩

end CommandLine

end DiagramService
