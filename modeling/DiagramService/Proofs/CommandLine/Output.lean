import DiagramService.Proofs.CommandLine.Parity
import DiagramService.Proofs.Diagram.ImagePath

/-! What a command leaves on the disk. Only a rendering that succeeds writes a file, which is its
output. So the input is kept unless the output is the same file, and then the command has been told
so by a name or by a link. -/

namespace DiagramService

namespace Disk

/-- Two paths lead to one entry. -/
def SameFile (d : Disk) (p p' : Path) : Prop :=
  ∃ q x, d.find .follow p = .ok (q, x) ∧ d.find .follow p' = .ok (q, x)

section Output

variable {d e : Disk} {p p' : Path} {q : Place} {x : Entry}

/-- A file is kept when a file is written that is another one. -/
theorem find_of_writeFile {content : Bytes} {now : Int}
    (hwrite : d.writeFile p' content now = (.ok (), e)) (hx : x ≠ .directory)
    (hfind : d.find .follow p = .ok (q, x)) (hother : ¬ d.SameFile p p') :
    e.find .follow p = .ok (q, x) := by
  obtain ⟨r, hl, hr, rfl⟩ | ⟨-, rfl⟩ := writeFile_ok hwrite
  · have hne : q ≠ r := by
      rintro rfl
      rw [targetAt, find_entry hfind hx] at hl
      exact hother ⟨q, x, hfind, find_of_locate hl⟩
    refine find_of_agreesOff hfind (agreesOff_set_self d r _) hne ?_
    rintro _ rfl
    refine ⟨fun hget => ?_, Plain.no_link hr⟩
    obtain ⟨content, time, hfile⟩ := hr _ hget
    cases hfile
  · exact hfind

/-- Without links a source and its image are one file only if the source has the extension of an
image, whatever directories have been made. -/
theorem SameFile.extension? (h : e.SameFile p (renderedImagePath p)) (hgrow : Grows d e)
    (hfind : d.find .follow p = .ok (q, x)) (hx : x ≠ .directory)
    (hsource : ∀ q target, d.find .keep p ≠ .ok (q, .link target))
    (himage : ∀ q target, d.find .keep (renderedImagePath p) ≠ .ok (q, .link target)) :
    p.extension? = some imageExtension := by
  obtain ⟨r, y, hp, himage'⟩ := h
  cases hp.symm.trans (hgrow.find hfind)
  have hkeep : e.find .keep p = .ok (q, x) := hgrow.find (find_keep_of_follow hsource hfind)
  refine extension?_of_same_entry hx hkeep (find_keep_of_follow (fun r target hlink => ?_) himage')
  exact himage r target (hgrow.find_image_link hfind hx hlink)

/-- A text is read from a file, unless it is empty. -/
theorem find_of_readText {text : String} (h : d.readText p = .ok text) (htext : text ≠ "") :
    ∃ q content time, d.find .follow p = .ok (q, .file content time) := by
  unfold readText contentAt at h
  cases hfind : d.find .follow p with
  | error cause =>
    rw [hfind] at h
    cases h
  | ok found =>
    obtain ⟨q, x⟩ := found
    rw [hfind] at h
    cases x with
    | file content time => exact ⟨q, content, time, rfl⟩
    | device kind =>
      have hempty : Utf8.decode? [] = some "" := by cbv
      simp only [Except.bind, hempty] at h
      cases h
      exact absurd rfl htext
    | _ => cases h

end Output

end Disk

namespace CommandLine

section Render

variable {s : Surroundings}

/-- What rendering a file comes to, in three cases. Without a text nothing is done. -/
theorem render_cases (s : Surroundings) (input : Path) (output : Option String) :
    let result := render s input output
    ((∀ text, s.disk.readText input = .ok text → Text.trim text = "") ∧
      result.code ≠ 0 ∧ result.disk = s.disk) ∨
    ∃ text, s.disk.readText input = .ok text ∧ Text.trim text ≠ "" ∧
      -- with a text the rendering fails, or its image cannot be written
      (result.code ≠ 0 ∧ result.disk = (performed s text).2 ∨
      -- or it is written
      ∃ image, (performed s text).1 = .ok image ∧ result.code = 0 ∧
        (performed s text).2.writeFile (outputPath input output) image s.now =
          (.ok (), result.disk)) := by
  intro result
  cases hinput : s.disk.readText input with
  | error cause =>
    have hresult : result = .failure ("Failed to read " ++ input.toString ++ ": " ++
        cause.message) s.disk := by
      simp only [result, render, hinput]
    rw [hresult]
    exact .inl ⟨by simp, by simp [Result.failure], rfl⟩
  | ok text =>
    by_cases hblank : Text.trim text = ""
    · have hresult : render s input output = _ := render_blank hinput hblank
      refine .inl ⟨fun other hother => ?_, ?_, ?_⟩
      · cases hother
        exact hblank
      · simp [result, hresult, Result.failure]
      · simp only [result, hresult, Result.failure]
    · refine .inr ⟨text, rfl, hblank, ?_⟩
      have hresult : render s input output = _ := render_text hinput hblank
      simp only [result, hresult]
      generalize performed s text = done
      obtain ⟨rendered, d⟩ := done
      cases rendered with
      | error error => exact .inl ⟨by simp [Result.failure], rfl⟩
      | ok image =>
        simp only
        cases hwrite : d.writeFile (outputPath input output) image s.now with
        | mk answer e =>
          cases answer with
          | error cause =>
            obtain rfl := Disk.writeFile_error hwrite
            exact .inl ⟨by simp [Result.failure], rfl⟩
          | ok => exact .inr ⟨image, rfl, rfl, hwrite⟩

theorem find_of_input {input : Path} {text : String} (hinput : s.disk.readText input = .ok text)
    (htext : Text.trim text ≠ "") :
    ∃ q content time, s.disk.find .follow input = .ok (q, .file content time) := by
  refine Disk.find_of_readText hinput ?_
  rintro rfl
  exact htext (by cbv)

/-- The program is run on a well-formed disk with a renderer that works in its scratch directory. -/
structure Orderly (s : Surroundings) : Prop where
  wellFormed : s.disk.WellFormed
  drawn : ∀ ending ∈ s.endings, Scratch.Drawn ending
  inside : (s.renderer (Config.ofEnvironment s.disk s.lookup).renderer).StaysInside

/-- A rendering does no more to the disk than to make the work directory. -/
theorem Orderly.performed (h : Orderly s) (text : String) :
    Disk.Same (s.disk.makeDirs (Config.ofEnvironment s.disk s.lookup).workDir).2
        (performed s text).2 ∧
      Disk.Paves (Config.ofEnvironment s.disk s.lookup).workDir s.disk (performed s text).2 :=
  ⟨(rendering s text).perform_same h.wellFormed h.drawn h.inside s.now,
    (rendering s text).leaves_no_trace h.wellFormed h.drawn h.inside s.now⟩

end Render

section Run

variable {s : Surroundings}

/-- The input is kept, unless the command succeeds and its output is the same file. This is never so
for an input with another extension than an image, as long as neither of the two is a link. -/
theorem render_keeps_its_input (h : Orderly s) (args : List String) (input : String)
    (hargs : Command.ofArguments args = .ok (.render input none)) :
    let result := run s args
    let source := Path.ofString input
    let made := (s.disk.makeDirs (Config.ofEnvironment s.disk s.lookup).workDir).2
    (¬ (result.code = 0 ∧ made.SameFile source (renderedImagePath source)) →
      result.disk.find .follow source = s.disk.find .follow source) ∧
    (source.extension? ≠ some imageExtension →
      (∀ q target, s.disk.find .keep source ≠ .ok (q, .link target)) →
      (∀ q target, s.disk.find .keep (renderedImagePath source) ≠ .ok (q, .link target)) →
      result.disk.find .follow source = s.disk.find .follow source) := by
  intro result source made
  have hresult : result = render s source none := by simp only [result, run, hargs, source]
  obtain ⟨-, -, hdisk⟩ | ⟨text, hinput, htext, hcases⟩ := render_cases s source none
  · rw [hresult, hdisk]
    exact ⟨fun _ => rfl, fun _ _ _ => rfl⟩
  obtain ⟨q, content, time, hfind⟩ := find_of_input hinput htext
  have hentry : Entry.file content time ≠ .directory := by simp
  obtain ⟨hsame, hpaves⟩ := h.performed text
  have hkept := hpaves.grows.find hfind
  rw [← hresult] at hcases
  have hmain : ¬ (result.code = 0 ∧ made.SameFile source (renderedImagePath source)) →
      result.disk.find .follow source = s.disk.find .follow source := by
    intro hother
    rw [hfind]
    obtain ⟨-, hdisk⟩ | ⟨image, -, hcode, hwrite⟩ := hcases
    · rw [hdisk]
      exact hkept
    · refine Disk.find_of_writeFile hwrite hentry hkept ?_
      rintro ⟨r, x, hp, himage⟩
      exact hother ⟨hcode, r, x, (hsame.find _ _).symm.trans hp, (hsame.find _ _).symm.trans himage⟩
  refine ⟨hmain, fun hextension hsource himage => hmain ?_⟩
  rintro ⟨-, hfile⟩
  exact hextension (hfile.extension? (Disk.makeDirs_grows _ _) hfind hentry hsource himage)

/-- The program at the desk, with something more on it. -/
def deskWith (name : FileName) (x : Entry) : Surroundings :=
  { atDesk with disk := desk.set [name] x }

theorem atDesk_orderly : Orderly atDesk :=
  ⟨desk_wellFormed, atDesk_counterparts.drawn, copier_obeys.staysInside⟩

theorem deskWith_orderly {name : FileName} (x : Entry) (h : desk.get? [name] = none) :
    Orderly (deskWith name x) := by
  refine ⟨?_, atDesk_orderly.drawn, copier_obeys.staysInside⟩
  refine desk_wellFormed.agreesOff (p := []) rfl (Disk.agreesOff_set_self desk [name] x) ?_
  rintro _ rfl
  exact ⟨h, name, rfl⟩

/-- The file is as it was, and its image is beside it. -/
theorem atDesk_keeps_its_input :
    (run atDesk ["render", "in.puml"]).code = 0 ∧
    (run atDesk ["render", "in.puml"]).disk.find .follow (.ofString "in.puml") =
      desk.find .follow (.ofString "in.puml") := by
  have hsource : ∀ last, desk.find last (.ofString "in.puml") =
      .ok (["in.puml".toList], .file (Utf8.encode " a ") 0) := by
    rintro (_ | _) <;> cbv
  have himage : desk.find .keep (renderedImagePath (.ofString "in.puml")) = .error .notFound := by
    cbv
  obtain ⟨-, hkept⟩ := render_keeps_its_input atDesk_orderly ["render", "in.puml"] "in.puml" rfl
  refine ⟨by cbv, hkept (by decide +kernel) ?_ ?_⟩
  · intro q target hlink
    cases (hsource _).symm.trans hlink
  · intro q target hlink
    cases himage.symm.trans hlink

/-- The desk with a text that has the name of an image. -/
def withMisnomer : Surroundings :=
  deskWith "in.png".toList (.file (Utf8.encode " a ") 0)

/-- An input with the name of its image is overwritten with the image. -/
theorem input_is_overwritten :
    Orderly withMisnomer ∧
    withMisnomer.disk.contentAt ⟨"in.png".toList⟩ = .ok (Utf8.encode " a ") ∧
    (run withMisnomer ["render", "in.png"]).disk.contentAt ⟨"in.png".toList⟩ =
      .ok (Utf8.encode "a") :=
  ⟨deskWith_orderly _ (by cbv), by cbv, by cbv⟩

/-- A command that does not start the service leaves the disk as it is, unless it renders. Then it
may make the work directory if there is a text, and if it succeeds it writes the image to one file,
where its output leads. A device takes the image and keeps nothing. -/
theorem run_changes_only_its_output (h : Orderly s) (args : List String) :
    let result := run s args
    let workDir := (Config.ofEnvironment s.disk s.lookup).workDir
    (Command.ofArguments args ≠ .ok .serve →
      (∀ input output, Command.ofArguments args ≠ .ok (.render input output)) →
      result.disk = s.disk) ∧
    ∀ input output, Command.ofArguments args = .ok (.render input output) →
      let target := outputPath (.ofString input) output
      (result.code ≠ 0 → Disk.Paves workDir s.disk result.disk ∧
        (result.disk = s.disk ∨ ∃ text, s.disk.readText (.ofString input) = .ok text ∧
          Text.trim text ≠ "")) ∧
      (result.code = 0 → ∃ text image paved, s.disk.readText (.ofString input) = .ok text ∧
        Text.trim text ≠ "" ∧ (performed s text).1 = .ok image ∧
        Disk.Paves workDir s.disk paved ∧
        ((∃ q, result.disk = paved.set q (.file image s.now) ∧
            result.disk.find .follow target = .ok (q, .file image s.now)) ∨
          (∃ q kind, paved.find .follow target = .ok (q, .device kind)) ∧
            result.disk = paved)) := by
  intro result workDir
  refine ⟨fun hserve hrender => ?_, fun input output hargs => ?_⟩
  · simp only [result, run]
    split
    · rfl
    · next input output hargs => exact absurd hargs (hrender input output)
    · next hargs => exact absurd hargs hserve
    · rfl
    · rfl
  intro target
  have hresult : result = render s (.ofString input) output := by simp only [result, run, hargs]
  have hcases := render_cases s (.ofString input) output
  rw [← hresult] at hcases
  obtain ⟨-, hcode, hdisk⟩ | ⟨text, hinput, htext, hcases⟩ := hcases
  · refine ⟨fun _ => ⟨?_, .inl hdisk⟩, fun hzero => absurd hzero hcode⟩
    rw [hdisk]
    exact .refl _ _
  have hpaves := (h.performed text).2
  obtain ⟨hcode, hdisk⟩ | ⟨image, himage, hcode, hwrite⟩ := hcases
  · refine ⟨fun _ => ⟨?_, .inr ⟨text, hinput, htext⟩⟩, fun hzero => absurd hzero hcode⟩
    rw [hdisk]
    exact hpaves
  · refine ⟨fun hne => absurd hcode hne, fun _ => ?_⟩
    refine ⟨text, image, _, hinput, htext, himage, hpaves, ?_⟩
    obtain ⟨q, hl, hq, hdisk⟩ | hdevice := Disk.writeFile_ok hwrite
    · refine .inl ⟨q, hdisk, ?_⟩
      rw [hdisk]
      exact Disk.find_set_file hl hq _ _
    · exact .inr hdevice

/-- One run shows how the service is configured and changes nothing, another writes an image. -/
theorem atDesk_changes_only_its_output :
    (run atDesk []).disk = desk ∧
    ∃ q image paved, Disk.Paves ⟨"work".toList⟩ desk paved ∧
      (run atDesk ["render", "in.puml"]).disk = paved.set q (.file image 5) ∧
      (run atDesk ["render", "in.puml"]).disk.find .follow ⟨"in.png".toList⟩ =
        .ok (q, .file image 5) := by
  have hstatus : Command.ofArguments [] = .ok .status := rfl
  have hserve : Command.ofArguments [] ≠ .ok .serve := by simp [hstatus]
  have hnone : ∀ input output, Command.ofArguments [] ≠ .ok (.render input output) := by
    simp [hstatus]
  have htarget : outputPath (.ofString "in.puml") none = ⟨"in.png".toList⟩ := by decide +kernel
  have hwritten : (run atDesk ["render", "in.puml"]).disk.find .follow ⟨"in.png".toList⟩ =
      .ok (["in.png".toList], .file (Utf8.encode "a") 5) := by
    cbv
  refine ⟨(run_changes_only_its_output atDesk_orderly []).1 hserve hnone, ?_⟩
  obtain ⟨-, hrender⟩ := run_changes_only_its_output atDesk_orderly ["render", "in.puml"]
  obtain ⟨-, hdone⟩ := hrender "in.puml" none rfl
  obtain ⟨text, image, paved, -, -, -, hpaves, ⟨q, hdisk, hfind⟩ | ⟨⟨q, kind, hdevice⟩, hdisk⟩⟩ :=
    hdone (by cbv)
  · exact ⟨q, image, paved, hpaves, hdisk, htarget ▸ hfind⟩
  · rw [hdisk, ← htarget, hdevice] at hwritten
    cases hwritten

/-- The desk with a device that drops what is written to it. -/
def withSink : Surroundings :=
  deskWith "null".toList (.device .null)

/-- A device does not hold the image that was written to it. -/
theorem image_is_dropped :
    Orderly withSink ∧
    (run withSink ["render", "in.puml", "-o", "/null"]).code = 0 ∧
    (performed withSink " a ").1 = .ok (Utf8.encode "a") ∧
    (run withSink ["render", "in.puml", "-o", "/null"]).disk.contentAt ⟨"/null".toList⟩ =
      .ok [] :=
  ⟨deskWith_orderly _ (by cbv), by cbv, by cbv, by cbv⟩

end Run

end CommandLine

end DiagramService
