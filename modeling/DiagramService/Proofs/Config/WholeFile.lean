import Mathlib
import DiagramService.Proofs.Config.Fields
import DiagramService.Proofs.Text.Utf8

/-! A configuration file is taken field by field or not at all. What it configures does not change
when keys are put in another order or unknown keys come and go, every setting that is missing has
its own default, and one fault anywhere among the known keys leaves nothing of the file. -/

namespace DiagramService.Config

open Yaml
open Node (text? texts? valuesOf Keyed)

section

variable {α : Type} {decode : Node → Option α} {given : Option α} {node node' : Node}
  {values values' : List Node} {entries entries' : List (Node × Node)} {known : List String}
  {key : String} {default : α} {temporary : Path}

/-! ## Faults and defaults -/

/-- Values that a setting cannot take: two of them, or one of another type. -/
def Bad (decode : Node → Option α) (values : List Node) : Prop :=
  2 ≤ values.length ∨ ∃ node ∈ values, decode node = none

/-- A setting has its default where no value is given, and else the only value. -/
inductive Takes (decode : Node → Option α) (default : α) : List Node → α → Prop
  | missing : Takes decode default [] default
  | given {node : Node} {value : α} (h : decode node = some value) :
    Takes decode default [node] value

theorem settled?_eq_none_iff : settled? decode none values = none ↔ Bad decode values := by
  rcases values with _ | ⟨node, _ | ⟨node', values⟩⟩
  · simp [settled?, Bad]
  · simp [settled?, Bad]
  · simp [settled?, Bad]

theorem takes_map_of_settled {β : Type} {default : β} {after : Option α} (f : α → β)
    (h : settled? decode none values = some after) :
    Takes (fun node => (decode node).map f) default values ((after.map f).getD default) := by
  rcases values with _ | ⟨node, _ | ⟨node', values⟩⟩
  · cases h
    exact .missing
  · obtain ⟨value, hvalue, rfl⟩ := Option.map_eq_some_iff.mp h
    exact .given (by rw [hvalue]; rfl)
  · cases h

theorem takes_of_settled {after : Option α} (h : settled? decode none values = some after) :
    Takes decode default values (after.getD default) := by
  simpa using takes_map_of_settled id h

/-- The values of a key inside the renderer. -/
def innerValues (key : String) (entries : List (Node × Node)) : List Node :=
  (valuesOf "renderer" entries).flatMap fun node =>
    match node with
    | .map inner => valuesOf key inner
    | _ => []

/-- A known key is given twice or has a value of another type. -/
@[mk_iff]
inductive Faulty (entries : List (Node × Node)) : Prop
  | renderer (h : 2 ≤ (valuesOf "renderer" entries).length)
  | command (h : Bad text? (innerValues "command" entries))
  | args (h : Bad texts? (innerValues "args" entries))
  | timeoutSeconds (h : Bad Node.number? (innerValues "timeout_secs" entries))
  | saveDir (h : Bad text? (valuesOf "save_dir" entries))
  | workDir (h : Bad text? (valuesOf "work_dir" entries))

/-- Every setting has its own value or its own default. -/
structure TakesEach (temporary : Path) (entries : List (Node × Node)) (config : Config) : Prop where
  command : Takes text? "java" (innerValues "command" entries) config.renderer.command
  args : Takes texts? ["-jar", "plantuml.jar"] (innerValues "args" entries) config.renderer.args
  timeoutSeconds : Takes Node.number? 60 (innerValues "timeout_secs" entries)
    config.renderer.timeoutSeconds
  saveDir : Takes (fun node => node.text?.map Path.ofString) (.ofString "saved_diagrams")
    (valuesOf "save_dir" entries) config.saveDir
  workDir : Takes (fun node => node.text?.map Path.ofString) temporary
    (valuesOf "work_dir" entries) config.workDir

/-! ## Changes that do not count -/

/-- One change to a mapping that has no bearing on the known keys. -/
inductive Immaterial (known : List String) : List (Node × Node) → List (Node × Node) → Prop
  | permute {entries entries' : List (Node × Node)} (h : entries.Perm entries') :
    Immaterial known entries entries'
  | add {content : Scalar} {value : Node} {entries : List (Node × Node)}
    (h : String.ofList content.text ∉ known) :
    Immaterial known entries ((.scalar content, value) :: entries)

/-- One change to the settings of a file: of no bearing, or of no bearing inside the renderer. -/
inductive Edit : List (Node × Node) → List (Node × Node) → Prop
  | outside {entries entries' : List (Node × Node)}
    (h : Immaterial ["renderer", "save_dir", "work_dir"] entries entries') : Edit entries entries'
  | inside {content : Scalar} {inner inner' entries : List (Node × Node)}
    (hkey : String.ofList content.text = "renderer")
    (h : Immaterial ["command", "args", "timeout_secs"] inner inner') :
    Edit ((.scalar content, .map inner) :: entries) ((.scalar content, .map inner') :: entries)

theorem Immaterial.valuesOf_perm (h : Immaterial known entries entries') (hkey : key ∈ known) :
    (valuesOf key entries).Perm (valuesOf key entries') := by
  cases h with
  | permute h => exact h.filterMap _
  | add h =>
    have hne : String.ofList _ ≠ key := fun heq => h (heq ▸ hkey)
    rw [valuesOf_cons, if_neg hne]

theorem keyed_cons {content : Scalar} : Keyed ((.scalar content, node) :: entries) ↔
    Keyed entries := by
  simp [Keyed]

theorem Immaterial.keyed_iff (h : Immaterial known entries entries') :
    Keyed entries ↔ Keyed entries' := by
  cases h with
  | permute h => exact forall_congr' fun entry => by rw [h.mem_iff]
  | add => exact keyed_cons.symm

theorem settled?_perm (h : values.Perm values') :
    settled? decode given values = settled? decode given values' := by
  rcases values with _ | ⟨node, _ | ⟨node', values⟩⟩
  · rw [h.symm.eq_nil]
  · rw [List.perm_singleton.mp h.symm]
  · have hlength := h.length_eq
    rcases values' with _ | ⟨other, _ | ⟨other', values'⟩⟩
    · simp at hlength
    · simp at hlength
    · cases given <;> rfl

theorem settled?_congr (h : decode node = decode node') :
    settled? decode given (node :: values) = settled? decode given (node' :: values) := by
  cases given <;> cases values <;> simp [settled?, h]

theorem rendererOf?_immaterial
    (h : Immaterial ["command", "args", "timeout_secs"] entries entries') :
    rendererOf? (.map entries) = rendererOf? (.map entries') := by
  rw [rendererOf?, rendererOf?, settled?_perm (h.valuesOf_perm (by simp)),
    settled?_perm (h.valuesOf_perm (by simp)), settled?_perm (h.valuesOf_perm (by simp))]

/-- A change that does not count leaves what is configured. -/
theorem Edit.settingsOf?_eq (h : Edit entries entries') :
    settingsOf? temporary entries = settingsOf? temporary entries' := by
  cases h with
  | outside h =>
    rw [settingsOf?, settingsOf?, settled?_perm (h.valuesOf_perm (by simp)),
      settled?_perm (h.valuesOf_perm (by simp)), settled?_perm (h.valuesOf_perm (by simp))]
  | inside hkey h =>
    simp only [settingsOf?, valuesOf_cons, hkey, if_true, String.reduceEq, if_false]
    rw [settled?_congr (rendererOf?_immaterial h)]

theorem Edit.suitable_iff (h : Edit entries entries') : Suitable entries ↔ Suitable entries' := by
  rw [Config.suitable_iff, Config.suitable_iff]
  cases h with
  | outside h =>
    have hperm : (valuesOf "renderer" entries).Perm (valuesOf "renderer" entries') :=
      h.valuesOf_perm (by simp)
    simp only [h.keyed_iff, hperm.mem_iff]
  | inside hkey h =>
    simp only [keyed_cons, valuesOf_cons, hkey, if_true, List.forall_mem_cons, Node.map.injEq,
      exists_eq_left', h.keyed_iff]

/-! ## Files -/

/-- A file holds a document that is one node. -/
def Holds (d : Disk) (p : Path) (node : Node) : Prop :=
  ∃ bytes text places, d.contentAt p = .ok bytes ∧ Utf8.decode? bytes = some text ∧
    Document.ofText? text.toList = some ⟨node.items, places⟩

/-- A file holds more than one document. -/
def HoldsMore (d : Disk) (p : Path) : Prop :=
  ∃ bytes text tokens events, d.contentAt p = .ok bytes ∧ Utf8.decode? bytes = some text ∧
    Token.ofText? text.toList = some tokens ∧ Event.ofTokens? tokens = some events ∧
    1 < events.count .documentStart

theorem ofFile_eq {d : Disk} {p : Path} (h : Holds d p (.map entries)) (hs : Suitable entries) :
    ofFile d temporary p = (settingsOf? temporary entries).getD (standard temporary) := by
  obtain ⟨bytes, text, places, hcontent, htext, hdoc⟩ := h
  simp only [ofFile, ofContent, hcontent, htext, Option.bind_some, ofText?, hdoc,
    ofDocument?_map hs]

theorem ofFile_more {d : Disk} {p : Path} (h : HoldsMore d p) :
    ofFile d temporary p = standard temporary := by
  obtain ⟨bytes, text, tokens, events, hcontent, htext, htokens, hevents, hcount⟩ := h
  have hdoc : Document.ofText? text.toList = none := by
    simp [Document.ofText?, htokens, hevents, hcount]
  simp only [ofFile, ofContent, hcontent, htext, Option.bind_some, ofText?, hdoc,
    Option.bind_none, Option.getD_none]

theorem rendererOf?_eq_none_iff : rendererOf? (.map entries) = none ↔
    Bad text? (valuesOf "command" entries) ∨ Bad texts? (valuesOf "args" entries) ∨
      Bad Node.number? (valuesOf "timeout_secs" entries) := by
  simp only [rendererOf?, ← settled?_eq_none_iff]
  cases settled? text? none (valuesOf "command" entries) <;>
    cases settled? texts? none (valuesOf "args" entries) <;>
    cases settled? Node.number? none (valuesOf "timeout_secs" entries) <;> simp

/-- The renderer is not given, or once, or more than once. -/
theorem Suitable.renderer_cases (hs : Suitable entries) :
    (valuesOf "renderer" entries = [] ∧ ∀ key, innerValues key entries = []) ∨
    (∃ inner, valuesOf "renderer" entries = [.map inner] ∧
      ∀ key, innerValues key entries = valuesOf key inner) ∨
    2 ≤ (valuesOf "renderer" entries).length := by
  have hmaps := hs.renderer
  unfold innerValues
  generalize valuesOf "renderer" entries = values at hmaps ⊢
  rcases values with _ | ⟨node, _ | ⟨node', values⟩⟩
  · exact .inl ⟨rfl, fun _ => rfl⟩
  · obtain ⟨inner, rfl, -⟩ := hmaps node List.mem_cons_self
    exact .inr (.inl ⟨inner, rfl, fun _ => List.append_nil _⟩)
  · exact .inr (.inr (by simp))

theorem Suitable.renderer_eq_none_iff (hs : Suitable entries) :
    settled? rendererOf? none (valuesOf "renderer" entries) = none ↔
      2 ≤ (valuesOf "renderer" entries).length ∨ Bad text? (innerValues "command" entries) ∨
        Bad texts? (innerValues "args" entries) ∨
        Bad Node.number? (innerValues "timeout_secs" entries) := by
  obtain ⟨hnone, hinner⟩ | ⟨inner, hone, hinner⟩ | htwo := hs.renderer_cases
  · simp [hnone, hinner, settled?, Bad]
  · simp [hone, hinner, settled?, rendererOf?_eq_none_iff]
  · simp [settled?_eq_none_iff, Bad, htwo]

/-- Nothing is configured just when there is a fault. -/
theorem settingsOf?_eq_none_iff (hs : Suitable entries) :
    settingsOf? temporary entries = none ↔ Faulty entries := by
  have hsettings : settingsOf? temporary entries = none ↔
      settled? rendererOf? none (valuesOf "renderer" entries) = none ∨
      settled? text? none (valuesOf "save_dir" entries) = none ∨
      settled? text? none (valuesOf "work_dir" entries) = none := by
    unfold settingsOf?
    cases settled? rendererOf? none (valuesOf "renderer" entries) <;>
      cases settled? text? none (valuesOf "save_dir" entries) <;>
      cases settled? text? none (valuesOf "work_dir" entries) <;> simp
  rw [hsettings, hs.renderer_eq_none_iff, settled?_eq_none_iff, settled?_eq_none_iff,
    faulty_iff]
  tauto

theorem Suitable.takes_renderer (hs : Suitable entries) {after : Option RendererConfig}
    (h : settled? rendererOf? none (valuesOf "renderer" entries) = some after) :
    Takes text? "java" (innerValues "command" entries) (after.getD .standard).command ∧
    Takes texts? ["-jar", "plantuml.jar"] (innerValues "args" entries)
      (after.getD .standard).args ∧
    Takes Node.number? 60 (innerValues "timeout_secs" entries)
      (after.getD .standard).timeoutSeconds := by
  obtain ⟨hnone, hinner⟩ | ⟨inner, hone, hinner⟩ | htwo := hs.renderer_cases
  · rw [hnone] at h
    cases h
    simp only [hinner]
    exact ⟨.missing, .missing, .missing⟩
  · rw [hone] at h
    obtain ⟨config, hconfig, rfl⟩ := Option.map_eq_some_iff.mp h
    obtain ⟨f, ⟨hcommand, hargs, htimeout⟩, rfl⟩ := rendererOf?_map_eq_some_iff.mp hconfig
    simp only [hinner]
    exact ⟨takes_of_settled hcommand, takes_of_settled hargs, takes_of_settled htimeout⟩
  · have hnone : settled? rendererOf? none (valuesOf "renderer" entries) = none :=
      settled?_eq_none_iff.mpr (.inl htwo)
    cases hnone.symm.trans h

theorem takesEach_of_settingsOf? (hs : Suitable entries) {config : Config}
    (h : settingsOf? temporary entries = some config) : TakesEach temporary entries config := by
  simp only [settingsOf?, Option.bind_eq_bind, Option.bind_eq_some_iff, Option.pure_def,
    Option.some.injEq] at h
  obtain ⟨renderer, hrenderer, saveDir, hsaveDir, workDir, hworkDir, rfl⟩ := h
  obtain ⟨hcommand, hargs, htimeout⟩ := hs.takes_renderer hrenderer
  exact ⟨hcommand, hargs, htimeout, takes_map_of_settled Path.ofString hsaveDir,
    takes_map_of_settled Path.ofString hworkDir⟩

/-- Edits leave what is configured, however many of them there are and in whichever direction. -/
theorem settingsOf?_eqvGen (h : Relation.EqvGen Edit entries entries') :
    settingsOf? temporary entries = settingsOf? temporary entries' ∧
      (Suitable entries ↔ Suitable entries') := by
  induction h with
  | rel _ _ h => exact ⟨h.settingsOf?_eq, h.suitable_iff⟩
  | refl => exact ⟨rfl, Iff.rfl⟩
  | symm _ _ _ ih => exact ⟨ih.1.symm, ih.2.symm⟩
  | trans _ _ _ _ _ ih ih' => exact ⟨ih.1.trans ih'.1, ih.2.trans ih'.2⟩

/-- A file that holds a mapping gives all of its settings or none of them, and gives the same ones
after any edit that does not count. A limit out of range is a fault, and so is another document. -/
theorem file_is_taken_whole (temporary : Path) {d : Disk} {p : Path}
    {entries : List (Node × Node)} (h : Holds d p (.map entries)) (hs : Suitable entries) :
    (Faulty entries ∧ ofFile d temporary p = standard temporary ∨
      ¬ Faulty entries ∧ TakesEach temporary entries (ofFile d temporary p)) ∧
    (∀ d' p' entries', Relation.EqvGen Edit entries entries' → Holds d' p' (.map entries') →
      ofFile d' temporary p' = ofFile d temporary p) ∧
    (∀ content i, .scalar content ∈ innerValues "timeout_secs" entries →
      Text.Numeral content.text i → i < 0 ∨ 2 ^ 64 ≤ i → Faulty entries) ∧
    ∀ d' p', HoldsMore d' p' → ofFile d' temporary p' = standard temporary := by
  refine ⟨?_, ?_, ?_, fun d' p' h' => ofFile_more h'⟩
  · rw [ofFile_eq h hs]
    cases hsettings : settingsOf? temporary entries with
    | none => exact .inl ⟨(settingsOf?_eq_none_iff hs).mp hsettings, rfl⟩
    | some config =>
      refine .inr ⟨fun hfaulty => ?_, takesEach_of_settingsOf? hs hsettings⟩
      rw [(settingsOf?_eq_none_iff hs).mpr hfaulty] at hsettings
      cases hsettings
  · intro d' p' entries' hedits h'
    obtain ⟨hsettings, hsuitable⟩ := settingsOf?_eqvGen hedits
    rw [ofFile_eq h hs, ofFile_eq h' (hsuitable.mp hs), hsettings]
  · intro content i hmem hnumeral hrange
    refine .timeoutSeconds (.inr ⟨_, hmem, ?_⟩)
    rw [Node.number?, scalarNumber?, number?_eq_none hnumeral hrange]
    exact ite_self none

end

/-! ## Two files -/

/-- A disk with one file. -/
def single (content : Bytes) : Disk :=
  .set .empty ["umlserve.yaml".toList] (.file content 0)

theorem contentAt_single (content : Bytes) :
    (single content).contentAt (.ofString "umlserve.yaml") = .ok content := by
  cbv

/-- A scalar without quotes. -/
def plain (text : String) : Node :=
  .scalar ⟨text.toList, .plain, none⟩

/-- A limit for the renderer after an unknown key. -/
def looseText : String :=
  "work_dir: /w\nextra: [1]\nrenderer:\n  timeout_secs: 5\n"

/-- The mapping that the text is. -/
def loose : List (Node × Node) :=
  [(plain "work_dir", plain "/w"), (plain "extra", .list [plain "1"]),
    (plain "renderer", .map [(plain "timeout_secs", plain "5")])]

/-- The same limit first, before a key that the renderer does not have. -/
def tidyText : String :=
  "renderer:\n  timeout_secs: 5\n  colour: red\nwork_dir: /w\n"

/-- The mapping that this text is. -/
def tidy : List (Node × Node) :=
  [(plain "renderer", .map [(plain "timeout_secs", plain "5"), (plain "colour", plain "red")]),
    (plain "work_dir", plain "/w")]

theorem holds_single {text : String} {node : Node}
    (h : Document.ofText? text.toList = some ⟨node.items, []⟩) :
    Holds (single (Utf8.encode text)) (.ofString "umlserve.yaml") node :=
  ⟨Utf8.encode text, text, [], contentAt_single _, Utf8.decode?_encode text, h⟩

/-- The limit is taken, the other settings have their defaults, and the order does not count. -/
theorem loose_is_tidied :
    ofFile (single (Utf8.encode tidyText)) (.ofString "/tmp") (.ofString "umlserve.yaml") =
      ofFile (single (Utf8.encode looseText)) (.ofString "/tmp") (.ofString "umlserve.yaml") ∧
    ofFile (single (Utf8.encode looseText)) (.ofString "/tmp") (.ofString "umlserve.yaml") =
      ⟨⟨"java", ["-jar", "plantuml.jar"], 5⟩, .ofString "saved_diagrams", .ofString "/w"⟩ := by
  have hloose : Holds (single (Utf8.encode looseText)) (.ofString "umlserve.yaml") (.map loose) :=
    holds_single (by cbv)
  have htidy : Holds (single (Utf8.encode tidyText)) (.ofString "umlserve.yaml") (.map tidy) :=
    holds_single (by cbv)
  have hrenderer : valuesOf "renderer" loose = [.map [(plain "timeout_secs", plain "5")]] := by
    cbv
  have hs : Suitable loose := by
    refine ⟨by simp [Keyed, loose, plain], ?_⟩
    rw [hrenderer]
    simp [Keyed, plain]
  have hedits : Relation.EqvGen Edit loose tidy := by
    -- the unknown key goes from behind, the other two change places, and the renderer gains a key
    have hlast : Edit loose [(plain "extra", .list [plain "1"]),
        (plain "renderer", .map [(plain "timeout_secs", plain "5")]),
        (plain "work_dir", plain "/w")] :=
      .outside (.permute (List.perm_append_singleton _ _).symm)
    have hgone : Edit [(plain "renderer", .map [(plain "timeout_secs", plain "5")]),
        (plain "work_dir", plain "/w")] [(plain "extra", .list [plain "1"]),
        (plain "renderer", .map [(plain "timeout_secs", plain "5")]),
        (plain "work_dir", plain "/w")] :=
      .outside (.add (by simp))
    have hgained : Edit [(plain "renderer", .map [(plain "timeout_secs", plain "5")]),
        (plain "work_dir", plain "/w")] [(plain "renderer", .map [(plain "colour", plain "red"),
        (plain "timeout_secs", plain "5")]), (plain "work_dir", plain "/w")] :=
      .inside (by simp) (.add (by simp))
    have hswapped : Edit [(plain "renderer", .map [(plain "colour", plain "red"),
        (plain "timeout_secs", plain "5")]), (plain "work_dir", plain "/w")] tidy :=
      .inside (by simp) (.permute (.swap _ _ []))
    exact .trans _ _ _ (.rel _ _ hlast) (.trans _ _ _ (.symm _ _ (.rel _ _ hgone))
      (.trans _ _ _ (.rel _ _ hgained) (.rel _ _ hswapped)))
  obtain ⟨-, hsame, -⟩ := file_is_taken_whole (.ofString "/tmp") hloose hs
  exact ⟨hsame _ _ _ hedits htidy, by rw [ofFile_eq hloose hs]; cbv⟩

end DiagramService.Config
