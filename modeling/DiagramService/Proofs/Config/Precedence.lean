import Mathlib
import DiagramService.Config.Environment
import DiagramService.Proofs.Config.Settings

/-! Where the settings come from. Each setting has the value of its own variable of the environment
if that is set, or else the value that the configuration file gives, if the file is valid as a
whole, or else its default. So no setting depends on the variable of another one, and of an invalid
file nothing is used. -/

namespace DiagramService

open Yaml

/-! ## Values of settings -/

namespace Yaml.Document

/-- The path that a node spells. -/
def pathAt (d : Document) (node : List Item) : Option Path :=
  (d.textAt node).map Path.ofString

/-- The texts in a list. -/
def textsAt (d : Document) (node : List Item) : Option (List String) :=
  (Config.readList? d node).map (·.1)

/-- The number that a node spells. -/
def numberAt (d : Document) (node : List Item) : Option UInt64 :=
  (Config.readNumber? d node).map (·.1)

end Yaml.Document

namespace Config

/-- The document of the configuration file that a variable names, if the file is valid as a whole:
it can be read, is the text of one document, and nothing in the document is refused. -/
structure Valid (d : Disk) (file : Option String) (doc : Document) : Prop where
  named : ∃ name content text, file = some name ∧ d.contentAt (.ofString name) = .ok content ∧
    Utf8.decode? content = some text ∧ Document.ofText? text.toList = some doc
  taken : ∃ temporary config, ofDocument? temporary doc = some config

/-- Where the value of a setting comes from, given its own variable, the documents of valid files,
the keys that lead to it and its default. -/
inductive Effective {α : Type} (own : Option α) (file : Document → Prop) (keys : List String)
    (read : Document → List Item → Option α) (default : α) : α → Prop
  | ofVariable {value : α} (h : own = some value) : Effective own file keys read default value
  | ofFile {doc : Document} {node : List Item} {value : α} (h : own = none) (hfile : file doc)
    (hnode : doc.valuesAt keys doc.items = [node]) (hread : read doc node = some value) :
    Effective own file keys read default value
  | byDefault (h : own = none) (hmissing : ∀ doc, file doc → doc.valuesAt keys doc.items = []) :
    Effective own file keys read default default

section Effective

variable {α β : Type} {own : Option α} {file : Document → Prop} {keys : List String}
  {read : Document → List Item → Option α} {default value value' : α} {doc : Document}

/-- There is one value at most. -/
theorem Effective.unique (hone : ∀ doc doc', file doc → file doc' → doc = doc')
    (h : Effective own file keys read default value)
    (h' : Effective own file keys read default value') : value = value' := by
  cases h with
  | ofVariable h =>
    cases h' with
    | ofVariable h' => exact Option.some.inj (h.symm.trans h')
    | ofFile h' => cases h.symm.trans h'
    | byDefault h' => cases h.symm.trans h'
  | ofFile h hfile hnode hread =>
    cases h' with
    | ofVariable h' => cases h.symm.trans h'
    | ofFile _ hfile' hnode' hread' =>
      obtain rfl := hone _ _ hfile hfile'
      cases hnode.symm.trans hnode'
      exact Option.some.inj (hread.symm.trans hread')
    | byDefault _ hmissing => cases hnode.symm.trans (hmissing _ hfile)
  | byDefault h hmissing =>
    cases h' with
    | ofVariable h' => cases h.symm.trans h'
    | ofFile _ hfile hnode => cases (hmissing _ hfile).symm.trans hnode
    | byDefault => rfl

theorem Effective.of_missing (h : ∀ doc, file doc → doc.valuesAt keys doc.items = []) :
    Effective own file keys read default (own.getD default) := by
  cases own with
  | none => exact .byDefault rfl h
  | some value => exact .ofVariable rfl

/-- A setting has the value that the only valid file gives, unless its variable is set. -/
theorem Effective.of_given (hfile : file doc) (hone : ∀ doc', file doc' → doc' = doc)
    {readHere : List Item → Option (β × List Item)} {given : Option β}
    (h : Given doc keys readHere given) (f : β → α) {shown : Option α}
    (hshown : given.map f = shown)
    (hread : ∀ node, read doc node = (readHere node).map fun value => f value.1) :
    Effective own file keys read default (own.getD (shown.getD default)) := by
  subst hshown
  cases h with
  | missing h =>
    refine .of_missing fun doc' hdoc' => ?_
    rw [hone doc' hdoc', h]
  | once hnode hhere =>
    cases own with
    | none => exact .ofFile rfl hfile hnode (by rw [hread, hhere]; rfl)
    | some value => exact .ofVariable rfl

end Effective

/-! ## Configuration files -/

section File

variable {d : Disk} {file : Option String} {doc doc' : Document}

/-- A variable names one file. -/
theorem Valid.unique (h : Valid d file doc) (h' : Valid d file doc') : doc = doc' := by
  obtain ⟨name, content, text, rfl, hcontent, htext, hdoc⟩ := h.named
  obtain ⟨name', content', text', hname, hcontent', htext', hdoc'⟩ := h'.named
  cases hname
  cases hcontent.symm.trans hcontent'
  cases htext.symm.trans htext'
  exact Option.some.inj (hdoc.symm.trans hdoc')

/-- Whether a document is taken does not depend on the directory for temporary files. -/
theorem ofDocument?_isSome (temporary temporary' : Path) (doc : Document) :
    (ofDocument? temporary doc).isSome = (ofDocument? temporary' doc).isSome := by
  unfold ofDocument?
  split
  · rfl
  · simp
  · split <;> rfl
  · rfl

/-- What is configured before the environment overrides it. -/
def base (d : Disk) (file : Option String) (temporary : Path) : Config :=
  match file with
  | some name => ofFile d temporary (.ofString name)
  | none => standard temporary

/-- The file is valid and gives its settings, or all settings have their defaults. -/
theorem base_cases (d : Disk) (file : Option String) (temporary : Path) :
    (∃ doc f g, Valid d file doc ∧ Sets doc f g ∧
      base d file temporary = { f with renderer := some g.toConfig : Fields }.toConfig temporary) ∨
    (∀ doc, ¬ Valid d file doc) ∧ base d file temporary = standard temporary := by
  by_cases hvalid : ∃ doc, Valid d file doc
  · obtain ⟨doc, hdoc⟩ := hvalid
    obtain ⟨name, content, text, rfl, hcontent, htext, hofText⟩ := hdoc.named
    obtain ⟨temporary', config', hconfig'⟩ := hdoc.taken
    obtain ⟨config, hconfig⟩ : ∃ config, ofDocument? temporary doc = some config := by
      rw [← Option.isSome_iff_exists, ofDocument?_isSome temporary temporary', hconfig']
      rfl
    obtain ⟨f, g, hsets, rfl⟩ := ofDocument?_sets hofText hconfig
    refine .inl ⟨doc, f, g, hdoc, hsets, ?_⟩
    simp [base, ofFile, ofContent, hcontent, htext, ofText?, hofText, hconfig]
  · refine .inr ⟨fun doc hdoc => hvalid ⟨doc, hdoc⟩, ?_⟩
    cases file with
    | none => rfl
    | some name =>
      cases hcontent : d.contentAt (.ofString name) with
      | error cause => simp [base, ofFile, ofContent, hcontent]
      | ok content =>
        -- a document that is taken would make the file valid
        have hnone : (Utf8.decode? content).bind (ofText? temporary) = none := by
          rw [Option.eq_none_iff_forall_ne_some]
          intro config hconfig
          obtain ⟨text, htext, hconfig⟩ := Option.bind_eq_some_iff.mp hconfig
          obtain ⟨doc, hdoc, hconfig⟩ := Option.bind_eq_some_iff.mp hconfig
          exact hvalid ⟨doc, ⟨name, content, text, rfl, hcontent, htext, hdoc⟩, _, _, hconfig⟩
        simp [base, ofFile, ofContent, hcontent, hnone]

end File

/-! ## The environment -/

theorem ofEnvironment_eq (d : Disk) (lookup : Lookup) : ofEnvironment d lookup =
    (base d (lookup "CONFIG_FILE") (temporaryDir lookup)).override lookup := by
  unfold ofEnvironment base
  cases lookup "CONFIG_FILE" <;> rfl

/-- Each setting of a configuration has its own variable, keys of the file and default. -/
structure Layered (d : Disk) (lookup : Lookup) (config : Config) : Prop where
  saveDir : Effective ((lookup "SAVE_DIR").map Path.ofString) (Valid d (lookup "CONFIG_FILE"))
    ["save_dir"] Document.pathAt (.ofString "saved_diagrams") config.saveDir
  workDir : Effective ((lookup "WORK_DIR").map Path.ofString) (Valid d (lookup "CONFIG_FILE"))
    ["work_dir"] Document.pathAt (temporaryDir lookup) config.workDir
  command : Effective (lookup "RENDER_COMMAND") (Valid d (lookup "CONFIG_FILE"))
    ["renderer", "command"] Document.textAt "java" config.renderer.command
  args : Effective ((lookup "RENDER_ARGS").map Text.words) (Valid d (lookup "CONFIG_FILE"))
    ["renderer", "args"] Document.textsAt ["-jar", "plantuml.jar"] config.renderer.args
  timeoutSeconds : Effective ((lookup "RENDER_TIMEOUT_SECS").bind fun s => Text.word? s.toList)
    (Valid d (lookup "CONFIG_FILE")) ["renderer", "timeout_secs"] Document.numberAt 60
    config.renderer.timeoutSeconds

theorem ofEnvironment_layered (d : Disk) (lookup : Lookup) :
    Layered d lookup (ofEnvironment d lookup) := by
  rw [ofEnvironment_eq]
  obtain ⟨doc, f, g, hvalid, hsets, hbase⟩ | ⟨hinvalid, hbase⟩ :=
    base_cases d (lookup "CONFIG_FILE") (temporaryDir lookup)
  · have hone : ∀ doc', Valid d (lookup "CONFIG_FILE") doc' → doc' = doc :=
      fun _ h => h.unique hvalid
    rw [hbase]
    refine ⟨?saveDir, ?workDir, ?command, ?args, ?timeoutSeconds⟩
    case saveDir =>
      exact .of_given hvalid hone hsets.saveDir Path.ofString rfl fun node => by
        rw [Document.pathAt, Document.textAt, Option.map_map]
        rfl
    case workDir =>
      exact .of_given hvalid hone hsets.workDir Path.ofString rfl fun node => by
        rw [Document.pathAt, Document.textAt, Option.map_map]
        rfl
    case command => exact .of_given hvalid hone hsets.command id Option.map_id_apply fun _ => rfl
    case args => exact .of_given hvalid hone hsets.args id Option.map_id_apply fun _ => rfl
    case timeoutSeconds =>
      exact .of_given hvalid hone hsets.timeoutSeconds id Option.map_id_apply fun _ => rfl
  · have hmissing : ∀ keys doc, Valid d (lookup "CONFIG_FILE") doc →
        doc.valuesAt keys doc.items = [] := fun _ doc h => absurd h (hinvalid doc)
    rw [hbase]
    exact ⟨.of_missing (hmissing _), .of_missing (hmissing _), .of_missing (hmissing _),
      .of_missing (hmissing _), .of_missing (hmissing _)⟩

/-- Each setting has the value of its own variable, or else that of the valid file, or else its
default. It depends on no variable of another setting, and an invalid file is no file. -/
theorem settings_have_one_precedence (d : Disk) (lookup : Lookup) :
    Layered d lookup (ofEnvironment d lookup) ∧
    (∀ other : Lookup, other "CONFIG_FILE" = lookup "CONFIG_FILE" →
      (other "SAVE_DIR" = lookup "SAVE_DIR" →
        (ofEnvironment d other).saveDir = (ofEnvironment d lookup).saveDir) ∧
      (other "WORK_DIR" = lookup "WORK_DIR" → other "TMPDIR" = lookup "TMPDIR" →
        (ofEnvironment d other).workDir = (ofEnvironment d lookup).workDir) ∧
      (other "RENDER_COMMAND" = lookup "RENDER_COMMAND" →
        (ofEnvironment d other).renderer.command = (ofEnvironment d lookup).renderer.command) ∧
      (other "RENDER_ARGS" = lookup "RENDER_ARGS" →
        (ofEnvironment d other).renderer.args = (ofEnvironment d lookup).renderer.args) ∧
      (other "RENDER_TIMEOUT_SECS" = lookup "RENDER_TIMEOUT_SECS" →
        (ofEnvironment d other).renderer.timeoutSeconds =
          (ofEnvironment d lookup).renderer.timeoutSeconds)) ∧
    ((∀ doc, ¬ Valid d (lookup "CONFIG_FILE") doc) →
      ofEnvironment d lookup = (standard (temporaryDir lookup)).override lookup) := by
  refine ⟨ofEnvironment_layered d lookup, fun other hfile => ?_, fun hinvalid => ?_⟩
  · obtain ⟨hsaveDir, hworkDir, hcommand, hargs, htimeout⟩ := ofEnvironment_layered d lookup
    obtain ⟨hsaveDir', hworkDir', hcommand', hargs', htimeout'⟩ := ofEnvironment_layered d other
    have hone : ∀ doc doc', Valid d (lookup "CONFIG_FILE") doc →
        Valid d (lookup "CONFIG_FILE") doc' → doc = doc' := fun _ _ h h' => h.unique h'
    rw [hfile] at hsaveDir' hworkDir' hcommand' hargs' htimeout'
    refine ⟨fun h => ?_, fun h htmp => ?_, fun h => ?_, fun h => ?_, fun h => ?_⟩
    · rw [h] at hsaveDir'
      exact hsaveDir'.unique hone hsaveDir
    · rw [h, temporaryDir, htmp] at hworkDir'
      exact hworkDir'.unique hone hworkDir
    · rw [h] at hcommand'
      exact hcommand'.unique hone hcommand
    · rw [h] at hargs'
      exact hargs'.unique hone hargs
    · rw [h] at htimeout'
      exact htimeout'.unique hone htimeout
  · rw [ofEnvironment_eq]
    obtain ⟨doc, f, g, hvalid, -⟩ | ⟨-, hbase⟩ :=
      base_cases d (lookup "CONFIG_FILE") (temporaryDir lookup)
    · exact absurd hvalid (hinvalid doc)
    · rw [hbase]

/-- A file that gives the directory for diagrams and the program. -/
def partialFile : Disk :=
  .set .empty ["umlserve.yaml".toList]
    (.file (Utf8.encode "renderer:\n  command: plantuml\nsave_dir: /data\n") 0)

/-- An environment with another directory and a limit. -/
def partialVariables : Lookup := fun name =>
  if name = "CONFIG_FILE" then some "umlserve.yaml"
  else if name = "SAVE_DIR" then some "here"
  else if name = "RENDER_TIMEOUT_SECS" then some "5"
  else none

/-- The program is that of the file, although the directory beside it is overridden. -/
theorem partialFile_is_used :
    Layered partialFile partialVariables (ofEnvironment partialFile partialVariables) ∧
    ofEnvironment partialFile partialVariables =
      ⟨⟨"plantuml", ["-jar", "plantuml.jar"], 5⟩, .ofString "here", .ofString "/tmp"⟩ :=
  ⟨(settings_have_one_precedence partialFile partialVariables).1, by cbv⟩

end Config

end DiagramService
