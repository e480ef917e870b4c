import DiagramService.Path
import DiagramService.Text.Blank
import DiagramService.Text.Decimal

/-!
# Configuration

The service is told where it keeps its files and how the renderer is run. Every setting has a
default, and five variables of the environment override what was configured, each its own setting.
-/

namespace DiagramService

/-- How the renderer is run. -/
structure RendererConfig where
  /-- The name of the program. -/
  command : String
  /-- Its arguments before the source file. -/
  args : List String
  /-- How many seconds it may take. Zero stands for no limit. -/
  timeoutSeconds : UInt64
deriving DecidableEq, Repr

namespace RendererConfig

/-- The renderer when nothing is configured. -/
def standard : RendererConfig :=
  ⟨"java", ["-jar", "plantuml.jar"], 60⟩

/-- The limit in seconds, if there is one. -/
def limit? (config : RendererConfig) : Option Nat :=
  if config.timeoutSeconds = 0 then none else some config.timeoutSeconds.toNat

end RendererConfig

/-- The settings of the service. -/
structure Config where
  renderer : RendererConfig
  /-- Where saved diagrams are kept. -/
  saveDir : Path
  /-- Where scratch directories are made. -/
  workDir : Path
deriving DecidableEq, Repr

/-- What a variable of the environment is set to. -/
abbrev Lookup := String → Option String

namespace Config

/-- The settings when nothing is configured, with the directory for temporary files. -/
def standard (temporary : Path) : Config :=
  ⟨.standard, .ofString "saved_diagrams", temporary⟩

/-- The settings with the overrides of the environment. An invalid number is passed over. -/
def override (config : Config) (lookup : Lookup) : Config where
  saveDir := ((lookup "SAVE_DIR").map Path.ofString).getD config.saveDir
  workDir := ((lookup "WORK_DIR").map Path.ofString).getD config.workDir
  renderer :=
    { command := (lookup "RENDER_COMMAND").getD config.renderer.command
      args := ((lookup "RENDER_ARGS").map Text.words).getD config.renderer.args
      timeoutSeconds :=
        ((lookup "RENDER_TIMEOUT_SECS").bind fun s => Text.word? s.toList).getD
          config.renderer.timeoutSeconds }

/-- The directory for temporary files that the environment names. -/
def temporaryDir (lookup : Lookup) : Path :=
  .ofString ((lookup "TMPDIR").getD "/tmp")

end Config

end DiagramService
