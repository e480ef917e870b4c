import DiagramService.Config.File
import DiagramService.Disk.Operation

/-!
# The effective configuration

The environment names the configuration file, if there is one, and overrides single settings.
-/

namespace DiagramService

namespace Config

/-- The configuration of a file, or the defaults if it cannot be used. -/
def ofFile (d : Disk) (temporary p : Path) : Config :=
  ofContent temporary (d.contentAt p)

/-- The configuration that the service is run with. -/
def ofEnvironment (d : Disk) (lookup : Lookup) : Config :=
  let temporary := temporaryDir lookup
  let base :=
    match lookup "CONFIG_FILE" with
    | some file => ofFile d temporary (.ofString file)
    | none => standard temporary
  base.override lookup

end Config

end DiagramService
