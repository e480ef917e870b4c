import DiagramService.CommandLine.Address
import DiagramService.CommandLine.Wording
import DiagramService.Config.Environment
import DiagramService.Service.Basic

/-!
# Running a command

A command shows how the service is configured, renders one file, or starts the service. It answers
with a code, what it prints and what it complains about, and with the disk after it. Rendering
writes one file at the end, and nothing is written before the image is there.
-/

namespace DiagramService.CommandLine

/-- What the program is run in. -/
structure Surroundings where
  lookup : Lookup
  disk : Disk
  /-- The renderer that a configuration names. -/
  renderer : RendererConfig → Renderer
  /-- The endings of the names that are drawn for a scratch directory. -/
  endings : List (List Char)
  /-- What the clock shows. -/
  now : Int

/-- How the program ends. -/
structure Result where
  code : Nat
  output : String
  errors : String
  disk : Disk

namespace Result

/-- All went well. -/
def success (output : String) (d : Disk) : Result :=
  ⟨0, output, "", d⟩

/-- Something failed. -/
def failure (message : String) (d : Disk) : Result :=
  ⟨1, "", "Error: " ++ message ++ "\n", d⟩

end Result

/-- The version of the program. -/
def version : String := "0.1.0"

/-- The address that is listened on when none is given. -/
def standardAddress : String := "0.0.0.0:8000"

/-- The limit of the renderer in words. -/
def limitText (config : RendererConfig) : String :=
  match config.limit? with
  | some seconds => Text.natText seconds ++ "s"
  | none => "none"

/-- How the service is configured. -/
def statusText (s : Surroundings) : String :=
  let config := Config.ofEnvironment s.disk s.lookup
  "umlserve v" ++ version ++ "\nPlantUML rendering service\n\nEnvironment Variables:\n" ++
    "  BIND_ADDR   = " ++ (s.lookup "BIND_ADDR").getD (standardAddress ++ " (default)") ++ "\n" ++
    "  CONFIG_FILE = " ++ (s.lookup "CONFIG_FILE").getD "(not set)" ++ "\n\n" ++
    "Effective Configuration:\n" ++
    "  Renderer:  " ++ config.renderer.command ++ " " ++ " ".intercalate config.renderer.args ++
    "\n  Timeout:   " ++ limitText config.renderer ++
    "\n  Save dir:  " ++ config.saveDir.toString ++
    "\n  Work dir:  " ++ config.workDir.toString ++
    "\n\nCommands:\n  umlserve serve    Start the HTTP server\n" ++
    "  umlserve render   Render a diagram file to PNG\n\n" ++
    "Run 'umlserve --help' for more details.\n"

/-- Where the image of an input goes if nothing else is said. -/
def outputPath (input : Path) (output : Option String) : Path :=
  (output.map Path.ofString).getD (renderedImagePath input)

/-- Renders a file. -/
def render (s : Surroundings) (input : Path) (output : Option String) : Result :=
  let config := Config.ofEnvironment s.disk s.lookup
  match s.disk.readText input with
  | .error e => .failure ("Failed to read " ++ input.toString ++ ": " ++ e.message) s.disk
  | .ok text =>
    if Text.trim text = "" then .failure (input.toString ++ " contains no diagram text") s.disk
    else
      let rendering : Rendering := ⟨config.renderer, config.workDir, Text.trim text⟩
      match rendering.perform (s.renderer config.renderer) s.endings s.disk s.now with
      | (.error e, d) => .failure ("Render error: " ++ e.message) d
      | (.ok image, d) =>
        let target := outputPath input output
        match d.writeFile target image s.now with
        | (.error e, d) => .failure e.message d
        | (.ok (), d) =>
          .success ("Rendered " ++ target.toString ++ " (" ++ Text.natText image.length ++
            " bytes)\n") d

/-- Starts the service, as far as it fails. -/
def serve (s : Surroundings) : Result :=
  let config := Config.ofEnvironment s.disk s.lookup
  match Service.start config s.disk with
  | (.error message, d) => .failure message d
  | (.ok _, d) =>
    match checkAddress ((s.lookup "BIND_ADDR").getD standardAddress) with
    | .error e => .failure e.message d
    | .ok () => .success "" d

/-- Runs the program with its arguments. -/
def run (s : Surroundings) (args : List String) : Result :=
  match Command.ofArguments args with
  | .ok .status => .success (statusText s) s.disk
  | .ok (.render input output) => render s (.ofString input) output
  | .ok .serve => serve s
  | .error (.help level) => .success level.helpText s.disk
  | .error (.complaint complaint) => ⟨2, "", complaint.message, s.disk⟩

end DiagramService.CommandLine
