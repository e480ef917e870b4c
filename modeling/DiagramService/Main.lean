import DiagramService.CommandLine.Run
import DiagramService.Shell.Group

/-!
# The program

The files that the arguments and the environment name are read, the command is run, and the files
and directories that are new or changed are written. The renderer is a script of the shell that this
library runs.
-/

open DiagramService

/-- The disk with a file that is there. -/
def loadFile (d : Disk) (name : String) : IO Disk := do
  try
    let content ← IO.FS.readBinFile ⟨name⟩
    let p := Path.ofString name
    let made := (d.makeDirs (p.parent?.getD p)).2
    return (made.writeFile p content.toList 0).2
  catch _ => return d

/-- A disk with a working directory and the directory for temporary files. -/
def startDisk (working temporary : String) : Disk :=
  let made := (Disk.empty.makeDirs (.ofString working)).2
  let made := (made.makeDirs (.ofString temporary)).2
  { made with working := (Disk.namesOf (.ofString working)).reverse }

/-- Writes an entry that is new or changed. -/
def storeEntry (before : Disk) (place : Place) (entry : Entry) : IO Unit := do
  let name := (Disk.pathOf place).toString
  if before.get? place != some entry then
    match entry with
    | .directory => IO.FS.createDirAll ⟨name⟩
    | .file content _ => IO.FS.writeBinFile ⟨name⟩ ⟨content.toArray⟩
    | _ => return ()

/-- The variableNames that the program looks at. -/
def variableNames : List String :=
  ["CONFIG_FILE", "BIND_ADDR", "SAVE_DIR", "WORK_DIR", "RENDER_COMMAND", "RENDER_ARGS",
    "RENDER_TIMEOUT_SECS", "TMPDIR"]

/-- Runs the program. -/
def main (args : List String) : IO UInt32 := do
  let mut set : List (String × String) := []
  for name in variableNames do
    if let some value ← IO.getEnv name then set := (name, value) :: set
  let values := set
  let lookup : Lookup := fun name => values.lookup name
  let mut d := startDisk (← IO.currentDir).toString (Config.temporaryDir lookup).toString
  let named := Text.words ((lookup "RENDER_ARGS").getD "")
  for name in args ++ named ++ (lookup "CONFIG_FILE").toList do
    d ← loadFile d name
  let seed ← IO.rand 0 1000000000
  let now ← IO.monoMsNow
  let result := CommandLine.run
    { lookup := lookup, disk := d, renderer := fun config => Shell.renderer config now
      endings := Scratch.endingsFrom seed, now := now } args
  for (place, entry) in result.disk.entries.reverse do
    storeEntry d place entry
  IO.print result.output
  IO.eprint result.errors
  return UInt32.ofNat result.code
