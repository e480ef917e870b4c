import DiagramService.Disk.Operation
import DiagramService.Shell.Code

/-!
# Running programs

A running program does one thing to its surroundings after another and may sleep in between. What it
does is a function of the surroundings, so that its steps can be mixed with those of other programs.
Bytes flow through numbered buffers; what a program starts in the background is left in the
surroundings for the scheduler to take up.
-/

namespace DiagramService.Shell

/-- Where bytes are read from or written to. -/
inductive Stream where
  /-- Nowhere. -/
  | null
  | buffer (number : Nat)
  | file (path : Path)
deriving DecidableEq, Repr

/-- The state of a shell. -/
structure State where
  /-- The name it was called by. -/
  name : Bytes
  params : List Bytes
  vars : List (List Char × Bytes)
  /-- The status of the last command. -/
  status : Nat
  input : Stream
  output : Stream
  errors : Stream
  /-- The directory that relative paths start from, if it is not that of the service. -/
  dir : Option Path
  /-- The number of the last command in the background. -/
  last : Nat
  /-- The number of line breaks of the script. -/
  breaks : Nat
  /-- The variables that other programs are told. -/
  exports : List (List Char)
  /-- Whether the shell ends when a command fails. -/
  strict : Bool
  /-- Whether a failure is looked at and ends nothing. -/
  tested : Bool

/-- What programs act on. -/
structure Surroundings where
  disk : Disk
  /-- The time in milliseconds. -/
  now : Int
  buffers : Array Bytes
  /-- The commands started in the background and not yet taken up. -/
  born : List (Nat × Code × State)
  /-- How many commands have been started in the background. -/
  count : Nat
  /-- Which of them are running. -/
  alive : List Nat
  /-- The signal that ends the leader. -/
  signal : Option Nat

/-- What an action answers. -/
inductive Reply where
  | done
  | failed (error : IoError)
  | bytes (content : Bytes)
  | number (n : Nat)
  | flag (holds : Bool)

/-- A running program. -/
inductive Program (α : Type) where
  | done (result : α)
  /-- Acts and goes on with the answer. -/
  | act (run : Surroundings → Reply × Surroundings) (next : Reply → Program α)
  /-- Sleeps for some milliseconds, or for ever. -/
  | sleep (time : Option Nat) (next : Unit → Program α)

namespace Program

/-- One program after another. -/
def bind {α β : Type} (p : Program α) (k : α → Program β) : Program β :=
  match p with
  | .done result => k result
  | .act run next => .act run fun reply => bind (next reply) k
  | .sleep time next => .sleep time fun u => bind (next u) k

instance : Monad Program where
  pure := .done
  bind := .bind

/-- Acts until the program ends or sleeps. -/
def advance {α : Type} (p : Program α) (s : Surroundings) : Program α × Surroundings :=
  match p with
  | .done result => (.done result, s)
  | .act run next =>
    let r := run s
    advance (next r.1) r.2
  | .sleep time next => (.sleep time next, s)

/-- Does nothing for some milliseconds. -/
def pause (time : Nat) : Program Unit :=
  .sleep (some time) fun _ => .done ()

/-- Acts on the surroundings. -/
def ask (run : Surroundings → Reply × Surroundings) : Program Reply :=
  .act run .done

/-- Changes the surroundings. -/
def change (f : Surroundings → Surroundings) : Program Unit :=
  .act (fun s => (.done, f s)) fun _ => .done ()

/-- Looks whether something holds. -/
def holds (f : Surroundings → Bool) : Program Bool := do
  match ← ask fun s => (.flag (f s), s) with
  | .flag b => return b
  | _ => return false

/-- Reads bytes. -/
def read (f : Surroundings → Except IoError Bytes) : Program (Except IoError Bytes) := do
  match ← ask fun s =>
    match f s with
    | .ok content => (.bytes content, s)
    | .error e => (.failed e, s) with
  | .bytes content => return .ok content
  | .failed e => return .error e
  | _ => return .ok []

/-- Operates on the disk. -/
def onDisk (f : Disk → Int → Disk.Answer Unit) : Program (Except IoError Unit) := do
  match ← ask fun s =>
    match f s.disk s.now with
    | (.ok (), disk) => (.done, { s with disk := disk })
    | (.error e, disk) => (.failed e, { s with disk := disk }) with
  | .failed e => return .error e
  | _ => return .ok ()

/-- A new buffer with some content. -/
def newBuffer (content : Bytes) : Program Nat := do
  match ← ask fun s =>
    (.number s.buffers.size, { s with buffers := s.buffers.push content }) with
  | .number n => return n
  | _ => return 0

/-- Takes all of a buffer. -/
def takeBuffer (number : Nat) : Program Bytes := do
  match ← ask fun s =>
    (.bytes (s.buffers.getD number []),
      { s with buffers := s.buffers.setIfInBounds number [] }) with
  | .bytes content => return content
  | _ => return []

/-- Puts bytes back before those of a buffer. -/
def putBack (number : Nat) (bytes : Bytes) : Program Unit :=
  change fun s => { s with buffers := s.buffers.modify number (bytes ++ ·) }

/-- Writes bytes to a stream. -/
def emit (stream : Stream) (bytes : Bytes) : Program Unit := do
  match stream with
  | .null => return ()
  | .buffer number =>
    change fun s => { s with buffers := s.buffers.modify number (· ++ bytes) }
  | .file path =>
    if bytes.isEmpty then return ()
    let _ ← onDisk fun d now => d.appendFile path bytes now

/-- Reads all that is left of a stream. -/
def drain (stream : Stream) : Program Bytes :=
  match stream with
  | .buffer number => takeBuffer number
  | _ => return []

end Program

/-- The text of bytes that are used as a name. -/
def nameOf (bytes : Bytes) : List Char :=
  (Utf8.decodeLossy bytes).toList

namespace State

/-- The path that a word names. -/
def path (sh : State) (word : Bytes) : Path :=
  let p : Path := ⟨nameOf word⟩
  match sh.dir with
  | some dir => if p.isAbsolute || p.chars.isEmpty then p else dir.join p.chars
  | none => p

/-- The value of a variable. -/
def get? (sh : State) (name : List Char) : Option Bytes :=
  sh.vars.lookup name

/-- The same with another value of a variable. -/
def set (sh : State) (name : List Char) (value : Bytes) : State :=
  { sh with vars := (name, value) :: sh.vars.filter (·.1 != name) }

/-- Writes to the output. -/
def print (sh : State) (bytes : Bytes) : Program Unit :=
  Program.emit sh.output bytes

/-- Writes to the output for errors. -/
def complain (sh : State) (text : String) : Program Unit :=
  Program.emit sh.errors (Utf8.encode text)

end State

end DiagramService.Shell
