import DiagramService.CommandLine.Similarity

/-!
# The arguments of the command line

The first argument names a command, and a command to render has arguments of its own: the input and
at most one output. Arguments after `--` are not options. A complaint tells what is wrong, and what
it needs to know to say how it is done right.
-/

namespace DiagramService.CommandLine

/-- What arguments belong to. -/
inductive Level where
  /-- The program itself. -/
  | top
  | serve
  | render
  | help
deriving DecidableEq, Repr

/-- An argument that a command knows. -/
inductive Known where
  | input
  | output
  | help
deriving DecidableEq, Repr

/-- What the program is told to do. -/
inductive Command where
  /-- Shows how it is configured. -/
  | status
  | serve
  | render (input : String) (output : Option String)
deriving DecidableEq, Repr

/-- What is wrong with the arguments. -/
inductive Complaint where
  /-- An argument that is not known. There may be a similar one, here or of another command, or it
  may be meant as a value. The arguments before it are known. -/
  | unknown (level : Level) (argument : String) (similar : Option (String × Option String))
      (passable : Bool) (used : List Known)
  | unknownCommand (level : Level) (name : String) (similar : List String)
  /-- A command after `--`. -/
  | escapedCommand (name : String)
  | missingValue (argument : Known)
  | repeated
  | missingInput (used : List Known)
  /-- A value for an option that takes none. -/
  | needlessValue (level : Level) (value : String) (used : List Known)
deriving DecidableEq, Repr

/-- Why the arguments do not lead to a command. -/
inductive Stop where
  /-- Help was asked for. -/
  | help (level : Level)
  | complaint (complaint : Complaint)
deriving DecidableEq, Repr

namespace Level

/-- The names of commands. -/
def commandNames : List String := ["serve", "render", "help"]

/-- The long options of a level. -/
def options : Level → List String
  | .render => ["output", "help"]
  | .help => []
  | _ => ["help"]

/-- The level of a command. -/
def ofName? : String → Option Level
  | "serve" => some .serve
  | "render" => some .render
  | "help" => some .help
  | _ => none

end Level

/-- An argument that is still being read. -/
inductive Pending where
  | nothing
  | input (value : String)
  | output (value : Option String)
deriving DecidableEq, Repr

/-- What has been read of the arguments of a command. -/
structure Parsed where
  input : Option String := none
  output : Option String := none
  /-- The arguments that were given, in order. -/
  used : List Known := []
deriving DecidableEq, Repr

namespace Parsed

/-- Notes that an argument was given. -/
def use (p : Parsed) (k : Known) : Parsed :=
  { p with used := p.used.filter (· ≠ k) ++ [k] }

/-- Takes up the argument that was being read. -/
def settle (p : Parsed) : Pending → Parsed × Option Complaint
  | .nothing => (p, none)
  | .input value =>
    if value = "" then (p.use .input, some (.missingValue .input))
    else ({ p with input := some value }.use .input, none)
  | .output none => (p, some (.missingValue .output))
  | .output (some value) =>
    if p.used.contains .output then
      ({ p with output := none, used := p.used.filter (· ≠ .output) }, some .repeated)
    else if value = "" then (p.use .output, some (.missingValue .output))
    else ({ p with output := some value }.use .output, none)

/-- Takes up the argument that was being read, if there is nothing wrong with it. -/
def settled (p : Parsed) (pending : Pending) : Except Stop Parsed :=
  match p.settle pending with
  | (p, none) => .ok p
  | (_, some complaint) => .error (.complaint complaint)

end Parsed

/-- The name and the value of a long option. -/
def longOption? (arg : String) : Option (String × Option String) :=
  match arg.toList with
  | '-' :: '-' :: rest =>
    if rest.isEmpty then none
    else
      let name := rest.takeWhile (· != '=')
      match rest.drop name.length with
      | _ :: value => some (String.ofList name, some (String.ofList value))
      | [] => some (String.ofList name, none)
  | _ => none

/-- The letters of short options. -/
def shortOptions? (arg : String) : Option (List Char) :=
  match arg.toList with
  | '-' :: c :: rest => if c == '-' then none else some (c :: rest)
  | _ => none

/-- A similar option, here or of a command that is named later. -/
def similarOption? (level : Level) (name : String) (later : List String) :
    Option (String × Option String) :=
  match (similarTo name level.options).getLast? with
  | some option => some (option, none)
  | none =>
    if level ≠ .top then none
    else
      let found := (["serve", "render"] : List String).filterMap fun command =>
        match (Level.ofName? command).bind fun l => (similarTo name l.options).getLast? with
        | some option => (later.findIdx? (· == command)).map fun i => (i, option, command)
        | none => none
      match found with
      | [] => none
      | first :: rest =>
        let best := rest.foldl (fun best other => if other.1 < best.1 then other else best) first
        some (best.2.1, some best.2.2)

/-- The argument that an option is. -/
def knownOption? : String → Option Known
  | "output" => some .output
  | "help" => some .help
  | _ => none

/-- The complaint about a long option that is not known. -/
def unknownLong (level : Level) (used : List Known) (name : String) (later : List String) :
    Complaint :=
  let similar := similarOption? level name later
  let more := similar.bind fun (option, command) =>
    if command.isSome then none else knownOption? option
  let used := match more with
    | some k => if used.contains k then used else used ++ [k]
    | none => used
  .unknown level ("--" ++ name) similar (similar.isNone && level == .render) used

/-- The complaint about a short option that is not known. -/
def unknownShort (level : Level) (c : Char) : Complaint :=
  .unknown level ("-" ++ String.singleton c) none (level == .render) []

/-- What short options of the level `render` lead to: an output to read next, or nothing new. -/
def readShort (p : Parsed) (pending : Pending) (letters : List Char) :
    Except Stop (Parsed × Pending) :=
  match letters with
  | [] => .ok (p, pending)
  | 'h' :: _ => do
    let _ ← p.settled pending
    .error (.help .render)
  | 'o' :: rest => do
    let p ← p.settled pending
    match rest with
    | [] => .ok (p, .output none)
    | '=' :: value => return (← p.settled (.output (some (String.ofList value))), .nothing)
    | value => return (← p.settled (.output (some (String.ofList value))), .nothing)
  | c :: _ => .error (.complaint (unknownShort .render c))

/-- What a long option of the level `render` leads to. -/
def readLong (p : Parsed) (pending : Pending) (name : String) (value : Option String)
    (later : List String) : Except Stop (Parsed × Pending) :=
  match knownOption? name, value with
  | some .output, none => do return (← p.settled pending, .output none)
  | some .output, some value => do
    let p ← p.settled pending
    return (← p.settled (.output (some value)), .nothing)
  | some .help, none => do
    let _ ← p.settled pending
    .error (.help .render)
  | some .help, some value =>
    .error (.complaint (.needlessValue .render value (p.used.filter (· ≠ .input))))
  | _, _ => .error (.complaint (unknownLong .render (p.settle pending).1.used name later))

/-- What a positional argument of the level `render` leads to. -/
def readPositional (p : Parsed) (pending : Pending) (arg : String) :
    Except Stop (Parsed × Pending) :=
  match pending with
  | .input _ => .error (.complaint (.unknown .render arg none false []))
  | _ =>
    if p.used.contains .input then .error (.complaint (.unknown .render arg none false []))
    else do return (← p.settled pending, .input arg)

/-- Reads the arguments of the command to render. -/
def readRender (p : Parsed) (pending : Pending) (escaped : Bool) :
    List String → Except Stop Command
  | [] => do
    let p ← p.settled pending
    match p.input with
    | some input => return .render input p.output
    | none => .error (.complaint (.missingInput p.used))
  | arg :: args => do
    if escaped then
      let (p, pending) ← readPositional p pending arg
      readRender p pending true args
    else if arg = "--" then readRender p pending true args
    else
      match longOption? arg, shortOptions? arg with
      | some (name, value), _ =>
        let (p, pending) ← readLong p pending name value args
        readRender p pending false args
      | none, some letters =>
        let (p, pending) ← readShort p pending letters
        readRender p pending false args
      | none, none =>
        if pending = .output none then readRender p (.output (some arg)) false args
        else
          let (p, pending) ← readPositional p pending arg
          readRender p pending false args

/-- What an option of a level without other options leads to. -/
def readHelpOption (level : Level) (arg : String) (later : List String) : Option Stop :=
  match longOption? arg, shortOptions? arg with
  | some ("help", none), _ => some (.help level)
  | some ("help", some value), _ => some (.complaint (.needlessValue level value []))
  | some (name, _), _ => some (.complaint (unknownLong level [] name later))
  | none, some ('h' :: _) => some (.help level)
  | none, some (c :: _) => some (.complaint (unknownShort level c))
  | none, _ => none

/-- Reads the arguments of the command to serve, which has none but for help. -/
def readServe : List String → Except Stop Command
  | [] => .ok .serve
  | ["--"] => .ok .serve
  | "--" :: arg :: _ => .error (.complaint (.unknown .serve arg none false []))
  | arg :: args =>
    match readHelpOption .serve arg args with
    | some stop => .error stop
    | none => .error (.complaint (.unknown .serve arg none false []))

/-- The level that the arguments of the command for help lead to. -/
def readHelp : List String → Stop
  | [] => .help .top
  | name :: rest =>
    match Level.ofName? name with
    | none => .complaint (.unknownCommand .top name [])
    | some level =>
      match rest with
      | [] => .help level
      | other :: _ => .complaint (.unknownCommand level other [])

/-- Reads the arguments of the program. -/
def Command.ofArguments : List String → Except Stop Command
  | [] => .ok .status
  | ["--"] => .ok .status
  | "--" :: arg :: _ =>
    .error (.complaint
      (if (Level.ofName? arg).isSome then .escapedCommand arg
      else .unknownCommand .top arg (similarTo arg Level.commandNames)))
  | arg :: args =>
    match Level.ofName? arg with
    | some .serve => readServe args
    | some .render => readRender {} .nothing false args
    | some _ => .error (readHelp args)
    | none =>
      match readHelpOption .top arg args with
      | some stop => .error stop
      | none => .error (.complaint (.unknownCommand .top arg (similarTo arg Level.commandNames)))

end DiagramService.CommandLine
