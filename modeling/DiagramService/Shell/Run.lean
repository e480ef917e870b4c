import DiagramService.Shell.Field
import DiagramService.Shell.Reader
import DiagramService.Shell.Tool

/-!
# Running shell code

Code runs command by command. Each ends with a status and says how to go on: with the next command,
out of a loop, or out of the shell. The bound on the depth and on the rounds of loops is so large
that code which exceeds it is taken to run for ever.
-/

namespace DiagramService.Shell

/-- How it goes on after a command. -/
inductive Flow where
  /-- With the next command. -/
  | next
  /-- After so many loops, of which the innermost counts as none. -/
  | leave (loops : Nat)
  /-- With the next round of the loop so many levels up. -/
  | again (loops : Nat)
  /-- Not at all. -/
  | exit
deriving DecidableEq, Repr

/-- The shell after a command, and how it goes on. -/
abbrev Outcome := Flow × State

namespace State

/-- The number of the process that runs a script. -/
def leader : Nat := 1000

/-- Goes on with a status. -/
def ended (sh : State) (status : Nat) : Outcome :=
  (.next, { sh with status := status })

/-- The same with the streams of another shell. -/
def withStreams (sh of_ : State) : State :=
  { sh with input := of_.input, output := of_.output, errors := of_.errors }

/-- Writes a message about a line of the script. -/
def report (sh : State) (line : Nat) (text : String) : Program Unit :=
  sh.complain (shown sh.name ++ ": " ++ Text.natText (sh.breaks - line + 1) ++ ": " ++ text ++ "\n")

/-- The bytes of a number. -/
def digits (n : Nat) : Bytes :=
  lit (Text.natText n)

/-- The value of a parameter. -/
def parameter? (sh : State) (name : List Char) : Option Bytes :=
  match name with
  | ['@'] => some (List.intercalate [0x20] sh.params)
  | ['*'] => some (List.intercalate [0x20] sh.params)
  | ['#'] => some (digits sh.params.length)
  | ['?'] => some (digits sh.status)
  | ['$'] => some (digits leader)
  | ['!'] => if sh.last = 0 then none else some (digits (leader + sh.last))
  | ['-'] => some []
  | ['0'] => some sh.name
  | _ =>
    match Text.digits? name with
    | some n => sh.params[n - 1]?
    | none => sh.get? name

/-- The pieces that a value becomes. -/
def pieceOf (quoted : Bool) (value : Bytes) : List Piece :=
  if quoted then [.fixed value] else [.loose value]

/-- The pieces of a parameter that is not changed. -/
def plainPieces (sh : State) (name : List Char) (quoted : Bool) : List Piece :=
  if name == ['@'] && quoted then
    if sh.params.isEmpty then [.nothing] else (sh.params.map Piece.fixed).intersperse .gap
  else pieceOf quoted ((sh.parameter? name).getD [])

/-- The reason why a file cannot be opened. -/
def openReason (missing : String) (e : IoError) : String :=
  if e == .notFound || e == .notDirectory then missing else reason e

/-- Opens the file of a redirection. The text says why that fails. -/
def openFile (sh : State) (kind : RedirectKind) (target : Bytes) :
    Program (Except String Stream) := do
  let path := sh.path target
  match kind with
  | .input =>
    match ← Program.read fun s => s.disk.contentAt path with
    | .ok content => return .ok (.buffer (← Program.newBuffer content))
    | .error e =>
      return .error ("cannot open " ++ shown target ++ ": " ++ openReason "No such file" e)
  | _ =>
    match ← Program.onDisk fun d now =>
      if kind == .append then d.appendFile path [] now else d.writeFile path [] now with
    | .ok () => return .ok (.file path)
    | .error e =>
      return .error
        ("cannot create " ++ shown target ++ ": " ++ openReason "Directory nonexistent" e)

/-- The shell with one of its streams led elsewhere. -/
def lead (sh : State) (number : Nat) (stream : Stream) : State :=
  match number with
  | 0 => { sh with input := stream }
  | 1 => { sh with output := stream }
  | 2 => { sh with errors := stream }
  | _ => sh

/-- The stream that a duplication names. -/
def stream (sh : State) (target : Bytes) : Stream :=
  if target == [0x30] then sh.input
  else if target == [0x31] then sh.output
  else if target == [0x32] then sh.errors
  else .null

/-- Whether signal `n` ends a process. -/
def isFatal (n : Nat) : Bool :=
  1 ≤ n && n ≤ 64 && !(([17, 18, 19, 20, 21, 22, 23, 28] : List Nat).contains n)

/-- Whether signal `n` stops a process. -/
def isStop (n : Nat) : Bool :=
  19 ≤ n && n ≤ 22

/-- The signal that arguments name, and the rest of them. -/
def killArguments (args : List Bytes) : Option (Nat × List Bytes) :=
  match args with
  | arg :: rest =>
    if arg == lit "-s" || arg == lit "-n" then
      match rest with
      | name :: rest => (signal? name).map (·, rest)
      | [] => none
    else if arg == lit "--" then some (15, rest)
    else if arg.head? == some 0x2D then (signal? arg.tail).map (·, rest)
    else some (15, args)
  | [] => none

/-- Sends a signal to a process. -/
def send (sh : State) (n : Nat) (arg : Bytes) : Program Outcome := do
  match number? arg with
  | none => return sh.ended 1
  | some process =>
    if process = leader || process = 0 then
      if isFatal n then
        Program.change fun s => { s with signal := some n }
        .sleep none fun _ => .done (.exit, sh)
      else if isStop n then .sleep none fun _ => .done (.exit, sh)
      else return sh.ended 0
    else if ← Program.holds fun s => s.alive.contains (process - leader) then
      if isFatal n then
        Program.change fun s => { s with alive := s.alive.filter (· != process - leader) }
      return sh.ended 0
    else return sh.ended 1

/-- Sends a signal to processes. -/
def sendAll (sh : State) (n : Nat) : List Bytes → Program Outcome
  | [] => return (.next, sh)
  | arg :: args => do
    match ← send sh n arg with
    | (.next, sh) => sendAll sh n args
    | other => return other

/-- Sends signals. -/
def kill (sh : State) (args : List Bytes) : Program Outcome :=
  match killArguments args with
  | some (n, targets) => sendAll (sh.ended 0).2 n targets
  | none => return sh.ended 2

/-- The number that an argument spells, perhaps after a plus sign. -/
def unsigned? (arg : Bytes) : Option Nat :=
  number? (if arg.head? == some 0x2B then arg.tail else arg)

/-- Ends the shell with the status that an argument spells. -/
def leave (name : String) (sh : State) (args : List Bytes) : Program Outcome :=
  match args with
  | [] => return (.exit, sh)
  | arg :: _ =>
    match unsigned? arg with
    | some n => return (.exit, { sh with status := n % 256 })
    | none => do
      sh.complain
        (shown sh.name ++ ": 1: " ++ name ++ ": Illegal number: " ++ shown arg ++ "\n")
      return (.exit, { sh with status := 2 })

/-- The number of loops that an argument spells. -/
def loopsOf (args : List Bytes) : Nat :=
  ((args.head?.bind number?).getD 1) - 1

/-- Sets the variables that arguments of the form `name=value` name. -/
def assignAll (sh : State) : List Bytes → State
  | [] => sh
  | arg :: args =>
    let name := arg.takeWhile (· != 0x3D)
    let sh :=
      if name.length < arg.length then sh.set (nameOf name) (arg.drop (name.length + 1)) else sh
    assignAll sh args

/-- Moves to another directory. -/
def goTo (sh : State) (args : List Bytes) : Program Outcome := do
  let target := args.head?.getD (lit "/")
  let path := sh.path target
  if ← Program.holds fun s => s.disk.isDir path then
    match ← Program.read fun s => .ok (lit (s.disk.absolute path).toString) with
    | .ok dir => return { sh with dir := some ⟨nameOf dir⟩ }.ended 0
    | .error _ => return sh.ended 2
  else
    sh.complain (shown sh.name ++ ": 1: cd: can't cd to " ++ shown target ++ "\n")
    return sh.ended 2

/-- Reads a line into variables: a field into each, and all that is left into the last. -/
def assignFields (sh : State) : List (List Char) → Bytes → State
  | [], _ => sh
  | [name], line =>
    sh.set name ((line.dropWhile Piece.isSplit).reverse.dropWhile Piece.isSplit).reverse
  | name :: names, line =>
    let line := line.dropWhile Piece.isSplit
    let field := line.takeWhile fun b => !Piece.isSplit b
    assignFields (sh.set name field) names (line.drop field.length)

/-- Reads a line. -/
def readLine (sh : State) (args : List Bytes) : Program Outcome := do
  let names := (splitOptions args).2.map nameOf
  let content ← Program.drain sh.input
  let line := content.takeWhile (· != 0x0A)
  match sh.input with
  | .buffer n => Program.putBack n (content.drop (line.length + 1))
  | _ => pure ()
  return (assignFields sh names line).ended (if line.length < content.length then 0 else 1)

/-- Whether an argument switches something on or off. -/
def isSwitch (arg : Bytes) : Bool :=
  arg.head? == some 0x2D || arg.head? == some 0x2B

/-- The shell after a switch, which may make it strict or not. -/
def setStrict (sh : State) (arg : Bytes) : State :=
  if isSwitch arg && hasOption arg 'e' then { sh with strict := arg.head? == some 0x2D } else sh

/-- What a shell of its own starts with. -/
def child (sh : State) : State :=
  { sh with
    vars := sh.vars.filter fun v => sh.exports.contains v.1
    status := 0
    last := 0
    strict := false
    tested := false }

/-- Whether a program can be run under a name. -/
def isKnown (command : Bytes) : Bool :=
  command == lit "sh" || command == lit "env" || (tool? command).isSome

/-- The shell with the settings that the arguments of `env` start with. -/
def setting (sh : State) : List Bytes → State × List Bytes
  | [] => (sh, [])
  | arg :: args =>
    if arg == lit "-i" || arg == lit "-" then setting { sh with exports := [] } args
    else if arg.contains 0x3D then
      let sh := assignAll sh [arg]
      setting { sh with exports := nameOf (arg.takeWhile (· != 0x3D)) :: sh.exports } args
    else (sh, arg :: args)

/-- Goes out of the shell after a failure if it is strict. -/
def checked (outcome : Outcome) : Outcome :=
  match outcome with
  | (.next, sh) => if sh.strict && !sh.tested && sh.status != 0 then (.exit, sh) else outcome
  | _ => outcome

/-- A command that is part of the shell and needs nothing else of it. -/
def builtin? (name : Bytes) : Option (State → List Bytes → Program Outcome) :=
  match shown name with
  | ":" => some fun sh _ => return sh.ended 0
  | "exit" => some (leave "exit")
  | "return" => some (leave "return")
  | "break" => some fun sh args => return (.leave (loopsOf args), { sh with status := 0 })
  | "continue" => some fun sh args => return (.again (loopsOf args), { sh with status := 0 })
  | "shift" => some fun sh args =>
    let n := (args.head?.bind number?).getD 1
    if n ≤ sh.params.length then return { sh with params := sh.params.drop n }.ended 0
    else do
      sh.complain (shown sh.name ++ ": 1: shift: can't shift that many\n")
      return (.exit, { sh with status := 2 })
  | "set" => some fun sh args =>
    if args.head? == some (lit "--") then return { sh with params := args.tail }.ended 0
    else
      let sh := sh.setStrict (args.head?.getD [])
      if args.head?.any isSwitch then return sh.ended 0
      else return { sh with params := if args.isEmpty then sh.params else args }.ended 0
  | "export" => some fun sh args =>
    let names := args.map fun arg => nameOf (arg.takeWhile (· != 0x3D))
    return { assignAll sh args with exports := names ++ sh.exports }.ended 0
  | "readonly" => some fun sh args => return (assignAll sh args).ended 0
  | "unset" => some fun sh args =>
    return { sh with vars := sh.vars.filter fun v => !(args.map nameOf).contains v.1 }.ended 0
  | "cd" => some goTo
  | "read" => some readLine
  | "kill" => some kill
  | "trap" => some fun sh _ => return sh.ended 0
  | "umask" => some fun sh _ => return sh.ended 0
  | "[" => some fun sh args => do
    if args.getLast? == some (lit "]") then return sh.ended (← test sh args.dropLast)
    else
      sh.complain (shown sh.name ++ ": 1: [: missing ]\n")
      return sh.ended 2
  | _ => none

/-- Whether the assignments before a command last, and whether the shell ends when a redirection of
it fails. -/
def isSpecial (name : Bytes) : Bool :=
  ([":", "exit", "eval", ".", "exec", "set", "shift", "export"] : List String).contains (shown name)

/-- Whether a tool is run by the shell itself, without a process of its own. -/
def isPartOfShell (name : Bytes) : Bool :=
  (["echo", "printf", "test", "true", "false", "pwd"] : List String).contains (shown name)

/-- How many milliseconds the start of a process takes. -/
def startTime : Nat := 1

/-- A program in one of the directories for programs, by its name or by its path. -/
def program? (command : Bytes) : Option Bytes :=
  if !command.contains 0x2F then some command
  else
    (["/bin/", "/usr/bin/"] : List String).findSome? fun dir =>
      let name := command.drop (lit dir).length
      if (lit dir).isPrefixOf command && !name.contains 0x2F then some name else none

end State

/-- Whether a word holds the output of a command. -/
def holdsCommand (parts : List Part) : Bool :=
  parts.any fun
    | .command .. => true
    | _ => false

/-- Text without the line breaks at its end. -/
def dropBreaks (bytes : Bytes) : Bytes :=
  (bytes.reverse.dropWhile (· == 0x0A)).reverse

/-- The number of line breaks of a script. -/
def breaksOf (script : List Char) : Nat :=
  script.count '\n'

open State

mutual

/-- Expands a part of a word. -/
def expandPart (fuel : Nat) (sh : State) (part : Part) : Program (List Piece × State) :=
  match fuel with
  | 0 => .sleep none fun _ => .done ([], sh)
  | fuel + 1 =>
    match part with
    | .text content quoted =>
      let bytes := Utf8.encodeList content
      return ([if quoted then .fixed bytes else .plain bytes], sh)
    | .command body quoted => do
      let out ← Program.newBuffer []
      let (_, child) ← runCode fuel { sh with output := .buffer out, tested := false } body
      let content ← Program.takeBuffer out
      let piece := pieceOf quoted (dropBreaks (content.filter (· != 0)))
      return (piece, { sh with status := child.status })
    | .parameter name change quoted =>
      let value? := sh.parameter? name
      match change with
      | .none => return (sh.plainPieces name quoted, sh)
      | .length => return (pieceOf quoted (digits (value?.getD []).length), sh)
      | .default empty assign word =>
        match value? with
        | some value =>
          if empty && value.isEmpty then expandDefault fuel sh name assign word
          else return (sh.plainPieces name quoted, sh)
        | none => expandDefault fuel sh name assign word
      | .instead empty word =>
        match value? with
        | some value => if empty && value.isEmpty then return ([], sh) else expandWord fuel sh word
        | none => return ([], sh)
      | .cutStart longest word => do
        let (pieces, sh) ← expandWord fuel sh word
        return (pieceOf quoted (Glob.cutStart longest (Piece.pattern pieces) (value?.getD [])), sh)
      | .cutEnd longest word => do
        let (pieces, sh) ← expandWord fuel sh word
        return (pieceOf quoted (Glob.cutEnd longest (Piece.pattern pieces) (value?.getD [])), sh)

/-- Expands the word that stands in for a parameter, which may get it as its value. -/
def expandDefault (fuel : Nat) (sh : State) (name : List Char) (assign : Bool) (word : List Part) :
    Program (List Piece × State) :=
  match fuel with
  | 0 => .sleep none fun _ => .done ([], sh)
  | fuel + 1 => do
    let (pieces, sh) ← expandWord fuel sh word
    return (pieces, if assign then sh.set name (Piece.joined pieces) else sh)

/-- Expands a word. -/
def expandWord (fuel : Nat) (sh : State) (word : List Part) : Program (List Piece × State) :=
  match fuel with
  | 0 => .sleep none fun _ => .done ([], sh)
  | fuel + 1 =>
    match word with
    | [] => return ([], sh)
    | part :: rest => do
      let (first, sh) ← expandPart fuel sh part
      let (more, sh) ← expandWord fuel sh rest
      return (first ++ more, sh)

/-- Expands words to fields. -/
def expandWords (fuel : Nat) (sh : State) (words : List (List Part)) :
    Program (List Bytes × State) :=
  match fuel with
  | 0 => .sleep none fun _ => .done ([], sh)
  | fuel + 1 =>
    match words with
    | [] => return ([], sh)
    | word :: rest => do
      let (pieces, sh) ← expandWord fuel sh word
      let (more, sh) ← expandWords fuel sh rest
      return (Piece.fields pieces ++ more, sh)

/-- Makes assignments. -/
def assign (fuel : Nat) (sh : State) (assignments : List (List Char × List Part)) :
    Program State :=
  match fuel with
  | 0 => .sleep none fun _ => .done sh
  | fuel + 1 =>
    match assignments with
    | [] => return sh
    | (name, word) :: rest => do
      let (pieces, sh) ← expandWord fuel sh word
      assign fuel (sh.set name (Piece.joined pieces)) rest

/-- Makes redirections, `none` after one that fails. -/
def redirect (fuel : Nat) (sh : State) (line : Nat) (redirects : List Redirect) :
    Program (Option State) :=
  match fuel with
  | 0 => .sleep none fun _ => .done none
  | fuel + 1 =>
    match redirects with
    | [] => return some sh
    | .mk number kind word :: rest => do
      let (pieces, sh) ← expandWord fuel sh word
      let target := Piece.joined pieces
      if kind == .duplicate then redirect fuel (sh.lead number (sh.stream target)) line rest
      else
        match ← sh.openFile kind target with
        | .ok stream => redirect fuel (sh.lead number stream) line rest
        | .error text =>
          sh.report line text
          return none

/-- Runs a command that has been expanded. -/
def runCommand (fuel : Nat) (sh : State) (line : Nat) (name : Bytes) (args : List Bytes) :
    Program Outcome :=
  match fuel with
  | 0 => .sleep none fun _ => .done (.exit, sh)
  | fuel + 1 =>
    match builtin? name with
    | some run => run sh args
    | none =>
      match shown name with
      | "exec" =>
        match args with
        | [] => return sh.ended 0
        | name :: args => do
          let (_, after) ← runProgram fuel sh line "exec: " name args
          return (.exit, after)
      | "command" =>
        match args with
        | [] => return sh.ended 0
        | name :: args => runCommand fuel sh line name args
      | "eval" =>
        match Code.ofText? (nameOf (List.intercalate [0x20] args)) with
        | some body => runCode fuel sh body
        | none => return (.exit, { sh with status := 2 })
      | "." => do
        match ← Program.read fun s => s.disk.contentAt (sh.path (args.head?.getD [])) with
        | .error e =>
          sh.report line (".: cannot open " ++ shown (args.head?.getD []) ++ ": " ++
            openReason "No such file" e)
          return (.exit, { sh with status := 2 })
        | .ok script =>
          match Code.ofText? (nameOf script) with
          | some body => runCode fuel sh body
          | none => return (.exit, { sh with status := 2 })
      | "wait" => await fuel sh
      | _ => runProgram fuel sh line "" name args

/-- Runs a program that is not part of the shell. The complaint about one that is not there starts
with `lead`. -/
def runProgram (fuel : Nat) (sh : State) (line : Nat) (lead : String) (name : Bytes)
    (args : List Bytes) : Program Outcome :=
  match fuel with
  | 0 => .sleep none fun _ => .done (.exit, sh)
  | fuel + 1 =>
    match (program? name).filter isKnown with
    | none => do
      if name.contains 0x2F && (← Program.holds fun s => s.disk.has (sh.path name)) then
        sh.report line (lead ++ shown name ++ ": Permission denied")
        return sh.ended 126
      else
        sh.report line (lead ++ shown name ++ ": not found")
        return sh.ended 127
    | some command =>
      if command == lit "sh" then do
        let status ← runShell fuel sh.child args
        return sh.ended status
      else if command == lit "env" then
        match setting sh args with
        | (_, []) => return sh.ended 0
        | (own, name :: args) =>
          if ((program? name).filter isKnown).isSome then do
            let (_, after) ← runProgram fuel own line "" name args
            return sh.ended after.status
          else do
            sh.complain ("env: '" ++ shown name ++ "': No such file or directory\n")
            return sh.ended 127
      else
        match tool? command with
        | some run => do
          if !isPartOfShell command then Program.pause startTime
          return sh.ended (← run sh args)
        | none => return sh.ended 127

/-- Waits until nothing runs in the background. -/
def await (fuel : Nat) (sh : State) : Program Outcome :=
  match fuel with
  | 0 => .sleep none fun _ => .done (.exit, sh)
  | fuel + 1 => do
    if ← Program.holds fun s => s.alive.isEmpty && s.born.isEmpty then return sh.ended 0
    else .sleep (some 1) fun _ => await fuel sh

/-- Runs a script in a shell of its own: the one that follows `-c`, or that of a file. -/
def runShell (fuel : Nat) (sh : State) (args : List Bytes) : Program Nat :=
  match fuel with
  | 0 => .sleep none fun _ => .done 2
  | fuel + 1 =>
    let start (name : Bytes) (params : List Bytes) (script : Bytes) : Program Nat := do
      let text := nameOf script
      let sh := { sh with name := name, params := params, breaks := breaksOf text }
      match Code.ofText? text with
      | some body =>
        let (_, sh) ← runCode fuel sh body
        return sh.status
      | none =>
        sh.report sh.breaks "Syntax error"
        return 2
    match args with
    | [] => do start (lit "sh") [] (← Program.drain sh.input)
    | arg :: rest =>
      if arg == lit "-c" then
        match rest with
        | [] => do
          sh.complain "sh: 0: -c requires an argument\n"
          return 2
        | script :: names => start (names.head?.getD (lit "sh")) names.tail script
      else if arg == lit "--" then runShell fuel sh rest
      else if arg.head? == some 0x2D && 1 < arg.length then
        let sh := sh.setStrict arg
        runShell fuel sh (if hasOption arg 'c' then lit "-c" :: rest else rest)
      else do
        match ← Program.read fun s => s.disk.contentAt (sh.path arg) with
        | .ok script => start arg rest script
        | .error e =>
          sh.complain
            ("sh: 0: cannot open " ++ shown arg ++ ": " ++ openReason "No such file" e ++ "\n")
          return 2

/-- Runs a simple command. -/
def runSimple (fuel : Nat) (sh : State) (line : Nat) (assignments : List (List Char × List Part))
    (words : List (List Part)) (redirects : List Redirect) : Program Outcome :=
  match fuel with
  | 0 => .sleep none fun _ => .done (.exit, sh)
  | fuel + 1 => do
    let (fields, sh) ← expandWords fuel sh words
    match fields with
    | [] =>
      match ← redirect fuel sh line redirects with
      | none => return sh.ended 2
      | some _ =>
        let sh ← assign fuel sh assignments
        let counts := assignments.any (holdsCommand ·.2) || words.any holdsCommand
        return (.next, if counts then sh else { sh with status := 0 })
    | name :: args =>
      match ← redirect fuel sh line redirects with
      | none =>
        if isSpecial name then return (.exit, { sh with status := 2 }) else return sh.ended 2
      | some led => do
        let own ← assign fuel led assignments
        let own := { own with exports := assignments.map (·.1) ++ own.exports }
        let (flow, after) ← runCommand fuel own line name args
        let keeps := name == lit "exec" && args.isEmpty
        let after := if keeps then after else after.withStreams sh
        if assignments.isEmpty || isSpecial name then return (flow, after)
        else return (flow, { after with vars := sh.vars, exports := sh.exports })

/-- Runs code whose failure is looked at. -/
def runTested (fuel : Nat) (sh : State) (code : Code) : Program Outcome :=
  match fuel with
  | 0 => .sleep none fun _ => .done (.exit, sh)
  | fuel + 1 => do
    let (flow, after) ← runCode fuel { sh with tested := true } code
    return (flow, { after with tested := sh.tested })

/-- Runs code. -/
def runCode (fuel : Nat) (sh : State) (code : Code) : Program Outcome :=
  match fuel with
  | 0 => .sleep none fun _ => .done (.exit, sh)
  | fuel + 1 =>
    match code with
    | .skip => return sh.ended 0
    | .simple line assignments words redirects => do
      return checked (← runSimple fuel sh line assignments words redirects)
    | .seq first second => do
      match ← runCode fuel sh first with
      | (.next, sh) => runCode fuel sh second
      | other => return other
    | .both first second => do
      match ← runTested fuel sh first with
      | (.next, sh) => if sh.status = 0 then runCode fuel sh second else return (.next, sh)
      | other => return other
    | .either first second => do
      match ← runTested fuel sh first with
      | (.next, sh) => if sh.status = 0 then return (.next, sh) else runCode fuel sh second
      | other => return other
    | .not body => do
      match ← runTested fuel sh body with
      | (.next, sh) => return sh.ended (if sh.status = 0 then 1 else 0)
      | other => return other
    | .pipe first second => do
      let link ← Program.newBuffer []
      let _ ← runCode fuel { sh with output := .buffer link } first
      let (_, child) ← runCode fuel { sh with input := .buffer link } second
      return checked (sh.ended child.status)
    | .background body => do
      match ← Program.ask fun s =>
        (.number (s.count + 1), { s with
          count := s.count + 1
          alive := (s.count + 1) :: s.alive
          born := s.born ++ [(s.count + 1, body, { sh with input := .null })] }) with
      | .number n => return { sh with last := n }.ended 0
      | _ => return sh.ended 0
    | .subshell body => do
      let (_, child) ← runCode fuel sh body
      return checked (sh.ended child.status)
    | .choose condition yes no => do
      match ← runTested fuel sh condition with
      | (.next, sh) => runCode fuel sh (if sh.status = 0 then yes else no)
      | other => return other
    | .loop until_ condition body => runLoop fuel { sh with status := 0 } 0 until_ condition body
    | .each name words body => do
      match words with
      | none => runEach fuel (sh.ended 0).2 name sh.params body
      | some words =>
        let (fields, sh) ← expandWords fuel sh words
        runEach fuel (sh.ended 0).2 name fields body
    | .select word branches => do
      let (pieces, sh) ← expandWord fuel sh word
      runSelect fuel sh (Piece.joined pieces) branches
    | .redirected line body redirects => do
      match ← redirect fuel sh line redirects with
      | none => return sh.ended 2
      | some led => do
        let (flow, after) ← runCode fuel led body
        return (flow, after.withStreams sh)

/-- Runs a loop. Its status is that of the last round. -/
def runLoop (fuel : Nat) (sh : State) (last : Nat) (until_ : Bool) (condition body : Code) :
    Program Outcome :=
  match fuel with
  | 0 => .sleep none fun _ => .done (.exit, sh)
  | fuel + 1 => do
    match ← runTested fuel sh condition with
    | (.next, sh) =>
      if (sh.status == 0) == until_ then return sh.ended last
      else
        match ← runCode fuel sh body with
        | (.next, sh) => runLoop fuel sh sh.status until_ condition body
        | (.again 0, sh) => runLoop fuel sh sh.status until_ condition body
        | (.again (n + 1), sh) => return (.again n, sh)
        | (.leave 0, sh) => return sh.ended 0
        | (.leave (n + 1), sh) => return (.leave n, sh)
        | (.exit, sh) => return (.exit, sh)
    | (.leave 0, sh) => return sh.ended 0
    | (.leave (n + 1), sh) => return (.leave n, sh)
    | (.again 0, sh) => runLoop fuel sh last until_ condition body
    | (.again (n + 1), sh) => return (.again n, sh)
    | (.exit, sh) => return (.exit, sh)

/-- Runs a loop over fields. -/
def runEach (fuel : Nat) (sh : State) (name : List Char) (fields : List Bytes) (body : Code) :
    Program Outcome :=
  match fuel with
  | 0 => .sleep none fun _ => .done (.exit, sh)
  | fuel + 1 =>
    match fields with
    | [] => return (.next, sh)
    | field :: rest => do
      match ← runCode fuel (sh.set name field) body with
      | (.next, sh) => runEach fuel sh name rest body
      | (.again 0, sh) => runEach fuel sh name rest body
      | (.again (n + 1), sh) => return (.again n, sh)
      | (.leave 0, sh) => return sh.ended 0
      | (.leave (n + 1), sh) => return (.leave n, sh)
      | (.exit, sh) => return (.exit, sh)

/-- Runs the first branch with a pattern that matches. -/
def runSelect (fuel : Nat) (sh : State) (value : Bytes)
    (branches : List (List (List Part) × Code)) : Program Outcome :=
  match fuel with
  | 0 => .sleep none fun _ => .done (.exit, sh)
  | fuel + 1 =>
    match branches with
    | [] => return sh.ended 0
    | (patterns, body) :: rest => do
      let (chosen, sh) ← anyMatches fuel sh value patterns
      if chosen then runCode fuel sh body else runSelect fuel sh value rest

/-- Whether one of several patterns matches. -/
def anyMatches (fuel : Nat) (sh : State) (value : Bytes) (patterns : List (List Part)) :
    Program (Bool × State) :=
  match fuel with
  | 0 => .sleep none fun _ => .done (false, sh)
  | fuel + 1 =>
    match patterns with
    | [] => return (false, sh)
    | word :: rest => do
      let (pieces, sh) ← expandWord fuel sh word
      if Glob.matches_ (Piece.pattern pieces) value then return (true, sh)
      else anyMatches fuel sh value rest

end

/-- How deep code may be nested and how often it may loop before it is taken to run for ever. -/
def endless : Nat := 1000000

end DiagramService.Shell
