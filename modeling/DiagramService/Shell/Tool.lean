import DiagramService.Shell.Program

/-!
# Tools

The programs that renderers are made of: copying, moving and removing files, printing, and cutting
texts. Each takes its arguments, acts, and ends with a status that is zero if all went well.
-/

namespace DiagramService.Shell

/-- The reason of a system error without its number. -/
def reason : IoError → String
  | .system number => IoError.systemText number
  | e => e.message

/-- The text of bytes in a message. -/
def shown (bytes : Bytes) : String :=
  Utf8.decodeLossy bytes

/-- The bytes of a text. -/
def lit (s : String) : Bytes :=
  Utf8.encode s

/-- Ends with a complaint. -/
def giveUp (sh : State) (text : String) : Program Nat := do
  sh.complain (text ++ "\n")
  return 1

/-- The letters of the options and the other arguments. -/
def splitOptions : List Bytes → Bytes × List Bytes
  | [] => ([], [])
  | arg :: args =>
    if arg == lit "--" then ([], args)
    else if arg.head? == some 0x2D && 1 < arg.length then
      let (letters, rest) := splitOptions args
      (arg.tail ++ letters, rest)
    else
      let (letters, rest) := splitOptions args
      (letters, arg :: rest)

/-- Whether an option was given. -/
def hasOption (letters : Bytes) (c : Char) : Bool :=
  letters.contains (UInt8.ofNat c.toNat)

/-- The last component of a path, as the tool of that name prints it. -/
def baseName (arg : Bytes) : Bytes :=
  let cs := arg.reverse.dropWhile (· == 0x2F)
  if cs.isEmpty then arg.take 1 else (cs.takeWhile (· != 0x2F)).reverse

/-- The path without its last component, as the tool of that name prints it. -/
def dirName (arg : Bytes) : Bytes :=
  let cs := (arg.reverse.dropWhile (· == 0x2F)).dropWhile (· != 0x2F)
  let dir := cs.dropWhile (· == 0x2F)
  if !dir.isEmpty then dir.reverse else if arg.head? == some 0x2F then [0x2F] else [0x2E]

/-- Prints the last component of a path, perhaps without a suffix. -/
def basename (sh : State) (args : List Bytes) : Program Nat :=
  match args with
  | [] => giveUp sh "basename: missing operand\nTry 'basename --help' for more information."
  | arg :: rest => do
    let base := baseName arg
    let suffix := rest.head?.getD []
    let cut :=
      if base != suffix && suffix.isSuffixOf base then base.take (base.length - suffix.length)
      else base
    sh.print (cut ++ [0x0A])
    return 0

/-- Prints paths without their last components. -/
def dirname (sh : State) (args : List Bytes) : Program Nat := do
  if args.isEmpty then
    giveUp sh "dirname: missing operand\nTry 'dirname --help' for more information."
  else
    sh.print (args.flatMap fun arg => dirName arg ++ [0x0A])
    return 0

/-- Whether two paths lead to one entry. -/
def sameEntry (d : Disk) (p q : Path) : Bool :=
  match d.find .follow p, d.find .follow q with
  | .ok (a, _), .ok (b, _) => a == b
  | _, _ => false

/-- Whether a file would be copied onto its own end. -/
def feedsItself (sh : State) (p : Path) (content : Bytes) : Program Bool :=
  match sh.output with
  | .file q => Program.holds fun s => !content.isEmpty && sameEntry s.disk p q
  | _ => return false

/-- Prints files, or what is read if none is named. -/
def catFiles (sh : State) (status : Nat) : List Bytes → Program Nat
  | [] => return status
  | arg :: args => do
    if arg == [0x2D] then
      sh.print (← Program.drain sh.input)
      catFiles sh status args
    else
      match ← Program.read fun s => s.disk.contentAt (sh.path arg) with
      | .error e =>
        sh.complain ("cat: " ++ shown arg ++ ": " ++ reason e ++ "\n")
        catFiles sh 1 args
      | .ok content =>
        if ← feedsItself sh (sh.path arg) content then
          sh.complain ("cat: " ++ shown arg ++ ": input file is output file\n")
          catFiles sh 1 args
        else
          sh.print content
          catFiles sh status args

/-- Prints files. -/
def cat (sh : State) (args : List Bytes) : Program Nat :=
  let names := (splitOptions args).2
  catFiles sh 0 (if names.isEmpty then [[0x2D]] else names)

/-- The path that a file gets when it is copied or moved to `target`: inside of it if it is a
directory. -/
def placeIn (sh : State) (d : Disk) (source target : Bytes) : Path :=
  if d.isDir (sh.path target) then (sh.path target).join (nameOf (baseName source))
  else sh.path target

/-- Whether a path leads to a link to nothing. -/
def isDangling (d : Disk) (p : Path) : Bool :=
  match d.find .keep p with
  | .ok (_, .link _) => !d.has p
  | _ => false

/-- Copies one file. -/
def copyOne (sh : State) (source target : Bytes) : Program Nat := do
  match ← Program.read fun s => s.disk.contentAt (sh.path source) with
  | .error (.system 21) =>
    giveUp sh ("cp: -r not specified; omitting directory '" ++ shown source ++ "'")
  | .error e => giveUp sh ("cp: cannot stat '" ++ shown source ++ "': " ++ reason e)
  | .ok content =>
    if ← Program.holds fun s =>
        sameEntry s.disk (sh.path source) (placeIn sh s.disk source target) then
      giveUp sh
        ("cp: '" ++ shown source ++ "' and '" ++ shown target ++ "' are the same file")
    else if ← Program.holds fun s => isDangling s.disk (placeIn sh s.disk source target) then
      giveUp sh ("cp: not writing through dangling symlink '" ++ shown target ++ "'")
    else
      match ← Program.onDisk fun d now => d.writeFile (placeIn sh d source target) content now with
      | .ok () => return 0
      | .error e =>
        giveUp sh ("cp: cannot create regular file '" ++ shown target ++ "': " ++ reason e)

/-- Moves one entry. -/
def moveOne (sh : State) (source target : Bytes) : Program Nat := do
  if ← Program.holds fun s =>
      sameEntry s.disk (sh.path source) (placeIn sh s.disk source target) then
    giveUp sh ("mv: '" ++ shown source ++ "' and '" ++ shown target ++ "' are the same file")
  else
    match ← Program.onDisk fun d _ => d.rename (sh.path source) (placeIn sh d source target) with
    | .ok () => return 0
    | .error (.system 2) =>
      giveUp sh ("mv: cannot stat '" ++ shown source ++ "': No such file or directory")
    | .error e =>
      giveUp sh
        ("mv: cannot move '" ++ shown source ++ "' to '" ++ shown target ++ "': " ++ reason e)

/-- Does something with several sources and a target. -/
def eachTo (sh : State) (one : State → Bytes → Bytes → Program Nat) (target : Bytes)
    (status : Nat) : List Bytes → Program Nat
  | [] => return status
  | source :: sources => do
    let more ← one sh source target
    eachTo sh one target (max status more) sources

/-- Copies or moves files to the last argument. -/
def transfer (tool : String) (one : State → Bytes → Bytes → Program Nat) (sh : State)
    (args : List Bytes) : Program Nat :=
  let help := "\nTry '" ++ tool ++ " --help' for more information."
  match (splitOptions args).2.reverse with
  | [] => giveUp sh (tool ++ ": missing file operand" ++ help)
  | [only] =>
    giveUp sh (tool ++ ": missing destination file operand after '" ++ shown only ++ "'" ++ help)
  | target :: sources => eachTo sh one target 0 sources.reverse

/-- Does something with each argument and ends with the worst status. -/
def eachArg (one : Bytes → Program Nat) (status : Nat) : List Bytes → Program Nat
  | [] => return status
  | arg :: args => do
    let more ← one arg
    eachArg one (max status more) args

/-- Removes one entry. -/
def removeOne (sh : State) (deep force : Bool) (arg : Bytes) : Program Nat := do
  let refuse (e : IoError) :=
    if force && e == .notFound then return 0
    else giveUp sh ("rm: cannot remove '" ++ shown arg ++ "': " ++ reason e)
  match ← Program.onDisk fun d _ =>
    if deep then d.removeAny (sh.path arg) else d.removeFile (sh.path arg) with
  | .ok () => return 0
  | .error e => refuse e

/-- Removes entries. -/
def remove (sh : State) (args : List Bytes) : Program Nat :=
  let (letters, names) := splitOptions args
  let deep := hasOption letters 'r' || hasOption letters 'R'
  let force := hasOption letters 'f'
  if names.isEmpty && !force then
    giveUp sh "rm: missing operand\nTry 'rm --help' for more information."
  else eachArg (removeOne sh deep force) 0 names

/-- Makes directories. -/
def makeDirectory (sh : State) (args : List Bytes) : Program Nat :=
  let (letters, names) := splitOptions args
  eachArg (fun arg => do
    match ← Program.onDisk fun d _ =>
      if hasOption letters 'p' then d.makeDirs (sh.path arg) else d.makeDir (sh.path arg) with
    | .ok () => return 0
    | .error e => giveUp sh ("mkdir: cannot create directory '" ++ shown arg ++ "': " ++ reason e))
    0 names

/-- Removes an empty directory from the disk. -/
def removeEmpty (d : Disk) (p : Path) : Disk.Answer Unit :=
  match d.find .keep p with
  | .error e => d.fail e
  | .ok (place, .directory) =>
    if (d.names place).isEmpty then (d.erase place).done else d.fail .notEmpty
  | .ok _ => d.fail .notDirectory

/-- Removes empty directories. -/
def removeDirectory (sh : State) (args : List Bytes) : Program Nat :=
  eachArg (fun arg => do
    match ← Program.onDisk fun d _ => removeEmpty d (sh.path arg) with
    | .ok () => return 0
    | .error e => giveUp sh ("rmdir: failed to remove '" ++ shown arg ++ "': " ++ reason e))
    0 (splitOptions args).2

/-- Makes a link. A link that is not symbolic is a copy. -/
def linkOne (symbolic force : Bool) (sh : State) (source target : Bytes) : Program Nat := do
  if force then
    let _ ← Program.onDisk fun d _ => d.removeFile (placeIn sh d source target)
  match ← Program.onDisk fun d now =>
    let p := placeIn sh d source target
    if symbolic then d.makeLink ⟨nameOf source⟩ p
    else
      match d.contentAt (sh.path source) with
      | .error e => d.fail e
      | .ok content =>
        match d.createNew p now with
        | (.ok (), d) => d.writeFile p content now
        | failed => failed with
  | .ok () => return 0
  | .error e =>
    giveUp sh ("ln: failed to create " ++ (if symbolic then "symbolic" else "hard") ++ " link '" ++
      shown target ++ "': " ++ reason e)

/-- Makes links. -/
def link (sh : State) (args : List Bytes) : Program Nat :=
  let letters := (splitOptions args).1
  transfer "ln" (linkOne (hasOption letters 's') (hasOption letters 'f')) sh args

/-- Makes files that are missing and renews the time of the others. -/
def touch (sh : State) (args : List Bytes) : Program Nat :=
  eachArg (fun arg => do
    match ← Program.onDisk fun d now =>
      if d.isDir (sh.path arg) then d.done else d.modify (sh.path arg) now id with
    | .ok () => return 0
    | .error e => giveUp sh ("touch: cannot touch '" ++ shown arg ++ "': " ++ reason e))
    0 (splitOptions args).2

/-- The number that bytes spell. -/
def number? (bytes : Bytes) : Option Nat :=
  Text.digits? (nameOf bytes)

/-- The first `n` lines. -/
def firstLines : Nat → Bytes → Bytes
  | 0, _ => []
  | _, [] => []
  | n + 1, b :: bs => if b == 0x0A then b :: firstLines n bs else b :: firstLines (n + 1) bs

/-- What `head` and `tail` are told to take, and the files to take it from. -/
structure Cut where
  bytes : Bool := false
  count : Nat := 10
  files : List Bytes := []

/-- The cut that arguments ask for, `none` if they are wrong. -/
def cut? : List Bytes → Option Cut
  | [] => some {}
  | arg :: args =>
    if arg == lit "-c" || arg == lit "-n" then
      match args with
      | n :: args => do
        let count ← number? n
        let more ← cut? args
        return { more with bytes := arg == lit "-c", count := count }
      | [] => none
    else if (lit "-c").isPrefixOf arg || (lit "-n").isPrefixOf arg then do
      let count ← number? (arg.drop 2)
      let more ← cut? args
      return { more with bytes := (lit "-c").isPrefixOf arg, count := count }
    else if arg.head? == some 0x2D && 1 < arg.length then do
      let count ← number? arg.tail
      let more ← cut? args
      return { more with count := count }
    else do
      let more ← cut? args
      return { more with files := arg :: more.files }

/-- What a path reads as, if only so many bytes of it count. -/
def readSome (d : Disk) (n : Nat) (p : Path) : Except IoError Bytes :=
  match d.find .follow p with
  | .ok (_, .device .zero) => .ok (List.replicate n 0)
  | _ => d.contentAt p

/-- Prints the start of what is read. -/
def head (sh : State) (args : List Bytes) : Program Nat :=
  match cut? args with
  | none => giveUp sh "head: invalid number"
  | some cut => do
    let take (content : Bytes) :=
      if cut.bytes then content.take cut.count else firstLines cut.count content
    if cut.files.isEmpty then
      let content ← Program.drain sh.input
      sh.print (take content)
      match sh.input with
      | .buffer n => Program.putBack n (content.drop (take content).length)
      | _ => pure ()
      return 0
    else
      eachArg (fun arg => do
        match ← Program.read fun s => readSome s.disk cut.count (sh.path arg) with
        | .ok content =>
          sh.print (take content)
          return 0
        | .error e =>
          giveUp sh ("head: cannot open '" ++ shown arg ++ "' for reading: " ++ reason e))
        0 cut.files

/-- Prints the end of what is read. -/
def tail (sh : State) (args : List Bytes) : Program Nat :=
  match cut? args with
  | none => giveUp sh "tail: invalid number"
  | some cut => do
    let lines (content : Bytes) :=
      let ends := content.count 0x0A
      let all := if content.getLast? == some 0x0A then ends else ends + 1
      content.drop (firstLines (all - cut.count) content).length
    let take (content : Bytes) :=
      if cut.bytes then content.drop (content.length - cut.count) else lines content
    if cut.files.isEmpty then
      sh.print (take (← Program.drain sh.input))
      return 0
    else
      eachArg (fun arg => do
        match ← Program.read fun s => s.disk.contentAt (sh.path arg) with
        | .ok content =>
          sh.print (take content)
          return 0
        | .error e =>
          giveUp sh ("tail: cannot open '" ++ shown arg ++ "' for reading: " ++ reason e))
        0 cut.files

/-- An octal digit. -/
def isOctal (b : UInt8) : Bool :=
  0x30 ≤ b && b ≤ 0x37

/-- The byte of at most `n` octal digits. -/
def octal (n : Nat) (bs : Bytes) : UInt8 × Bytes :=
  let digits := (bs.take n).takeWhile isOctal
  let value := digits.foldl (fun value b => value * 8 + (b.toNat - 0x30)) 0
  (UInt8.ofNat value, bs.drop digits.length)

/-- What a letter after a backslash stands for. -/
def escapeByte? (b : UInt8) : Option UInt8 :=
  if b == 0x61 then some 7
  else if b == 0x62 then some 8
  else if b == 0x66 then some 12
  else if b == 0x6E then some 10
  else if b == 0x72 then some 13
  else if b == 0x74 then some 9
  else if b == 0x76 then some 11
  else if b == 0x5C then some 0x5C
  else none

/-- The bytes of a set of characters, with ranges and escapes. -/
def trSet (fuel : Nat) (bs : Bytes) : Bytes :=
  match fuel, bs with
  | 0, _ => []
  | _, [] => []
  | fuel + 1, b :: rest =>
    let (first, rest) :=
      if b == 0x5C then
        match rest with
        | c :: rest' =>
          if isOctal c then octal 3 rest else ((escapeByte? c).getD c, rest')
        | [] => (b, [])
      else (b, rest)
    match rest with
    | 0x2D :: c :: rest' =>
      if first ≤ c then
        (List.range (c.toNat - first.toNat + 1)).map (fun n => UInt8.ofNat (first.toNat + n)) ++
          trSet fuel rest'
      else first :: trSet fuel rest
    | _ => first :: trSet fuel rest

/-- Where a byte stands in a set, counted from its end if it stands there twice. -/
def lastIndex? (set : Bytes) (b : UInt8) : Option Nat :=
  (set.reverse.findIdx? (· == b)).map fun n => set.length - 1 - n

/-- A table of what each byte becomes. -/
def trTable (source target : Bytes) : Array UInt8 :=
  ((List.range 256).map fun n =>
    let b := UInt8.ofNat n
    match lastIndex? source b with
    | some i => ((target[i]? <|> target.getLast?).getD b)
    | none => b).toArray

/-- Replaces or deletes characters of what is read. -/
def translate (sh : State) (args : List Bytes) : Program Nat := do
  let (letters, sets) :=
    match args with
    | arg :: rest =>
      if arg.head? == some 0x2D && 1 < arg.length then (arg.tail, rest) else ([], args)
    | [] => ([], [])
  let content ← Program.drain sh.input
  match sets.map fun set => trSet set.length set with
  | [source] =>
    if hasOption letters 'd' then
      sh.print (content.filter fun b => !source.contains b)
      return 0
    else giveUp sh "tr: missing operand"
  | source :: target :: _ =>
    let table := trTable source target
    sh.print (content.map fun b => table.getD b.toNat b)
    return 0
  | [] => giveUp sh "tr: missing operand"

/-- Counts the bytes or lines of what is read. -/
def count (sh : State) (args : List Bytes) : Program Nat := do
  let (letters, names) := splitOptions args
  let size (content : Bytes) :=
    Text.natText (if hasOption letters 'l' then content.count 0x0A else content.length)
  match names with
  | [] =>
    sh.print (lit (size (← Program.drain sh.input) ++ "\n"))
    return 0
  | arg :: _ =>
    match ← Program.read fun s => s.disk.contentAt (sh.path arg) with
    | .ok content =>
      sh.print (lit (size content ++ " ") ++ arg ++ [0x0A])
      return 0
    | .error e => giveUp sh ("wc: " ++ shown arg ++ ": " ++ reason e)

/-- The milliseconds of a number of seconds with decimals, at least one if it is not zero. -/
def milliseconds? (arg : Bytes) : Option Nat :=
  let whole := arg.takeWhile (· != 0x2E)
  let fraction := (arg.drop (whole.length + 1))
  let padded := (fraction ++ List.replicate 3 0x30).take 3
  match (if whole.isEmpty then some 0 else number? whole), number? padded with
  | some seconds, some rest =>
    let time := seconds * 1000 + rest
    some (if time = 0 && arg.any (fun b => 0x31 ≤ b && b ≤ 0x39) then 1 else time)
  | _, _ => none

/-- Sleeps. -/
def sleep (sh : State) (args : List Bytes) : Program Nat :=
  let wrong := args.filter fun arg => (milliseconds? arg).isNone
  match args.mapM milliseconds? with
  | none =>
    giveUp sh ("".intercalate
      (wrong.map fun arg => "sleep: invalid time interval '" ++ shown arg ++ "'\n") ++
      "Try 'sleep --help' for more information.")
  | some [] => giveUp sh "sleep: missing operand\nTry 'sleep --help' for more information."
  | some times => .sleep (some (times.foldl (· + ·) 0)) fun _ => .done 0

/-- The escapes of a format or of an argument that is printed with escapes. -/
def unescape (zero : Bool) (fuel : Nat) (bs : Bytes) : Bytes :=
  match fuel, bs with
  | 0, _ => []
  | _, [] => []
  | fuel + 1, 0x5C :: b :: rest =>
    if zero && b == 0x30 then
      let (byte, rest) := octal 3 rest
      byte :: unescape zero fuel rest
    else if !zero && isOctal b then
      let (byte, rest) := octal 3 (b :: rest)
      byte :: unescape zero fuel rest
    else
      match if b == 0x65 then some 0x1B else escapeByte? b with
      | some byte => byte :: unescape zero fuel rest
      | none => 0x5C :: b :: unescape zero fuel rest
  | fuel + 1, b :: rest => b :: unescape zero fuel rest

/-- A part of a format. -/
inductive FormatPart where
  | text (bytes : Bytes)
  | argument (kind : UInt8) (left : Bool) (zeros : Bool) (width : Nat)

/-- The parts of a format. -/
def formatParts (fuel : Nat) (done : Bytes) (bs : Bytes) : List FormatPart :=
  let flush := if done.isEmpty then [] else [FormatPart.text done.reverse]
  match fuel, bs with
  | 0, _ => flush
  | _, [] => flush
  | fuel + 1, 0x25 :: 0x25 :: rest => formatParts fuel (0x25 :: done) rest
  | fuel + 1, 0x25 :: rest =>
    let flags := rest.takeWhile fun b => b == 0x2D || b == 0x30
    let rest := rest.drop flags.length
    let digits := rest.takeWhile fun b => 0x30 ≤ b && b ≤ 0x39
    match rest.drop digits.length with
    | kind :: rest =>
      flush ++ .argument kind (flags.contains 0x2D) (flags.contains 0x30)
        ((number? digits).getD 0) :: formatParts fuel [] rest
    | [] => flush
  | fuel + 1, 0x5C :: b :: rest =>
    if isOctal b then
      let (byte, rest) := octal 3 (b :: rest)
      formatParts fuel (byte :: done) rest
    else
      match escapeByte? b with
      | some byte => formatParts fuel (byte :: done) rest
      | none => formatParts fuel (b :: 0x5C :: done) rest
  | fuel + 1, b :: rest => formatParts fuel (b :: done) rest

/-- The integer that an argument spells. -/
def integer (arg : Bytes) : Int :=
  (Text.signed? (nameOf arg)).getD 0

/-- An argument as its part prints it. -/
def formatArgument (kind : UInt8) (left zeros : Bool) (width : Nat) (arg : Bytes) : Bytes :=
  let text :=
    if kind == 0x73 then arg
    else if kind == 0x62 then unescape true arg.length arg
    else if kind == 0x63 then arg.take 1
    else if kind == 0x6F then lit (String.ofList (Nat.toDigits 8 (integer arg).toNat))
    else if kind == 0x78 then lit (String.ofList (Nat.toDigits 16 (integer arg).toNat))
    else lit (Text.intText (integer arg))
  let pad := width - text.length
  if left then text ++ List.replicate pad 0x20
  else List.replicate pad (if zeros && kind != 0x73 then 0x30 else 0x20) ++ text

/-- Prints the parts of a format once, and gives the arguments that are left. -/
def formatOnce : List FormatPart → List Bytes → Bytes × List Bytes
  | [], args => ([], args)
  | .text bytes :: rest, args =>
    let (more, args) := formatOnce rest args
    (bytes ++ more, args)
  | .argument kind left zeros width :: rest, args =>
    let (more, left_) := formatOnce rest args.tail
    (formatArgument kind left zeros width (args.head?.getD []) ++ more, left_)

/-- Whether a format takes arguments. -/
def takesArguments (ps : List FormatPart) : Bool :=
  ps.any fun
    | .argument .. => true
    | .text _ => false

/-- Prints a format as often as there are arguments for it. -/
def formatAll (ps : List FormatPart) : Nat → List Bytes → Bytes
  | 0, _ => []
  | fuel + 1, args =>
    let (bytes, rest) := formatOnce ps args
    if rest.isEmpty || !takesArguments ps then bytes else bytes ++ formatAll ps fuel rest

/-- Prints arguments as a format says. -/
def printFormat (sh : State) (args : List Bytes) : Program Nat :=
  match (if args.head? == some (lit "--") then args.tail else args) with
  | [] => do
    sh.complain (shown sh.name ++ ": 1: printf: usage: printf format [arg ...]\n")
    return 2
  | format :: args => do
    sh.print (formatAll (formatParts format.length [] format) (args.length + 1) args)
    return 0

/-- Prints the arguments with blanks between. -/
def echo (sh : State) (args : List Bytes) : Program Nat := do
  let (quiet, args) :=
    match args with
    | arg :: rest => if arg == lit "-n" then (true, rest) else (false, args)
    | [] => (false, [])
  let line := List.intercalate [0x20] (args.map fun arg => unescape true arg.length arg)
  sh.print (if quiet then line else line ++ [0x0A])
  return 0

/-- The path of the working directory. -/
def workingPath (sh : State) (d : Disk) : Path :=
  sh.dir.getD (Disk.pathOf d.working)

/-- Prints the path of the working directory. -/
def printWorking (sh : State) : Program Nat := do
  match ← Program.read fun s => .ok (lit ((workingPath sh s.disk).toString ++ "\n")) with
  | .ok line =>
    sh.print line
    return 0
  | .error _ => return 1

/-- Whether an entry satisfies `p`. -/
def entryIs (d : Disk) (last : Disk.LastLink) (path : Path) (p : Entry → Bool) : Bool :=
  match d.find last path with
  | .ok (_, entry) => p entry
  | .error _ => false

/-- A test of one word, `none` for an unknown one. -/
def testOne (sh : State) (op arg : Bytes) : Option (Surroundings → Bool) :=
  let path := sh.path arg
  let entry (p : Entry → Bool) : Option (Surroundings → Bool) :=
    some fun s => entryIs s.disk .follow path p
  if op == lit "-e" || op == lit "-r" || op == lit "-w" then entry fun _ => true
  else if op == lit "-f" then entry fun e => match e with
    | .file .. => true
    | _ => false
  else if op == lit "-d" || op == lit "-x" then entry (· == .directory)
  else if op == lit "-s" then entry fun e => match e with
    | .file content _ => !content.isEmpty
    | .directory => true
    | _ => false
  else if op == lit "-L" || op == lit "-h" then
    some fun s => entryIs s.disk .keep path fun e => match e with
      | .link _ => true
      | _ => false
  else if op == lit "-z" then some fun _ => arg.isEmpty
  else if op == lit "-n" then some fun _ => !arg.isEmpty
  else none

/-- A test of two words, `none` for an unknown one. -/
def testTwo (a op b : Bytes) : Option Bool :=
  let compare (f : Int → Int → Bool) : Option Bool := some (f (integer a) (integer b))
  if op == lit "=" then some (a == b)
  else if op == lit "!=" then some (a != b)
  else if op == lit "-eq" then compare (· == ·)
  else if op == lit "-ne" then compare (· != ·)
  else if op == lit "-lt" then compare fun x y => decide (x < y)
  else if op == lit "-le" then compare fun x y => decide (x ≤ y)
  else if op == lit "-gt" then compare fun x y => decide (y < x)
  else if op == lit "-ge" then compare fun x y => decide (y ≤ x)
  else none

/-- What a test says, `none` if it is not well formed. -/
def condition? (sh : State) (fuel : Nat) (args : List Bytes) : Option (Surroundings → Bool) :=
  match fuel with
  | 0 => none
  | fuel + 1 =>
    match args with
    | [] => some fun _ => false
    | [a] => some fun _ => !a.isEmpty
    | [a, b] =>
      if a == lit "!" then some fun _ => b.isEmpty else testOne sh a b
    | [a, op, b] =>
      match testTwo a op b with
      | some holds => some fun _ => holds
      | none =>
        if op == lit "-a" then some fun _ => !a.isEmpty && !b.isEmpty
        else if op == lit "-o" then some fun _ => !a.isEmpty || !b.isEmpty
        else if a == lit "!" then (condition? sh fuel [op, b]).map fun f s => !f s
        else none
    | a :: rest =>
      let at_ (op : String) := args.findIdx? (· == lit op)
      match at_ "-o", at_ "-a" with
      | some n, _ => do
        let f ← condition? sh fuel (args.take n)
        let g ← condition? sh fuel (args.drop (n + 1))
        return fun s => f s || g s
      | none, some n => do
        let f ← condition? sh fuel (args.take n)
        let g ← condition? sh fuel (args.drop (n + 1))
        return fun s => f s && g s
      | none, none =>
        if a == lit "!" then (condition? sh fuel rest).map fun f s => !f s else none

/-- Tests files and words. -/
def test (sh : State) (args : List Bytes) : Program Nat :=
  match condition? sh (args.length + 1) args with
  | some f => do return if ← Program.holds f then 0 else 1
  | none => do
    sh.complain (shown sh.name ++ ": 1: test: unexpected operator\n")
    return 2

/-- The names in a directory as they are listed, in order. -/
def listing (letters : Bytes) (names : List FileName) : Bytes :=
  let hidden (name : FileName) : Bool := name.head? == some '.'
  let all := hasOption letters 'a' || hasOption letters 'A'
  let names := names.filter fun name => all || !hidden name
  let names := if hasOption letters 'a' then ['.'] :: ['.', '.'] :: names else names
  (names.mergeSort fun x y => String.ofList x ≤ String.ofList y).flatMap fun name =>
    Utf8.encodeList name ++ [0x0A]

/-- Lists directories, one name on a line. -/
def list (sh : State) (args : List Bytes) : Program Nat := do
  let (letters, paths) := splitOptions args
  let paths := if paths.isEmpty then [lit "."] else paths
  eachArg (fun arg => do
    let isDirectory ← Program.holds fun s => s.disk.isDir (sh.path arg)
    match ← Program.read fun s =>
      if isDirectory && !hasOption letters 'd' then
        (s.disk.readDir (sh.path arg)).map (listing letters)
      else (s.disk.find .keep (sh.path arg)).map fun _ => arg ++ [0x0A] with
    | .ok lines =>
      if isDirectory && 1 < paths.length then sh.print (arg ++ lit ":\n")
      sh.print lines
      return 0
    | .error e =>
      sh.complain ("ls: cannot access '" ++ shown arg ++ "': " ++ reason e ++ "\n")
      return 2)
    0 paths

/-- The number of a signal. -/
def signal? (name : Bytes) : Option Nat :=
  let plain := if (lit "SIG").isPrefixOf name then name.drop 3 else name
  match number? plain with
  | some n => some n
  | none =>
    ([("HUP", 1), ("INT", 2), ("QUIT", 3), ("ILL", 4), ("TRAP", 5), ("ABRT", 6), ("BUS", 7),
      ("FPE", 8), ("KILL", 9), ("USR1", 10), ("SEGV", 11), ("USR2", 12), ("PIPE", 13), ("ALRM", 14),
      ("TERM", 15)] : List (String × Nat)).findSome? fun (s, n) =>
      if lit s == plain then some n else none

/-- The programs that are not part of the shell. -/
def tool? (name : Bytes) : Option (State → List Bytes → Program Nat) :=
  match shown name with
  | "basename" => some basename
  | "dirname" => some dirname
  | "cat" => some cat
  | "cp" => some (transfer "cp" copyOne)
  | "mv" => some (transfer "mv" moveOne)
  | "rm" => some remove
  | "ls" => some list
  | "mkdir" => some makeDirectory
  | "rmdir" => some removeDirectory
  | "ln" => some link
  | "touch" => some touch
  | "head" => some head
  | "tail" => some tail
  | "tr" => some translate
  | "wc" => some count
  | "sleep" => some sleep
  | "true" => some fun _ _ => return 0
  | "false" => some fun _ _ => return 1
  | "echo" => some echo
  | "printf" => some printFormat
  | "pwd" => some fun sh _ => printWorking sh
  | "test" => some test
  | "chmod" => some fun _ _ => return 0
  | "sync" => some fun _ _ => return 0
  | _ => none

end DiagramService.Shell
