import DiagramService.CommandLine.Arguments

/-!
# What the command line says

The texts of the help and of the complaints about arguments. A complaint says what is wrong, gives a
tip if there is one, shows how the command is used, and tells how to get help.
-/

namespace DiagramService.CommandLine

namespace Level

/-- The command with its name. -/
def title : Level → String
  | .top => "umlserve"
  | .serve => "umlserve serve"
  | .render => "umlserve render"
  | .help => "umlserve help"

/-- How a command is used. -/
def usage : Level → String
  | .top => "umlserve [COMMAND]"
  | .serve => "umlserve serve"
  | .render => "umlserve render [OPTIONS] <INPUT>"
  | .help => "umlserve help [COMMAND]..."

/-- The help on a command. -/
def helpText : Level → String
  | .top =>
    "Render PlantUML diagrams to PNG over HTTP\n\nUsage: umlserve [COMMAND]\n\nCommands:\n" ++
    "  serve   Start the HTTP server\n" ++
    "  render  Render a diagram source file directly to a PNG file\n" ++
    "  help    Print this message or the help of the given subcommand(s)\n\n" ++
    "Options:\n  -h, --help  Print help\n"
  | .serve =>
    "Start the HTTP server\n\nUsage: umlserve serve\n\nOptions:\n  -h, --help  Print help\n"
  | .render =>
    "Render a diagram source file directly to a PNG file\n\n" ++
    "Usage: umlserve render [OPTIONS] <INPUT>\n\nArguments:\n  <INPUT>  Diagram source file\n\n" ++
    "Options:\n" ++
    "  -o, --output <OUTPUT>  Output PNG file path (default: input with .png extension)\n" ++
    "  -h, --help             Print help\n"
  | .help =>
    "Print this message or the help of the given subcommand(s)\n\n" ++
    "Usage: umlserve help [COMMAND]...\n\nArguments:\n" ++
    "  [COMMAND]...  Print help for the subcommand(s)\n"

/-- How to get help. -/
def hint : Level → String
  | .help => "\n"
  | _ => "\n\nFor more information, try '--help'.\n"

end Level

namespace Known

/-- How an argument is written. -/
def shape : Known → String
  | .input => "<INPUT>"
  | .output => "--output <OUTPUT>"
  | .help => "--help"

end Known

/-- How a command is used with some of its arguments, the options before the input. -/
def usageWith (level : Level) (used : List Known) : String :=
  if used.isEmpty then level.usage
  else
    let options := (used.filter (· ≠ .input)).map Known.shape
    let input := if level = .render then [Known.shape .input] else []
    " ".intercalate (level.title :: options ++ input)

/-- The text of a complaint: the error, a tip if there is one, and the usage if it is shown. -/
def complain (level : Level) (error : String) (tip : Option String) (usage : Option String) :
    String :=
  "error: " ++ error ++ ((tip.map ("\n\n  tip: " ++ ·)).getD "") ++
    ((usage.map ("\n\nUsage: " ++ ·)).getD "") ++ level.hint

/-- The names of similar commands. -/
def similarTip : List String → Option String
  | [] => none
  | [name] => some ("a similar subcommand exists: '" ++ name ++ "'")
  | names =>
    some ("some similar subcommands exist: " ++
      ", ".intercalate (names.map fun name => "'" ++ name ++ "'"))

namespace Complaint

/-- What a complaint says. -/
def message : Complaint → String
  | .unknown level argument similar passable used =>
    let tip :=
      match similar with
      | some (option, none) => some ("a similar argument exists: '--" ++ option ++ "'")
      | some (option, some command) => some ("'" ++ command ++ " --" ++ option ++ "' exists")
      | none =>
        if passable then
          some ("to pass '" ++ argument ++ "' as a value, use '-- " ++ argument ++ "'")
        else none
    complain level ("unexpected argument '" ++ argument ++ "' found") tip (usageWith level used)
  | .unknownCommand level name similar =>
    complain level ("unrecognized subcommand '" ++ name ++ "'") (similarTip similar) level.usage
  | .escapedCommand name =>
    complain .top ("unexpected argument '" ++ name ++ "' found")
      ("subcommand '" ++ name ++ "' exists; to use it, remove the '--' before it") Level.top.usage
  | .missingValue argument =>
    complain .render ("a value is required for '" ++ argument.shape ++ "' but none was supplied")
      none none
  | .repeated =>
    complain .render
      ("the argument '" ++ Known.output.shape ++ "' cannot be used multiple times") none
      Level.render.usage
  | .missingInput used =>
    complain .render
      ("the following required arguments were not provided:\n  " ++ Known.input.shape) none
      (usageWith .render (used ++ [.input]))
  | .needlessValue level value used =>
    complain level
      ("unexpected value '" ++ value ++ "' for '--help' found; no more were expected") none
      (usageWith level used)

end Complaint

end DiagramService.CommandLine
