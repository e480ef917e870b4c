import DiagramService.Shell.Code

/-!
# Reading shell code

Code is read from the front of the text. Every reader gives back the text that it has left, and
takes a bound on its steps, which the length of the text serves for.
-/

namespace DiagramService.Shell

/-- What a reader has read, and the text that is left. -/
abbrev Read (α : Type) := Option (α × List Char)

/-- A character that ends a word. -/
def endsWord (c : Char) : Bool :=
  c == ' ' || c == '\t' || c == '\n' || c == ';' || c == '&' || c == '|' || c == '(' || c == ')' ||
    c == '<' || c == '>'

/-- The first character of a name. -/
def startsName (c : Char) : Bool :=
  c.isAlpha || c == '_'

/-- Any other character of a name. -/
def isNameChar (c : Char) : Bool :=
  c.isAlphanum || c == '_'

/-- A parameter that is written with one sign. -/
def isSign (c : Char) : Bool :=
  c == '@' || c == '*' || c == '#' || c == '?' || c == '-' || c == '$' || c == '!'

/-- The text from the next token on: without blanks, joined lines and comments. -/
def skipBlanks (fuel : Nat) (cs : List Char) : List Char :=
  match fuel, cs with
  | fuel + 1, ' ' :: rest => skipBlanks fuel rest
  | fuel + 1, '\t' :: rest => skipBlanks fuel rest
  | fuel + 1, '\\' :: '\n' :: rest => skipBlanks fuel rest
  | _, '#' :: rest => rest.dropWhile (· != '\n')
  | _, rest => rest

/-- The text without the line breaks at its front. -/
def skipLines (fuel : Nat) (cs : List Char) : List Char :=
  match fuel, skipBlanks fuel cs with
  | fuel + 1, '\n' :: rest => skipLines fuel rest
  | _, rest => rest

/-- A name, a number or a sign after a dollar. -/
def readParameterName (cs : List Char) : Read (List Char) :=
  match cs with
  | c :: rest =>
    if startsName c then some (cs.takeWhile isNameChar, cs.dropWhile isNameChar)
    else if c.isDigit || isSign c then some ([c], rest)
    else none
  | [] => none

/-- The name in a bracketed parameter, which may be a number of several digits. -/
def readBracedName (cs : List Char) : Read (List Char) :=
  match cs with
  | c :: _ =>
    if c.isDigit then some (cs.takeWhile Char.isDigit, cs.dropWhile Char.isDigit)
    else readParameterName cs
  | [] => none

/-- The text of a word, if all of it is plain text. -/
def plainText? : List Part → Option (List Char)
  | [] => some []
  | .text content false :: rest => (plainText? rest).map (content ++ ·)
  | _ => none

/-- The words that have a meaning at the start of a command. -/
def reserved : List (List Char) :=
  ["if", "then", "else", "elif", "fi", "while", "until", "do", "done", "for", "case", "esac", "in",
    "\x7b", "\x7d", "!"].map String.toList

/-- The reserved word at the front of the text, and the text after it. -/
def reserved? (fuel : Nat) (cs : List Char) : Read (List Char) :=
  let cs := skipLines fuel cs
  let word := cs.takeWhile fun c => !endsWord c
  if reserved.contains word then some (word, cs.drop word.length) else none

/-- The text after a given reserved word. -/
def expect? (fuel : Nat) (word : String) (cs : List Char) : Option (List Char) :=
  match reserved? fuel cs with
  | some (found, rest) => if found == word.toList then some rest else none
  | none => none

/-- The sign of a redirection and the number of its stream. -/
def readRedirectSign (cs : List Char) : Read (Nat × RedirectKind) :=
  let (stream, rest) :=
    match cs with
    | c :: d :: rest =>
      if c.isDigit && (d == '<' || d == '>') then (some (c.toNat - 48), d :: rest) else (none, cs)
    | _ => (none, cs)
  match rest with
  | '>' :: '>' :: rest => some ((stream.getD 1, .append), rest)
  | '>' :: '&' :: rest => some ((stream.getD 1, .duplicate), rest)
  | '>' :: '|' :: rest => some ((stream.getD 1, .output), rest)
  | '>' :: rest => some ((stream.getD 1, .output), rest)
  | '<' :: '&' :: rest => some ((stream.getD 0, .duplicate), rest)
  | '<' :: rest => some ((stream.getD 0, .input), rest)
  | _ => none

/-- The name and value of an assignment, if a word is one. -/
def assignment? : List Part → Option (List Char × List Part)
  | .text content false :: rest =>
    let name := content.takeWhile isNameChar
    match content.drop name.length with
    | '=' :: value =>
      if name.head?.any startsName then
        some (name, if value.isEmpty then rest else .text value false :: rest)
      else none
    | _ => none
  | _ => none

/-- How a list ends. -/
inductive Stop where
  /-- At the end of the text. -/
  | text
  /-- At a closing parenthesis. -/
  | paren
  /-- At a closing parenthesis or two semicolons. -/
  | branch
  /-- At one of these reserved words. -/
  | words (ends : List String)

/-- Whether a list ends before the text. -/
def Stop.atEnd (s : Stop) (fuel : Nat) (cs : List Char) : Bool :=
  match s, cs with
  | _, [] => true
  | .paren, ')' :: _ => true
  | .branch, ';' :: ';' :: _ => true
  | .branch, _ => (expect? fuel "esac" cs).isSome
  | .words ends, _ => ends.any fun word => (expect? fuel word cs).isSome
  | _, _ => false

mutual

/-- The parts inside of double quotes. -/
def readQuoted (fuel : Nat) (done : List Part) (cs : List Char) : Read (List Part) :=
  match fuel with
  | 0 => none
  | fuel + 1 =>
    match cs with
    | [] => none
    | '"' :: rest => some (done.reverse, rest)
    | '\\' :: '\n' :: rest => readQuoted fuel done rest
    | '\\' :: c :: rest =>
      let escaped := c == '$' || c == '\u0060' || c == '"' || c == '\\'
      readQuoted fuel (.text (if escaped then [c] else ['\\', c]) true :: done) rest
    | '$' :: rest =>
      match readDollar fuel true rest with
      | some (part, rest) => readQuoted fuel (part :: done) rest
      | none => none
    | '\u0060' :: rest =>
      match readBackquoted fuel true [] rest with
      | some (part, rest) => readQuoted fuel (part :: done) rest
      | none => none
    | c :: rest => readQuoted fuel (.text [c] true :: done) rest

/-- A command in backquotes. -/
def readBackquoted (fuel : Nat) (quoted : Bool) (done : List Char) (cs : List Char) : Read Part :=
  match fuel with
  | 0 => none
  | fuel + 1 =>
    match cs with
    | [] => none
    | '\u0060' :: rest =>
      match readList fuel .text done.reverse with
      | some (body, []) => some (.command body quoted, rest)
      | _ => none
    | '\\' :: c :: rest =>
      let escaped := c == '$' || c == '\u0060' || c == '\\'
      readBackquoted fuel quoted (if escaped then c :: done else c :: '\\' :: done) rest
    | c :: rest => readBackquoted fuel quoted (c :: done) rest

/-- What a dollar stands for. -/
def readDollar (fuel : Nat) (quoted : Bool) (cs : List Char) : Read Part :=
  match fuel with
  | 0 => none
  | fuel + 1 =>
    match cs with
    | '(' :: rest =>
      match readList fuel .paren rest with
      | some (body, ')' :: rest) => some (.command body quoted, rest)
      | _ => none
    | '\x7b' :: rest => readBraced fuel quoted rest
    | _ =>
      match readParameterName cs with
      | some (name, rest) => some (.parameter name .none quoted, rest)
      | none => some (.text ['$'] quoted, cs)

/-- A parameter in brackets. -/
def readBraced (fuel : Nat) (quoted : Bool) (cs : List Char) : Read Part :=
  match fuel with
  | 0 => none
  | fuel + 1 =>
    match cs with
    | '#' :: '\x7d' :: rest => some (.parameter ['#'] .none quoted, rest)
    | '#' :: rest =>
      match readBracedName rest with
      | some (name, '\x7d' :: rest) => some (.parameter name .length quoted, rest)
      | _ => none
    | _ =>
      match readBracedName cs with
      | none => none
      | some (name, rest) =>
        let finish (rest : List Char) (change : List Part → Change) : Read Part :=
          match readBracedWord fuel quoted [] rest with
          | some (word, rest) => some (.parameter name (change word) quoted, rest)
          | none => none
        match rest with
        | '\x7d' :: rest => some (.parameter name .none quoted, rest)
        | ':' :: '-' :: rest => finish rest (.default true false)
        | '-' :: rest => finish rest (.default false false)
        | ':' :: '=' :: rest => finish rest (.default true true)
        | '=' :: rest => finish rest (.default false true)
        | ':' :: '+' :: rest => finish rest (.instead true)
        | '+' :: rest => finish rest (.instead false)
        | '#' :: '#' :: rest => finish rest (.cutStart true)
        | '#' :: rest => finish rest (.cutStart false)
        | '%' :: '%' :: rest => finish rest (.cutEnd true)
        | '%' :: rest => finish rest (.cutEnd false)
        | _ => none

/-- The word after the operator of a bracketed parameter, up to the closing bracket. -/
def readBracedWord (fuel : Nat) (quoted : Bool) (done : List Part) (cs : List Char) :
    Read (List Part) :=
  match fuel with
  | 0 => none
  | fuel + 1 =>
    match cs with
    | [] => none
    | '\x7d' :: rest => some (done.reverse, rest)
    | '\\' :: c :: rest => readBracedWord fuel quoted (.text [c] true :: done) rest
    | '\'' :: rest =>
      if quoted then readBracedWord fuel quoted (.text ['\''] false :: done) rest
      else
        let content := rest.takeWhile (· != '\'')
        readBracedWord fuel quoted (.text content true :: done) (rest.drop (content.length + 1))
    | '"' :: rest =>
      match readQuoted fuel [] rest with
      | some (parts, rest) => readBracedWord fuel quoted (parts.reverse ++ done) rest
      | none => none
    | '$' :: rest =>
      match readDollar fuel quoted rest with
      | some (part, rest) => readBracedWord fuel quoted (part :: done) rest
      | none => none
    | c :: rest => readBracedWord fuel quoted (.text [c] false :: done) rest

/-- A word. Nothing is read where none starts. -/
def readWord (fuel : Nat) (done : List Part) (cs : List Char) : Read (List Part) :=
  match fuel with
  | 0 => none
  | fuel + 1 =>
    match cs with
    | [] => some (done.reverse, [])
    | '\\' :: '\n' :: rest => readWord fuel done rest
    | '\\' :: c :: rest => readWord fuel (.text [c] true :: done) rest
    | '\'' :: rest =>
      let content := rest.takeWhile (· != '\'')
      match rest.drop content.length with
      | '\'' :: rest => readWord fuel (.text content true :: done) rest
      | _ => none
    | '"' :: rest =>
      match readQuoted fuel [.text [] true] rest with
      | some (parts, rest) => readWord fuel (parts.reverse ++ done) rest
      | none => none
    | '$' :: rest =>
      match readDollar fuel false rest with
      | some (part, rest) => readWord fuel (part :: done) rest
      | none => none
    | '\u0060' :: rest =>
      match readBackquoted fuel false [] rest with
      | some (part, rest) => readWord fuel (part :: done) rest
      | none => none
    | c :: rest =>
      if endsWord c then some (done.reverse, cs)
      else
        match done with
        | .text content false :: done => readWord fuel (.text (content ++ [c]) false :: done) rest
        | _ => readWord fuel (.text [c] false :: done) rest

/-- Redirections. -/
def readRedirects (fuel : Nat) (done : List Redirect) (cs : List Char) : Read (List Redirect) :=
  match fuel with
  | 0 => none
  | fuel + 1 =>
    let cs := skipBlanks fuel cs
    match readRedirectSign cs with
    | none => some (done.reverse, cs)
    | some ((stream, kind), rest) =>
      match readWord fuel [] (skipBlanks fuel rest) with
      | some (target, rest) =>
        if target.isEmpty then none else readRedirects fuel (.mk stream kind target :: done) rest
      | none => none

/-- Words up to the end of a command. -/
def readWords (fuel : Nat) (done : List (List Part)) (cs : List Char) : Read (List (List Part)) :=
  match fuel with
  | 0 => none
  | fuel + 1 =>
    let cs := skipBlanks fuel cs
    match cs with
    | [] => some (done.reverse, [])
    | c :: _ =>
      if endsWord c then some (done.reverse, cs)
      else
        match readWord fuel [] cs with
        | some (word, rest) => readWords fuel (word :: done) rest
        | none => none

/-- A simple command: assignments first, then words, with redirections anywhere, and not without all
of these. -/
def readSimple (fuel : Nat) (line : Nat) (assignments : List (List Char × List Part))
    (words : List (List Part)) (redirects : List Redirect) (cs : List Char) : Read Code :=
  match fuel with
  | 0 => none
  | fuel + 1 =>
    match readRedirects fuel [] cs with
    | none => none
    | some (more, cs) =>
      let redirects := redirects ++ more
      let done (rest : List Char) : Read Code :=
        if assignments.isEmpty && words.isEmpty && redirects.isEmpty then none
        else some (.simple line assignments.reverse words.reverse redirects, rest)
      match cs with
      | [] => done []
      | c :: _ =>
        if endsWord c then done cs
        else
          match readWord fuel [] cs with
          | none => none
          | some (word, rest) =>
            match if words.isEmpty then assignment? word else none with
            | some pair => readSimple fuel line (pair :: assignments) words redirects rest
            | none => readSimple fuel line assignments (word :: words) redirects rest

/-- A command: a simple one, or one that starts with a reserved word or a parenthesis. Its line is
given by the number of line breaks after it. -/
def readCommand (fuel : Nat) (cs : List Char) : Read Code :=
  match fuel with
  | 0 => none
  | fuel + 1 =>
    let cs := skipBlanks fuel cs
    let line := cs.count '\n'
    let withRedirects (body : Code) (rest : List Char) : Read Code :=
      match readRedirects fuel [] rest with
      | some ([], rest) => some (body, rest)
      | some (redirects, rest) => some (.redirected line body redirects, rest)
      | none => none
    match cs with
    | '(' :: rest =>
      match readList fuel .paren rest with
      | some (body, ')' :: rest) => withRedirects (.subshell body) rest
      | _ => none
    | _ =>
      match (reserved? fuel cs).map fun (word, rest) => (String.ofList word, rest) with
      | some ("if", rest) =>
        match readIf fuel rest with
        | some (body, rest) => withRedirects body rest
        | none => none
      | some ("while", rest) =>
        match readLoop fuel false rest with
        | some (body, rest) => withRedirects body rest
        | none => none
      | some ("until", rest) =>
        match readLoop fuel true rest with
        | some (body, rest) => withRedirects body rest
        | none => none
      | some ("for", rest) =>
        match readFor fuel rest with
        | some (body, rest) => withRedirects body rest
        | none => none
      | some ("case", rest) =>
        match readCase fuel rest with
        | some (body, rest) => withRedirects body rest
        | none => none
      | some ("\x7b", rest) =>
        match readList fuel (.words ["\x7d"]) rest with
        | some (body, rest) =>
          match expect? fuel "\x7d" rest with
          | some rest => withRedirects body rest
          | none => none
        | none => none
      | some _ => none
      | none => readSimple fuel line [] [] [] cs

/-- What follows `if` or `elif`. -/
def readIf (fuel : Nat) (cs : List Char) : Read Code :=
  match fuel with
  | 0 => none
  | fuel + 1 =>
    match readList fuel (.words ["then"]) cs with
    | none => none
    | some (condition, rest) =>
      match (expect? fuel "then" rest).bind (readList fuel (.words ["elif", "else", "fi"])) with
      | none => none
      | some (yes, rest) =>
        match (reserved? fuel rest).map fun (word, rest) => (String.ofList word, rest) with
        | some ("fi", rest) => some (.choose condition yes .skip, rest)
        | some ("elif", rest) =>
          match readIf fuel rest with
          | some (no, rest) => some (.choose condition yes no, rest)
          | none => none
        | some ("else", rest) =>
          match readList fuel (.words ["fi"]) rest with
          | some (no, rest) =>
            match expect? fuel "fi" rest with
            | some rest => some (.choose condition yes no, rest)
            | none => none
          | none => none
        | _ => none

/-- A list between `do` and `done`. -/
def readBody (fuel : Nat) (cs : List Char) : Read Code :=
  match fuel with
  | 0 => none
  | fuel + 1 =>
    match (expect? fuel "do" cs).bind (readList fuel (.words ["done"])) with
    | some (body, rest) =>
      match expect? fuel "done" rest with
      | some rest => some (body, rest)
      | none => none
    | none => none

/-- What follows `while` or `until`. -/
def readLoop (fuel : Nat) (until_ : Bool) (cs : List Char) : Read Code :=
  match fuel with
  | 0 => none
  | fuel + 1 =>
    match readList fuel (.words ["do"]) cs with
    | some (condition, rest) =>
      match readBody fuel rest with
      | some (body, rest) => some (.loop until_ condition body, rest)
      | none => none
    | none => none

/-- What follows `for`. -/
def readFor (fuel : Nat) (cs : List Char) : Read Code :=
  match fuel with
  | 0 => none
  | fuel + 1 =>
    let cs := skipBlanks fuel cs
    let name := cs.takeWhile isNameChar
    let rest := skipLines fuel (cs.drop name.length)
    let words :=
      match expect? fuel "in" rest with
      | some rest => (readWords fuel [] rest).map fun (words, rest) => (some words, rest)
      | none => some (none, rest)
    match words with
    | none => none
    | some (words, rest) =>
      let rest :=
        match skipBlanks fuel rest with
        | ';' :: rest => rest
        | rest => rest
      match readBody fuel rest with
      | some (body, rest) =>
        if name.head?.any startsName then some (.each name words body, rest) else none
      | none => none

/-- What follows `case`. -/
def readCase (fuel : Nat) (cs : List Char) : Read Code :=
  match fuel with
  | 0 => none
  | fuel + 1 =>
    match readWord fuel [] (skipBlanks fuel cs) with
    | none => none
    | some (word, rest) =>
      match (expect? fuel "in" rest).bind (readBranches fuel []) with
      | some (branches, rest) => some (.select word branches, rest)
      | none => none

/-- The branches of a choice up to `esac`. -/
def readBranches (fuel : Nat) (done : List (List (List Part) × Code)) (cs : List Char) :
    Read (List (List (List Part) × Code)) :=
  match fuel with
  | 0 => none
  | fuel + 1 =>
    let cs := skipLines fuel cs
    match expect? fuel "esac" cs with
    | some rest => some (done.reverse, rest)
    | none =>
      let cs := match cs with
        | '(' :: rest => rest
        | _ => cs
      match readPatterns fuel [] cs with
      | none => none
      | some (patterns, rest) =>
        match readList fuel .branch rest with
        | some (body, ';' :: ';' :: rest) => readBranches fuel ((patterns, body) :: done) rest
        | some (body, rest) => readBranches fuel ((patterns, body) :: done) rest
        | none => none

/-- The patterns of a branch and the closing parenthesis. -/
def readPatterns (fuel : Nat) (done : List (List Part)) (cs : List Char) :
    Read (List (List Part)) :=
  match fuel with
  | 0 => none
  | fuel + 1 =>
    match readWord fuel [] (skipBlanks fuel cs) with
    | none => none
    | some (pattern, rest) =>
      match skipBlanks fuel rest with
      | '|' :: rest => readPatterns fuel (pattern :: done) rest
      | ')' :: rest => some ((pattern :: done).reverse, rest)
      | _ => none

/-- Commands joined by pipes, perhaps negated. -/
def readPipeline (fuel : Nat) (cs : List Char) : Read Code :=
  match fuel with
  | 0 => none
  | fuel + 1 =>
    match expect? fuel "!" cs with
    | some rest =>
      match readPipeline fuel rest with
      | some (body, rest) => some (.not body, rest)
      | none => none
    | none =>
      match readCommand fuel cs with
      | none => none
      | some (first, rest) =>
        match skipBlanks fuel rest with
        | '|' :: '|' :: _ => some (first, rest)
        | '|' :: rest =>
          match readPipeline fuel (skipLines fuel rest) with
          | some (second, rest) => some (.pipe first second, rest)
          | none => none
        | rest => some (first, rest)

/-- Pipelines joined by `&&` and `||` onto what comes before them. -/
def readChain (fuel : Nat) (before : Code) (cs : List Char) : Read Code :=
  match fuel with
  | 0 => none
  | fuel + 1 =>
    match skipBlanks fuel cs with
    | '&' :: '&' :: rest =>
      match readPipeline fuel (skipLines fuel rest) with
      | some (next, rest) => readChain fuel (.both before next) rest
      | none => none
    | '|' :: '|' :: rest =>
      match readPipeline fuel (skipLines fuel rest) with
      | some (next, rest) => readChain fuel (.either before next) rest
      | none => none
    | rest => some (before, rest)

/-- Commands one after another, up to where the list ends. -/
def readList (fuel : Nat) (stop : Stop) (cs : List Char) : Read Code :=
  match fuel with
  | 0 => none
  | fuel + 1 =>
    let cs := skipLines fuel cs
    if stop.atEnd fuel cs then some (.skip, cs)
    else
      match (readPipeline fuel cs).bind fun (first, rest) => readChain fuel first rest with
      | none => none
      | some (command, rest) =>
        let rest := skipBlanks fuel rest
        let goOn (command : Code) (rest : List Char) : Read Code :=
          match readList fuel stop rest with
          | some (.skip, rest) => some (command, rest)
          | some (more, rest) => some (.seq command more, rest)
          | none => none
        match rest with
        | ';' :: ';' :: _ => if stop.atEnd fuel rest then some (command, rest) else none
        | ';' :: rest => goOn command rest
        | '\n' :: rest => goOn command rest
        | '&' :: rest => goOn (.background command) rest
        | _ => if stop.atEnd fuel rest then some (command, rest) else none

end

/-- The code of a script, `none` if it is not well formed. -/
def Code.ofText? (text : List Char) : Option Code :=
  match readList (8 * text.length + 32) .text text with
  | some (body, []) => some body
  | _ => none

end DiagramService.Shell
