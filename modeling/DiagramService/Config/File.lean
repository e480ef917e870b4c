import DiagramService.Config.Basic
import DiagramService.Error.System
import DiagramService.Yaml.Document

/-!
# The configuration file

The file is a YAML mapping from the names of settings to their values, with a mapping inside for the
renderer. Settings that are left out take their defaults and unknown ones are passed over. A file
with anything wrong in it is not used at all: unreadable, not well formed, more than one document, a
setting that is given twice or that has a value of another type.
-/

namespace DiagramService

open Yaml

namespace Config

/-- The text of a scalar, however it is written. -/
def readText? (d : Document) : List Item → Option (String × List Item)
  | .scalar content :: rest => some (String.ofList content.text, rest)
  | .alias number :: rest =>
    match d.itemsAt number with
    | .scalar content :: _ => some (String.ofList content.text, rest)
    | _ => none
  | _ => none

/-- The value of digits in a given base. -/
def digitsIn? (base : Nat) (cs : List Char) : Option Nat :=
  if cs.isEmpty then none
  else (cs.foldlM fun value c =>
    let digit :=
      if c.isDigit then some (c.toNat - 48)
      else if 'a' ≤ c ∧ c ≤ 'z' then some (c.toNat - 87)
      else if 'A' ≤ c ∧ c ≤ 'Z' then some (c.toNat - 55)
      else none
    digit.bind fun n =>
      if n < base && value * base + n < UInt64.size then some (value * base + n) else none) 0

/-- Whether digits are kept as text because they start with a zero. -/
def leadingZero (cs : List Char) : Bool :=
  1 < cs.length && cs.head? == some '0' && cs.all Char.isDigit

/-- A number of 64 bits, in decimal or after `0x`, `0o` or `0b`, with at most one plus sign. -/
def number? (cs : List Char) : Option UInt64 :=
  let unsigned := if cs.head? == some '+' then cs.tail else cs
  let based :=
    match unsigned with
    | '0' :: 'x' :: digits => digitsIn? 16 digits
    | '0' :: 'o' :: digits => digitsIn? 8 digits
    | '0' :: 'b' :: digits => digitsIn? 2 digits
    | _ => none
  let plain := if leadingZero unsigned then none else digitsIn? 10 unsigned
  (based <|> plain).map UInt64.ofNat

/-- Whether a scalar may be a number. -/
def isNumeric (content : Scalar) : Bool :=
  content.style == .plain ||
    (content.style == .literal && content.tag == some (Utf8.encode "tag:yaml.org,2002:int"))

/-- The number that a scalar spells. -/
def scalarNumber? (content : Scalar) : Option UInt64 :=
  if isNumeric content then number? content.text else none

/-- A number. -/
def readNumber? (d : Document) : List Item → Option (UInt64 × List Item)
  | .scalar content :: rest => (scalarNumber? content).map (·, rest)
  | .alias number :: rest =>
    match d.itemsAt number with
    | .scalar content :: _ => (scalarNumber? content).map (·, rest)
    | _ => none
  | _ => none

/-- The texts up to the end of a list, of which at most `fuel` are left. -/
def readTexts? (d : Document) : Nat → List String → List Item → Option (List String × List Item)
  | 0, _, _ => none
  | fuel + 1, done, items =>
    match items with
    | .listEnd :: rest => some (done.reverse, rest)
    | _ => (readText? d items).bind fun (text, items) => readTexts? d fuel (text :: done) items

/-- Whether a scalar stands for nothing, as where a value is left out. -/
def isNothing (content : Scalar) : Bool :=
  content.text.isEmpty && content.style == .plain

/-- A list of texts at its start. -/
def readListHere? (d : Document) : List Item → Option (List String × List Item)
  | .listStart :: rest => readTexts? d rest.length [] rest
  | .scalar content :: rest => if isNothing content then some ([], rest) else none
  | _ => none

/-- A list of texts. -/
def readList? (d : Document) : List Item → Option (List String × List Item)
  | .alias number :: rest =>
    (readListHere? d (d.itemsAt number)).map fun (texts, _) => (texts, rest)
  | items => readListHere? d items

/-- The settings of the renderer that a file gives. -/
structure RendererFields where
  command : Option String := none
  args : Option (List String) := none
  timeoutSeconds : Option UInt64 := none

/-- The renderer with defaults for what is not given. -/
def RendererFields.toConfig (f : RendererFields) : RendererConfig where
  command := f.command.getD RendererConfig.standard.command
  args := f.args.getD RendererConfig.standard.args
  timeoutSeconds := f.timeoutSeconds.getD RendererConfig.standard.timeoutSeconds

/-- The value of a setting that has not been given before. -/
def once? {α : Type} (given : Option α) (read : Option (α × List Item)) : Option (α × List Item) :=
  if given.isSome then none else read

/-- The settings up to the end of a mapping, of which at most `fuel` are left. -/
def readRendererFields? (d : Document) : Nat → RendererFields → List Item →
    Option (RendererFields × List Item)
  | 0, _, _ => none
  | fuel + 1, f, items =>
    match items with
    | .mapEnd :: rest => some (f, rest)
    | _ => do
      let (key, items) ← readText? d items
      if key == "command" then
        let (command, items) ← once? f.command (readText? d items)
        readRendererFields? d fuel { f with command := some command } items
      else if key == "args" then
        let (args, items) ← once? f.args (readList? d items)
        readRendererFields? d fuel { f with args := some args } items
      else if key == "timeout_secs" then
        let (seconds, items) ← once? f.timeoutSeconds (readNumber? d items)
        readRendererFields? d fuel { f with timeoutSeconds := some seconds } items
      else readRendererFields? d fuel f (Item.skipNode 0 items)

/-- The settings of the renderer at their start. -/
def readRendererHere? (d : Document) : List Item → Option (RendererConfig × List Item)
  | .mapStart :: rest =>
    (readRendererFields? d rest.length {} rest).map fun (f, rest) => (f.toConfig, rest)
  | .scalar content :: rest =>
    if isNothing content then some (.standard, rest) else none
  | _ => none

/-- The settings of the renderer. -/
def readRenderer? (d : Document) : List Item → Option (RendererConfig × List Item)
  | .alias number :: rest =>
    (readRendererHere? d (d.itemsAt number)).map fun (config, _) => (config, rest)
  | items => readRendererHere? d items

/-- The settings that a file gives. -/
structure Fields where
  renderer : Option RendererConfig := none
  saveDir : Option String := none
  workDir : Option String := none

/-- The settings with defaults for what is not given. -/
def Fields.toConfig (temporary : Path) (f : Fields) : Config where
  renderer := f.renderer.getD .standard
  saveDir := (f.saveDir.map Path.ofString).getD (standard temporary).saveDir
  workDir := (f.workDir.map Path.ofString).getD temporary

/-- The settings up to the end of a mapping, of which at most `fuel` are left. -/
def readFields? (d : Document) : Nat → Fields → List Item → Option (Fields × List Item)
  | 0, _, _ => none
  | fuel + 1, f, items =>
    match items with
    | .mapEnd :: rest => some (f, rest)
    | _ => do
      let (key, items) ← readText? d items
      if key == "renderer" then
        let (renderer, items) ← once? f.renderer (readRenderer? d items)
        readFields? d fuel { f with renderer := some renderer } items
      else if key == "save_dir" then
        let (dir, items) ← once? f.saveDir (readText? d items)
        readFields? d fuel { f with saveDir := some dir } items
      else if key == "work_dir" then
        let (dir, items) ← once? f.workDir (readText? d items)
        readFields? d fuel { f with workDir := some dir } items
      else readFields? d fuel f (Item.skipNode 0 items)

/-- The settings of a document. -/
def ofDocument? (temporary : Path) (d : Document) : Option Config :=
  match d.items with
  | [] => some (standard temporary)
  | .mapStart :: rest =>
    (readFields? d rest.length {} rest).map fun (f, _) => f.toConfig temporary
  | .scalar content :: _ => if isNothing content then some (standard temporary) else none
  | _ => none

/-- The settings of a text. -/
def ofText? (temporary : Path) (text : String) : Option Config :=
  (Document.ofText? text.toList).bind (ofDocument? temporary)

/-- The settings of a file, or the defaults if there is anything wrong with it. -/
def ofContent (temporary : Path) (content : Except IoError Bytes) : Config :=
  match content with
  | .ok bytes => ((Utf8.decode? bytes).bind (ofText? temporary)).getD (standard temporary)
  | .error _ => standard temporary

end Config

end DiagramService
