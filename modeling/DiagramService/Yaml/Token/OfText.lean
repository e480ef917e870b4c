import DiagramService.Yaml.Folding
import DiagramService.Yaml.Property

/-!
# The tokens of a text

Tokens are taken from the front of the text one after another. Indentation opens and closes lists
and mappings. What stands before a colon on one line turns out to be a key only at the colon, and
the token that says so is put in before it then, so for each bracket level the place of the last
possible key is kept.
-/

namespace DiagramService.Yaml

/-- A place where a key may have started. -/
structure PossibleKey where
  /-- Whether only a key can stand there. -/
  required : Bool
  /-- How many tokens come before it. -/
  position : Nat
  index : Nat
  line : Nat
  column : Nat

/-- What has been taken from the text, and what is open. -/
structure Scanner where
  /-- A bound on the number of characters. -/
  size : Nat
  cursor : Cursor
  /-- The indentation of the innermost open list or mapping. -/
  indent : Int
  /-- The indentations around it, innermost first. -/
  outer : List Int
  /-- Whether a key may start here. -/
  keyAllowed : Bool
  /-- The possible key outside of all brackets. -/
  blockKey : Option PossibleKey
  /-- The possible keys inside of each open bracket, innermost first. -/
  flowKeys : List (Option PossibleKey)
  tokens : Array Token

namespace Scanner

/-- Before the first token. -/
def start (text : List Char) : Scanner where
  size := text.length
  cursor := .start text
  indent := -1
  outer := []
  keyAllowed := true
  blockKey := none
  flowKeys := []
  tokens := #[]

/-- Whether a bracket is open. -/
def inFlow (s : Scanner) : Bool :=
  !s.flowKeys.isEmpty

/-- The possible key of the innermost level. -/
def currentKey (s : Scanner) : Option PossibleKey :=
  match s.flowKeys with
  | key :: _ => key
  | [] => s.blockKey

/-- The same with another possible key. -/
def setKey (s : Scanner) (key : Option PossibleKey) : Scanner :=
  match s.flowKeys with
  | _ :: keys => { s with flowKeys := key :: keys }
  | [] => { s with blockKey := key }

/-- The same with one more token. -/
def push (s : Scanner) (token : Token) : Scanner :=
  { s with tokens := s.tokens.push token }

/-- The same with the cursor at another place. -/
def moveTo (s : Scanner) (cursor : Cursor) : Scanner :=
  { s with cursor := cursor }

/-- Passes spaces, comments and line breaks up to the next token. A tab counts as space where no key
may start. -/
def toNextToken (fuel : Nat) (keyAllowed flow : Bool) (c : Cursor) : Bool × Cursor :=
  match fuel with
  | 0 => (keyAllowed, c)
  | fuel + 1 =>
    let c := if c.index == 0 && c.rest.head? == some '\uFEFF' then c.advance else c
    let c := c.skipWhile fun x => x == ' ' || ((flow || !keyAllowed) && x == '\t')
    let c := if c.rest.head? == some '#' then c.skipWhile (!isBreak ·) else c
    if c.rest.head?.any isBreak then
      toNextToken fuel (keyAllowed || !flow) flow c.advanceLine
    else (keyAllowed, c)

/-- A possible key without those that can no longer be one: a key stands on one line and has at most
1024 characters. `none` if such a key was required. -/
def dropStale? (c : Cursor) (key : Option PossibleKey) : Option (Option PossibleKey) :=
  match key with
  | none => some none
  | some k =>
    if k.line < c.line || k.index + 1024 < c.index then
      if k.required then none else some none
    else some (some k)

/-- Drops the possible keys that can no longer be one. -/
def dropStaleKeys? (s : Scanner) : Option Scanner := do
  let blockKey ← dropStale? s.cursor s.blockKey
  let flowKeys ← s.flowKeys.mapM (dropStale? s.cursor)
  return { s with blockKey := blockKey, flowKeys := flowKeys }

/-- Gives up the possible key of the innermost level, which may not be a required one. -/
def removeKey? (s : Scanner) : Option Scanner :=
  match s.currentKey with
  | some key => if key.required then none else some (s.setKey none)
  | none => some s

/-- Keeps this place as a possible key, if one is allowed here. -/
def saveKey? (s : Scanner) : Option Scanner :=
  if !s.keyAllowed then some s
  else
    let key : PossibleKey :=
      { required := !s.inFlow && s.indent == s.cursor.column
        position := s.tokens.size
        index := s.cursor.index
        line := s.cursor.line
        column := s.cursor.column }
    s.removeKey?.map (·.setKey (some key))

/-- Opens a list or mapping if the column is deeper than the indentation. Its token comes at the
given position. -/
def roll (s : Scanner) (column position : Nat) (token : Token) : Scanner :=
  if s.inFlow || (column : Int) ≤ s.indent then s
  else
    { s with
      outer := s.indent :: s.outer
      indent := column
      tokens := s.tokens.insertIdxIfInBounds position token }

/-- Closes the lists and mappings that are deeper than the column. -/
def unrollOnto (column : Int) (tokens : Array Token) (indent : Int) :
    List Int → Array Token × Int × List Int
  | [] => (tokens, indent, [])
  | next :: outer =>
    if column < indent then unrollOnto column (tokens.push .blockEnd) next outer
    else (tokens, indent, next :: outer)

/-- Closes the lists and mappings that are deeper than the column, outside of brackets. -/
def unroll (s : Scanner) (column : Int) : Scanner :=
  if s.inFlow then s
  else
    let (tokens, indent, outer) := unrollOnto column s.tokens s.indent s.outer
    { s with tokens := tokens, indent := indent, outer := outer }

/-- The end of the text, which closes all that is open outside of brackets. -/
def finish? (s : Scanner) : Option Scanner := do
  let s ← (s.unroll (-1)).removeKey?
  return { s.push .finish with keyAllowed := false }

/-- A directive or document mark, after closing all that is open outside of brackets. -/
def atMargin? (s : Scanner) (take : Cursor → Option (Token × Cursor)) : Option Scanner := do
  let s ← (s.unroll (-1)).removeKey?
  let (token, c) ← take s.cursor
  return { (s.push token).moveTo c with keyAllowed := false }

/-- An opening bracket. -/
def openFlow? (s : Scanner) (token : Token) : Option Scanner := do
  let s ← s.saveKey?
  return { (s.push token).moveTo s.cursor.advance with
    keyAllowed := true, flowKeys := none :: s.flowKeys }

/-- A closing bracket. -/
def closeFlow? (s : Scanner) (token : Token) : Option Scanner := do
  let s ← s.removeKey?
  return { (s.push token).moveTo s.cursor.advance with
    keyAllowed := false, flowKeys := s.flowKeys.tail }

/-- A comma. -/
def comma? (s : Scanner) : Option Scanner := do
  let s ← s.removeKey?
  return { (s.push .comma).moveTo s.cursor.advance with keyAllowed := true }

/-- Opens a list or mapping by indentation for a mark that stands here. Outside of brackets a mark
may stand only where a key may. -/
def rollHere? (s : Scanner) (token : Token) : Option Scanner :=
  if s.inFlow then some s
  else if !s.keyAllowed then none
  else some (s.roll s.cursor.column s.tokens.size token)

/-- A hyphen before an item. -/
def item? (s : Scanner) : Option Scanner := do
  let s ← (← s.rollHere? .blockList).removeKey?
  return { (s.push .item).moveTo s.cursor.advance with keyAllowed := true }

/-- A question mark before a key. -/
def key? (s : Scanner) : Option Scanner := do
  let s ← (← s.rollHere? .blockMap).removeKey?
  return { (s.push .key).moveTo s.cursor.advance with keyAllowed := !s.inFlow }

/-- A colon before a value. What stands before it becomes a key if it can. -/
def value? (s : Scanner) : Option Scanner :=
  match s.currentKey with
  | some key =>
    let s := { s with tokens := s.tokens.insertIdxIfInBounds key.position .key }
    let s := (s.roll key.column key.position .blockMap).setKey none
    some { (s.push .value).moveTo s.cursor.advance with keyAllowed := false }
  | none =>
    (s.rollHere? .blockMap).map fun s =>
      { (s.push .value).moveTo s.cursor.advance with keyAllowed := !s.inFlow }

/-- A property of a node, which a key may start with. -/
def property? (s : Scanner) (take : Cursor → Option (Token × Cursor)) : Option Scanner := do
  let s ← s.saveKey?
  let (token, c) ← take s.cursor
  return { (s.push token).moveTo c with keyAllowed := false }

/-- A block scalar after its indicator. -/
def block? (s : Scanner) (folded : Bool) : Option Scanner := do
  let s ← s.removeKey?
  let (text, c) ← scanBlock? folded s.indent s.size s.cursor.advance
  let token := Token.scalar (if folded then .folded else .literal) text
  return { (s.push token).moveTo c with keyAllowed := true }

/-- A plain scalar. A key may start after it if it ends with a line. -/
def plain? (s : Scanner) : Option Scanner := do
  let s ← s.saveKey?
  let (text, broken, c) ← scanPlain? s.inFlow (s.indent + 1) [] .none s.cursor
  return { (s.push (.scalar .plain text)).moveTo c with keyAllowed := broken }

/-- The characters that no plain scalar starts with. -/
def indicators : List Char :=
  ['-', '?', ':', ',', '[', ']', '\x7b', '\x7d', '#', '&', '*', '!', '|', '>', '\'', '"', '%', '@',
    '\u0060']

/-- Whether a plain scalar starts here. -/
def startsPlain (flow : Bool) (x : Char) (rest : List Char) : Bool :=
  !(isBlank x || indicators.contains x) ||
    (x == '-' && !rest.head?.any isBlank) ||
    (!flow && (x == '?' || x == ':') && !atGap rest)

/-- Takes the token that starts with `x`. -/
def token? (s : Scanner) (x : Char) (rest : List Char) : Option Scanner :=
  let c := s.cursor
  let flow := s.inFlow
  if c.column == 0 && x == '%' then s.atMargin? fun c => scanDirective? c.advance
  else if c.atDocumentMark then
    s.atMargin? fun c => some (if x == '-' then .documentStart else .documentEnd, c.skip 3)
  else if x == '[' then s.openFlow? .openList
  else if x == '\x7b' then s.openFlow? .openMap
  else if x == ']' then s.closeFlow? .closeList
  else if x == '\x7d' then s.closeFlow? .closeMap
  else if x == ',' then s.comma?
  else if x == '-' && atGap rest then s.item?
  else if x == '?' && (flow || atGap rest) then s.key?
  else if x == ':' && (flow || atGap rest) then s.value?
  else if x == '*' then
    s.property? fun c => (scanName? c.advance).map fun (name, c) => (.alias name, c)
  else if x == '&' then
    s.property? fun c => (scanName? c.advance).map fun (name, c) => (.anchor name, c)
  else if x == '!' then s.property? (scanTag? flow)
  else if x == '|' && !flow then s.block? false
  else if x == '>' && !flow then s.block? true
  else if x == '\'' then
    s.property? fun c =>
      (scanQuoted? false [] .none c.advance).map fun (text, c) => (.scalar .single text, c)
  else if x == '"' then
    s.property? fun c =>
      (scanQuoted? true [] .none c.advance).map fun (text, c) => (.scalar .double text, c)
  else if startsPlain flow x rest then s.plain?
  else none

/-- Takes the next token, or the end of the text. -/
def next? (s : Scanner) : Option (Bool × Scanner) := do
  let (keyAllowed, c) := toNextToken (s.size + 1) s.keyAllowed s.inFlow s.cursor
  let s ← { s.moveTo c with keyAllowed := keyAllowed }.dropStaleKeys?
  let s := s.unroll s.cursor.column
  match s.cursor.rest with
  | [] => return (true, ← s.finish?)
  | x :: rest => return (false, ← s.token? x rest)

/-- Takes tokens to the end of the text. Each takes at least one character. -/
def run? : Nat → Scanner → Option (Array Token)
  | 0, _ => none
  | fuel + 1, s =>
    match s.next? with
    | none => none
    | some (true, s) => some s.tokens
    | some (false, s) => run? fuel s

end Scanner

/-- The tokens of a document, `none` if it is not well formed. -/
def Token.ofText? (text : List Char) : Option (List Token) :=
  if text.all isAllowed then
    ((Scanner.start text).run? (text.length + 1)).map (·.toList)
  else none

end DiagramService.Yaml
