import DiagramService.Yaml.Cursor
import DiagramService.Yaml.Token

/-!
# The text of scalars

Plain and quoted scalars may go on over several lines. The blanks around a line break are dropped, a
single break becomes a space, and of several breaks all but the first are kept. Block scalars keep
their lines below a common indentation, and the folded ones join lines in the same way.
-/

namespace DiagramService.Yaml

/-- The blanks and breaks between two words of a scalar. -/
structure Gap where
  /-- The blanks of a gap without a break, last first. -/
  blanks : List Char
  /-- Whether there is a break, be it an escaped one. -/
  broken : Bool
  /-- The first break, if it is not escaped. -/
  first : List Char
  /-- The further breaks, last first. -/
  more : List Char

namespace Gap

/-- Two words without anything between. -/
def none : Gap := ⟨[], false, [], []⟩

/-- The gap that an escaped break opens. -/
def escaped : Gap := ⟨[], true, [], []⟩

/-- Whether nothing stands between the words. -/
def isNone (g : Gap) : Bool :=
  !g.broken && g.blanks.isEmpty

/-- A gap with one more blank, which counts only before a break. -/
def blank (g : Gap) (x : Char) : Gap :=
  if g.broken then g else { g with blanks := x :: g.blanks }

/-- A gap with one more break. -/
def break_ (g : Gap) (text : List Char) : Gap :=
  if g.broken then { g with more := text ++ g.more } else ⟨[], true, text, []⟩

/-- Adds what the gap stands for to a reversed text. -/
def joinOnto (g : Gap) (text : List Char) : List Char :=
  if !g.broken then g.blanks ++ text
  else if g.first == ['\n'] then (if g.more.isEmpty then ' ' :: text else g.more ++ text)
  else g.more ++ g.first ++ text

end Gap

/-- A character that ends or separates parts of a list or mapping in brackets. -/
def isFlowMark (c : Char) : Bool :=
  c == ',' || c == '[' || c == ']' || c == '\x7b' || c == '\x7d'

/-- Whether a plain scalar ends before this character. A colon before a mark is refused. -/
def plainEnds? (flow : Bool) : List Char → Option Bool
  | ':' :: rest =>
    match rest with
    | x :: _ =>
      if flow && (isFlowMark x || x == '?') then none else some (atGap rest)
    | [] => some true
  | x :: _ => some (flow && isFlowMark x)
  | [] => some true

/-- Whether a plain scalar goes on after a gap. -/
def plainGoesOn (flow : Bool) (indent : Int) (gap : Gap) (c : Cursor) : Bool :=
  gap.isNone ||
    !(!flow && c.column < indent) && !c.atDocumentMark && c.rest.head? != some '#'

/-- Takes a plain scalar. Gives its text, whether a line break follows it, and the rest. -/
def scanPlain? (flow : Bool) (indent : Int) (text : List Char) (gap : Gap) (c : Cursor) :
    Option (List Char × Bool × Cursor) :=
  match h : c.rest with
  | [] => some (text.reverse, gap.broken, c)
  | x :: _ =>
    have := Cursor.advance_lt h
    have := Cursor.advanceLine_lt h
    if isBlank x then
      if gap.broken && c.column < indent && x == '\t' then none
      else scanPlain? flow indent text (gap.blank x) c.advance
    else if isBreak x then scanPlain? flow indent text (gap.break_ c.breakText) c.advanceLine
    else if !plainGoesOn flow indent gap c then some (text.reverse, gap.broken, c)
    else
      match plainEnds? flow c.rest with
      | none => none
      | some true => some (text.reverse, gap.broken, c)
      | some false => scanPlain? flow indent (x :: gap.joinOnto text) .none c.advance
termination_by c.rest.length

/-- The value of hexadecimal digits. -/
def hexValue? (cs : List Char) : Option Nat :=
  cs.foldlM (fun value c =>
    if c.isDigit then some (value * 16 + (c.toNat - 48))
    else if 'a' ≤ c ∧ c ≤ 'f' then some (value * 16 + (c.toNat - 87))
    else if 'A' ≤ c ∧ c ≤ 'F' then some (value * 16 + (c.toNat - 55))
    else none) 0

/-- The character that the letter after a backslash stands for. -/
def namedEscape? (c : Char) : Option Char :=
  match c with
  | '0' => some '\x00'
  | 'a' => some '\x07'
  | 'b' => some '\x08'
  | 't' => some '\t'
  | '\t' => some '\t'
  | 'n' => some '\n'
  | 'v' => some '\x0b'
  | 'f' => some '\x0c'
  | 'r' => some '\r'
  | 'e' => some '\x1b'
  | ' ' => some ' '
  | '"' => some '"'
  | '/' => some '/'
  | '\\' => some '\\'
  | 'N' => some '\u0085'
  | '_' => some '\u00a0'
  | 'L' => some '\u2028'
  | 'P' => some '\u2029'
  | _ => none

/-- How many hexadecimal digits a letter after a backslash calls for. -/
def escapeDigits? (c : Char) : Option Nat :=
  match c with
  | 'x' => some 2
  | 'u' => some 4
  | 'U' => some 8
  | _ => none

/-- The character of an escape after its backslash, and the number of characters it takes. -/
def escape? : List Char → Option (Char × Nat)
  | [] => none
  | x :: rest =>
    match namedEscape? x, escapeDigits? x with
    | some c, _ => some (c, 1)
    | none, none => none
    | none, some n =>
      if rest.length < n then none
      else (hexValue? (rest.take n)).bind fun value =>
        if h : value.isValidChar then some (Char.ofNatAux value h, n + 1) else none

theorem skip_le (n : Nat) (c : Cursor) : (c.skip n).rest.length ≤ c.rest.length := by
  induction n generalizing c with
  | zero => exact Nat.le_refl _
  | succ n ih =>
    refine Nat.le_trans (ih c.advance) ?_
    simp [Cursor.advance]

/-- Takes a quoted scalar after its opening quote. -/
def scanQuoted? (double : Bool) (text : List Char) (gap : Gap) (c : Cursor) :
    Option (List Char × Cursor) :=
  match h : c.rest with
  | [] => none
  | x :: rest =>
    have advance_lt := Cursor.advance_lt h
    have advanceLine_lt := Cursor.advanceLine_lt h
    if isBlank x then scanQuoted? double text (gap.blank x) c.advance
    else if isBreak x then scanQuoted? double text (gap.break_ c.breakText) c.advanceLine
    else if c.atDocumentMark then none
    else if x == (if double then '"' else '\'') then
      if !double && rest.head? == some '\'' then
        have := skip_le 1 c.advance
        scanQuoted? double ('\'' :: gap.joinOnto text) .none (c.advance.skip 1)
      else some ((gap.joinOnto text).reverse, c.advance)
    else if double && x == '\\' then
      match hr : rest with
      | [] => none
      | y :: _ =>
        if isBreak y then
          have : c.advance.rest = rest := by simp [Cursor.advance, h, hr]
          have := Cursor.advanceLine_lt (this.trans hr)
          scanQuoted? double (gap.joinOnto text) .escaped c.advance.advanceLine
        else
          match escape? rest with
          | none => none
          | some (z, n) =>
            have := skip_le n c.advance
            scanQuoted? double (z :: gap.joinOnto text) .none (c.advance.skip n)
    else scanQuoted? double (x :: gap.joinOnto text) .none c.advance
termination_by c.rest.length

/-- What becomes of the line breaks at the end of a block scalar. -/
inductive Chomping where
  /-- They are dropped. -/
  | strip
  /-- The first is kept. -/
  | clip
  /-- All are kept. -/
  | keep
deriving DecidableEq, Repr

/-- The chomping that a sign asks for. -/
def chomping? : Char → Option Chomping
  | '+' => some .keep
  | '-' => some .strip
  | _ => none

/-- The indentation that a digit asks for. -/
def indentDigit? (c : Char) : Option Nat :=
  if c.isDigit then some (c.toNat - 48) else none

/-- Takes the head of a block scalar: its chomping, and its indentation if it is given. -/
def scanBlockHead? (c : Cursor) : Option (Chomping × Option Nat × Cursor) :=
  let sign := c.rest.head?.bind chomping?
  let c := if sign.isSome then c.advance else c
  let digit := c.rest.head?.bind indentDigit?
  let c := if digit.isSome then c.advance else c
  let late :=
    if sign.isSome then none else if digit.isSome then c.rest.head?.bind chomping? else none
  let c := if late.isSome then c.advance else c
  if digit = some 0 then none
  else c.skipLineEnd?.map fun c => ((sign <|> late).getD .clip, digit, c)

/-- Takes the empty lines and the indentation before a line of a block scalar. Without a fixed
indentation the deepest one seen counts. Gives the breaks, last first, and the deepest column. -/
def scanBlockBreaks? (indent : Option Nat) (deepest : Nat) (breaks : List Char) (c : Cursor) :
    Option (List Char × Nat × Cursor) :=
  match h : c.rest with
  | [] => some (breaks, max deepest c.column, c)
  | x :: _ =>
    have := Cursor.advance_lt h
    have := Cursor.advanceLine_lt h
    let inside := match indent with
      | some n => decide (c.column < n)
      | none => true
    if inside && x == ' ' then scanBlockBreaks? indent deepest breaks c.advance
    else if inside && x == '\t' then none
    else if isBreak x then
      scanBlockBreaks? indent (max deepest c.column) (c.breakText ++ breaks) c.advanceLine
    else some (breaks, max deepest c.column, c)
termination_by c.rest.length

/-- The characters up to the end of the line onto a reversed text. -/
def takeLine (text : List Char) (c : Cursor) : List Char × Cursor :=
  match h : c.rest with
  | [] => (text, c)
  | x :: _ =>
    if isBreak x then (text, c)
    else
      have := Cursor.advance_lt h
      takeLine (x :: text) c.advance
termination_by c.rest.length

/-- What the lines of a block scalar have given so far. -/
structure BlockText where
  /-- The text, last character first. -/
  text : List Char
  /-- The break after the last line. -/
  last : List Char
  /-- The breaks of the empty lines after it, last first. -/
  empty : List Char
  /-- Whether the last line started with a blank. -/
  blank : Bool

/-- The text with the breaks before the next line, which starts with a blank or not. -/
def BlockText.joined (b : BlockText) (folded blank : Bool) : List Char :=
  if folded && b.last == ['\n'] && !b.blank && !blank then
    if b.empty.isEmpty then ' ' :: b.text else b.empty ++ b.text
  else b.empty ++ b.last ++ b.text

/-- Takes the lines of a block scalar, of which at most `fuel` are left. -/
def scanBlockLines? (folded : Bool) (indent : Nat) : Nat → BlockText → Cursor →
    Option (BlockText × Cursor)
  | 0, b, c => some (b, c)
  | fuel + 1, b, c =>
    if c.column != indent || c.rest.isEmpty then some (b, c)
    else
      let blank := c.rest.head?.any isBlank
      let (text, c) := takeLine (b.joined folded blank) c
      let last := c.breakText
      let c := if c.rest.isEmpty then c else c.advanceLine
      match scanBlockBreaks? (some indent) 0 [] c with
      | none => none
      | some (empty, _, c) => scanBlockLines? folded indent fuel ⟨text, last, empty, blank⟩ c

/-- The text of a block scalar with the breaks at its end chomped. -/
def BlockText.finish (b : BlockText) : Chomping → List Char
  | .strip => b.text.reverse
  | .clip => (b.last ++ b.text).reverse
  | .keep => (b.empty ++ b.last ++ b.text).reverse

/-- Takes a block scalar after its indicator, below a parent with the indentation `outer`. -/
def scanBlock? (folded : Bool) (outer : Int) (fuel : Nat) (c : Cursor) :
    Option (List Char × Cursor) := do
  let (chomping, digit, c) ← scanBlockHead? c
  let given := digit.map fun n => (max outer 0).toNat + n
  let (breaks, deepest, c) ← scanBlockBreaks? given 0 [] c
  let indent := given.getD (max deepest (max (outer + 1) 1).toNat)
  let (b, c) ← scanBlockLines? folded indent fuel ⟨[], [], breaks, false⟩ c
  return (b.finish chomping, c)

end DiagramService.Yaml
