/-!
# Reading YAML character by character

A cursor stands before a character of the document and counts the characters and lines it has
passed. Line breaks are of five kinds; all but the last two of them are kept as a line feed.
-/

namespace DiagramService.Yaml

/-- The characters that a document may hold. -/
def isAllowed (c : Char) : Bool :=
  let n := c.toNat
  n == 0x09 || n == 0x0A || n == 0x0D || (0x20 ≤ n && n ≤ 0x7E) || n == 0x85 ||
    (0xA0 ≤ n && n ≤ 0xD7FF) || (0xE000 ≤ n && n ≤ 0xFFFD) || 0x10000 ≤ n

/-- A space or a tab. -/
def isBlank (c : Char) : Bool :=
  c == ' ' || c == '\t'

/-- A character that ends a line. -/
def isBreak (c : Char) : Bool :=
  let n := c.toNat
  n == 0x0A || n == 0x0D || n == 0x85 || n == 0x2028 || n == 0x2029

/-- A letter of a name: an ASCII letter or digit, an underscore or a hyphen. -/
def isNameChar (c : Char) : Bool :=
  c.isAlphanum || c == '_' || c == '-'

/-- Whether the text is at its end, or at a blank or line break. -/
def atGap : List Char → Bool
  | [] => true
  | c :: _ => isBlank c || isBreak c

/-- Whether the text is at its end or at a line break. -/
def atLineEnd : List Char → Bool
  | [] => true
  | c :: _ => isBreak c

/-- A place in the document. -/
structure Cursor where
  rest : List Char
  index : Nat
  line : Nat
  column : Nat

namespace Cursor

/-- The start of a document. -/
def start (text : List Char) : Cursor :=
  ⟨text, 0, 0, 0⟩

/-- Passes one character of a line. -/
def advance (c : Cursor) : Cursor :=
  { c with rest := c.rest.tail, index := c.index + 1, column := c.column + 1 }

/-- Passes a line break. A carriage return and a line feed together are one. -/
def advanceLine (c : Cursor) : Cursor :=
  match c.rest with
  | '\r' :: '\n' :: rest => ⟨rest, c.index + 2, c.line + 1, 0⟩
  | _ => ⟨c.rest.tail, c.index + 1, c.line + 1, 0⟩

/-- The line break at a cursor, as it is kept. -/
def breakText (c : Cursor) : List Char :=
  match c.rest with
  | x :: _ => if x.toNat == 0x2028 || x.toNat == 0x2029 then [x] else ['\n']
  | [] => []

theorem advance_lt {c : Cursor} {x : Char} {xs : List Char} (h : c.rest = x :: xs) :
    c.advance.rest.length < c.rest.length := by
  simp [advance, h]

theorem advanceLine_lt {c : Cursor} {x : Char} {xs : List Char} (h : c.rest = x :: xs) :
    c.advanceLine.rest.length < c.rest.length := by
  unfold advanceLine
  split
  · rename_i heq
    rw [heq]
    simp only [List.length_cons]
    omega
  · simp [h]

/-- Passes the characters that satisfy `p`, none of which is a line break. -/
def skipWhile (p : Char → Bool) (c : Cursor) : Cursor :=
  match h : c.rest with
  | x :: _ =>
    if p x then
      have := advance_lt h
      skipWhile p c.advance
    else c
  | [] => c
termination_by c.rest.length

/-- Passes a given number of characters. -/
def skip : Nat → Cursor → Cursor
  | 0, c => c
  | n + 1, c => skip n c.advance

/-- Whether a line that starts here marks the start or end of a document. -/
def atDocumentMark (c : Cursor) : Bool :=
  c.column == 0 &&
    match c.rest with
    | '-' :: '-' :: '-' :: rest => atGap rest
    | '.' :: '.' :: '.' :: rest => atGap rest
    | _ => false

/-- Passes blanks and a comment, which the line has to end with. -/
def skipLineEnd? (c : Cursor) : Option Cursor :=
  let c := c.skipWhile isBlank
  let c := if c.rest.head? == some '#' then c.skipWhile (!isBreak ·) else c
  match c.rest with
  | [] => some c
  | x :: _ => if isBreak x then some c.advanceLine else none

end Cursor

end DiagramService.Yaml
