import DiagramService.Yaml.Cursor
import DiagramService.Yaml.Token

/-!
# Names, tags and directives

A node may be named by an anchor and typed by a tag. A tag is a handle and a suffix in which octets
may be written in hexadecimal. Directives before a document name its version or short forms of tags.
-/

namespace DiagramService.Yaml

/-- The characters of a name and the place after it. -/
def takeName (c : Cursor) : List Char × Cursor :=
  (c.rest.takeWhile isNameChar, c.skipWhile isNameChar)

/-- Whether a name may end here. -/
def nameEnds (cs : List Char) : Bool :=
  atGap cs || match cs with
    | x :: _ => ['?', ':', ',', ']', '\x7d', '%', '@', '\u0060'].contains x
    | [] => true

/-- Takes the name of an anchor or alias after its sign. -/
def scanName? (c : Cursor) : Option (List Char × Cursor) :=
  let (name, c) := takeName c
  if name.isEmpty || !nameEnds c.rest then none else some (name, c)

/-- A character of a tag. Inside angle brackets it may be one of three more. -/
def isTagChar (verbatim : Bool) (c : Char) : Bool :=
  isNameChar c ||
    [';', '/', '?', ':', '@', '&', '=', '+', '$', '.', '%', '!', '~', '*', '\'', '(', ')'].contains
      c ||
    (verbatim && [',', '[', ']'].contains c)

/-- The value of a hexadecimal digit. -/
def hexDigit? (c : Char) : Option Nat :=
  if c.isDigit then some (c.toNat - 48)
  else if 'a' ≤ c ∧ c ≤ 'f' then some (c.toNat - 87)
  else if 'A' ≤ c ∧ c ≤ 'F' then some (c.toNat - 55)
  else none

/-- How many octets a character has that starts with this octet. -/
def octetWidth? (n : Nat) : Option Nat :=
  if n < 0x80 then some 1
  else if n / 32 = 6 then some 2
  else if n / 16 = 14 then some 3
  else if n / 8 = 30 then some 4
  else none

/-- Takes one escaped octet. -/
def octet? : List Char → Option Nat
  | '%' :: a :: b :: _ => do return (← hexDigit? a) * 16 + (← hexDigit? b)
  | _ => none

/-- Takes the octets after the first of an escaped character. -/
def scanOctets? : Nat → Cursor → Option (Bytes × Cursor)
  | 0, c => some ([], c)
  | n + 1, c => do
    let octet ← octet? c.rest
    if octet / 64 ≠ 2 then none
    else
      let (more, c) ← scanOctets? n (c.skip 3)
      return (UInt8.ofNat octet :: more, c)

/-- Takes an escaped character. -/
def scanOctet? (c : Cursor) : Option (Bytes × Cursor) := do
  let octet ← octet? c.rest
  let width ← octetWidth? octet
  let (more, c) ← scanOctets? (width - 1) (c.skip 3)
  return (UInt8.ofNat octet :: more, c)

/-- Takes the characters of a tag, of which at most `fuel` are left. -/
def scanTagChars? (verbatim : Bool) : Nat → Bytes → Cursor → Option (Bytes × Cursor)
  | 0, done, c => some (done.reverse, c)
  | fuel + 1, done, c =>
    match c.rest with
    | [] => some (done.reverse, c)
    | x :: _ =>
      if !isTagChar verbatim x then some (done.reverse, c)
      else if x == '%' then
        (scanOctet? c).bind fun (octets, c) =>
          scanTagChars? verbatim fuel (octets.reverse ++ done) c
      else scanTagChars? verbatim fuel ((String.utf8EncodeChar x).reverse ++ done) c.advance

/-- Takes the suffix of a tag, which starts with `head` and may not be empty. -/
def scanSuffix? (verbatim : Bool) (head : List Char) (c : Cursor) : Option (Bytes × Cursor) := do
  let (suffix, after) ← scanTagChars? verbatim c.rest.length [] c
  if head.isEmpty && after.index == c.index then none
  else return (Utf8.encodeList head.tail ++ suffix, after)

/-- Takes a tag handle: an exclamation mark, and perhaps a name and another mark. -/
def scanHandle? (directive : Bool) (c : Cursor) : Option (List Char × Cursor) :=
  match c.rest with
  | '!' :: _ =>
    let (name, c) := takeName c.advance
    if c.rest.head? == some '!' then some ('!' :: name ++ ['!'], c.advance)
    else if directive && !name.isEmpty then none
    else some ('!' :: name, c)
  | _ => none

/-- Whether a tag may end here. -/
def tagEnds (flow : Bool) (cs : List Char) : Bool :=
  atGap cs || (flow && cs.head? == some ',')

/-- Takes a tag. -/
def scanTag? (flow : Bool) (c : Cursor) : Option (Token × Cursor) := do
  let (token, c) ←
    match c.rest with
    | '!' :: '<' :: _ => do
      let (suffix, c) ← scanSuffix? true [] (c.skip 2)
      if c.rest.head? == some '>' then some (Token.tag [] suffix, c.advance) else none
    | _ => do
      let (handle, c) ← scanHandle? false c
      if 2 ≤ handle.length && handle.getLast? == some '!' then
        let (suffix, c) ← scanSuffix? false [] c
        return (Token.tag handle suffix, c)
      else
        let (suffix, c) ← scanSuffix? false handle c
        if suffix.isEmpty then return (Token.tag [] [UInt8.ofNat 33], c)
        else return (Token.tag ['!'] suffix, c)
  if tagEnds flow c.rest then return (token, c) else none

/-- Takes a number of a version, of at most nine digits. -/
def scanVersionNumber? (c : Cursor) : Option (Nat × Cursor) :=
  let digits := c.rest.takeWhile Char.isDigit
  if digits.isEmpty || 9 < digits.length then none
  else some (Nat.ofDigitChars 10 digits 0, c.skipWhile Char.isDigit)

/-- Takes the value of a version directive. -/
def scanVersion? (c : Cursor) : Option (Token × Cursor) := do
  let (major, c) ← scanVersionNumber? (c.skipWhile isBlank)
  if c.rest.head? != some '.' then none
  else
    let (minor, c) ← scanVersionNumber? c.advance
    return (.version major minor, c)

/-- Takes the value of a tag directive. -/
def scanTagForm? (c : Cursor) : Option (Token × Cursor) := do
  let (handle, c) ← scanHandle? true (c.skipWhile isBlank)
  if !c.rest.head?.any isBlank then none
  else
    let (lead, c) ← scanSuffix? true [] (c.skipWhile isBlank)
    if atGap c.rest then return (.tagForm handle lead, c) else none

/-- Takes a directive after its percent sign, to the end of its line. -/
def scanDirective? (c : Cursor) : Option (Token × Cursor) := do
  let (name, c) := takeName c
  if name.isEmpty || !atGap c.rest then none
  else
    let (token, c) ←
      if name == ['Y', 'A', 'M', 'L'] then scanVersion? c
      else if name == ['T', 'A', 'G'] then scanTagForm? c
      else none
    return (token, ← c.skipLineEnd?)

end DiagramService.Yaml
