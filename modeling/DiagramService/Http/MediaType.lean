import DiagramService.Http.Message

/-!
# Media types

A media type is a type and a subtype with a slash between them, and parameters after semicolons. A
body counts as JSON if its type is `application` and its subtype is `json` or ends in `+json`.
-/

namespace DiagramService.Http

/-- A character of a token. -/
def isTokenChar (c : Char) : Bool :=
  c.isAlphanum || "!#$%&'*+-.^_`|~".toList.contains c

/-- A character that may stand between quotes. -/
def isQuotedChar (c : Char) : Bool :=
  31 < c.toNat && c.toNat != 127

/-- A media type without its parameters. -/
structure MediaType where
  type : List Char
  /-- The subtype up to its last plus sign. -/
  subtype : List Char
  /-- What stands after the last plus sign of the subtype. -/
  suffix : Option (List Char)
deriving DecidableEq, Repr

namespace MediaType

/-- Splits a subtype at its last plus sign, unless that is at its start. -/
def splitSuffix (cs : List Char) : List Char × Option (List Char) :=
  let suffix := (cs.reverse.takeWhile (· != '+')).reverse
  let before := cs.take (cs.length - suffix.length - 1)
  if suffix.length < cs.length && !before.isEmpty then (before, some suffix) else (cs, none)

/-- What is left of a value in quotes and the blanks after it, `none` if it is not closed or
followed by anything but a semicolon. -/
def afterQuoted? (cs : List Char) : Option (List Char) :=
  match cs with
  | [] => none
  | c :: rest =>
    if !isQuotedChar c then none
    else
      let content := rest.takeWhile fun c => c != '"' && isQuotedChar c
      match rest.drop content.length with
      | '"' :: rest =>
        match rest.dropWhile (· == ' ') with
        | [] => some []
        | ';' :: rest => some rest
        | _ => none
      | _ => none

/-- What is left after the value of a parameter. -/
def afterValue? (cs : List Char) : Option (List Char) :=
  match cs with
  | '"' :: rest => afterQuoted? rest
  | _ =>
    let value := cs.takeWhile isTokenChar
    match cs.drop value.length with
    | [] => some []
    | ';' :: rest => if value.isEmpty then none else some rest
    | _ => none

/-- Whether parameters are well formed. There are at most `fuel` of them. -/
def parametersOk : Nat → List Char → Bool
  | 0, _ => false
  | fuel + 1, cs =>
    match cs.dropWhile (· == ' ') with
    | [] => true
    | cs =>
      let name := cs.takeWhile isTokenChar
      match cs.drop name.length with
      | '=' :: rest =>
        !name.isEmpty &&
          match afterValue? rest with
          | some rest => parametersOk fuel rest
          | none => false
      | _ => false

/-- The media type that a text spells. -/
def ofText? (cs : List Char) : Option MediaType :=
  let type := cs.takeWhile isTokenChar
  match cs.drop type.length with
  | '/' :: rest =>
    let subtype := rest.takeWhile isTokenChar
    let parameters :=
      match rest.drop subtype.length with
      | [] => true
      | ';' :: rest => !subtype.isEmpty && parametersOk (rest.length + 1) rest
      | _ => false
    if type.isEmpty || !parameters then none
    else
      let (subtype, suffix) := splitSuffix subtype
      some ⟨type, subtype, suffix⟩
  | _ => none

/-- Whether a body of this type is JSON. -/
def isJson (m : MediaType) : Bool :=
  let spells (cs : List Char) (name : String) := lower (String.ofList cs) == name
  spells m.type "application" && (spells m.subtype "json" || m.suffix.any (spells · "json"))

end MediaType

/-- The text of a header value, if it has visible characters and blanks only. -/
def visible? (value : Bytes) : Option (List Char) :=
  if value.all fun b => (0x20 ≤ b && b < 0x7F) || b == 0x09 then
    some (value.map fun b => Char.ofNat b.toNat)
  else none

/-- Whether a request says that its body is JSON. -/
def Request.hasJson (r : Request) : Bool :=
  ((r.field? "content-type").bind visible?).bind MediaType.ofText? |>.any MediaType.isJson

end DiagramService.Http
