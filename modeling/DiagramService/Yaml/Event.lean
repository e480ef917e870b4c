import DiagramService.Yaml.Token

/-!
# Events of YAML

The tokens of a text say what its nodes are in one pass: every node is a scalar, a name of another
node, or a list or mapping with a start and an end. Nodes that are left out where one is due are
empty plain scalars. The grammar is a machine with a stack of what to go on with after a node.
-/

namespace DiagramService.Yaml

/-- A scalar with its tag, if it has one. -/
structure Scalar where
  text : List Char
  style : Style
  tag : Option Bytes
deriving DecidableEq, Repr

/-- A scalar that is left out. -/
def Scalar.empty : Scalar := ⟨[], .plain, none⟩

/-- A part of the structure of a text. -/
inductive Event where
  | documentStart
  | documentEnd
  | alias (name : List Char)
  | scalar (anchor : Option (List Char)) (content : Scalar)
  | listStart (anchor : Option (List Char))
  | listEnd
  | mapStart (anchor : Option (List Char))
  | mapEnd
deriving DecidableEq, Repr

/-- What a text goes on with. -/
inductive Goal where
  /-- A document, with or without a mark at its start, or the end of the text. -/
  | firstDocument
  /-- A document with a mark at its start, or the end of the text. -/
  | document
  /-- The node of a document, or nothing. -/
  | content
  /-- The end of a document. -/
  | documentEnd
  /-- A node. -/
  | node
  /-- The next item of a list by indentation. -/
  | blockItem
  /-- The next item of a list with the indentation of its mapping. -/
  | levelItem
  /-- The next key of a mapping by indentation. -/
  | blockKey
  /-- The value of such a key. -/
  | blockValue
  /-- The first item of a list in brackets. -/
  | flowFirst
  /-- The next item of a list in brackets. -/
  | flowItem
  /-- The key of a mapping of one pair in a list in brackets. -/
  | pairKey
  /-- The value of such a pair. -/
  | pairValue
  /-- The end of such a mapping. -/
  | pairEnd
  /-- The first key of a mapping in brackets. -/
  | flowFirstKey
  /-- The next key of a mapping in brackets. -/
  | flowKey
  /-- The value of such a key. -/
  | flowValue
  /-- The missing value of a key that no key mark came before. -/
  | flowNoValue
deriving DecidableEq, Repr

/-- A short form of tags: its handle and what it stands for. -/
abbrev TagForm := List Char × Bytes

/-- The short forms that every document has. -/
def standardForms : List TagForm :=
  [(['!'], Utf8.encode "!"), (['!', '!'], Utf8.encode "tag:yaml.org,2002:")]

/-- The tag that a handle and a suffix spell. -/
def resolveTag? (forms : List TagForm) (handle : List Char) (suffix : Bytes) : Option Bytes :=
  if handle.isEmpty then some suffix
  else ((forms ++ standardForms).lookup handle).map (· ++ suffix)

/-- Takes the directives before a document: whether a version was named, and the short forms. -/
def takeDirectives? (version : Bool) (forms : List TagForm) :
    List Token → Option (List TagForm × List Token)
  | .version major minor :: rest =>
    if version || major != 1 || (minor != 1 && minor != 2) then none
    else takeDirectives? true forms rest
  | .tagForm handle lead :: rest =>
    if (forms.lookup handle).isSome then none
    else takeDirectives? version (forms ++ [(handle, lead)]) rest
  | rest => some (forms, rest)

/-- The name and tag before a node. -/
structure Properties where
  anchor : Option (List Char)
  tag : Option Bytes

/-- Takes a name and a tag in either order. -/
def takeProperties? (forms : List TagForm) : List Token → Option (Properties × List Token)
  | .anchor name :: .tag handle suffix :: rest =>
    (resolveTag? forms handle suffix).map fun tag => (⟨some name, some tag⟩, rest)
  | .tag handle suffix :: .anchor name :: rest =>
    (resolveTag? forms handle suffix).map fun tag => (⟨some name, some tag⟩, rest)
  | .anchor name :: rest => some (⟨some name, none⟩, rest)
  | .tag handle suffix :: rest =>
    (resolveTag? forms handle suffix).map fun tag => (⟨none, some tag⟩, rest)
  | rest => some (⟨none, none⟩, rest)

/-- A state of the grammar. -/
structure Grammar where
  goals : List Goal
  tokens : List Token
  forms : List TagForm
  /-- The events so far, last first. -/
  events : List Event

namespace Grammar

/-- Goes on with other goals and tokens. -/
def goTo (g : Grammar) (goals : List Goal) (tokens : List Token) : Grammar :=
  { g with goals := goals, tokens := tokens }

/-- One more event. -/
def emit (g : Grammar) (event : Event) : Grammar :=
  { g with events := event :: g.events }

/-- A node that is left out. -/
def emitEmpty (g : Grammar) : Grammar :=
  g.emit (.scalar none .empty)

/-- A node. In a mapping by indentation a list may have the indentation of the mapping. -/
def node? (g : Grammar) (block level : Bool) (goals : List Goal) (tokens : List Token) :
    Option Grammar :=
  match tokens with
  | .alias name :: rest => some ((g.emit (.alias name)).goTo goals rest)
  | _ =>
    (takeProperties? g.forms tokens).bind fun (properties, tokens) =>
      let anchor := properties.anchor
      match tokens with
      | .scalar style text :: rest =>
        some ((g.emit (.scalar anchor ⟨text, style, properties.tag⟩)).goTo goals rest)
      | .openList :: rest => some ((g.emit (.listStart anchor)).goTo (.flowFirst :: goals) rest)
      | .openMap :: rest => some ((g.emit (.mapStart anchor)).goTo (.flowFirstKey :: goals) rest)
      | token :: rest =>
        if level && token == .item then
          some ((g.emit (.listStart anchor)).goTo (.levelItem :: goals) tokens)
        else if block && token == .blockList then
          some ((g.emit (.listStart anchor)).goTo (.blockItem :: goals) rest)
        else if block && token == .blockMap then
          some ((g.emit (.mapStart anchor)).goTo (.blockKey :: goals) rest)
        else if anchor.isSome || properties.tag.isSome then
          some ((g.emit (.scalar anchor ⟨[], .plain, properties.tag⟩)).goTo goals tokens)
        else none
      | [] => none

/-- A node, or nothing before one of the given tokens. -/
def nodeUnless? (g : Grammar) (block level : Bool) (ends : List Token) (goals : List Goal)
    (tokens : List Token) : Option Grammar :=
  if tokens.head?.any ends.contains then some (g.emitEmpty.goTo goals tokens)
  else g.node? block level goals tokens

/-- A document after its directives. -/
def explicitDocument? (g : Grammar) (goals : List Goal) (tokens : List Token) : Option Grammar :=
  (takeDirectives? false [] tokens).bind fun (forms, tokens) =>
    match tokens with
    | .documentStart :: rest =>
      some { (g.emit .documentStart).goTo (.content :: .documentEnd :: goals) rest with
        forms := forms }
    | _ => none

/-- The next item of a list in brackets, after the comma. -/
def flowItem? (g : Grammar) (goals : List Goal) (tokens : List Token) : Option Grammar :=
  match tokens with
  | .key :: rest => some ((g.emit (.mapStart none)).goTo (.pairKey :: .flowItem :: goals) rest)
  | .closeList :: rest => some ((g.emit .listEnd).goTo goals rest)
  | _ => g.node? false false (.flowItem :: goals) tokens

/-- The next key of a mapping in brackets, after the comma. -/
def flowKey? (g : Grammar) (goals : List Goal) (tokens : List Token) : Option Grammar :=
  match tokens with
  | .key :: rest =>
    g.nodeUnless? false false [.value, .comma, .closeMap] (.flowValue :: goals) rest
  | .closeMap :: rest => some ((g.emit .mapEnd).goTo goals rest)
  | _ => g.node? false false (.flowNoValue :: goals) tokens

/-- Meets the next goal. -/
def step? (g : Grammar) (goal : Goal) (goals : List Goal) : Option Grammar :=
  let tokens := g.tokens
  match goal, tokens with
  | .firstDocument, .finish :: rest => some (g.goTo [] rest)
  | .firstDocument, token :: _ =>
    match token with
    | .version .. | .tagForm .. | .documentStart => g.explicitDocument? (.document :: goals) tokens
    | _ => some ((g.emit .documentStart).goTo (.node :: .documentEnd :: .document :: goals) tokens)
  | .document, .documentEnd :: rest => some (g.goTo (.document :: goals) rest)
  | .document, .finish :: rest => some (g.goTo [] rest)
  | .document, _ => g.explicitDocument? (.document :: goals) tokens
  | .content, token :: _ =>
    match token with
    | .version .. | .tagForm .. | .documentStart | .documentEnd | .finish =>
      some (g.emitEmpty.goTo goals tokens)
    | _ => g.node? true false goals tokens
  | .documentEnd, .documentEnd :: rest =>
    some { (g.emit .documentEnd).goTo goals rest with forms := [] }
  | .documentEnd, _ => some { (g.emit .documentEnd).goTo goals tokens with forms := [] }
  | .node, _ => g.node? true false goals tokens
  | .blockItem, .item :: rest =>
    g.nodeUnless? true false [.item, .blockEnd] (.blockItem :: goals) rest
  | .blockItem, .blockEnd :: rest => some ((g.emit .listEnd).goTo goals rest)
  | .levelItem, .item :: rest =>
    g.nodeUnless? true false [.item, .key, .value, .blockEnd] (.levelItem :: goals) rest
  | .levelItem, _ => some ((g.emit .listEnd).goTo goals tokens)
  | .blockKey, .key :: rest =>
    g.nodeUnless? true true [.key, .value, .blockEnd] (.blockValue :: goals) rest
  | .blockKey, .blockEnd :: rest => some ((g.emit .mapEnd).goTo goals rest)
  | .blockValue, .value :: rest =>
    g.nodeUnless? true true [.key, .value, .blockEnd] (.blockKey :: goals) rest
  | .blockValue, _ => some (g.emitEmpty.goTo (.blockKey :: goals) tokens)
  | .flowFirst, _ => g.flowItem? goals tokens
  | .flowItem, .comma :: rest => g.flowItem? goals rest
  | .flowItem, .closeList :: rest => some ((g.emit .listEnd).goTo goals rest)
  | .pairKey, token :: rest =>
    if [Token.value, .comma, .closeList].contains token then
      some (g.emitEmpty.goTo (.pairValue :: goals) rest)
    else g.node? false false (.pairValue :: goals) tokens
  | .pairValue, .value :: rest =>
    g.nodeUnless? false false [.comma, .closeList] (.pairEnd :: goals) rest
  | .pairValue, _ => some (g.emitEmpty.goTo (.pairEnd :: goals) tokens)
  | .pairEnd, _ => some ((g.emit .mapEnd).goTo goals tokens)
  | .flowFirstKey, _ => g.flowKey? goals tokens
  | .flowKey, .comma :: rest => g.flowKey? goals rest
  | .flowKey, .closeMap :: rest => some ((g.emit .mapEnd).goTo goals rest)
  | .flowValue, .value :: rest =>
    g.nodeUnless? false false [.comma, .closeMap] (.flowKey :: goals) rest
  | .flowValue, _ => some (g.emitEmpty.goTo (.flowKey :: goals) tokens)
  | .flowNoValue, _ => some (g.emitEmpty.goTo (.flowKey :: goals) tokens)
  | _, _ => none

/-- Meets all goals. Between two tokens only a few goals can be met without taking one. -/
def run? : Nat → Grammar → Option (List Event)
  | 0, _ => none
  | fuel + 1, g =>
    match g.goals with
    | [] => some g.events.reverse
    | goal :: goals =>
      match g.step? goal goals with
      | none => none
      | some g => run? fuel g

end Grammar

/-- The events of the tokens of a text, `none` if they follow no grammar. -/
def Event.ofTokens? (tokens : List Token) : Option (List Event) :=
  Grammar.run? (8 * tokens.length + 8) ⟨[.firstDocument], tokens, [], []⟩

end DiagramService.Yaml
