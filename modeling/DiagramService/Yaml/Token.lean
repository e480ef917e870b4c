import DiagramService.Text.Utf8

/-!
# Tokens of YAML

A document is a sequence of tokens: scalars, the brackets of lists and mappings whether written or
meant by indentation, the marks between their parts, and the properties of nodes.
-/

namespace DiagramService.Yaml

/-- How a scalar is written. -/
inductive Style where
  | plain
  | single
  | double
  | literal
  | folded
deriving DecidableEq, Repr

/-- A part of a document. -/
inductive Token where
  /-- The end of the text. -/
  | finish
  /-- The version that a directive names. -/
  | version (major minor : Nat)
  /-- A short form of tags: its handle and what it stands for. -/
  | tagForm (handle : List Char) (lead : Bytes)
  /-- The mark at the start of a document. -/
  | documentStart
  /-- The mark at the end of a document. -/
  | documentEnd
  /-- A list by indentation starts. -/
  | blockList
  /-- A mapping by indentation starts. -/
  | blockMap
  /-- A list or mapping by indentation ends. -/
  | blockEnd
  | openList
  | closeList
  | openMap
  | closeMap
  /-- A comma. -/
  | comma
  /-- A hyphen before an item. -/
  | item
  /-- A key comes next. -/
  | key
  /-- A value comes next. -/
  | value
  /-- A node named elsewhere. -/
  | alias (name : List Char)
  /-- The name of the next node. -/
  | anchor (name : List Char)
  /-- The tag of the next node: a handle, and the rest of it. -/
  | tag (handle : List Char) (suffix : Bytes)
  | scalar (style : Style) (text : List Char)
deriving DecidableEq, Repr

end DiagramService.Yaml
