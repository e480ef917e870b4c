import DiagramService.Text.Utf8

/-!
# Shell code

The commands of a shell script, as far as renderers are written in it: simple commands with
assignments and redirections, lists, pipelines, loops, choices and groups. Words are made of parts
that are text or stand for something.
-/

namespace DiagramService.Shell

/-- Where a redirection leads. -/
inductive RedirectKind where
  /-- Reads a file. -/
  | input
  /-- Writes a file anew. -/
  | output
  /-- Adds to a file. -/
  | append
  /-- Uses another stream. -/
  | duplicate
deriving DecidableEq, Repr

mutual

/-- A part of a word. -/
inductive Part where
  | text (content : List Char) (quoted : Bool)
  /-- The value of a parameter. -/
  | parameter (name : List Char) (change : Change) (quoted : Bool)
  /-- The output of a command. -/
  | command (body : Code) (quoted : Bool)

/-- What is made of the value of a parameter. -/
inductive Change where
  | none
  /-- Its length. -/
  | length
  /-- Another word if it is not set, or if it is empty and that counts. -/
  | default (empty assign : Bool) (word : List Part)
  /-- Another word if it is set, and not empty if that counts. -/
  | instead (empty : Bool) (word : List Part)
  /-- The value without a start that matches. -/
  | cutStart (longest : Bool) (pattern : List Part)
  /-- The value without an end that matches. -/
  | cutEnd (longest : Bool) (pattern : List Part)

/-- A redirection of one of the streams. -/
inductive Redirect where
  | mk (stream : Nat) (kind : RedirectKind) (target : List Part)

/-- A command. -/
inductive Code where
  | skip
  /-- Assignments, words and redirections, on a line that so many breaks come after. -/
  | simple (line : Nat) (assignments : List (List Char × List Part)) (words : List (List Part))
      (redirects : List Redirect)
  | seq (first second : Code)
  | both (first second : Code)
  | either (first second : Code)
  | not (body : Code)
  | pipe (first second : Code)
  | background (body : Code)
  /-- A command in a shell of its own. -/
  | subshell (body : Code)
  | choose (condition yes no : Code)
  | loop (until_ : Bool) (condition body : Code)
  /-- A loop over words, or over the arguments. -/
  | each (name : List Char) (words : Option (List (List Part))) (body : Code)
  /-- The first branch with a pattern that matches. -/
  | select (word : List Part) (branches : List (List (List Part) × Code))
  | redirected (line : Nat) (body : Code) (redirects : List Redirect)

end

instance : Inhabited Code := ⟨.skip⟩

end DiagramService.Shell
