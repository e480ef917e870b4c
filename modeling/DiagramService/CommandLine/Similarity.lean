/-!
# Similar words

Two words are the more similar the more characters they have in common at nearly the same place and
in the same order. The measure lies between zero and one: the mean of the part of each word that is
common to both, and of the part of the common characters that are in order.
-/

namespace DiagramService.CommandLine

/-- The place of the first free character that equals `c` among the places from `low` on and before
`high`. -/
def freePlace? (c : Char) (low high : Nat) : List (Char × Bool) → Option Nat
  | [] => none
  | (d, taken) :: rest =>
    if high = 0 then none
    else if low = 0 && c == d && !taken then some 0
    else (freePlace? c (low - 1) (high - 1) rest).map (· + 1)

/-- The characters of a word that have a partner in the other one, and the other word with its
partners marked. The first character stands at place `i`, and partners are at most `range` places
away. -/
def partners (range : Nat) (i : Nat) :
    List Char → List (Char × Bool) → List Char × List (Char × Bool)
  | [], other => ([], other)
  | c :: cs, other =>
    match freePlace? c (i - range) (i + range + 1) other with
    | some place =>
      let more := partners range (i + 1) cs (other.set place (c, true))
      (c :: more.1, more.2)
    | none => partners range (i + 1) cs other

/-- How similar two words are. -/
def similarity (a b : List Char) : Rat :=
  if a.isEmpty && b.isEmpty then 1
  else
    let range := max a.length b.length / 2 - 1
    let (common, marked) := partners range 0 a (b.map (·, false))
    let others := marked.filterMap fun (c, taken) => if taken then some c else none
    let moved := ((common.zip others).countP fun pair => pair.1 != pair.2) / 2
    if common.isEmpty then 0
    else
      let m : Rat := common.length
      (m / a.length + m / b.length + (m - moved) / m) / 3

/-- Puts a word before those that are not more similar. -/
def insertSimilar (entry : Rat × String) : List (Rat × String) → List (Rat × String)
  | [] => [entry]
  | other :: rest =>
    if entry.1 < other.1 then other :: insertSimilar entry rest else entry :: other :: rest

/-- The candidates that are similar to a word, the most similar one first. -/
def similarTo (word : String) (candidates : List String) : List String :=
  let rated := candidates.filterMap fun candidate =>
    let rate := similarity word.toList candidate.toList
    if (7 / 10 : Rat) ≤ rate then some (rate, candidate) else none
  (rated.foldl (fun sorted entry => insertSimilar entry sorted) []).map (·.2)

end DiagramService.CommandLine
