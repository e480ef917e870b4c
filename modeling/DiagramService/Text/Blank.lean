/-!
# Blank text

White space is a set of twenty-five characters, the `White_Space` property. Text is cleaned of the
white space at its two ends by `trim`, and cut into its maximal runs of other characters by `words`.
-/

namespace DiagramService.Text

/-- The `White_Space` property. -/
def isBlank (c : Char) : Bool :=
  let n := c.toNat
  (9 ≤ n && n ≤ 13) || n == 0x20 || n == 0x85 || n == 0xA0 || n == 0x1680 ||
    (0x2000 ≤ n && n ≤ 0x200A) || n == 0x2028 || n == 0x2029 || n == 0x202F || n == 0x205F ||
    n == 0x3000

/-- The text without the white space at its end. -/
def trimEnd (cs : List Char) : List Char :=
  (cs.reverse.dropWhile isBlank).reverse

/-- The text without the white space at its two ends. -/
def trimList (cs : List Char) : List Char :=
  trimEnd (cs.dropWhile isBlank)

/-- The text without the white space at its two ends. -/
def trim (s : String) : String :=
  String.ofList (trimList s.toList)

/-- The maximal runs of characters that are not white space, in order. -/
def wordLists (cs : List Char) : List (List Char) :=
  (cs.splitOnP isBlank).filter (!·.isEmpty)

/-- The maximal runs of characters that are not white space, in order. -/
def words (s : String) : List String :=
  (wordLists s.toList).map String.ofList

end DiagramService.Text
