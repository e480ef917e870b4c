import Mathlib
import DiagramService.Text.Blank

/-! The words of a text are its maximal runs of characters that are not white space, in order. A
text has one list of words, and every text that is put together from words and white space between
them has just these words. -/

namespace DiagramService.Text

variable {cs before word after gap sep : List Char} {words : List (List Char)} {c : Char}

/-! ## Words and white space -/

/-- Nothing but white space. -/
def Blank (cs : List Char) : Prop :=
  ∀ c ∈ cs, isBlank c = true

/-- One or more characters, none of which is white space. -/
structure Word (cs : List Char) : Prop where
  ne_nil : cs ≠ []
  solid : ∀ c ∈ cs, isBlank c = false

/-- A text of words with white space before, between and after them. Only the white space between
two words may not be missing. -/
inductive Spaced : List (List Char) → List Char → Prop
  | blank {gap : List Char} (hgap : Blank gap) : Spaced [] gap
  | last {gap word after : List Char} (hgap : Blank gap) (hword : Word word)
    (hafter : Blank after) : Spaced [word] (gap ++ (word ++ after))
  | cons {gap word sep rest : List Char} {words : List (List Char)} (hgap : Blank gap)
    (hword : Word word) (hsep : Blank sep) (hne : sep ≠ []) (h : Spaced words rest) :
    Spaced (word :: words) (gap ++ (word ++ (sep ++ rest)))

/-- A word in a text that goes on neither before nor after it. -/
structure IsRun (before word after : List Char) : Prop where
  word : Word word
  start : ∀ c ∈ before.getLast?, isBlank c = true
  stop : ∀ c ∈ after.head?, isBlank c = true

theorem blank_nil : Blank [] :=
  fun _ hc => absurd hc List.not_mem_nil

theorem Blank.append (h : Blank gap) (h' : Blank sep) : Blank (gap ++ sep) := by
  intro c hc
  obtain hc | hc := List.mem_append.mp hc
  · exact h c hc
  · exact h' c hc

/-! ## The list of words -/

/-- White space parts a text, and belongs to no word itself. -/
theorem wordLists_parted (hc : isBlank c = true) :
    wordLists (before ++ c :: after) = wordLists before ++ wordLists after := by
  rw [wordLists, List.splitOnP_append_cons _ _ hc, List.filter_append]
  rfl

theorem wordLists_cons (hc : isBlank c = true) : wordLists (c :: after) = wordLists after := by
  rw [← List.nil_append (c :: after), wordLists_parted hc]
  rfl

theorem wordLists_blank (h : Blank gap) (cs : List Char) :
    wordLists (gap ++ cs) = wordLists cs := by
  induction gap with
  | nil => rfl
  | cons c gap ih =>
    rw [List.cons_append, wordLists_cons (h c List.mem_cons_self)]
    exact ih fun x hx => h x (List.mem_cons_of_mem _ hx)

theorem wordLists_eq_nil (h : Blank gap) : wordLists gap = [] := by
  rw [← List.append_nil gap, wordLists_blank h]
  rfl

theorem wordLists_word (h : Word word) : wordLists word = [word] := by
  rw [wordLists, List.splitOnP_eq_singleton h.solid]
  simp [h.ne_nil]

/-- A run is a word of the text, between the words before it and those after it. -/
theorem wordLists_run (h : IsRun before word after) :
    wordLists (before ++ (word ++ after)) = wordLists before ++ word :: wordLists after := by
  have hafter : wordLists (word ++ after) = word :: wordLists after := by
    cases after with
    | nil =>
      rw [List.append_nil, wordLists_word h.word]
      rfl
    | cons c after =>
      have hc : isBlank c = true := h.stop c rfl
      rw [wordLists_parted hc, wordLists_word h.word, wordLists_cons hc]
      rfl
  obtain rfl | ⟨before, c, rfl⟩ := List.eq_nil_or_concat' before
  · exact hafter
  · have hc : isBlank c = true := h.start c (by simp)
    have hlast : wordLists (before ++ [c]) = wordLists before := by
      rw [wordLists_parted hc]
      exact List.append_nil _
    rw [List.append_assoc, List.singleton_append, wordLists_parted hc, hafter, hlast]

/-! ## Texts put together from words -/

/-- White space in front of a text changes none of its words. -/
theorem Spaced.lead (hgap : Blank gap) (h : Spaced words cs) : Spaced words (gap ++ cs) := by
  cases h with
  | blank h => exact .blank (hgap.append h)
  | last h hword hafter =>
    rw [← List.append_assoc]
    exact .last (hgap.append h) hword hafter
  | cons h hword hsep hne hrest =>
    rw [← List.append_assoc]
    exact .cons (hgap.append h) hword hsep hne hrest

/-- A character in front of a text either starts a word or goes on with the first one. -/
theorem Spaced.grow (hc : isBlank c = false) (h : Spaced words cs) :
    ∃ words, Spaced words (c :: cs) := by
  have hone : Word [c] := ⟨by simp, by simpa using hc⟩
  have hgrown : ∀ {word}, Word word → Word (c :: word) := fun h =>
    ⟨by simp, fun x hx => (List.mem_cons.mp hx).elim (· ▸ hc) (h.solid x)⟩
  cases h with
  | blank h => exact ⟨_, .last blank_nil hone h⟩
  | @last gap word after h hword hafter =>
    cases gap with
    | nil => exact ⟨_, .last blank_nil (hgrown hword) hafter⟩
    | cons x gap =>
      exact ⟨_, .cons blank_nil hone h (by simp) (.last blank_nil hword hafter)⟩
  | @cons gap word sep rest _ h hword hsep hne hrest =>
    cases gap with
    | nil => exact ⟨_, .cons blank_nil (hgrown hword) hsep hne hrest⟩
    | cons x gap =>
      exact ⟨_, .cons blank_nil hone h (by simp) (.cons blank_nil hword hsep hne hrest)⟩

theorem exists_spaced (cs : List Char) : ∃ words, Spaced words cs := by
  induction cs with
  | nil => exact ⟨_, .blank blank_nil⟩
  | cons c cs ih =>
    obtain ⟨words, h⟩ := ih
    cases hc : isBlank c with
    | true =>
      have hgap : Blank [c] := by simpa [Blank] using hc
      exact ⟨words, h.lead hgap⟩
    | false => exact h.grow hc

/-- The words that a text was put together from are found again. -/
theorem Spaced.wordLists_eq (h : Spaced words cs) : wordLists cs = words := by
  induction h with
  | blank hgap => exact wordLists_eq_nil hgap
  | last hgap hword hafter =>
    have hrun : IsRun [] _ _ :=
      ⟨hword, by simp, fun c hc => hafter c (List.mem_of_mem_head? hc)⟩
    rw [wordLists_blank hgap]
    exact (wordLists_run hrun).trans (by rw [wordLists_eq_nil hafter]; rfl)
  | @cons gap word sep rest words hgap hword hsep hne h ih =>
    have hrun : IsRun [] word (sep ++ rest) := by
      refine ⟨hword, by simp, fun c hc => hsep c (List.mem_of_mem_head? ?_)⟩
      rwa [List.head?_append_of_ne_nil _ hne] at hc
    rw [wordLists_blank hgap]
    exact (wordLists_run hrun).trans (by rw [wordLists_blank hsep, ih]; rfl)

/-- A text has the words that it can be put together from, and no others. -/
theorem wordLists_eq_iff : wordLists cs = words ↔ Spaced words cs := by
  refine ⟨?_, Spaced.wordLists_eq⟩
  rintro rfl
  obtain ⟨words, h⟩ := exists_spaced cs
  rwa [h.wordLists_eq]

/-- Every word of a text is a run of it. -/
theorem Spaced.exists_run (h : Spaced words cs) (hmem : word ∈ words) :
    ∃ before after, cs = before ++ (word ++ after) ∧ IsRun before word after := by
  have hlast : ∀ {gap : List Char}, Blank gap → ∀ c ∈ gap.getLast?, isBlank c = true :=
    fun hgap c hc => hgap c (List.mem_of_getLast? hc)
  induction h with
  | blank => cases hmem
  | last hgap hword hafter =>
    obtain rfl := List.mem_singleton.mp hmem
    exact ⟨_, _, rfl, hword, hlast hgap, fun c hc => hafter c (List.mem_of_mem_head? hc)⟩
  | @cons gap first sep rest words hgap hword hsep hne h ih =>
    obtain rfl | hmem := List.mem_cons.mp hmem
    · refine ⟨_, _, rfl, hword, hlast hgap, fun c hc => hsep c (List.mem_of_mem_head? ?_)⟩
      rwa [List.head?_append_of_ne_nil _ hne] at hc
    · obtain ⟨before, after, rfl, hrun⟩ := ih hmem
      refine ⟨gap ++ (first ++ (sep ++ before)), after, by simp, hrun.word, fun c hc => ?_,
        hrun.stop⟩
      -- what stands before the word ends as `before` does, or as the white space in front of it
      cases before with
      | nil => exact hlast hsep c (by simpa [List.getLast?_append, hne] using hc)
      | cons x before => exact hrun.start c (by simpa [List.getLast?_append] using hc)

/-- The words of a text are its runs. -/
theorem mem_wordLists_iff : word ∈ wordLists cs ↔
    ∃ before after, cs = before ++ (word ++ after) ∧ IsRun before word after := by
  constructor
  · exact (wordLists_eq_iff.mp rfl).exists_run
  · rintro ⟨before, after, rfl, hrun⟩
    rw [wordLists_run hrun]
    simp

theorem Blank.filter_eq (h : Blank gap) : gap.filter (fun c => !isBlank c) = [] :=
  List.filter_eq_nil_iff.mpr fun c hc => by simp [h c hc]

theorem Word.filter_eq (h : Word word) : word.filter (fun c => !isBlank c) = word :=
  List.filter_eq_self.mpr fun c hc => by simp [h.solid c hc]

theorem Spaced.flatten_eq (h : Spaced words cs) :
    words.flatten = cs.filter fun c => !isBlank c := by
  induction h with
  | blank hgap => rw [hgap.filter_eq, List.flatten_nil]
  | last hgap hword hafter => simp [hgap.filter_eq, hword.filter_eq, hafter.filter_eq]
  | cons hgap hword hsep _ _ ih => simp [hgap.filter_eq, hword.filter_eq, hsep.filter_eq, ih]

/-- The words hold every character but the white space, in order. -/
theorem flatten_wordLists (cs : List Char) :
    (wordLists cs).flatten = cs.filter fun c => !isBlank c :=
  (wordLists_eq_iff.mp rfl).flatten_eq

end DiagramService.Text
