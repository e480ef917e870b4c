import Mathlib.Data.List.DropRight
import DiagramService.Text.Blank

/-! What is left of a text without the white space at its ends is its core: it begins and ends with
another character, and a text has one core at most. A core stays as it is when it is trimmed again,
and nothing is left of white space alone. -/

namespace DiagramService.Text

variable {cs core before after : List Char} {c : Char}

/-! ## White space -/

/-- The code points with the `White_Space` property. -/
def whiteSpace : List Nat :=
  [0x9, 0xA, 0xB, 0xC, 0xD, 0x20, 0x85, 0xA0, 0x1680, 0x2000, 0x2001, 0x2002, 0x2003, 0x2004,
    0x2005, 0x2006, 0x2007, 0x2008, 0x2009, 0x200A, 0x2028, 0x2029, 0x202F, 0x205F, 0x3000]

/-- A character with the `White_Space` property. -/
def WhiteSpace (c : Char) : Prop :=
  c.toNat ∈ whiteSpace

instance : DecidablePred WhiteSpace := fun c =>
  inferInstanceAs (Decidable (c.toNat ∈ whiteSpace))

theorem isBlank_iff : isBlank c = true ↔ WhiteSpace c := by
  simp only [isBlank, WhiteSpace, whiteSpace, Bool.or_eq_true, Bool.and_eq_true, decide_eq_true_eq,
    beq_iff_eq, List.mem_cons, List.not_mem_nil, or_false]
  omega

theorem isBlank_eq_false_iff : isBlank c = false ↔ ¬ WhiteSpace c := by
  rw [← isBlank_iff, Bool.not_eq_true]

/-! ## The core of a text -/

/-- A part of a text that begins and ends with a character that is not white space, between nothing
but white space. -/
structure Core (cs core : List Char) : Prop where
  parted : ∃ before after, cs = before ++ (core ++ after) ∧ (∀ c ∈ before, WhiteSpace c) ∧
    ∀ c ∈ after, WhiteSpace c
  first : ∃ c ∈ core.head?, ¬ WhiteSpace c
  last : ∃ c ∈ core.getLast?, ¬ WhiteSpace c

theorem Core.ne_nil (h : Core cs core) : core ≠ [] := by
  rintro rfl
  obtain ⟨c, hc, -⟩ := h.first
  cases hc

/-- A core is its own core. -/
theorem Core.self (h : Core cs core) : Core core core :=
  ⟨⟨[], [], by simp, by simp, by simp⟩, h.first, h.last⟩

theorem trimEnd_eq_rdropWhile (cs : List Char) : trimEnd cs = cs.rdropWhile isBlank := rfl

/-- White space is dropped up to the first other character. -/
theorem dropWhile_blank (hbefore : ∀ c ∈ before, WhiteSpace c) (hc : c ∈ cs.head?)
    (hsolid : ¬ WhiteSpace c) : (before ++ cs).dropWhile isBlank = cs := by
  obtain ⟨rest, rfl⟩ := List.head?_eq_some_iff.mp hc
  have hstop : isBlank c = false := isBlank_eq_false_iff.mpr hsolid
  rw [List.dropWhile_append_of_pos fun c hc => isBlank_iff.mpr (hbefore c hc),
    List.dropWhile_cons_of_neg (by simp [hstop])]

/-- White space at the end is dropped back to the last other character. -/
theorem trimEnd_blank (hafter : ∀ c ∈ after, WhiteSpace c) (hc : c ∈ cs.getLast?)
    (hsolid : ¬ WhiteSpace c) : trimEnd (cs ++ after) = cs := by
  have hback : (after.reverse ++ cs.reverse).dropWhile isBlank = cs.reverse :=
    dropWhile_blank (fun c hc => hafter c (List.mem_reverse.mp hc))
      (by rwa [List.head?_reverse]) hsolid
  rw [trimEnd, List.reverse_append, hback, List.reverse_reverse]

/-- A text has no core but what is left of it. -/
theorem Core.trimList_eq (h : Core cs core) : trimList cs = core := by
  obtain ⟨before, after, rfl, hbefore, hafter⟩ := h.parted
  obtain ⟨c, hc, hfirst⟩ := h.first
  obtain ⟨d, hd, hlast⟩ := h.last
  have hc' : c ∈ (core ++ after).head? := by
    rwa [List.head?_append_of_ne_nil _ h.ne_nil]
  calc trimList (before ++ (core ++ after))
    _ = trimEnd (core ++ after) := by rw [trimList, dropWhile_blank hbefore hc' hfirst]
    _ = core := trimEnd_blank hafter hd hlast

/-- What is left of a text is its core, unless nothing is left. -/
theorem core_trimList (h : trimList cs ≠ []) : Core cs (trimList cs) := by
  have hparts : trimList cs ++ (cs.dropWhile isBlank).rtakeWhile isBlank = cs.dropWhile isBlank :=
    List.rdropWhile_append_rtakeWhile
  refine ⟨⟨cs.takeWhile isBlank, (cs.dropWhile isBlank).rtakeWhile isBlank, ?parted, ?before,
    ?after⟩, ?first, ?last⟩
  case parted => rw [hparts, List.takeWhile_append_dropWhile]
  case before => exact fun c hc => isBlank_iff.mp (List.mem_takeWhile_imp hc)
  case after => exact fun c hc => isBlank_iff.mp (List.mem_rtakeWhile_imp hc)
  case first =>
    -- the first character that is left was left by both ends
    obtain ⟨c, rest, hcons⟩ := List.exists_cons_of_ne_nil h
    rw [hcons] at hparts ⊢
    have hhead : (cs.dropWhile isBlank).head? = some c := by
      rw [← hparts]
      rfl
    have hstop := List.head?_dropWhile_not isBlank cs
    rw [hhead] at hstop
    exact ⟨c, rfl, isBlank_eq_false_iff.mp hstop⟩
  case last =>
    have hstop := List.rdropWhile_last_not isBlank (cs.dropWhile isBlank) h
    exact ⟨_, List.getLast?_eq_some_getLast h, isBlank_iff.not.mp hstop⟩

/-- A core is what is left of a text, if that is anything. -/
theorem core_iff : Core cs core ↔ core ≠ [] ∧ trimList cs = core := by
  constructor
  · exact fun h => ⟨h.ne_nil, h.trimList_eq⟩
  · rintro ⟨h, rfl⟩
    exact core_trimList h

/-! ## Trimming again -/

theorem trimList_trimList (cs : List Char) : trimList (trimList cs) = trimList cs := by
  by_cases h : trimList cs = []
  · rw [h]
    rfl
  · exact (core_trimList h).self.trimList_eq

/-- Nothing is left of a text when there is nothing but white space in it. -/
theorem trimList_eq_nil_iff {cs : List Char} : trimList cs = [] ↔ ∀ c ∈ cs, isBlank c := by
  rw [trimList, trimEnd_eq_rdropWhile, List.rdropWhile_eq_nil_iff]
  refine ⟨fun h => List.dropWhile_eq_nil_iff.mp ?_, fun h c hc => h c (List.dropWhile_subset _ hc)⟩
  -- the first character that is left would not be white space
  by_contra hne
  obtain ⟨c, rest, hcons⟩ := List.exists_cons_of_ne_nil hne
  have hblank : isBlank c := h c (by simp [hcons])
  have hfirst := List.head_dropWhile_not isBlank hne
  simp only [hcons, List.head_cons, hblank] at hfirst
  cases hfirst

/-- Trimming twice is trimming once. -/
theorem trim_trim (s : String) : trim (trim s) = trim s := by
  simp only [trim, String.toList_ofList, trimList_trimList]

end DiagramService.Text
