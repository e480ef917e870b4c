import DiagramService.Request
import DiagramService.Proofs.Text.Blank

/-! The text of a request is the core of what was sent: what is left between the white space at its
two ends, with the white space inside. There is no text just if nothing else than white space was
sent. -/

namespace DiagramService.DiagramRequest

variable {request : DiagramRequest} {t : String}

theorem text_eq_ok_iff : request.text = .ok t ↔ Text.Core request.uml.toList t.toList := by
  rw [Text.core_iff, text, Text.trim]
  split
  · next hempty =>
    rw [List.isEmpty_iff.mp hempty]
    constructor
    · intro h
      cases h
    · rintro ⟨hne, hnil⟩
      exact absurd hnil.symm hne
  · next hsome =>
    rw [Except.ok.injEq, ← String.toList_inj, String.toList_ofList]
    constructor
    · intro h
      rw [h, List.isEmpty_iff] at hsome
      exact ⟨hsome, h⟩
    · exact fun h => h.2

theorem text_eq_error_iff :
    request.text = .error .emptyInput ↔ ∀ c ∈ request.uml.toList, Text.WhiteSpace c := by
  simp only [← Text.isBlank_iff]
  rw [← Text.trimList_eq_nil_iff, ← List.isEmpty_iff, text]
  split
  · next hempty => simp [hempty]
  · next hsome => simp [hsome]

/-- A text that is not white space alone has a core. -/
theorem exists_text (h : ∃ c ∈ request.uml.toList, ¬ Text.WhiteSpace c) :
    ∃ t, request.text = .ok t := by
  have hsome : Text.trimList request.uml.toList ≠ [] := by
    intro hnil
    obtain ⟨c, hc, hsolid⟩ := h
    exact hsolid (Text.isBlank_iff.mp (Text.trimList_eq_nil_iff.mp hnil c hc))
  refine ⟨Text.trim request.uml, text_eq_ok_iff.mpr ?_⟩
  rw [Text.trim, String.toList_ofList]
  exact Text.core_trimList hsome

/-- A request has no text just if it is white space alone. Otherwise its text is the one part of it
that begins and ends with another character and has nothing but white space before and after it, and
a request for this text has the same text. -/
theorem trimming_is_exact (request : DiagramRequest) :
    (request.text = .error .emptyInput ↔ ∀ c ∈ request.uml.toList, Text.WhiteSpace c) ∧
    ((∃ c ∈ request.uml.toList, ¬ Text.WhiteSpace c) →
      ∃ t, request.text = .ok t ∧ Text.Core request.uml.toList t.toList ∧
        ∀ t' : String, Text.Core request.uml.toList t'.toList → t' = t) ∧
    ∀ t, request.text = .ok t → text ⟨t⟩ = .ok t := by
  refine ⟨text_eq_error_iff, fun h => ?core, fun t ht => ?again⟩
  case core =>
    obtain ⟨t, ht⟩ := exists_text h
    refine ⟨t, ht, text_eq_ok_iff.mp ht, fun t' ht' => ?_⟩
    exact Except.ok.inj ((text_eq_ok_iff.mpr ht').symm.trans ht)
  case again =>
    have hcore : Text.Core request.uml.toList t.toList := text_eq_ok_iff.mp ht
    exact text_eq_ok_iff.mpr hcore.self

/-- A request with white space of several kinds around its text and inside. -/
def spaced : DiagramRequest :=
  ⟨"\u3000\u0085 A\u2003-> B\u00a0\n"⟩

/-- Of all this only the white space inside is kept. -/
theorem spaced_is_trimmed :
    (∃ c ∈ spaced.uml.toList, ¬ Text.WhiteSpace c) ∧
    spaced.text = .ok "A\u2003-> B" ∧ text ⟨"A\u2003-> B"⟩ = .ok "A\u2003-> B" := by
  obtain ⟨-, hcore, hagain⟩ := trimming_is_exact spaced
  have hsome : ∃ c ∈ spaced.uml.toList, ¬ Text.WhiteSpace c := ⟨'A', by simp [spaced], by decide⟩
  have hbefore : ∀ c ∈ ['\u3000', '\u0085', ' '], Text.WhiteSpace c := by
    simp [Text.WhiteSpace, Text.whiteSpace]
  have hafter : ∀ c ∈ ['\u00a0', '\n'], Text.WhiteSpace c := by
    simp [Text.WhiteSpace, Text.whiteSpace]
  have hleft : Text.Core spaced.uml.toList "A\u2003-> B".toList :=
    ⟨⟨_, _, by simp [spaced], hbefore, hafter⟩, ⟨'A', by simp, by decide⟩,
      ⟨'B', by simp, by decide⟩⟩
  obtain ⟨t, ht, -, hunique⟩ := hcore hsome
  obtain rfl := hunique _ hleft
  exact ⟨hsome, ht, hagain _ ht⟩

end DiagramService.DiagramRequest
