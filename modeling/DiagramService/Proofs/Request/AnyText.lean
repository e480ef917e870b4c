import Mathlib
import DiagramService.Proofs.Request.OneText

/-! Any text survives the format of requests. The only member of a body may hold any literal, and
what is read is the text that it denotes; a literal that breaks off anywhere is refused. -/

namespace DiagramService.DiagramRequest

open Json

variable {w₁ w₂ w₃ w₄ : List Char} {t : List Char} {bs : Bytes}

/-- A body up to the opening quote of its text. -/
def opening (w₁ w₂ w₃ w₄ : List Char) : List Char :=
  w₁ ++ '\x7b' :: (w₂ ++ '"' :: (['u', 'm', 'l'] ++ '"' :: (w₃ ++ ':' :: (w₄ ++ ['"']))))

theorem denotes_uml : Denotes ['u', 'm', 'l'] "uml".toList :=
  denotes_escaped ['u', 'm', 'l']

theorem encodeList_opening (t : List Char) : Utf8.encodeList (opening w₁ w₂ w₃ w₄ ++ t) =
    Utf8.encodeList w₁ ++ byte '\x7b' :: (Utf8.encodeList w₂ ++ byte '"' ::
      (Utf8.encodeList ['u', 'm', 'l'] ++ byte '"' :: (Utf8.encodeList w₃ ++ byte ':' ::
        (Utf8.encodeList w₄ ++ byte '"' :: Utf8.encodeList t)))) := by
  have hbrace : ∀ cs, Utf8.encodeList ('\x7b' :: cs) = byte '\x7b' :: Utf8.encodeList cs :=
    fun _ => encodeList_cons_ascii (by decide)
  have hquote : ∀ cs, Utf8.encodeList ('"' :: cs) = byte '"' :: Utf8.encodeList cs :=
    fun _ => encodeList_cons_ascii (by decide)
  have hcolon : ∀ cs, Utf8.encodeList (':' :: cs) = byte ':' :: Utf8.encodeList cs :=
    fun _ => encodeList_cons_ascii (by decide)
  rw [opening]
  generalize ['u', 'm', 'l'] = key
  simp only [Utf8.encodeList_append, hbrace, hquote, hcolon, List.append_assoc, List.cons_append,
    List.nil_append]

/-- After the opening the literal is read, and then the end of the object. -/
theorem read_opening (hw₁ : Blank w₁) (hw₂ : Blank w₂) (hw₃ : Blank w₃) (hw₄ : Blank w₄)
    (t : List Char) : ∃ fuel, read (Utf8.encodeList (opening w₁ w₂ w₃ w₄ ++ t)) =
      (inside "uml" (readLiteral (Utf8.encodeList t))).bind fun r =>
        readMembers fuel false (some r.1) r.2 := by
  rw [encodeList_opening]
  generalize Utf8.encodeList t = bs
  have hkey : readLiteral (Utf8.encodeList ['u', 'm', 'l'] ++ byte '"' :: (Utf8.encodeList w₃ ++
      byte ':' :: (Utf8.encodeList w₄ ++ byte '"' :: bs))) = .ok ("uml", Utf8.encodeList w₃ ++
        byte ':' :: (Utf8.encodeList w₄ ++ byte '"' :: bs)) :=
    readLiteral_eq_ok_iff.mpr ⟨_, denotes_uml, rfl⟩
  have hmember : readTextMember "uml" (Utf8.encodeList w₃ ++ byte ':' ::
      (Utf8.encodeList w₄ ++ byte '"' :: bs)) = inside "uml" (readLiteral bs) := by
    rw [readTextMember, readColon, skipSpace_blank hw₃, skipSpace_cons rfl]
    simp only [beq_self_eq_true, if_true, Except.bind, readTextValue, skipSpace_blank hw₄,
      skipSpace_cons (b := byte '"') rfl]
  have hname : isTextKey "uml" = true := isTextKey_iff.mpr (.inl rfl)
  have hfirst : ∀ bs, nextKey true (Utf8.encodeList w₂ ++ byte '"' :: bs) = .ok (.key bs) :=
    fun bs => nextKey_first ((skipSpace_blank hw₂).trans (skipSpace_cons rfl))
  have hmembers : ∀ fuel, readMembers (fuel + 1) true none (Utf8.encodeList w₂ ++ byte '"' ::
      (Utf8.encodeList ['u', 'm', 'l'] ++ byte '"' :: (Utf8.encodeList w₃ ++ byte ':' ::
        (Utf8.encodeList w₄ ++ byte '"' :: bs)))) =
      (inside "uml" (readLiteral bs)).bind fun r => readMembers fuel false (some r.1) r.2 := by
    intro fuel
    rw [readMembers.eq_def, hfirst]
    simp only [bind, Except.bind, hkey, hname, if_true, Option.isSome_none, Bool.false_eq_true,
      if_false, hmember]
  rw [read_blank hw₁, read_brace]
  generalize hfuel : List.length _ = fuel
  cases fuel with
  | zero => simp at hfuel
  | succ fuel => exact ⟨fuel, hmembers fuel⟩

theorem eq_ok_of_bind {α β : Type} {x : Except Failure α} {f : α → Except Failure β} {b : β}
    (h : x >>= f = .ok b) : ∃ a, x = .ok a ∧ f a = .ok b := by
  cases x with
  | error failure => cases h
  | ok a => exact ⟨a, rfl, h⟩

/-- Once a text is known it is the text of the request. -/
theorem uml_of_readMembers {fuel : Nat} {first : Bool} {uml : String}
    {r : DiagramRequest × Bytes} (h : readMembers fuel first (some uml) bs = .ok r) :
    r.1.uml = uml := by
  induction fuel generalizing first bs with
  | zero =>
    rw [readMembers.eq_def] at h
    obtain ⟨next, -, h⟩ := eq_ok_of_bind h
    cases next with
    | close rest =>
      cases h
      rfl
    | key rest =>
      obtain ⟨_, -, h⟩ := eq_ok_of_bind h
      cases h
  | succ fuel ih =>
    rw [readMembers.eq_def] at h
    obtain ⟨next, -, h⟩ := eq_ok_of_bind h
    cases next with
    | close rest =>
      cases h
      rfl
    | key rest =>
      obtain ⟨⟨key, rest⟩, -, h⟩ := eq_ok_of_bind h
      dsimp only at h
      split at h
      · cases h
      · obtain ⟨rest, -, h⟩ := eq_ok_of_bind h
        exact ih h

theorem read_of_ofBody {r : DiagramRequest} (h : ofBody bs = .ok r) :
    ∃ rest, read bs = .ok (r, rest) := by
  obtain ⟨⟨request, rest⟩, hread, h⟩ := eq_ok_of_bind h
  dsimp only at h
  split at h
  · cases h
    exact ⟨rest, hread⟩
  · cases h

/-- Every text has a literal, every literal of it gives the text back, and nothing but a literal is
taken. -/
theorem any_text_survives (hw₁ : Blank w₁) (hw₂ : Blank w₂) (hw₃ : Blank w₃) (hw₄ : Blank w₄) :
    (∀ s : String, ∃ lit, Denotes lit s.toList) ∧
    (∀ (s : String) lit w₅ w₆, Denotes lit s.toList → Blank w₅ → Blank w₆ →
      ofBody (Utf8.encodeList (opening w₁ w₂ w₃ w₄ ++ (lit ++ '"' :: (w₅ ++ '\x7d' :: w₆)))) =
        .ok ⟨s⟩) ∧
    (∀ good bad s, Denotes good s → Malformed bad →
      ∃ failure, ofBody (Utf8.encodeList (opening w₁ w₂ w₃ w₄ ++ (good ++ bad))) =
        .error failure) ∧
    ∀ t r, ofBody (Utf8.encodeList (opening w₁ w₂ w₃ w₄ ++ t)) = .ok r →
      ∃ lit more, Denotes lit r.uml.toList ∧ t = lit ++ '"' :: more := by
  refine ⟨fun s => ⟨_, denotes_escaped s.toList⟩, ?_, ?_, ?_⟩
  · intro s lit w₅ w₆ hlit hw₅ hw₆
    obtain ⟨fuel, hread⟩ := read_opening hw₁ hw₂ hw₃ hw₄ (lit ++ '"' :: (w₅ ++ '\x7d' :: w₆))
    have hliteral : readLiteral (Utf8.encodeList (lit ++ '"' :: (w₅ ++ '\x7d' :: w₆))) =
        .ok (s, Utf8.encodeList w₅ ++ byte '\x7d' :: Utf8.encodeList w₆) := by
      refine readLiteral_eq_ok_iff.mpr ⟨lit, hlit, ?_⟩
      rw [Utf8.encodeList_append, encodeList_cons_ascii (by decide), Utf8.encodeList_append,
        encodeList_cons_ascii (by decide)]
    have hclose : Outcome (some s) [] (Utf8.encodeList w₆) (readMembers fuel false (some s)
        (Utf8.encodeList w₅ ++ byte '\x7d' :: Utf8.encodeList w₆)) := readMembers_close hw₅
    rw [hliteral] at hread
    exact ofBody_of_read (hread.trans hclose) hw₆
  · intro good bad s hgood hbad
    obtain ⟨fuel, hread⟩ := read_opening hw₁ hw₂ hw₃ hw₄ (good ++ bad)
    obtain ⟨failure, hfailure⟩ := readLiteral_malformed hgood hbad
    rw [hfailure] at hread
    exact ⟨_, ofBody_of_error hread⟩
  · intro t r h
    obtain ⟨fuel, hread⟩ := read_opening hw₁ hw₂ hw₃ hw₄ t
    cases hliteral : readLiteral (Utf8.encodeList t) with
    | error failure =>
      rw [hliteral] at hread
      rw [ofBody_of_error hread] at h
      cases h
    | ok pair =>
      obtain ⟨rest, hr⟩ := read_of_ofBody h
      rw [hliteral] at hread
      have huml : r.uml = pair.1 := uml_of_readMembers (hread.symm.trans hr)
      obtain ⟨lit, hlit, hbytes⟩ := readLiteral_eq_ok_iff.mp hliteral
      obtain ⟨more, ht⟩ := exists_quote_of_encodeList hbytes
      exact ⟨lit, more, huml ▸ hlit, ht⟩

/-- A text of one, two and four bytes, with white space everywhere, and a unit that is alone. -/
theorem escaped_text_survives :
    ofBody (Utf8.encodeList (opening [' '] ['\n'] ['\t'] ['\r'] ++
      (['é', '\\', 'n', '\\', 'u', '0', '0', 'E', '9', '\\', 'u', 'd', '8', '3', 'd', '\\', 'u',
        'D', 'E', '0', '0'] ++ '"' :: ([' '] ++ '\x7d' :: ['\n'])))) =
      .ok ⟨String.ofList ['é', '\n', 'é', '😀']⟩ ∧
    ∃ failure, ofBody (Utf8.encodeList (opening [' '] ['\n'] ['\t'] ['\r'] ++
      (['é'] ++ ['\\', 'u', 'd', 'e', '0', '0', '"', '\x7d']))) = .error failure := by
  have hblank : ∀ c, c = ' ' ∨ c = '\n' ∨ c = '\t' ∨ c = '\r' → Blank [c] := by
    intro c hc x hx
    rwa [List.mem_singleton.mp hx]
  have hdigit : ∀ n < 16, HexDigit (Nat.digitChar n) n := fun n hn => ⟨hn, .inl rfl⟩
  have hupper : ∀ n < 16, HexDigit (Nat.digitChar n).toUpper n := fun n hn => ⟨hn, .inr rfl⟩
  have hraw : Piece ['é'] 'é' := .raw (by decide) (by decide) (by decide)
  have hline : Piece ['\\', 'n'] '\n' := .short (by decide)
  have hunit : HexUnit ['0', '0', 'E', '9'] 0xE9 :=
    .intro (hdigit 0 (by decide)) (hdigit 0 (by decide)) (hupper 14 (by decide))
      (hdigit 9 (by decide))
  have haccent := Piece.unit hunit (by simp [IsHigh]) (by simp [IsLow])
  have hhigh : HexUnit ['d', '8', '3', 'd'] 0xD83D :=
    .intro (hdigit 13 (by decide)) (hdigit 8 (by decide)) (hdigit 3 (by decide))
      (hdigit 13 (by decide))
  have hpartner : HexUnit ['D', 'E', '0', '0'] 0xDE00 :=
    .intro (hupper 13 (by decide)) (hupper 14 (by decide)) (hdigit 0 (by decide))
      (hdigit 0 (by decide))
  have hface := Piece.pair hhigh hpartner (by simp [IsHigh]) (by simp [IsLow])
  have hcombined : combined 0xD83D 0xDE00 = '😀' := by simp [combined]
  rw [hcombined] at hface
  have hlow : HexUnit ['d', 'e', '0', '0'] 0xDE00 :=
    .intro (hdigit 13 (by decide)) (hdigit 14 (by decide)) (hdigit 0 (by decide))
      (hdigit 0 (by decide))
  have hbad : Malformed ['\\', 'u', 'd', 'e', '0', '0', '"', '\x7d'] :=
    .escape (.low hlow (by simp [IsLow]))
  have hlit : Denotes ['é', '\\', 'n', '\\', 'u', '0', '0', 'E', '9', '\\', 'u', 'd', '8', '3', 'd',
      '\\', 'u', 'D', 'E', '0', '0'] (String.ofList ['é', '\n', 'é', '😀']).toList := by
    rw [String.toList_ofList]
    exact .cons hraw (.cons hline (.cons haccent (.cons hface .nil)))
  obtain ⟨-, haccepted, hrefused, -⟩ := any_text_survives (hblank ' ' (by simp))
    (hblank '\n' (by simp)) (hblank '\t' (by simp)) (hblank '\r' (by simp))
  exact ⟨haccepted _ _ _ _ hlit (hblank ' ' (by simp)) (hblank '\n' (by simp)),
    hrefused _ _ _ (.cons hraw .nil) hbad⟩

end DiagramService.DiagramRequest
