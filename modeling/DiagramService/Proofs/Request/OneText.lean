import Mathlib
import DiagramService.Request
import DiagramService.Proofs.Json.Spelling

/-! A request names exactly one text. Of an object the values under the two names count, in their
order, and of a list its elements; every other member is passed over whatever it holds. -/

namespace DiagramService.DiagramRequest

open Json

variable {w w' cs ds lit : List Char} {key : String} {v : Value} {bs rest tail : Bytes}

/-! ## One member -/

theorem readColon_blank (hw : Blank w) (cs : List Char) (rest : Bytes) :
    readColon (Utf8.encodeList (w ++ ':' :: cs) ++ rest) = .ok (Utf8.encodeList cs ++ rest) := by
  rw [Utf8.encodeList_append, List.append_assoc, encodeList_cons_ascii (by decide),
    List.cons_append, readColon, skipSpace_blank hw, skipSpace_cons rfl]
  rfl

theorem readTextValue_text {s : String} (h : Spells cs (.element (.text s))) :
    ∃ w, Blank w ∧ ∀ rest,
      readTextValue (Utf8.encodeList cs ++ rest) = .ok (s, Utf8.encodeList w ++ rest) := by
  cases h with
  | @element w _ w' _ hw h hw' =>
    cases h with
    | @text lit _ hlit =>
      refine ⟨w', hw', fun rest => ?_⟩
      have hread : readLiteral (Utf8.encodeList (lit ++ ['"'] ++ w') ++ rest) =
          .ok (s, Utf8.encodeList w' ++ rest) := by
        refine readLiteral_eq_ok_iff.mpr ⟨lit, hlit, ?_⟩
        rw [List.append_assoc, List.singleton_append, Utf8.encodeList_append, List.append_assoc,
          encodeList_cons_ascii (by decide)]
        rfl
      rw [Utf8.encodeList_append, List.append_assoc, readTextValue, skipSpace_blank hw,
        List.cons_append, encodeList_cons_ascii (by decide), List.cons_append,
        skipSpace_cons rfl]
      exact hread

theorem readTextValue_other (h : Spells cs (.element v)) (hv : ∀ s, v ≠ .text s) (rest : Bytes) :
    ∃ failure, readTextValue (Utf8.encodeList cs ++ rest) = .error failure := by
  obtain ⟨c, hc, hfirst⟩ := h.skipSpace
  obtain ⟨tail, htail⟩ := hfirst rest
  have hquote : (byte c == byte '"') = false := by
    refine beq_eq_false_iff_ne.mpr fun heq => ?_
    obtain rfl := (byte_inj hc.plain.1 (by decide)).mp heq
    obtain ⟨s, hs⟩ := (Value.Opens.kind hc).1 rfl
    exact hv s hs
  refine ⟨unwanted textName (byte c) tail, ?_⟩
  rw [readTextValue, htail]
  simp only [hquote, Bool.false_eq_true, if_false]

theorem skipValue_element (h : Spells cs (.element v)) :
    ∃ w, Blank w ∧ ∀ rest, NumberEnds rest →
      skipValue (Utf8.encodeList cs ++ rest) = .ok (Utf8.encodeList w ++ rest) := by
  cases h with
  | @element w cs w' _ hw h hw' =>
    refine ⟨w', hw', fun rest hrest => ?_⟩
    rw [Utf8.encodeList_append, Utf8.encodeList_append, List.append_assoc, List.append_assoc,
      skipValue, skip_value_blank hw, h.skipped _ _ (hw'.numberEnds hrest), skip_done]

/-! ## The members of an object -/

/-- The values under the two names of the text, in their order. -/
def textValues (members : List (String × Value)) : List Value :=
  (members.filter fun m => m.1 = "uml" ∨ m.1 = "diagramText").map (·.2)

theorem isTextKey_iff : isTextKey key = true ↔ key = "uml" ∨ key = "diagramText" := by
  simp [isTextKey]

/-- What reading members comes to: `known` is the text that was read before them, `values` are those
that count, and `rest` is what follows the object. -/
def Outcome (known : Option String) (values : List Value) (rest : Bytes)
    (result : Except Failure (DiagramRequest × Bytes)) : Prop :=
  match known, values with
  | none, [] => ∃ failure, result = .error failure ∧ failure.cause = .missingField "uml"
  | some s, [] => result = .ok (⟨s⟩, rest)
  | none, [.text s] => result = .ok (⟨s⟩, rest)
  | none, .text _ :: _ :: _ | some _, _ :: _ =>
    ∃ failure, result = .error failure ∧ failure.cause = .duplicateField "uml"
  | none, _ => ∃ failure, result = .error failure

section Members

variable {first : Bool} {known : Option String} {fuel : Nat} {values : List Value}
  {ms : List (String × Value)} {result : Except Failure (DiagramRequest × Bytes)} {more : Bytes}

/-- A text that is read is the known one from then on. -/
theorem Outcome.of_known {s : String} (h : Outcome (some s) values rest result) :
    Outcome none (.text s :: values) rest result := by
  cases values with
  | nil => exact h
  | cons => exact h

theorem Outcome.of_error {failure : Failure} (h : result = .error failure)
    (hv : ∀ s, v ≠ .text s) : Outcome none (v :: values) rest result := by
  cases v with
  | text s => exact absurd rfl (hv s)
  | _ => exact ⟨failure, h⟩

theorem Outcome.eq_ok_iff (h : Outcome none values rest result) (r : DiagramRequest × Bytes) :
    result = .ok r ↔ values = [.text r.1.uml] ∧ r.2 = rest := by
  obtain ⟨⟨uml⟩, left⟩ := r
  rcases values with _ | ⟨v, _ | ⟨v', vs⟩⟩
  · obtain ⟨failure, rfl, -⟩ := h
    simp
  · cases v with
    | text s =>
      obtain rfl : result = _ := h
      simp [eq_comm]
    | _ =>
      obtain ⟨failure, rfl⟩ := h
      simp
  · cases v with
    | text s =>
      obtain ⟨failure, rfl, -⟩ := h
      simp
    | _ =>
      obtain ⟨failure, rfl⟩ := h
      simp

theorem nextKey_close (hw : Blank w) :
    nextKey first (Utf8.encodeList w ++ byte '\x7d' :: rest) = .ok (.close rest) := by
  rw [nextKey, skipSpace_blank hw, skipSpace_cons rfl]
  rfl

theorem nextKey_comma (hw : Blank w) (h : skipSpace bs = byte '"' :: tail) :
    nextKey false (Utf8.encodeList w ++ byte ',' :: bs) = .ok (.key tail) := by
  rw [nextKey, skipSpace_blank hw, skipSpace_cons rfl]
  simp only [h]
  rfl

theorem nextKey_first (h : skipSpace bs = byte '"' :: tail) :
    nextKey true bs = .ok (.key tail) := by
  rw [nextKey, h]
  rfl

theorem readMembers_close (hw : Blank w) : Outcome known [] rest
    (readMembers fuel first known (Utf8.encodeList w ++ byte '\x7d' :: rest)) := by
  rw [readMembers.eq_def, nextKey_close hw]
  cases known with
  | none => exact ⟨_, rfl, rfl⟩
  | some s => rfl

/-- One step of reading: what the member gives counts with what the others give. -/
theorem readMembers_member (h : Spells cs (.member key v)) (hmore : NumberEnds more)
    (hnext : ∀ tail, skipSpace (Utf8.encodeList cs ++ more) = byte '"' :: tail →
      nextKey first bs = .ok (.key tail))
    (hrest : ∀ w known, Blank w →
      Outcome known (textValues ms) rest
        (readMembers fuel false known (Utf8.encodeList w ++ more))) :
    Outcome known (textValues ((key, v) :: ms)) rest (readMembers (fuel + 1) first known bs) := by
  cases h with
  | @member w lit w' cs _ _ hw hkey hw' h =>
    have hstart := hnext (Utf8.encodeList (lit ++ '"' :: (w' ++ ':' :: cs)) ++ more) (by
      rw [Utf8.encodeList_append, List.append_assoc, skipSpace_blank hw,
        encodeList_cons_ascii (by decide)]
      exact skipSpace_cons rfl)
    have hread : readLiteral (Utf8.encodeList (lit ++ '"' :: (w' ++ ':' :: cs)) ++ more) =
        .ok (key, Utf8.encodeList (w' ++ ':' :: cs) ++ more) := by
      refine readLiteral_eq_ok_iff.mpr ⟨lit, hkey, ?_⟩
      rw [Utf8.encodeList_append, List.append_assoc, encodeList_cons_ascii (by decide)]
      rfl
    have hcolon := readColon_blank hw' cs more
    rw [readMembers.eq_def, hstart]
    simp only [bind, Except.bind, hread]
    by_cases hname : isTextKey key
    · have hvalues : textValues ((key, v) :: ms) = v :: textValues ms := by
        simp [textValues, isTextKey_iff.mp hname]
      rw [hvalues, if_pos hname]
      cases known with
      | some s => exact ⟨_, rfl, rfl⟩
      | none =>
        by_cases htext : ∃ s, v = .text s
        · obtain ⟨s, rfl⟩ := htext
          obtain ⟨w, hw, htext⟩ := readTextValue_text h
          simp only [Option.isSome_none, Bool.false_eq_true, if_false, readTextMember, hcolon,
            Except.bind, htext more]
          exact (hrest w (some s) hw).of_known
        · have hother : ∀ s, v ≠ .text s := fun s hs => htext ⟨s, hs⟩
          obtain ⟨failure, hfailure⟩ := readTextValue_other h hother more
          simp only [Option.isSome_none, Bool.false_eq_true, if_false, readTextMember, hcolon,
            Except.bind, hfailure]
          exact .of_error rfl hother
    · have hvalues : textValues ((key, v) :: ms) = textValues ms := by
        simp [textValues, mt isTextKey_iff.mpr hname]
      obtain ⟨w, hw, hskip⟩ := skipValue_element h
      rw [hvalues, if_neg hname]
      simp only [skipMember, hcolon, Except.bind, hskip more hmore]
      exact hrest w known hw

/-- A run of reading: each member is one step, and the closing bracket ends it. -/
theorem readMembers_members (h : Spells cs (.members ms))
    (hfuel : (Utf8.encodeList cs).length ≤ fuel)
    (hnext : ∀ tail, skipSpace (Utf8.encodeList cs ++ byte '\x7d' :: rest) = byte '"' :: tail →
      nextKey first bs = .ok (.key tail)) :
    Outcome known (textValues ms) rest (readMembers fuel first known bs) := by
  have hpos : 0 < (Utf8.encodeList cs).length := h.length_pos
  induction ms generalizing cs first known fuel bs with
  | nil => cases h
  | cons m ms ih =>
    obtain ⟨fuel, rfl⟩ : ∃ n, fuel = n + 1 := ⟨fuel - 1, by omega⟩
    cases h with
    | lastMember h =>
      exact readMembers_member h (numberEnds_close .object) hnext fun w known hw =>
        readMembers_close hw
    | @members cs ds key v _ h hmore =>
      rw [Utf8.encodeList_append, encodeList_cons_ascii (by decide), List.append_assoc,
        List.cons_append] at hnext
      refine readMembers_member h numberEnds_comma hnext fun w known hw => ?_
      refine ih hmore ?_ (fun tail htail => nextKey_comma hw htail) hmore.length_pos
      rw [Utf8.encodeList_append, encodeList_cons_ascii (by decide), List.length_append,
        List.length_cons] at hfuel
      omega

end Members

/-! ## The elements of a list -/

section Elements

variable {vs : List Value}

theorem readList_element (h : Spells cs (.element v)) : ∃ w, Blank w ∧ ∀ more r,
    readList (Utf8.encodeList cs ++ more) = .ok r ↔
      v = .text r.1.uml ∧ readListEnd (Utf8.encodeList w ++ more) = .ok r.2 := by
  obtain ⟨c, hc, hfirst⟩ := h.skipSpace
  have hread : ∀ more, readList (Utf8.encodeList cs ++ more) = (do
      let text ← inside "[0]" (readTextValue (Utf8.encodeList cs ++ more))
      return (⟨text.1⟩, ← readListEnd text.2)) := by
    intro more
    obtain ⟨tail, htail⟩ := hfirst more
    have hvalue : readTextValue (byte c :: tail) = readTextValue (Utf8.encodeList cs ++ more) := by
      rw [readTextValue, readTextValue, skipSpace_cons hc.plain.2.1, htail]
    have hclose : (byte c == byte ']') = false := hc.plain.2.2 .list
    rw [readList, htail]
    simp only [hclose, Bool.false_eq_true, if_false, hvalue]
  by_cases htext : ∃ s, v = .text s
  · obtain ⟨s, rfl⟩ := htext
    obtain ⟨w, hw, htext⟩ := readTextValue_text h
    refine ⟨w, hw, fun more r => ?_⟩
    obtain ⟨⟨uml⟩, rest⟩ := r
    rw [hread, htext more]
    cases hend : readListEnd (Utf8.encodeList w ++ more) with
    | error failure => simp [inside, Except.mapError, bind, Except.bind, hend]
    | ok left => simp [inside, Except.mapError, bind, Except.bind, hend, pure, Except.pure]
  · refine ⟨[], fun x hx => absurd hx List.not_mem_nil, fun more r => ?_⟩
    obtain ⟨failure, hfailure⟩ := readTextValue_other h (fun s hs => htext ⟨s, hs⟩) more
    rw [hread, hfailure]
    exact ⟨fun h => (by cases h), fun h => absurd ⟨_, h.1⟩ htext⟩

theorem readListEnd_close (hw : Blank w) :
    readListEnd (Utf8.encodeList w ++ byte ']' :: rest) = .ok rest := by
  rw [readListEnd, skipSpace_blank hw, skipSpace_cons rfl]
  rfl

theorem readListEnd_comma (hw : Blank w) (bs : Bytes) :
    ∃ failure, readListEnd (Utf8.encodeList w ++ byte ',' :: bs) = .error failure := by
  rw [readListEnd, skipSpace_blank hw, skipSpace_cons rfl]
  exact ⟨_, rfl⟩

/-- Of a list only one element is taken, which has to be a text. -/
theorem readList_items {r : DiagramRequest × Bytes} (h : Spells cs (.items vs)) :
    readList (Utf8.encodeList cs ++ byte ']' :: rest) = .ok r ↔
      vs = [.text r.1.uml] ∧ r.2 = rest := by
  cases h with
  | item h =>
    obtain ⟨w, hw, hread⟩ := readList_element h
    rw [hread, readListEnd_close hw]
    simp [eq_comm]
  | @items cs ds v vs h hmore =>
    obtain ⟨w, hw, hread⟩ := readList_element h
    rw [Utf8.encodeList_append, encodeList_cons_ascii (by decide), List.append_assoc,
      List.cons_append, hread]
    obtain ⟨failure, hfailure⟩ := readListEnd_comma hw (Utf8.encodeList ds ++ byte ']' :: rest)
    rw [hfailure]
    cases hmore <;> simp

end Elements

/-! ## Bodies -/

section Bodies

variable {body : List Char} {vs : List Value} {ms : List (String × Value)} {r : DiagramRequest}

theorem read_brace : read (byte '\x7b' :: bs) = readMembers bs.length true none bs := by
  rw [read, skipSpace_cons rfl]
  rfl

theorem read_object (h : Spells cs (.value (.object ms))) (rest : Bytes) :
    Outcome none (textValues ms) rest (read (Utf8.encodeList cs ++ rest)) := by
  cases h with
  | emptyObject hw =>
    rw [encodeList_cons_ascii (by decide), List.cons_append, read_brace,
      encodeList_closed .object '\x7d' rfl (by decide)]
    exact readMembers_close hw
  | object h =>
    rw [encodeList_cons_ascii (by decide), List.cons_append, read_brace,
      encodeList_closed .object '\x7d' rfl (by decide)]
    exact readMembers_members h (by simp) fun tail htail => nextKey_first htail

theorem read_list {r : DiagramRequest × Bytes} (h : Spells cs (.value (.list vs))) :
    read (Utf8.encodeList cs ++ rest) = .ok r ↔ vs = [.text r.1.uml] ∧ r.2 = rest := by
  have hread : ∀ bs, read (byte '[' :: bs) = readList bs := by
    intro bs
    rw [read, skipSpace_cons rfl]
    rfl
  cases h with
  | emptyList hw =>
    rw [encodeList_cons_ascii (by decide), List.cons_append, hread,
      encodeList_closed .list ']' rfl (by decide), readList, skipSpace_blank hw,
      skipSpace_cons rfl]
    constructor
    · intro h
      cases h
    · intro h
      cases h.1
  | list h =>
    rw [encodeList_cons_ascii (by decide), List.cons_append, hread,
      encodeList_closed .list ']' rfl (by decide)]
    exact readList_items h

theorem read_other (h : Spells cs (.value v)) (hobject : ∀ ms, v ≠ .object ms)
    (hlist : ∀ vs, v ≠ .list vs) (rest : Bytes) :
    ∃ failure, read (Utf8.encodeList cs ++ rest) = .error failure := by
  obtain ⟨c, hc, hfirst⟩ := h.skipSpace
  obtain ⟨tail, htail⟩ := hfirst rest
  obtain ⟨-, hlist', hobject'⟩ := Value.Opens.kind hc
  have hopen : (byte c == byte '[') = false := by
    refine beq_eq_false_iff_ne.mpr fun heq => ?_
    obtain ⟨vs, hvs⟩ := hlist' ((byte_inj hc.plain.1 (by decide)).mp heq)
    exact hlist vs hvs
  have hbrace : (byte c == byte '\x7b') = false := by
    refine beq_eq_false_iff_ne.mpr fun heq => ?_
    obtain ⟨ms, hms⟩ := hobject' ((byte_inj hc.plain.1 (by decide)).mp heq)
    exact hobject ms hms
  refine ⟨unwanted typeName (byte c) tail, ?_⟩
  rw [read, htail]
  simp only [hopen, hbrace, Bool.false_eq_true, if_false]

theorem ofBody_of_error {failure : Failure} (h : read bs = .error failure) :
    ofBody bs = .error failure := by
  rw [ofBody, h]
  rfl

theorem ofBody_of_read (h : read bs = .ok (r, Utf8.encodeList w)) (hw : Blank w) :
    ofBody bs = .ok r := by
  have hend : skipSpace (Utf8.encodeList w) = [] := by
    rw [← List.append_nil (Utf8.encodeList w), skipSpace_blank hw]
    rfl
  rw [ofBody, h]
  simp [bind, Except.bind, hend, pure, Except.pure]

/-- The requests that a value is: an object with one text under the two names, or a list of one
text. -/
def Names : Value → String → Prop
  | .object ms, s => textValues ms = [.text s]
  | .list vs, s => vs = [.text s]
  | _, _ => False

theorem read_value (h : Spells cs (.value v)) (r : DiagramRequest × Bytes) :
    read (Utf8.encodeList cs ++ rest) = .ok r ↔ Names v r.1.uml ∧ r.2 = rest := by
  have hother : (∀ ms, v ≠ .object ms) → (∀ vs, v ≠ .list vs) →
      (read (Utf8.encodeList cs ++ rest) = .ok r ↔ False ∧ r.2 = rest) := by
    intro hobject hlist
    obtain ⟨failure, hfailure⟩ := read_other h hobject hlist rest
    simp [hfailure]
  cases v with
  | object ms => exact (read_object h rest).eq_ok_iff r
  | list vs => exact read_list h
  | null | bool | number | text => exact hother nofun nofun

theorem ofBody_eq_ok_iff (hw : Blank w) (hr : ∀ r, read bs = .ok r → r.2 = Utf8.encodeList w) :
    ofBody bs = .ok r ↔ read bs = .ok (r, Utf8.encodeList w) := by
  refine ⟨fun h => ?_, fun h => ofBody_of_read h hw⟩
  cases hread : read bs with
  | error failure =>
    rw [ofBody_of_error hread] at h
    cases h
  | ok pair =>
    have hpair : read bs = .ok (pair.1, Utf8.encodeList w) := by
      rw [hread, ← hr pair hread]
    rw [ofBody_of_read hpair hw] at h
    rw [← hread, hpair, ← Except.ok.inj h]

theorem read_blank (hw : Blank w) : read (Utf8.encodeList w ++ bs) = read bs := by
  rw [read, read, skipSpace_blank hw]

theorem read_element (hw : Blank w) :
    read (Utf8.encodeList (w ++ (cs ++ w'))) =
      read (Utf8.encodeList cs ++ Utf8.encodeList w') := by
  rw [Utf8.encodeList_append, Utf8.encodeList_append, read_blank hw]

theorem ofBody_element (h : Spells body (.element v)) :
    ofBody (Utf8.encodeList body) = .ok r ↔ Names v r.uml := by
  cases h with
  | @element w cs w' _ hw h hw' =>
    have hend : ∀ r, read (Utf8.encodeList (w ++ (cs ++ w'))) = .ok r →
        r.2 = Utf8.encodeList w' := by
      intro r hr
      rw [read_element hw, read_value h] at hr
      exact hr.2
    rw [ofBody_eq_ok_iff hw' hend, read_element hw, read_value h]
    simp

theorem ofBody_object (h : Spells body (.element (.object ms))) :
    ∃ rest result, Outcome none (textValues ms) rest result ∧
      ∀ failure, result = .error failure → ofBody (Utf8.encodeList body) = .error failure := by
  cases h with
  | @element w cs w' _ hw h hw' =>
    refine ⟨_, _, read_object h (Utf8.encodeList w'), fun failure hfailure => ?_⟩
    rw [← read_element hw] at hfailure
    exact ofBody_of_error hfailure

/-- A body is accepted just when the value that it spells names one text, and the failures for no
text and for too many tell which it was. -/
theorem accepted_iff_names_one_text (h : Spells body (.element v)) :
    (∀ r, ofBody (Utf8.encodeList body) = .ok r ↔ Names v r.uml) ∧
    (∀ ms, v = .object ms → textValues ms = [] →
      ∃ failure, ofBody (Utf8.encodeList body) = .error failure ∧
        failure.cause = .missingField "uml") ∧
    ∀ ms s v' vs, v = .object ms → textValues ms = .text s :: v' :: vs →
      ∃ failure, ofBody (Utf8.encodeList body) = .error failure ∧
        failure.cause = .duplicateField "uml" := by
  refine ⟨fun r => ofBody_element h, ?_, ?_⟩
  · rintro ms rfl hnone
    obtain ⟨rest, result, houtcome, hbody⟩ := ofBody_object h
    rw [hnone] at houtcome
    obtain ⟨failure, hfailure, hcause⟩ := houtcome
    exact ⟨failure, hbody failure hfailure, hcause⟩
  · rintro ms s v' vs rfl hmany
    obtain ⟨rest, result, houtcome, hbody⟩ := ofBody_object h
    rw [hmany] at houtcome
    obtain ⟨failure, hfailure, hcause⟩ := houtcome
    exact ⟨failure, hbody failure hfailure, hcause⟩

/-- An unknown member beside the text, and then a second text. -/
theorem text_beside_null_is_accepted :
    ofBody (Utf8.encodeList ['\x7b', '"', 'n', '"', ':', 'n', 'u', 'l', 'l', ',',
      '"', 'u', 'm', 'l', '"', ':', '"', 'a', '"', '\x7d']) = .ok ⟨"a"⟩ ∧
    ∃ failure, ofBody (Utf8.encodeList ['\x7b', '"', 'u', 'm', 'l', '"', ':', '"', 'a', '"', ',',
      '"', 'u', 'm', 'l', '"', ':', 'n', 'u', 'l', 'l', '\x7d']) = .error failure ∧
      failure.cause = .duplicateField "uml" := by
  have hnil : Blank [] := fun _ hc => absurd hc List.not_mem_nil
  have hplain : ∀ c ∈ ['n', 'u', 'm', 'l', 'a'], Piece [c] c := by
    intro c hc
    simp only [List.mem_cons, List.not_mem_nil, or_false] at hc
    obtain rfl | rfl | rfl | rfl | rfl := hc
    all_goals exact .raw (by decide) (by decide) (by decide)
  have hn : Denotes ['n'] "n".toList := .cons (hplain 'n' (by decide)) .nil
  have huml : Denotes ['u', 'm', 'l'] "uml".toList :=
    .cons (hplain 'u' (by decide)) (.cons (hplain 'm' (by decide))
      (.cons (hplain 'l' (by decide)) .nil))
  have ha : Denotes ['a'] "a".toList := .cons (hplain 'a' (by decide)) .nil
  have hnull := @Spells.element [] _ [] _ hnil .null hnil
  have htext := @Spells.element [] _ [] _ hnil (.text ha) hnil
  have hunknown := @Spells.member [] _ [] _ _ _ hnil hn hnil hnull
  have hknown := @Spells.member [] _ [] _ _ _ hnil huml hnil htext
  have hagain := @Spells.member [] _ [] _ _ _ hnil huml hnil hnull
  have haccepted := @Spells.element [] _ [] _ hnil
    (.object (.members hunknown (.lastMember hknown))) hnil
  have hrefused := @Spells.element [] _ [] _ hnil
    (.object (.members hknown (.lastMember hagain))) hnil
  exact ⟨((accepted_iff_names_one_text haccepted).1 ⟨"a"⟩).mpr (by simp [Names, textValues]),
    (accepted_iff_names_one_text hrefused).2.2 _ "a" .null [] rfl (by simp [textValues])⟩

end Bodies

end DiagramService.DiagramRequest
