import Mathlib
import DiagramService.Json.Value
import DiagramService.Proofs.Json.Spelling

/-! What a JSON text says. A text spells one value at most, because it can be cut in only one way
into literals, values and the white space around them. What is printed for a value spells that
value, so every reader that keeps to the grammar gets it back. -/

namespace DiagramService.Json

/-! ## Cutting a text -/

section Cut

variable {w w' u u' cs cs' lit lit' s s' t t' ds more more' : List Char} {v v' : Value} {c : Char}

/-- What may follow an element or a member: nothing, or a comma. -/
def Ends (more : List Char) : Prop :=
  ∀ c ∈ more.head?, c = ','

theorem ends_nil : Ends [] := by
  intro c hc
  cases hc

theorem ends_comma (cs : List Char) : Ends (',' :: cs) := by
  intro c hc
  exact (Option.some.inj hc).symm

theorem Ends.numberEnds (h : Ends more) : NumberEnds (Utf8.encodeList more) := by
  cases more with
  | nil => exact ⟨rfl, rfl, rfl⟩
  | cons c more =>
    obtain rfl := h c rfl
    rw [encodeList_cons_ascii (by decide)]
    exact numberEnds_comma

/-- Characters that do not start with white space. -/
def Solid (t : List Char) : Prop :=
  ∀ c ∈ t.head?, isSpace (byte c) = false

theorem solid_cons (h : isSpace (byte c) = false) : Solid (c :: t) := by
  intro x hx
  obtain rfl := Option.some.inj hx
  exact h

theorem Ends.solid (h : Ends more) : Solid more := by
  intro c hc
  rw [h c hc]
  rfl

theorem encodeList_injective (h : Utf8.encodeList cs = Utf8.encodeList cs') : cs = cs' := by
  have hread := Utf8.decodeOnto_encodeList [] cs
  rw [h, Utf8.decodeOnto_encodeList] at hread
  exact (Option.some.inj hread).symm

/-- White space ends at the first other character. -/
theorem Blank.cut (hw : Blank w) (hw' : Blank w') (ht : Solid t) (ht' : Solid t')
    (h : w ++ t = w' ++ t') : w = w' ∧ t = t' := by
  have hsolid : ∀ {c w}, Blank (c :: w) → ∀ cs, ¬ Solid (c :: cs) := by
    intro c w hw cs hsolid
    have hspace := (hw.ascii List.mem_cons_self).2
    rw [hsolid c rfl] at hspace
    cases hspace
  induction w generalizing w' with
  | nil =>
    cases w' with
    | nil => exact ⟨rfl, h⟩
    | cons c w' =>
      rw [List.nil_append] at h
      exact absurd (h ▸ ht) (hsolid hw' _)
  | cons c w ih =>
    cases w' with
    | nil =>
      rw [List.nil_append] at h
      exact absurd (h ▸ ht') (hsolid hw _)
    | cons c' w' =>
      rw [List.cons_append, List.cons_append] at h
      obtain ⟨rfl, htail⟩ := List.cons.inj h
      obtain ⟨rfl, rfl⟩ := ih (fun x hx => hw x (List.mem_cons_of_mem _ hx))
        (fun x hx => hw' x (List.mem_cons_of_mem _ hx)) htail
      exact ⟨rfl, rfl⟩

/-- A literal ends at its first quote that is not escaped, and denotes one text. -/
theorem Denotes.cut (h : Denotes lit s) (h' : Denotes lit' s')
    (heq : lit ++ '"' :: t = lit' ++ '"' :: t') : lit = lit' ∧ s = s' ∧ t = t' := by
  have hread : ∀ {lit s t : List Char}, Denotes lit s →
      readLiteral (Utf8.encodeList (lit ++ '"' :: t)) = .ok (String.ofList s, Utf8.encodeList t) :=
    fun h => readLiteral_eq_ok_iff.mpr ⟨_, by rwa [String.toList_ofList], by
      rw [Utf8.encodeList_append, encodeList_cons_ascii (by decide)]⟩
  have hboth := hread h (t := t)
  rw [heq, hread h'] at hboth
  simp only [Except.ok.injEq, Prod.mk.injEq, String.ofList_inj] at hboth
  obtain ⟨rfl, ht⟩ := hboth
  obtain rfl := encodeList_injective ht
  exact ⟨List.append_cancel_right heq, rfl, rfl⟩

/-- A value ends where skipping it stops. -/
theorem Spells.value_cut (h : Spells cs (.value v)) (h' : Spells cs' (.value v'))
    (hmore : NumberEnds (Utf8.encodeList more)) (hmore' : NumberEnds (Utf8.encodeList more'))
    (heq : cs ++ more = cs' ++ more') : cs = cs' ∧ more = more' := by
  have hskip : ∀ {cs v more}, Spells cs (.value v) → NumberEnds (Utf8.encodeList more) →
      skip [] .value (Utf8.encodeList (cs ++ more)) = .ok (Utf8.encodeList more) := by
    intro cs v more h hmore
    rw [Utf8.encodeList_append, h.skipped [] _ hmore, skip_done]
  have hboth := hskip h hmore
  rw [heq, hskip h' hmore'] at hboth
  obtain rfl := encodeList_injective (Except.ok.inj hboth)
  exact ⟨List.append_cancel_right heq, rfl⟩

theorem Spells.head_value (h : Spells cs (.value v)) : ∃ c ds, cs = c :: ds ∧ v.Opens c := by
  cases h with
  | null => exact ⟨_, _, rfl, rfl⟩
  | true => exact ⟨_, _, rfl, .inl rfl⟩
  | false => exact ⟨_, _, rfl, .inr rfl⟩
  | number h => exact h.first
  | text | emptyList | list | emptyObject | object => exact ⟨_, _, rfl, rfl⟩

theorem Spells.opens (h : Spells (c :: ds) (.value v)) : v.Opens c := by
  obtain ⟨c, ds, heq, hc⟩ := h.head_value
  cases heq
  exact hc

theorem Spells.solid (h : Spells cs (.value v)) (more : List Char) : Solid (cs ++ more) := by
  obtain ⟨c, ds, rfl, hopens⟩ := h.head_value
  have hplain : (Part.value v).Opens c := hopens
  exact solid_cons hplain.plain.2.1

/-- A value with white space around it is cut into these three. -/
theorem Spells.element_pieces (hw : Blank w) (h : Spells cs (.value v)) (hu : Blank u)
    (hw' : Blank w') (h' : Spells cs' (.value v')) (hu' : Blank u') (hmore : Ends more)
    (hmore' : Ends more') (heq : w ++ (cs ++ (u ++ more)) = w' ++ (cs' ++ (u' ++ more'))) :
    w = w' ∧ cs = cs' ∧ u = u' ∧ more = more' := by
  have hends : ∀ {u more}, Blank u → Ends more → NumberEnds (Utf8.encodeList (u ++ more)) := by
    intro u more hu hmore
    rw [Utf8.encodeList_append]
    exact hu.numberEnds hmore.numberEnds
  obtain ⟨rfl, hvalue⟩ := hw.cut hw' (h.solid _) (h'.solid _) heq
  obtain ⟨rfl, hrest⟩ := h.value_cut h' (hends hu hmore) (hends hu' hmore') hvalue
  obtain ⟨rfl, rfl⟩ := hu.cut hu' hmore.solid hmore'.solid hrest
  exact ⟨rfl, rfl, rfl, rfl⟩

theorem Spells.element_cut (h : Spells cs (.element v)) (h' : Spells cs' (.element v'))
    (hmore : Ends more) (hmore' : Ends more') (heq : cs ++ more = cs' ++ more') :
    cs = cs' ∧ more = more' := by
  cases h with
  | element hw h hu =>
  cases h' with
  | element hw' h' hu' =>
  simp only [List.append_assoc] at heq
  obtain ⟨rfl, rfl, rfl, rfl⟩ := element_pieces hw h hu hw' h' hu' hmore hmore' heq
  exact ⟨rfl, rfl⟩

/-- A member is cut at the end of its key, and after the colon. -/
theorem Spells.member_pieces (hw : Blank w) (hlit : Denotes lit s) (hu : Blank u)
    (h : Spells cs (.element v)) (hw' : Blank w') (hlit' : Denotes lit' s') (hu' : Blank u')
    (h' : Spells cs' (.element v')) (hmore : Ends more) (hmore' : Ends more')
    (heq : w ++ '"' :: (lit ++ '"' :: (u ++ ':' :: (cs ++ more))) =
      w' ++ '"' :: (lit' ++ '"' :: (u' ++ ':' :: (cs' ++ more')))) :
    w = w' ∧ lit = lit' ∧ s = s' ∧ u = u' ∧ cs = cs' ∧ more = more' := by
  obtain ⟨rfl, hquote⟩ := hw.cut hw' (solid_cons rfl) (solid_cons rfl) heq
  obtain ⟨rfl, rfl, hcolon⟩ := hlit.cut hlit' (List.cons.inj hquote).2
  obtain ⟨rfl, hvalue⟩ := hu.cut hu' (solid_cons rfl) (solid_cons rfl) hcolon
  obtain ⟨rfl, rfl⟩ := h.element_cut h' hmore hmore' (List.cons.inj hvalue).2
  exact ⟨rfl, rfl, rfl, rfl, rfl, rfl⟩

theorem Spells.member_cut {key key' : String} (h : Spells cs (.member key v))
    (h' : Spells cs' (.member key' v')) (hmore : Ends more) (hmore' : Ends more')
    (heq : cs ++ more = cs' ++ more') : cs = cs' ∧ more = more' := by
  cases h with
  | member hw hlit hu h =>
  cases h' with
  | member hw' hlit' hu' h' =>
  simp only [List.append_assoc, List.cons_append] at heq
  obtain ⟨rfl, rfl, -, rfl, rfl, rfl⟩ :=
    member_pieces hw hlit hu h hw' hlit' hu' h' hmore hmore' heq
  exact ⟨rfl, rfl⟩

end Cut

/-! ## One value at most -/

section Only

variable {cs more : List Char} {v : Value} {c : Char} {vs : List Value}
  {ms : List (String × Value)}

/-- That a text of a part spells no other part of its kind. -/
def Only (cs : List Char) : Part → Prop
  | .value v => ∀ v', Spells cs (.value v') → v' = v
  | .element v => ∀ v', Spells cs (.element v') → v' = v
  | .member key v => ∀ key' v', Spells cs (.member key' v') → key' = key ∧ v' = v
  | .items vs => ∀ vs', Spells cs (.items vs') → vs' = vs
  | .members ms => ∀ ms', Spells cs (.members ms') → ms' = ms

/-- The first letter of a word and the first character of a number tell the kind of value. -/
theorem Value.Opens.scalar (h : v.Opens c) : (c = 'n' → v = .null) ∧
    (c = 't' ∨ c = 'f' → ∃ b, v = .bool b) ∧ (c = '-' ∨ c.isDigit → ∃ ds, v = .number ds) := by
  cases v with
  | null =>
    obtain rfl : c = _ := h
    simp
  | bool b =>
    refine ⟨?_, fun _ => ⟨b, rfl⟩, ?_⟩ <;> obtain rfl | rfl := h <;> simp
  | number ds =>
    refine ⟨?_, ?_, fun _ => ⟨ds, rfl⟩⟩
    · rintro rfl
      simp [Value.Opens] at h
    · rintro (rfl | rfl) <;> simp [Value.Opens] at h
  | text | list | object =>
    obtain rfl : c = _ := h
    simp

/-- Between the brackets of an empty list or object there is no item and no member. -/
theorem Spells.not_blank {part : Part} (h : Spells cs part) (hblank : Blank cs) : False := by
  obtain ⟨w, c, ds, rfl, -, hc⟩ := h.first
  have hspace := (hblank.ascii (c := c) (by simp)).2
  rw [hc.plain.2.1] at hspace
  cases hspace

/-! ## By the first character -/

theorem Spells.eq_true (h : Spells ['t', 'r', 'u', 'e'] (.value v)) : v = .bool Bool.true := by
  obtain ⟨b, rfl⟩ := h.opens.scalar.2.1 (.inl rfl)
  generalize hcs : ['t', 'r', 'u', 'e'] = cs at h
  cases h with
  | true => rfl
  | false => cases hcs

theorem Spells.eq_false (h : Spells ['f', 'a', 'l', 's', 'e'] (.value v)) :
    v = .bool Bool.false := by
  obtain ⟨b, rfl⟩ := h.opens.scalar.2.1 (.inr rfl)
  generalize hcs : ['f', 'a', 'l', 's', 'e'] = cs at h
  cases h with
  | true => cases hcs
  | false => rfl

theorem Spells.eq_number (h : Spells cs (.value v)) (hnumber : NumberText cs) : v = .number cs := by
  obtain ⟨c, ds, hcs, hc⟩ := hnumber.first
  obtain ⟨ds', rfl⟩ := (hcs ▸ h).opens.scalar.2.2 hc
  cases h with
  | number => rfl

theorem Spells.eq_text {lit : List Char} {s : String}
    (h : Spells ('"' :: (lit ++ ['"'])) (.value v)) (hlit : Denotes lit s.toList) :
    v = .text s := by
  obtain ⟨s', rfl⟩ := h.opens.kind.1 rfl
  generalize hcs : '"' :: _ = cs at h
  cases h with
  | text h =>
    obtain ⟨-, hs, -⟩ := hlit.cut h (List.cons.inj hcs).2
    exact congrArg _ (String.toList_inj.mp hs).symm

/-- The brackets of a list have items between them, or nothing but white space. -/
theorem Spells.list_cases (h : Spells ('[' :: (cs ++ [']'])) (.value v)) :
    Blank cs ∧ v = .list [] ∨ ∃ vs, Spells cs (.items vs) ∧ v = .list vs := by
  obtain ⟨vs, rfl⟩ := h.opens.kind.2.1 rfl
  generalize hcs : '[' :: _ = ds at h
  cases h with
  | emptyList hw =>
    obtain rfl := List.append_cancel_right (List.cons.inj hcs).2
    exact .inl ⟨hw, rfl⟩
  | list h =>
    obtain rfl := List.append_cancel_right (List.cons.inj hcs).2
    exact .inr ⟨vs, h, rfl⟩

theorem Spells.object_cases (h : Spells ('\x7b' :: (cs ++ ['\x7d'])) (.value v)) :
    Blank cs ∧ v = .object [] ∨ ∃ ms, Spells cs (.members ms) ∧ v = .object ms := by
  obtain ⟨ms, rfl⟩ := h.opens.kind.2.2 rfl
  generalize hcs : '\x7b' :: _ = ds at h
  cases h with
  | emptyObject hw =>
    obtain rfl := List.append_cancel_right (List.cons.inj hcs).2
    exact .inl ⟨hw, rfl⟩
  | object h =>
    obtain rfl := List.append_cancel_right (List.cons.inj hcs).2
    exact .inr ⟨ms, h, rfl⟩

/-! ## By the first item or member -/

/-- What begins with the text of an element spells items of which that text is the first. -/
theorem Spells.items_after (h : Spells cs (.element v)) (hmore : Ends more)
    (h' : Spells (cs ++ more) (.items vs)) : ∃ v' vs', vs = v' :: vs' ∧ Spells cs (.element v') ∧
      (more = [] ∧ vs' = [] ∨ ∃ rest, more = ',' :: rest ∧ Spells rest (.items vs')) := by
  generalize hcs : cs ++ more = ds at h'
  cases h' with
  | item h' =>
    obtain ⟨rfl, rfl⟩ := h.element_cut h' hmore ends_nil (by simpa using hcs)
    exact ⟨_, [], rfl, h', .inl ⟨rfl, rfl⟩⟩
  | items h' hrest =>
    obtain ⟨rfl, rfl⟩ := h.element_cut h' hmore (ends_comma _) hcs
    exact ⟨_, _, rfl, h', .inr ⟨_, rfl, hrest⟩⟩

theorem Spells.members_after {key : String} (h : Spells cs (.member key v)) (hmore : Ends more)
    (h' : Spells (cs ++ more) (.members ms)) :
    ∃ key' v' ms', ms = (key', v') :: ms' ∧ Spells cs (.member key' v') ∧
      (more = [] ∧ ms' = [] ∨ ∃ rest, more = ',' :: rest ∧ Spells rest (.members ms')) := by
  generalize hcs : cs ++ more = ds at h'
  cases h' with
  | lastMember h' =>
    obtain ⟨rfl, rfl⟩ := h.member_cut h' hmore ends_nil (by simpa using hcs)
    exact ⟨_, _, [], rfl, h', .inl ⟨rfl, rfl⟩⟩
  | members h' hrest =>
    obtain ⟨rfl, rfl⟩ := h.member_cut h' hmore (ends_comma _) hcs
    exact ⟨_, _, _, rfl, h', .inr ⟨_, rfl, hrest⟩⟩

/-- A text spells one value at most. -/
theorem Spells.only {part : Part} (h : Spells cs part) : Only cs part := by
  induction h with
  | null => exact fun v' h' => h'.opens.scalar.1 rfl
  | true => exact fun v' h' => h'.eq_true
  | false => exact fun v' h' => h'.eq_false
  | number hnumber => exact fun v' h' => h'.eq_number hnumber
  | text hlit => exact fun v' h' => h'.eq_text hlit
  | emptyList hw =>
    intro v' h'
    obtain ⟨-, rfl⟩ | ⟨vs', hitems, -⟩ := h'.list_cases
    · rfl
    · exact (hitems.not_blank hw).elim
  | list h ih =>
    intro v' h'
    obtain ⟨hw, -⟩ | ⟨vs', hitems, rfl⟩ := h'.list_cases
    · exact (h.not_blank hw).elim
    · rw [ih _ hitems]
  | emptyObject hw =>
    intro v' h'
    obtain ⟨-, rfl⟩ | ⟨ms', hmembers, -⟩ := h'.object_cases
    · rfl
    · exact (hmembers.not_blank hw).elim
  | object h ih =>
    intro v' h'
    obtain ⟨hw, -⟩ | ⟨ms', hmembers, rfl⟩ := h'.object_cases
    · exact (h.not_blank hw).elim
    · rw [ih _ hmembers]
  | @element w ds u v hw h hu ih =>
    intro v' h'
    generalize hcs : w ++ (ds ++ u) = cs at h'
    cases h' with
    | element hw' h' hu' =>
      obtain ⟨-, rfl, -, -⟩ :=
        element_pieces hw h hu hw' h' hu' ends_nil ends_nil (by simpa using hcs)
      exact ih _ h'
  | member hw hlit hu h ih =>
    intro key' v' h'
    generalize hcs : _ ++ '"' :: _ = cs at h'
    cases h' with
    | member hw' hlit' hu' h' =>
      obtain ⟨-, -, hkey, -, rfl, -⟩ :=
        member_pieces hw hlit hu h hw' hlit' hu' h' ends_nil ends_nil (by simpa using hcs)
      exact ⟨(String.toList_inj.mp hkey).symm, ih _ h'⟩
  | item h ih =>
    intro vs' h'
    obtain ⟨v', vs', rfl, hv', ⟨-, rfl⟩ | ⟨rest, hrest, -⟩⟩ :=
      h.items_after ends_nil (by simpa using h')
    · rw [ih _ hv']
    · cases hrest
  | items h hrest ih ihrest =>
    intro vs' h'
    obtain ⟨v', vs', rfl, hv', ⟨hnil, -⟩ | ⟨rest, heq, hrest'⟩⟩ := h.items_after (ends_comma _) h'
    · cases hnil
    · cases heq
      rw [ih _ hv', ihrest _ hrest']
  | lastMember h ih =>
    intro ms' h'
    obtain ⟨key', v', ms', rfl, hv', ⟨-, rfl⟩ | ⟨rest, hrest, -⟩⟩ :=
      h.members_after ends_nil (by simpa using h')
    · obtain ⟨rfl, rfl⟩ := ih _ _ hv'
      rfl
    · cases hrest
  | members h hrest ih ihrest =>
    intro ms' h'
    obtain ⟨key', v', ms', rfl, hv', ⟨hnil, -⟩ | ⟨rest, heq, hrest'⟩⟩ :=
      h.members_after (ends_comma _) h'
    · cases hnil
    · cases heq
      obtain ⟨rfl, rfl⟩ := ih _ _ hv'
      rw [ihrest _ hrest']

end Only

/-! ## What is printed -/

mutual

/-- What is printed for a value: its integers stand as they are written. -/
def shown : Json → Value
  | .null => .null
  | .bool b => .bool b
  | .int i => .number (Text.ofInt i)
  | .text s => .text s
  | .list items => .list (shownItems items)
  | .object members => .object (shownMembers members)

def shownItems : List Json → List Value
  | [] => []
  | item :: items => item.shown :: shownItems items

def shownMembers : List (String × Json) → List (String × Value)
  | [] => []
  | (key, value) :: members => (key, value.shown) :: shownMembers members

end

theorem blank_nil : Blank [] :=
  fun _ hc => absurd hc List.not_mem_nil

theorem unsigned_ofNat (n : Nat) : Unsigned (Text.ofNat n) := by
  have hwhole : Whole (Text.ofNat n) := by
    obtain rfl | hn := Nat.eq_zero_or_pos n
    · exact .inl rfl
    · exact .inr ⟨⟨Nat.toDigits_ne_nil, fun c hc => Text.isDigit_of_mem_ofNat hc⟩,
        Text.head?_ofNat (Nat.ne_of_gt hn)⟩
  exact ⟨_, [], [], hwhole, .inl rfl, .inl rfl, by simp⟩

theorem numberText_ofInt (i : Int) : NumberText (Text.ofInt i) := by
  cases i with
  | ofNat n => exact .inl (unsigned_ofNat n)
  | negSucc n => exact .inr ⟨_, unsigned_ofNat (n + 1), rfl⟩

theorem spells_literal (s : String) : Spells (literal s) (.value (.text s)) :=
  .text (denotes_escaped s.toList)

theorem Spells.printed {cs : List Char} {v : Value} (h : Spells cs (.value v)) :
    Spells cs (.element v) := by
  simpa using Spells.element blank_nil h blank_nil

/-- A member is printed without white space. -/
theorem spells_member (key : String) {cs : List Char} {v : Value} (h : Spells cs (.value v)) :
    Spells (literal key ++ ':' :: cs) (.member key v) := by
  simpa [literal] using Spells.member blank_nil (denotes_escaped key.toList) blank_nil h.printed

mutual

theorem spells_print : (value : Json) → Spells value.print (.value value.shown)
  | .null => .null
  | .bool true => .true
  | .bool false => .false
  | .int i => .number (numberText_ofInt i)
  | .text s => spells_literal s
  | .list items => by
    obtain rfl | hne := eq_or_ne items []
    · exact .emptyList blank_nil
    · obtain ⟨inner, hinner, h⟩ := spells_printItems items hne
      rw [print, hinner]
      exact .list h
  | .object members => by
    obtain rfl | hne := eq_or_ne members []
    · exact .emptyObject blank_nil
    · obtain ⟨inner, hinner, h⟩ := spells_printMembers members hne
      rw [print, hinner]
      exact .object h

theorem spells_printItems : (items : List Json) → items ≠ [] → ∃ inner,
    printItems items = inner ++ [']'] ∧ Spells inner (.items (shownItems items))
  | [], hne => absurd rfl hne
  | [item], _ => ⟨_, rfl, .item (spells_print item).printed⟩
  | item :: next :: items, _ => by
    obtain ⟨inner, hinner, h⟩ := spells_printItems (next :: items) (List.cons_ne_nil _ _)
    exact ⟨item.print ++ ',' :: inner, by simp [printItems, hinner],
      .items (spells_print item).printed h⟩

theorem spells_printMembers : (members : List (String × Json)) → members ≠ [] → ∃ inner,
    printMembers members = inner ++ ['\x7d'] ∧ Spells inner (.members (shownMembers members))
  | [], hne => absurd rfl hne
  | [(key, value)], _ => ⟨literal key ++ ':' :: value.print, by simp [printMembers],
      .lastMember (spells_member key (spells_print value))⟩
  | (key, value) :: next :: members, _ => by
    obtain ⟨inner, hinner, h⟩ := spells_printMembers (next :: members) (List.cons_ne_nil _ _)
    exact ⟨literal key ++ ':' :: value.print ++ ',' :: inner, by simp [printMembers, hinner],
      .members (spells_member key (spells_print value)) h⟩

end

/-- Bytes that are the text of one value, and of no other one. -/
def Says (body : Bytes) (v : Value) : Prop :=
  ∃ text, body = Utf8.encodeList text ∧ ∀ v', Spells text (.element v') ↔ v' = v

/-- What is printed for a value can be read in no other way. -/
theorem says_encode (value : Json) : Says value.encode value.shown := by
  refine ⟨value.print, rfl, fun v' => ⟨(spells_print value).printed.only v', ?_⟩⟩
  rintro rfl
  exact (spells_print value).printed

end DiagramService.Json
