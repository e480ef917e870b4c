import DiagramService.Proofs.Diagram.IdSource

/-! The ids that one source issues for a sequence of clock values. If the clock stays far enough
from the greatest number, no number overflows, and each id is known in closed form from what the
clock has shown until then. -/

namespace DiagramService

namespace IdSource

/-- A source after it was asked for a sequence of clock values. -/
def after (source : IdSource) (nows : List Int64) : IdSource :=
  nows.foldl (fun source now => (source.next now).2) source

/-- What the clock shows when an id is issued, by the number of ids before it. -/
def shown (nows : List Int64) (k : Nat) : Int :=
  (nows.getD k 0).toInt

/-- There are great enough numbers for all ids of a sequence of clock values. -/
structure Roomy (nows : List Int64) : Prop where
  count : nows.length < 2 ^ 63
  clock : ∀ now ∈ nows, now.toInt ≤ 2 ^ 63 - 1 - nows.length

/-! ## One id after another -/

section Issue

variable (source : IdSource) (nows : List Int64)

theorem after_concat (now : Int64) :
    source.after (nows ++ [now]) = ((source.after nows).next now).2 := by
  simp [after]

theorem issue_length : (source.issue nows).length = nows.length := by
  induction nows generalizing source with
  | nil => rfl
  | cons now nows ih => simp [issue, ih]

theorem issue_concat (now : Int64) :
    source.issue (nows ++ [now]) = source.issue nows ++ [((source.after nows).next now).1] := by
  induction nows generalizing source with
  | nil => rfl
  | cons first nows ih =>
    rw [List.cons_append, issue, ih]
    rfl

/-- An id is issued by the source that has issued those before it. -/
theorem issue_getElem? {k : Nat} {now : Int64} (h : nows[k]? = some now) :
    (source.issue nows)[k]? = some ((source.after (nows.take k)).next now).1 := by
  induction nows generalizing source k with
  | nil => cases h
  | cons first nows ih =>
    cases k with
    | zero =>
      cases h
      rfl
    | succ k => exact ih (source.next first).2 h

end Issue

/-! ## Numbers that do not overflow -/

section Numbers

variable {source : IdSource} {nows : List Int64} {k : Nat}

theorem shown_eq {now : Int64} (h : nows[k]? = some now) : shown nows k = now.toInt := by
  rw [shown, List.getD_eq_getElem?_getD, h]
  rfl

/-- While no number overflows, the last id of a source is the number for the clock. -/
theorem last_after (hk : k ≤ nows.length)
    (hfits : ∀ j ≤ k, source.number (shown nows) j < 2 ^ 63) :
    (source.after (nows.take k)).last.toInt = source.number (shown nows) k := by
  induction k with
  | zero => rfl
  | succ k ih =>
    have hnow := List.getElem?_eq_getElem hk
    have hlast := ih (Nat.le_of_succ_le hk) fun j hj => hfits j (Nat.le_succ_of_le hj)
    have hnext := hfits (k + 1) (Nat.le_refl _)
    rw [number] at hnext ⊢
    rw [List.take_add_one, hnow, Option.toList_some, after_concat]
    show ((source.after (nows.take k)).candidate _).toInt = _
    rw [candidate_toInt _ _ (by omega), hlast, shown_eq hnow]

/-- A fresh source has room for the ids of a sequence. -/
theorem Roomy.number_le (h : Roomy nows) (hk : k ≤ nows.length) :
    fresh.number (shown nows) k ≤ k ∨ fresh.number (shown nows) k ≤ 2 ^ 63 - 2 := by
  obtain ⟨hfirst | ⟨j, hj, hshown⟩, -⟩ := fresh.number_isGreatest (shown nows) k
  · have hzero : fresh.last.toInt = 0 := rfl
    omega
  · have hnow := List.getElem?_eq_getElem (Nat.lt_of_lt_of_le hj hk)
    have hclock := h.clock _ (List.mem_of_getElem? hnow)
    rw [← shown_eq hnow] at hclock
    omega

theorem Roomy.number_lt (h : Roomy nows) (hk : k ≤ nows.length) :
    fresh.number (shown nows) k < 2 ^ 63 := by
  have hcount := h.count
  obtain hle | hle := h.number_le hk <;> omega

theorem Roomy.last_after (h : Roomy nows) (hk : k ≤ nows.length) :
    (fresh.after (nows.take k)).last.toInt = fresh.number (shown nows) k :=
  IdSource.last_after hk fun _ hj => h.number_lt (Nat.le_trans hj hk)

/-- As long as there are ids to issue the number after the last one does not overflow. -/
theorem Roomy.next_fits (h : Roomy nows) (hk : k < nows.length) :
    ((fresh.after (nows.take k)).last + 1).toInt = (fresh.after (nows.take k)).last.toInt + 1 := by
  have hcount := h.count
  apply toInt_add_one
  rw [h.last_after (Nat.le_of_lt hk)]
  obtain hle | hle := h.number_le (Nat.le_of_lt hk) <;> omega

/-- The ids of a sequence are its numbers. -/
theorem Roomy.value (h : Roomy nows) {id : DiagramId} (hid : (fresh.issue nows)[k]? = some id) :
    id.value.toInt = fresh.number (shown nows) (k + 1) := by
  have hk : k < nows.length := by
    rw [← issue_length fresh nows]
    exact (List.getElem?_eq_some_iff.mp hid).1
  have hnow := List.getElem?_eq_getElem hk
  rw [issue_getElem? fresh nows hnow] at hid
  rw [← h.last_after hk, List.take_add_one, hnow, Option.toList_some, after_concat]
  cases hid
  rfl

/-- The ids of a sequence increase. -/
theorem Roomy.increasing (h : Roomy nows) :
    (fresh.issue nows).Pairwise fun earlier later => earlier.value < later.value := by
  rw [List.pairwise_iff_getElem]
  intro i j hi hj hlt
  rw [Int64.lt_iff_toInt_lt, h.value (List.getElem?_eq_getElem hi),
    h.value (List.getElem?_eq_getElem hj)]
  exact fresh.number_lt (Nat.succ_lt_succ hlt)

end Numbers

/-- A fresh source that is asked for a sequence of clock values, which leave room for as many ids,
never comes to a number that overflows. Each id is the greatest of its position, counted from one,
and of the clock values until then, each moved on by the ids issued after it. So the ids increase,
and each is the least number that is not below the clock, positive, and greater than the ids before
it. -/
theorem issue_closed_form (nows : List Int64) (hcount : nows.length < 2 ^ 63)
    (hclock : ∀ now ∈ nows, now.toInt ≤ 2 ^ 63 - 1 - nows.length) :
    (fresh.issue nows).length = nows.length ∧
    (fresh.issue nows).Pairwise (fun earlier later => earlier.value < later.value) ∧
    ∀ k now id, nows[k]? = some now → (fresh.issue nows)[k]? = some id →
      ((fresh.after (nows.take k)).last + 1).toInt =
        (fresh.after (nows.take k)).last.toInt + 1 ∧
      IsGreatest {x : Int | x = k + 1 ∨
          ∃ (j : Nat) (earlier : Int64), j ≤ k ∧ nows[j]? = some earlier ∧
            x = earlier.toInt + (k - j)}
        id.value.toInt ∧
      IsLeast {x : Int | now.toInt ≤ x ∧ 1 ≤ x ∧
          ∀ j < k, ∀ earlier, (fresh.issue nows)[j]? = some earlier → earlier.value.toInt < x}
        id.value.toInt := by
  have hroomy : Roomy nows := ⟨hcount, hclock⟩
  refine ⟨issue_length fresh nows, hroomy.increasing, fun k now id hnow hid => ?_⟩
  have hk : k < nows.length := (List.getElem?_eq_some_iff.mp hnow).1
  have hnumber : fresh.number (shown nows) (k + 1) =
      max now.toInt (fresh.number (shown nows) k + 1) := by
    rw [number, shown_eq hnow]
  have hzero : fresh.last.toInt = 0 := rfl
  have hpositive : (k : Int) + 1 ≤ fresh.number (shown nows) (k + 1) :=
    (fresh.number_isGreatest (shown nows) (k + 1)).2 (.inl (by omega))
  rw [hroomy.value hid]
  refine ⟨hroomy.next_fits hk, ?_, ⟨by omega, by omega, fun j hj earlier hearlier => ?_⟩, ?_⟩
  · -- the set is that of the numbers, written with the clock values themselves
    convert fresh.number_isGreatest (shown nows) (k + 1) using 1
    ext x
    constructor
    · rintro (rfl | ⟨j, earlier, hj, hearlier, rfl⟩)
      · exact .inl (by omega)
      · exact .inr ⟨j, Nat.lt_succ_of_le hj, by rw [shown_eq hearlier]; omega⟩
    · rintro (hx | ⟨j, hj, hx⟩)
      · exact .inl (by omega)
      · have hearlier := List.getElem?_eq_getElem (Nat.lt_of_lt_of_le hj hk)
        rw [shown_eq hearlier] at hx
        exact .inr ⟨j, _, Nat.le_of_lt_succ hj, hearlier, by omega⟩
  · rw [hroomy.value hearlier]
    exact fresh.number_lt (Nat.succ_lt_succ hj)
  · rintro x ⟨hnow_le, hone, hgreater⟩
    rw [hnumber]
    refine Int.max_le.mpr ⟨hnow_le, ?_⟩
    cases k with
    | zero => exact hone
    | succ k =>
      have hprevious := List.getElem?_eq_getElem (l := fresh.issue nows) (i := k)
        (by rw [issue_length]; omega)
      have hlt := hgreater k (Nat.lt_succ_self k) _ hprevious
      rwa [hroomy.value hprevious] at hlt

/-- A clock that starts as late as it may for four ids, stands still and steps back twice. -/
def lateClock : List Int64 :=
  [9223372036854775803, 9223372036854775803, 12, -5]

/-- The last id is the greatest number but one. -/
theorem lateClock_ids :
    fresh.issue lateClock = [⟨9223372036854775803⟩, ⟨9223372036854775804⟩, ⟨9223372036854775805⟩,
      ⟨9223372036854775806⟩] ∧
    IsGreatest {x : Int | x = 4 ∨
        ∃ (j : Nat) (earlier : Int64), j ≤ 3 ∧ lateClock[j]? = some earlier ∧
          x = earlier.toInt + (3 - j)}
      9223372036854775806 := by
  obtain ⟨-, -, hids⟩ := issue_closed_form lateClock (by decide) (by simp [lateClock])
  obtain ⟨-, hgreatest, -⟩ := hids 3 (-5) ⟨9223372036854775806⟩ (by decide) (by decide)
  exact ⟨by decide, hgreatest⟩

end IdSource

end DiagramService
