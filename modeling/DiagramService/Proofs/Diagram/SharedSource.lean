import Mathlib.Data.List.Nodup
import Mathlib.Logic.Relation
import DiagramService.Diagram.Caller
import DiagramService.Proofs.Diagram.IssuedIds

/-! One source of ids that is shared by callers. They take their steps in any order, and may be told
numbers that are not the last one any more. As a number is only put in the place of the one that it
was made up from, the callers get the ids that they would get if they asked one after another, in
the order of their exchanges. -/

namespace DiagramService

/-- A source with its callers. Each caller asks once. -/
structure SharedSource where
  source : IdSource
  /-- All numbers that have been the last one so far. -/
  held : List Int64
  callers : Nat → Caller
  /-- The callers whose exchange was made, the first one first. -/
  served : List Nat

namespace SharedSource

/-- A fresh source that nobody has asked yet. -/
def start : SharedSource :=
  ⟨.fresh, [IdSource.fresh.last], fun _ => .look, []⟩

/-- A caller is told a number. -/
def tell (s : SharedSource) (n : Nat) (value : Int64) : SharedSource :=
  { s with callers := Function.update s.callers n ((s.callers n).told value) }

/-- A caller exchanges the last number for another. -/
def exchange (s : SharedSource) (n : Nat) (value now : Int64) : SharedSource where
  source := ⟨value⟩
  held := value :: s.held
  callers := Function.update s.callers n ((s.callers n).exchanged now)
  served := s.served ++ [n]

/-- One step of a caller. What a caller is told may be out of date, and an exchange may be refused
also if nothing has changed. -/
inductive Step (clock : Nat → Int64) : SharedSource → SharedSource → Prop
  | look (s : SharedSource) (n value) (hn : s.callers n = .look) (hvalue : value ∈ s.held) :
    Step clock s (s.tell n value)
  | refuse (s : SharedSource) (n seen value) (hn : s.callers n = .exchange seen)
      (hvalue : value ∈ s.held) : Step clock s (s.tell n value)
  | exchange (s : SharedSource) (n seen) (hn : s.callers n = .exchange seen)
      (hseen : s.source.last = seen) :
    Step clock s (s.exchange n (Caller.offer seen (clock n)) (clock n))

/-- Any number of steps. -/
abbrev Run (clock : Nat → Int64) : SharedSource → SharedSource → Prop :=
  Relation.ReflTransGen (Step clock)

/-- What was issued so far is what the source would have issued to one caller after another. -/
structure InTurn (clock : Nat → Int64) (s : SharedSource) : Prop where
  source : s.source = IdSource.fresh.after (s.served.map clock)
  ids : s.served.map s.callers =
    (IdSource.fresh.issue (s.served.map clock)).map Caller.answered
  nodup : s.served.Nodup
  answered : ∀ n, n ∈ s.served ↔ ∃ id, s.callers n = .answered id
  held : ∀ value ∈ s.held,
    value = 0 ∨ ⟨value⟩ ∈ IdSource.fresh.issue (s.served.map clock)
  seen : ∀ n value, s.callers n = .exchange value → value ∈ s.held

theorem inTurn_start (clock : Nat → Int64) : InTurn clock start where
  source := rfl
  ids := rfl
  nodup := List.nodup_nil
  answered n := by simp [start]
  held value h := .inl (by simpa [start, IdSource.fresh] using h)
  seen n value h := by simp [start] at h

section Step

variable {clock : Nat → Int64} {s s' : SharedSource} {n : Nat}

/-- The callers that are served do not see what becomes of another one. -/
theorem map_update (hn : n ∉ s.served) (caller : Caller) :
    s.served.map (Function.update s.callers n caller) = s.served.map s.callers := by
  apply List.map_congr_left
  intro m hm
  apply Function.update_of_ne
  rintro rfl
  exact hn hm

theorem InTurn.not_served (h : InTurn clock s) (hn : ∀ id, s.callers n ≠ .answered id) :
    n ∉ s.served := by
  intro hserved
  obtain ⟨id, hid⟩ := (h.answered n).mp hserved
  exact hn id hid

/-- To be told a number changes nothing for the others. -/
theorem InTurn.tell (h : InTurn clock s) (hn : ∀ id, s.callers n ≠ .answered id) {value : Int64}
    (hvalue : value ∈ s.held) : InTurn clock (s.tell n value) := by
  have hserved := h.not_served hn
  have htold : (s.callers n).told value = .exchange value := by
    cases hcaller : s.callers n with
    | answered id => exact absurd hcaller (hn id)
    | _ => rfl
  refine ⟨h.source, (map_update hserved _).trans h.ids, h.nodup, fun m => ?_, h.held,
    fun m seen hm => ?_⟩
  · show m ∈ s.served ↔ ∃ id, Function.update s.callers n _ m = .answered id
    by_cases hmn : m = n
    · subst hmn
      simp [hserved, htold]
    · rw [Function.update_of_ne hmn]
      exact h.answered m
  · change Function.update s.callers n _ m = .exchange seen at hm
    by_cases hmn : m = n
    · subst hmn
      rw [Function.update_self, htold] at hm
      cases hm
      exact hvalue
    · rw [Function.update_of_ne hmn] at hm
      exact h.seen m seen hm

/-- An exchange issues the next id, as the number that it replaces is the one that was seen. -/
theorem InTurn.exchange (h : InTurn clock s) (hn : s.callers n = .exchange s.source.last) :
    InTurn clock (s.exchange n (Caller.offer s.source.last (clock n)) (clock n)) := by
  have hserved : n ∉ s.served := h.not_served fun id hid => by rw [hn] at hid; cases hid
  have hnext : (s.callers n).exchanged (clock n) =
      .answered ((IdSource.fresh.after (s.served.map clock)).next (clock n)).1 := by
    rw [hn, ← h.source]
    rfl
  have hissue : IdSource.fresh.issue ((s.served ++ [n]).map clock) =
      IdSource.fresh.issue (s.served.map clock) ++
        [((IdSource.fresh.after (s.served.map clock)).next (clock n)).1] := by
    rw [List.map_append, List.map_singleton, IdSource.issue_concat]
  constructor
  · show (⟨_⟩ : IdSource) = IdSource.fresh.after ((s.served ++ [n]).map clock)
    rw [List.map_append, List.map_singleton, IdSource.after_concat, ← h.source]
    rfl
  · show (s.served ++ [n]).map (Function.update s.callers n _) = _
    rw [show (s.exchange n _ (clock n)).served = s.served ++ [n] from rfl, hissue, List.map_append,
      map_update hserved, h.ids, hnext]
    simp
  · show (s.served ++ [n]).Nodup
    rw [← List.concat_eq_append]
    exact h.nodup.concat hserved
  · intro m
    show m ∈ s.served ++ [n] ↔ ∃ id, Function.update s.callers n _ m = .answered id
    by_cases hmn : m = n
    · subst hmn
      simp [hnext]
    · rw [Function.update_of_ne hmn, ← h.answered m]
      simp [hmn]
  · intro value hvalue
    rw [show (s.exchange n _ (clock n)).served = s.served ++ [n] from rfl, hissue]
    obtain rfl | hvalue := List.mem_cons.mp hvalue
    · right
      rw [← h.source]
      exact List.mem_append_right _ (List.mem_singleton_self _)
    · obtain hzero | hid := h.held value hvalue
      · exact .inl hzero
      · exact .inr (List.mem_append_left _ hid)
  · intro m seen hm
    change Function.update s.callers n _ m = .exchange seen at hm
    by_cases hmn : m = n
    · subst hmn
      rw [Function.update_self, hnext] at hm
      cases hm
    · rw [Function.update_of_ne hmn] at hm
      exact List.mem_cons_of_mem _ (h.seen m seen hm)

theorem InTurn.step (h : InTurn clock s) (hstep : Step clock s s') : InTurn clock s' := by
  cases hstep with
  | look n value hn hvalue =>
    exact h.tell (fun id hid => by rw [hn] at hid; cases hid) hvalue
  | refuse n seen value hn hvalue =>
    exact h.tell (fun id hid => by rw [hn] at hid; cases hid) hvalue
  | exchange n seen hn hseen =>
    subst hseen
    exact h.exchange hn

theorem InTurn.run (h : InTurn clock s) (hrun : Run clock s s') : InTurn clock s' := by
  induction hrun with
  | refl => exact h
  | tail _ hstep ih => exact ih.step hstep

end Step

section Answers

variable {clock : Nat → Int64} {s : SharedSource}

/-- If the ids increase no two callers get the same one. -/
theorem InTurn.injective (h : InTurn clock s) (hroomy : IdSource.Roomy (s.served.map clock))
    {m n : Nat} {id : DiagramId} (hm : s.callers m = .answered id)
    (hn : s.callers n = .answered id) : m = n := by
  have hids : (IdSource.fresh.issue (s.served.map clock)).Nodup := by
    refine hroomy.increasing.imp ?_
    rintro id _ hlt rfl
    exact Int64.lt_irrefl hlt
  have hnodup : (s.served.map s.callers).Nodup := by
    rw [h.ids]
    exact hids.map fun _ _ => Caller.answered.inj
  exact List.inj_on_of_nodup_map hnodup ((h.answered m).mpr ⟨id, hm⟩)
    ((h.answered n).mpr ⟨id, hn⟩) (hm.trans hn.symm)

/-- The number after one that was seen does not overflow. -/
theorem InTurn.seen_fits (h : InTurn clock s) (hroomy : IdSource.Roomy (s.served.map clock))
    (hcount : s.served.length < 2 ^ 63 - 1) {n : Nat} {seen : Int64}
    (hn : s.callers n = .exchange seen) : (seen + 1).toInt = seen.toInt + 1 := by
  apply IdSource.toInt_add_one
  obtain rfl | hid := h.held seen (h.seen n seen hn)
  · decide
  · obtain ⟨k, hk⟩ := List.mem_iff_getElem?.mp hid
    have hlt : k < s.served.length := by
      have := (List.getElem?_eq_some_iff.mp hk).1
      rwa [IdSource.issue_length, List.length_map] at this
    have hvalue := hroomy.value hk
    have hle := hroomy.number_le (k := k + 1) (by rwa [List.length_map])
    rw [hvalue]
    omega

end Answers

end SharedSource

/-- Callers share one source that is fresh at first, take their steps in any order, and may be told
any number that has been the last one. Those that have got an id have got the ids that a source
issues for their clock values in the order of their exchanges. If the clocks leave room for as many
ids, the ids increase in this order, no two callers get the same one, and no number that a caller
makes up overflows. -/
theorem shared_source_issues_in_turn (clock : Nat → Int64) {s : SharedSource}
    (hrun : SharedSource.Run clock .start s) :
    s.served.Nodup ∧
    (∀ n, n ∈ s.served ↔ ∃ id, s.callers n = .answered id) ∧
    s.served.map s.callers =
      (IdSource.fresh.issue (s.served.map clock)).map Caller.answered ∧
    (s.served.length < 2 ^ 63 - 1 →
      (∀ n ∈ s.served, (clock n).toInt ≤ 2 ^ 63 - 1 - s.served.length) →
      (IdSource.fresh.issue (s.served.map clock)).Pairwise
        (fun earlier later => earlier.value < later.value) ∧
      (∀ m n id, s.callers m = .answered id → s.callers n = .answered id → m = n) ∧
      ∀ n seen, s.callers n = .exchange seen → (seen + 1).toInt = seen.toInt + 1) := by
  have hturn := (SharedSource.inTurn_start clock).run hrun
  refine ⟨hturn.nodup, hturn.answered, hturn.ids, fun hcount hclock => ?_⟩
  have hroomy : IdSource.Roomy (s.served.map clock) := by
    refine ⟨by rw [List.length_map]; omega, fun now hnow => ?_⟩
    obtain ⟨n, hn, rfl⟩ := List.mem_map.mp hnow
    rw [List.length_map]
    exact hclock n hn
  exact ⟨hroomy.increasing, fun m n id hm hn => hturn.injective hroomy hm hn,
    fun n seen hn => hturn.seen_fits hroomy hcount hn⟩

namespace SharedSource

/-- The clock shows 3 to the first caller and 5 to the others. -/
def splitClock (n : Nat) : Int64 :=
  if n = 0 then 3 else 5

/-- Two callers see the same number. The second one exchanges it. The first one is refused, is told
the number that it had seen already, is refused again, and then exchanges the new one. -/
def crossing : SharedSource :=
  (((((start.tell 0 0).tell 1 0).exchange 1 (Caller.offer 0 (splitClock 1)) (splitClock 1)).tell 0
    0).tell 0 5).exchange 0 (Caller.offer 5 (splitClock 0)) (splitClock 0)

theorem run_crossing : Run splitClock start crossing := by
  have hlook : Run splitClock start (start.tell 0 0) := .single (.look _ 0 0 rfl (by decide))
  have hlooks := hlook.tail (.look _ 1 0 rfl (by decide))
  have hfirst := hlooks.tail (.exchange _ 1 0 rfl rfl)
  have hstale := hfirst.tail (.refuse _ 0 0 0 rfl (by decide))
  have hfresh := hstale.tail (.refuse _ 0 0 5 rfl (by decide))
  exact hfresh.tail (.exchange _ 0 5 rfl (by decide))

/-- The second caller is served first, and the first one gets the id after it. -/
theorem crossing_issues_in_turn :
    crossing.served.map crossing.callers = [.answered ⟨5⟩, .answered ⟨6⟩] ∧
    ∀ m n id, crossing.callers m = .answered id → crossing.callers n = .answered id → m = n := by
  obtain ⟨-, -, hids, hroomy⟩ := shared_source_issues_in_turn splitClock run_crossing
  obtain ⟨-, hdistinct, -⟩ := hroomy (by decide) (by decide)
  refine ⟨?_, hdistinct⟩
  rw [hids]
  decide

end SharedSource

end DiagramService
