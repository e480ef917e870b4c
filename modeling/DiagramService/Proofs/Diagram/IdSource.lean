import Mathlib.Algebra.Group.Int.Defs
import Mathlib.Algebra.Group.Nat.Defs
import Mathlib.Order.Bounds.Basic
import DiagramService.Store.Basic

/-! A source of ids follows the clock and never steps back while there are greater numbers left. The
numbers that it issues are the running maximum of what the clock has shown, moved on by one with
every number. -/

namespace DiagramService

theorem clockId_toInt {now : Int} (hlow : -2 ^ 63 ≤ now) (hhigh : now < 2 ^ 63) :
    (clockId now).toInt = now :=
  Int64.toInt_ofInt_of_le hlow hhigh

namespace IdSource

theorem toInt_add_one {v : Int64} (h : v.toInt < 2 ^ 63 - 1) : (v + 1).toInt = v.toInt + 1 := by
  have hlow := v.le_toInt
  rw [Int64.toInt_add, show Int64.toInt 1 = 1 from rfl, Int.bmod_eq_of_le] <;> omega

/-- The next id is what the clock shows, or one more than the last id if that is more. -/
theorem candidate_toInt (source : IdSource) (now : Int64) (h : source.last.toInt < 2 ^ 63 - 1) :
    (source.candidate now).toInt = max now.toInt (source.last.toInt + 1) := by
  have hnext := toInt_add_one h
  unfold candidate
  rw [show max now (source.last + 1) = if now ≤ source.last + 1 then source.last + 1 else now
    from rfl]
  split
  · next hle =>
    rw [Int64.le_iff_toInt_le, hnext] at hle
    rw [hnext]
    omega
  · next hle =>
    rw [Int64.le_iff_toInt_le, hnext] at hle
    omega

/-- While the clock is in its range, the next id is greater than the last one. -/
theorem candidate_clockId (source : IdSource) {now : Int} (hlow : -2 ^ 63 ≤ now)
    (hhigh : now < 2 ^ 63) (h : source.last.toInt < 2 ^ 63 - 1) :
    (source.candidate (clockId now)).toInt = max now (source.last.toInt + 1) := by
  rw [candidate_toInt source _ h, clockId_toInt hlow hhigh]

/-! ## Numbers -/

/-- The last number that a source has issued after it issued some more. Each of these is what the
clock shows, or one more than the number before it if that is more. -/
def number (source : IdSource) (clock : Nat → Int) : Nat → Int
  | 0 => source.last.toInt
  | k + 1 => max (clock k) (source.number clock k + 1)

section Numbers

variable (source : IdSource) {clock : Nat → Int}

theorem number_lt_succ (k : Nat) : source.number clock k < source.number clock (k + 1) :=
  Int.lt_of_lt_of_le (Int.lt_succ _) (Int.le_max_right _ _)

theorem number_lt {j k : Nat} (h : j < k) : source.number clock j < source.number clock k := by
  induction h with
  | refl => exact source.number_lt_succ j
  | step _ ih => exact Int.lt_trans ih (source.number_lt_succ _)

/-- While the clock stands still the numbers follow one another without gaps. -/
theorem number_of_still {k : Nat} (h : ∀ n ≤ k, clock n = clock 0) :
    source.number clock (k + 1) = source.number clock 1 + k := by
  induction k with
  | zero => simp
  | succ k ih =>
    have hprevious := ih fun n hn => h n (Nat.le_succ_of_le hn)
    have hfirst : clock 0 ≤ source.number clock 1 := Int.le_max_left _ _
    rw [number, h (k + 1) (Nat.le_refl _), hprevious]
    omega

end Numbers

/-- A number is the greatest of what the clock has shown, each moved on by the numbers issued after
it, and of the first number moved on by all of them. -/
theorem number_isGreatest (source : IdSource) (clock : Nat → Int) (k : Nat) :
    IsGreatest {x | x = source.last.toInt + k ∨ ∃ j < k, x = clock j + (k - 1 - j)}
      (source.number clock k) := by
  induction k with
  | zero =>
    refine ⟨.inl (by simp [number]), ?_⟩
    rintro x (rfl | ⟨j, hj, -⟩)
    · simp [number]
    · exact absurd hj (Nat.not_lt_zero j)
  | succ k ih =>
    obtain ⟨hmem, hupper⟩ := ih
    have hnumber : source.number clock (k + 1) = max (clock k) (source.number clock k + 1) := rfl
    constructor
    · obtain hclock | hnext : source.number clock (k + 1) = clock k ∨
          source.number clock (k + 1) = source.number clock k + 1 := by omega
      · exact .inr ⟨k, Nat.lt_succ_self k, by omega⟩
      · obtain hfirst | ⟨j, hj, hshown⟩ := hmem
        · exact .inl (by omega)
        · exact .inr ⟨j, Nat.lt_succ_of_lt hj, by omega⟩
    · rintro x (rfl | ⟨j, hj, rfl⟩)
      · have hle := hupper (.inl rfl)
        omega
      · obtain hlt | rfl := Nat.lt_succ_iff_lt_or_eq.mp hj
        · have hle := hupper (.inr ⟨j, hlt, rfl⟩)
          omega
        · omega

end IdSource

end DiagramService
