import Mathlib
import DiagramService.Number.Binary

/-! Rounding to a binary format, by the distance between a number and what it is rounded to. A
rounded number keeps all of its digits, unless it is too small for that. -/

namespace DiagramService.Number

/-! ## Powers of two -/

section Powers

variable {e e' : Int}

theorem twoPow_pos (e : Int) : 0 < twoPow e :=
  zpow_pos (by norm_num) e

theorem twoPow_zero : twoPow 0 = 1 :=
  rfl

theorem twoPow_add (e e' : Int) : twoPow (e + e') = twoPow e * twoPow e' :=
  zpow_add₀ (by norm_num) e e'

theorem twoPow_natCast (k : Nat) : twoPow k = 2 ^ k :=
  zpow_natCast 2 k

theorem twoPow_le_twoPow : twoPow e ≤ twoPow e' ↔ e ≤ e' :=
  zpow_le_zpow_iff_right₀ (by norm_num)

theorem twoPow_lt_twoPow : twoPow e < twoPow e' ↔ e < e' :=
  zpow_lt_zpow_iff_right₀ (by norm_num)

theorem twoPow_pred (e : Int) : 2 * twoPow (e - 1) = twoPow e := by
  rw [← sub_add_cancel e 1, twoPow_add (e - 1) 1, add_sub_cancel_right, mul_comm]
  rfl

end Powers

/-! ## The nearest integer -/

/-- An integer is nearest to a number: none is nearer, and another that is as near is odd. -/
structure Nearest (x : ℚ) (n : Int) : Prop where
  near : |x - n| ≤ 1 / 2
  even : |x - n| = 1 / 2 → n % 2 = 0

section Nearest

variable {x : ℚ} {n n' : Int}

theorem Nearest.unique (h : Nearest x n) (h' : Nearest x n') : n = n' := by
  wlog hlt : n < n'
  · obtain heq | hlt' := eq_or_lt_of_le (not_lt.mp hlt)
    · exact heq.symm
    · exact (this h' h hlt').symm
  exfalso
  have hnear := abs_le.mp h.near
  have hnear' := abs_le.mp h'.near
  have hstep : n + 1 ≤ n' := hlt
  have hgap : (n : ℚ) + 1 ≤ n' := by exact_mod_cast hstep
  -- both are half a unit away, and so they are neighbours
  have hx : x - n = 1 / 2 := by linarith [hnear.2, hnear'.1]
  have hx' : x - n' = -(1 / 2) := by linarith [hnear.2, hnear'.1]
  have hnext : n' = n + 1 := by
    have : (n' : ℚ) = n + 1 := by linarith
    exact_mod_cast this
  have heven := h.even (by rw [hx, abs_of_pos (by norm_num)])
  have heven' := h'.even (by rw [hx', abs_neg, abs_of_pos (by norm_num)])
  omega

theorem nearest_roundHalfEven (x : ℚ) : Nearest x (roundHalfEven x) := by
  have hlow : (x.floor : ℚ) ≤ x := Int.floor_le x
  have hhigh : x < x.floor + 1 := Int.lt_floor_add_one x
  have hhalf : mkRat 1 2 = 1 / 2 := by norm_num [Rat.mkRat_eq_div]
  unfold roundHalfEven
  simp only [hhalf]
  split_ifs with hless hmore
  · -- nearer to the integer below
    have habs : |x - x.floor| < 1 / 2 := abs_lt.mpr ⟨by linarith, hless⟩
    exact ⟨habs.le, fun h => absurd h habs.ne⟩
  · have habs : |x - (x.floor + 1 : Int)| < 1 / 2 := by
      push_cast
      exact abs_lt.mpr ⟨by linarith, by linarith⟩
    exact ⟨habs.le, fun h => absurd h habs.ne⟩
  · have htie : x = x.floor + 1 / 2 := by linarith
    obtain heven | hodd := Int.emod_two_eq_zero_or_one x.floor
    · refine ⟨le_of_eq ?_, fun _ => by omega⟩
      rw [heven, add_zero, abs_of_pos (by linarith)]
      linarith
    · refine ⟨le_of_eq ?_, fun _ => by omega⟩
      rw [hodd]
      push_cast
      rw [abs_of_neg (by linarith)]
      linarith

theorem roundHalfEven_eq_iff : roundHalfEven x = n ↔ Nearest x n := by
  refine ⟨?_, (nearest_roundHalfEven x).unique⟩
  rintro rfl
  exact nearest_roundHalfEven x

end Nearest

/-! ## The last digit that is kept -/

section LastExponent

variable {f : Format} {x : ℚ} {e k : Int}

theorem natCast_log2 {n : Nat} (hn : n ≠ 0) :
    twoPow n.log2 ≤ n ∧ (n : ℚ) < twoPow (n.log2 + 1) := by
  rw [← Nat.cast_one, ← Nat.cast_add, twoPow_natCast, twoPow_natCast]
  exact ⟨by exact_mod_cast Nat.log2_self_le hn, by exact_mod_cast Nat.lt_log2_self⟩

theorem log2_spec (hx : 0 < x) : twoPow (log2 x) ≤ x ∧ x < twoPow (log2 x + 1) := by
  have hnum : (x.num.toNat : Int) = x.num := Int.toNat_of_nonneg (Rat.num_pos.mpr hx).le
  have hne : x.num.toNat ≠ 0 := by
    have := Rat.num_pos.mpr hx
    omega
  have hden : (0 : ℚ) < x.den := by exact_mod_cast x.den_pos
  have hx' : x * x.den = x.num.toNat := by
    rw [← Int.cast_natCast (R := ℚ) x.num.toNat, hnum, Rat.mul_den_eq_num]
  obtain ⟨hnlow, hnhigh⟩ := natCast_log2 hne
  obtain ⟨hdlow, hdhigh⟩ := natCast_log2 x.den_nz
  rw [← hx'] at hnlow hnhigh
  -- the quotient of two numbers is within a factor of two of the quotient of their leading bits
  have hlow : twoPow (x.num.toNat.log2 - x.den.log2 - 1) ≤ x := by
    refine le_of_mul_le_mul_right (le_trans ?_ hnlow) hden
    calc twoPow (x.num.toNat.log2 - x.den.log2 - 1) * x.den
        ≤ twoPow (x.num.toNat.log2 - x.den.log2 - 1) * twoPow (x.den.log2 + 1) :=
          mul_le_mul_of_nonneg_left hdhigh.le (twoPow_pos _).le
      _ = twoPow x.num.toNat.log2 := by
          rw [← twoPow_add]
          congr 1
          omega
  have hhigh : x < twoPow (x.num.toNat.log2 - x.den.log2 + 1) := by
    refine lt_of_mul_lt_mul_right (lt_of_lt_of_le hnhigh ?_) hden.le
    calc twoPow (x.num.toNat.log2 + 1)
        = twoPow (x.num.toNat.log2 - x.den.log2 + 1) * twoPow x.den.log2 := by
          rw [← twoPow_add]
          congr 1
          omega
      _ ≤ twoPow (x.num.toNat.log2 - x.den.log2 + 1) * x.den :=
          mul_le_mul_of_nonneg_left hdlow (twoPow_pos _).le
  unfold log2
  dsimp only
  split_ifs with h
  · exact ⟨h, hhigh⟩
  · rw [sub_add_cancel]
    exact ⟨hlow, not_le.mp h⟩

theorem lt_twoPow_iff (hx : 0 < x) : x < twoPow k ↔ log2 x < k := by
  obtain ⟨hlow, hhigh⟩ := log2_spec hx
  constructor
  · intro h
    exact twoPow_lt_twoPow.mp (lt_of_le_of_lt hlow h)
  · intro h
    exact lt_of_lt_of_le hhigh (twoPow_le_twoPow.mpr h)

theorem lastExponent_le_iff (hx : 0 < x) :
    f.lastExponent x ≤ e ↔ f.minExponent ≤ e ∧ x < twoPow (e + f.precision) := by
  rw [Format.lastExponent, if_neg (not_le.mpr hx), max_le_iff, lt_twoPow_iff hx]
  omega

/-- The digits that are kept start with the first one, unless the format has no digits so far down. -/
theorem lastExponent_eq_iff (hx : 0 < x) : f.lastExponent x = e ↔
    f.minExponent ≤ e ∧ x < twoPow (e + f.precision) ∧
      (e = f.minExponent ∨ twoPow (e + f.precision - 1) ≤ x) := by
  have hsplit : f.lastExponent x = e ↔ f.lastExponent x ≤ e ∧ ¬ f.lastExponent x ≤ e - 1 := by
    omega
  rw [hsplit, lastExponent_le_iff hx, lastExponent_le_iff hx, ← not_lt (b := twoPow _),
    show e + (f.precision : Int) - 1 = e - 1 + f.precision by omega]
  have hmin : f.minExponent ≤ e → (f.minExponent ≤ e - 1 ↔ e ≠ f.minExponent) := by omega
  tauto

end LastExponent

/-! ## Rounding -/

section Scaled

variable {x : ℚ} {e : Int} {m k : Nat}

theorem Nearest.natCast_le (h : Nearest x m) (hk : k ≤ x) : k ≤ m := by
  have hnear := (abs_le.mp h.near).2
  rw [Int.cast_natCast] at hnear
  have hlt : (k : ℚ) < m + 1 := by linarith
  exact Nat.lt_add_one_iff.mp (by exact_mod_cast hlt)

theorem Nearest.le_natCast (h : Nearest x m) (hk : x ≤ k) : m ≤ k := by
  have hnear := (abs_le.mp h.near).1
  rw [Int.cast_natCast] at hnear
  have hlt : (m : ℚ) < k + 1 := by linarith
  exact Nat.lt_add_one_iff.mp (by exact_mod_cast hlt)

theorem exists_nearest (hx : 0 ≤ x) : ∃ m : Nat, Nearest x m := by
  have hnear := nearest_roundHalfEven x
  have hnonneg : 0 ≤ roundHalfEven x := by
    have habs := (abs_le.mp hnear.near).2
    have hlt : (-1 : ℚ) < roundHalfEven x := by linarith
    have : -1 < roundHalfEven x := by exact_mod_cast hlt
    omega
  refine ⟨(roundHalfEven x).toNat, ?_⟩
  rwa [Int.toNat_of_nonneg hnonneg]

theorem nearest_natCast (m : Nat) : Nearest m m := by
  constructor <;> simp

/-- In units of the last digit the nearest integer is the nearest multiple of the unit. -/
theorem nearest_div_iff : Nearest (x / twoPow e) m ↔
    |x - m * twoPow e| ≤ twoPow (e - 1) ∧ (|x - m * twoPow e| = twoPow (e - 1) → m % 2 = 0) := by
  have hpos := twoPow_pos e
  have hhalf : twoPow (e - 1) = 1 / 2 * twoPow e := by
    rw [← twoPow_pred e]
    ring
  have hdist : |x - m * twoPow e| = |x / twoPow e - (m : Int)| * twoPow e := by
    rw [← abs_of_pos hpos, ← abs_mul, abs_of_pos hpos, sub_mul, div_mul_cancel₀ _ hpos.ne',
      Int.cast_natCast]
  have hparity : (m : Int) % 2 = 0 ↔ m % 2 = 0 := by omega
  rw [hdist, hhalf, mul_le_mul_iff_of_pos_right hpos, mul_left_inj' hpos.ne', ← hparity]
  exact ⟨fun h => ⟨h.near, h.even⟩, fun h => ⟨h.1, h.2⟩⟩

theorem twoPow_add_natCast (e : Int) (k : Nat) :
    twoPow (e + k) = ((2 ^ k : Nat) : ℚ) * twoPow e := by
  rw [twoPow_add, twoPow_natCast, mul_comm]
  push_cast
  rfl

end Scaled

namespace Format

variable {f : Format} {x : ℚ} {e : Int} {m n : Nat}

/-- A number of a format with all of its digits. -/
structure Normal (f : Format) (b : Binary) : Prop where
  low : 2 ^ (f.precision - 1) ≤ b.mantissa
  high : b.mantissa < 2 ^ f.precision
  minExponent_le : f.minExponent ≤ b.exponent

/-- A rounded number. It may have got a digit too much, and the last one is a zero then. -/
def settle (f : Format) (m : Nat) (e : Int) : Binary :=
  if m = 2 ^ f.precision then ⟨2 ^ (f.precision - 1), e + 1⟩ else ⟨m, e⟩

theorem settle_of_ne (h : m ≠ 2 ^ f.precision) : f.settle m e = ⟨m, e⟩ :=
  if_neg h

theorem settle_carry : f.settle (2 ^ f.precision) e = ⟨2 ^ (f.precision - 1), e + 1⟩ :=
  if_pos rfl

theorem round_eq (he : f.lastExponent x = e) (hm : Nearest (x / twoPow e) m) :
    f.round x = f.settle m e := by
  unfold round settle
  simp only [he, roundHalfEven_eq_iff.mpr hm, Int.toNat_natCast]
  rfl

theorem add_half_lt (hm : m < 2 ^ f.precision) :
    m * twoPow e + twoPow (e - 1) < twoPow (e + f.precision) := by
  have hstep : ((m + 1 : Nat) : ℚ) * twoPow e ≤ (2 ^ f.precision : Nat) * twoPow e :=
    mul_le_mul_of_nonneg_right (by exact_mod_cast hm) (twoPow_pos e).le
  have hpred := twoPow_pred e
  have hunit := twoPow_pos e
  rw [twoPow_add_natCast]
  push_cast at hstep ⊢
  linarith

/-- A number is rounded to the nearest one with the last digit that it gets. -/
theorem round_of_near (hx : 0 < x) (hm : m < 2 ^ f.precision) (he : f.minExponent ≤ e)
    (hpart : e = f.minExponent ∨ twoPow (e + f.precision - 1) ≤ x)
    (hnear : |x - m * twoPow e| ≤ twoPow (e - 1))
    (htie : |x - m * twoPow e| = twoPow (e - 1) → m % 2 = 0) : f.round x = ⟨m, e⟩ := by
  have hless : x < twoPow (e + f.precision) :=
    lt_of_le_of_lt (by linarith [(abs_le.mp hnear).2]) (add_half_lt hm)
  have hexponent := (lastExponent_eq_iff hx).mpr ⟨he, hless, hpart⟩
  rw [round_eq hexponent (nearest_div_iff.mpr ⟨hnear, htie⟩), settle_of_ne hm.ne]

theorem even_two_pow {k : Nat} (hk : 1 ≤ k) : 2 ^ k % 2 = 0 := by
  obtain ⟨j, rfl⟩ := Nat.exists_eq_add_of_le' hk
  rw [Nat.pow_succ, Nat.mul_mod_left]

theorem exists_round (f : Format) (hx : 0 < x) :
    ∃ m : Nat, Nearest (x / twoPow (f.lastExponent x)) m ∧
      f.round x = f.settle m (f.lastExponent x) := by
  obtain ⟨m, hm⟩ := exists_nearest (div_pos hx (twoPow_pos (f.lastExponent x))).le
  exact ⟨m, hm, round_eq rfl hm⟩

theorem round_zero (f : Format) : f.round 0 = ⟨0, f.minExponent⟩ := by
  have he : f.lastExponent 0 = f.minExponent := if_pos le_rfl
  have hm : Nearest (0 / twoPow f.minExponent) (0 : Nat) := by
    rw [zero_div]
    exact nearest_natCast 0
  rw [round_eq he hm, settle_of_ne (Nat.two_pow_pos _).ne]

theorem Normal.mantissa_ne_zero {b : Binary} (hb : f.Normal b) : b.mantissa ≠ 0 :=
  Nat.ne_of_gt (lt_of_lt_of_le (Nat.two_pow_pos _) hb.low)

section Precision

variable (hp : 1 ≤ f.precision)

include hp

theorem two_pow_precision : 2 ^ f.precision = 2 * 2 ^ (f.precision - 1) := by
  rw [← Nat.pow_succ', Nat.succ_eq_add_one, Nat.sub_add_cancel hp]

theorem toRat_settle (m : Nat) (e : Int) : (f.settle m e).toRat = m * twoPow e := by
  by_cases hm : m = 2 ^ f.precision
  · subst hm
    rw [settle_carry, two_pow_precision hp, Binary.toRat, twoPow_add e 1]
    push_cast
    rw [mul_comm (twoPow e), ← mul_assoc, mul_comm (2 : ℚ)]
    rfl
  · rw [settle_of_ne hm]
    rfl

theorem normal_settle (hlow : 2 ^ (f.precision - 1) ≤ m) (hhigh : m ≤ 2 ^ f.precision)
    (he : f.minExponent ≤ e) : f.Normal (f.settle m e) := by
  by_cases hm : m = 2 ^ f.precision
  · subst hm
    rw [settle_carry]
    exact ⟨le_rfl, Nat.pow_lt_pow_right (by decide) (by omega), le_trans he (Int.le_add_one le_rfl)⟩
  · rw [settle_of_ne hm]
    exact ⟨hlow, lt_of_le_of_ne hhigh hm, he⟩

/-- A number that is not too small keeps all of its digits. -/
theorem normal_round (hx : twoPow (f.minExponent + f.precision - 1) ≤ x) :
    f.Normal (f.round x) := by
  have hpos : 0 < x := lt_of_lt_of_le (twoPow_pos _) hx
  obtain ⟨m, hm, hround⟩ := f.exists_round hpos
  obtain ⟨hmin, hhigh, hlow⟩ := (lastExponent_eq_iff (f := f) hpos).mp rfl
  rw [hround]
  generalize f.lastExponent x = e at *
  have hlow' : twoPow (e + (f.precision - 1 : Nat)) ≤ x := by
    push_cast [hp]
    rw [← add_sub_assoc]
    obtain rfl | hlow := hlow
    · exact hx
    · exact hlow
  rw [twoPow_add_natCast] at hlow' hhigh
  refine normal_settle hp ?_ ?_ hmin
  · exact hm.natCast_le ((le_div_iff₀ (twoPow_pos e)).mpr hlow')
  · exact hm.le_natCast ((div_lt_iff₀ (twoPow_pos e)).mpr hhigh).le

theorem normal_round_natCast (hmin : f.minExponent + f.precision ≤ 1)
    (hn : n ≠ 0) : f.Normal (f.round n) := by
  refine normal_round hp ?_
  calc twoPow (f.minExponent + f.precision - 1) ≤ twoPow 0 := twoPow_le_twoPow.mpr (by omega)
    _ ≤ n := by
      rw [twoPow_zero]
      exact_mod_cast Nat.one_le_iff_ne_zero.mpr hn

theorem Normal.twoPow_le {b : Binary} (hb : f.Normal b) :
    twoPow (b.exponent + f.precision - 1) ≤ b.toRat := by
  rw [add_sub_assoc, ← Nat.cast_pred hp, twoPow_add_natCast]
  exact mul_le_mul_of_nonneg_right (by exact_mod_cast hb.low) (twoPow_pos _).le

/-- A number with no more digits than are kept is not changed. -/
theorem toRat_round_of_lt (hx : x = m * twoPow e) (hm : m < 2 ^ f.precision) (hne : m ≠ 0)
    (he : f.minExponent ≤ e) : (f.round x).toRat = x := by
  have hpos : 0 < x := by
    rw [hx]
    exact mul_pos (by exact_mod_cast Nat.pos_of_ne_zero hne) (twoPow_pos e)
  have hle : f.lastExponent x ≤ e := by
    refine (lastExponent_le_iff hpos).mpr ⟨he, ?_⟩
    rw [hx, twoPow_add_natCast]
    exact mul_lt_mul_of_pos_right (by exact_mod_cast hm) (twoPow_pos e)
  obtain ⟨k, hk⟩ := Int.eq_ofNat_of_zero_le (sub_nonneg.mpr hle)
  have hunits : x = (m * 2 ^ k : Nat) * twoPow (f.lastExponent x) := by
    calc x = m * twoPow (f.lastExponent x + k) := by rw [← eq_add_of_sub_eq' hk, ← hx]
      _ = (m * 2 ^ k : Nat) * twoPow (f.lastExponent x) := by
        rw [twoPow_add_natCast, Nat.cast_mul, mul_assoc]
  have hnearest : Nearest (x / twoPow (f.lastExponent x)) (m * 2 ^ k : Nat) := by
    rw [(div_eq_iff (twoPow_pos _).ne').mpr hunits]
    exact nearest_natCast _
  rw [round_eq rfl hnearest, toRat_settle hp, ← hunits]

/-- A natural number is rounded to a natural number, which is the same if it has few digits. -/
theorem exists_toRat_round_natCast (hmin : f.minExponent ≤ 0) (hn : n ≠ 0) :
    ∃ k : Nat, (f.round n).toRat = k ∧ (n ≤ 2 ^ f.precision → k = n) := by
  by_cases hle : n ≤ 2 ^ f.precision
  · refine ⟨n, ?_, fun _ => rfl⟩
    obtain rfl | hlt := eq_or_lt_of_le hle
    · refine toRat_round_of_lt hp (m := 1) (e := f.precision) ?_ ?_ one_ne_zero (by omega)
      · rw [twoPow_natCast]
        push_cast
        ring
      · exact Nat.one_lt_two_pow (by omega)
    · refine toRat_round_of_lt hp (m := n) (e := 0) ?_ hlt hn hmin
      rw [twoPow_zero, mul_one]
  · have hpos : (0 : ℚ) < n := by exact_mod_cast Nat.pos_of_ne_zero hn
    obtain ⟨m, -, hround⟩ := f.exists_round hpos
    -- there are digits that are not kept, and so the last one that is kept counts more than units
    have hexponent : 0 ≤ f.lastExponent n := by
      refine le_of_lt (not_le.mp fun h => hle ?_)
      have hlt := ((lastExponent_le_iff hpos).mp h).2
      rw [zero_add, twoPow_natCast] at hlt
      exact le_of_lt (by exact_mod_cast hlt)
    obtain ⟨k, hk⟩ := Int.eq_ofNat_of_zero_le hexponent
    refine ⟨m * 2 ^ k, ?_, fun h => absurd h hle⟩
    rw [hround, toRat_settle hp, hk, twoPow_natCast]
    push_cast
    rfl

end Precision

/-- A number just below a power of two is rounded to it. The last digit it gets is one that counts
half as much as the last digit of the power of two. -/
theorem round_of_near_two_pow (hp : 1 ≤ f.precision) (hx : 0 < x) (hmin : f.minExponent < e)
    (hnear : (2 ^ (f.precision - 1) : Nat) * twoPow e - twoPow (e - 2) ≤ x)
    (hlt : x < (2 ^ (f.precision - 1) : Nat) * twoPow e) :
    f.round x = ⟨2 ^ (f.precision - 1), e⟩ := by
  have hpred := twoPow_pred e
  have hpred' := twoPow_pred (e - 1)
  have hpos := twoPow_pos (e - 1 - 1)
  have hcarry : (2 ^ f.precision : Nat) * twoPow (e - 1) =
      (2 ^ (f.precision - 1) : Nat) * twoPow e := by
    rw [two_pow_precision hp, ← hpred]
    push_cast
    ring
  rw [← hcarry] at hnear hlt
  rw [show e - 2 = e - 1 - 1 by omega] at hnear
  have hone : 1 * twoPow (e - 1) ≤ (2 ^ (f.precision - 1) : Nat) * twoPow (e - 1) :=
    mul_le_mul_of_nonneg_right (by exact_mod_cast Nat.one_le_two_pow) (twoPow_pos _).le
  have hexponent : f.lastExponent x = e - 1 := by
    refine (lastExponent_eq_iff hx).mpr ⟨by omega, by rwa [twoPow_add_natCast], .inr ?_⟩
    rw [add_sub_assoc, ← Nat.cast_pred hp, twoPow_add_natCast]
    rw [two_pow_precision hp] at hnear
    push_cast at hnear hone ⊢
    linarith
  have hnearest : Nearest (x / twoPow (e - 1)) (2 ^ f.precision : Nat) :=
    nearest_div_iff.mpr ⟨abs_sub_le_iff.mpr ⟨by linarith, by linarith⟩, fun _ => even_two_pow hp⟩
  rw [round_eq hexponent hnearest, settle_carry, sub_add_cancel]

end Format

end DiagramService.Number
