import DiagramService.Number.Shortest
import DiagramService.Proofs.Number.Rounding
import DiagramService.Proofs.Text.Decimal

/-! The decimal that a binary number is written as reads back as that number, and no decimal with
fewer digits does. A whole number is written as a whole number. -/

namespace DiagramService.Number

/-! ## Reading back -/

namespace Binary

section Reads

variable {f : Format} {b : Binary} {x y z : ℚ}

theorem reads_iff_bounds : b.reads f x = true ↔
    (b.low f ≤ x ∧ x ≤ b.high) ∧ (b.mantissa % 2 ≠ 0 → b.low f < x ∧ x < b.high) := by
  unfold reads
  split
  · next heven => simp [heven]
  · next hodd =>
    simp only [Bool.and_eq_true, decide_eq_true_eq, ne_eq, hodd, not_false_eq_true, true_imp_iff]
    exact ⟨fun h => ⟨⟨h.1.le, h.2.le⟩, h⟩, And.right⟩

/-- The gap below a power of two is half as large as the one above it. -/
theorem low_cases (f : Format) (b : Binary) :
    (b.mantissa = 2 ^ (f.precision - 1) ∧ f.minExponent < b.exponent) ∧
        b.low f = b.toRat - twoPow (b.exponent - 2) ∨
      ¬(b.mantissa = 2 ^ (f.precision - 1) ∧ f.minExponent < b.exponent) ∧
        b.low f = b.toRat - twoPow (b.exponent - 1) := by
  by_cases h : b.mantissa = 2 ^ (f.precision - 1) ∧ f.minExponent < b.exponent
  · exact .inl ⟨h, if_pos h⟩
  · exact .inr ⟨h, if_neg h⟩

theorem sub_half_le_low (f : Format) (b : Binary) :
    b.toRat - twoPow (b.exponent - 1) ≤ b.low f := by
  unfold low
  split
  · exact sub_le_sub_left (twoPow_le_twoPow.mpr (by omega)) _
  · exact le_rfl

theorem low_lt_toRat (f : Format) (b : Binary) : b.low f < b.toRat := by
  unfold low
  split
  · exact sub_lt_self _ (twoPow_pos _)
  · exact sub_lt_self _ (twoPow_pos _)

theorem toRat_lt_high (b : Binary) : b.toRat < b.high :=
  lt_add_of_pos_right _ (twoPow_pos _)

theorem reads_toRat (f : Format) (b : Binary) : b.reads f b.toRat = true :=
  reads_iff_bounds.mpr ⟨⟨(b.low_lt_toRat f).le, b.toRat_lt_high.le⟩,
    fun _ => ⟨b.low_lt_toRat f, b.toRat_lt_high⟩⟩

/-- What lies between two numbers that read back reads back, too. -/
theorem reads_between (hx : b.reads f x = true) (hz : b.reads f z = true) (hxy : x ≤ y)
    (hyz : y ≤ z) : b.reads f y = true := by
  obtain ⟨⟨hlow, -⟩, hodd⟩ := reads_iff_bounds.mp hx
  obtain ⟨⟨-, hhigh⟩, hodd'⟩ := reads_iff_bounds.mp hz
  refine reads_iff_bounds.mpr ⟨⟨hlow.trans hxy, hyz.trans hhigh⟩, fun h => ?_⟩
  exact ⟨(hodd h).1.trans_le hxy, hyz.trans_lt (hodd' h).2⟩

/-- What reads back is at most half a unit away. -/
theorem abs_sub_le_of_reads (h : b.reads f x = true) :
    |x - b.toRat| ≤ twoPow (b.exponent - 1) := by
  obtain ⟨⟨hlow, hhigh⟩, -⟩ := reads_iff_bounds.mp h
  have hhalf := b.sub_half_le_low f
  unfold high at hhigh
  exact abs_sub_le_iff.mpr ⟨by linarith, by linarith⟩

end Reads

end Binary

namespace Format

section Round

variable {f : Format} {b : Binary} {x : ℚ} {e : Int} {m : Nat}

/-- What is rounded up to a power of two with one digit more lies below it. -/
theorem reads_settle_carry (hp : 2 ≤ f.precision) (hmin : f.minExponent ≤ e)
    (hhigh : x < twoPow (e + f.precision))
    (hm : Nearest (x / twoPow e) (2 ^ f.precision : Nat)) :
    (f.settle (2 ^ f.precision) e).reads f x = true := by
  obtain ⟨hnear, -⟩ := nearest_div_iff.mp hm
  have hvalue := toRat_settle (f := f) (by omega) (2 ^ f.precision) e
  rw [twoPow_add_natCast, ← hvalue] at hhigh
  rw [← hvalue] at hnear
  rw [settle_carry] at *
  refine Binary.reads_iff_bounds.mpr ⟨⟨?_, ?_⟩, fun hodd => ?_⟩
  · rw [Binary.low, if_pos ⟨rfl, by simp only; omega⟩, show (e + 1 : Int) - 2 = e - 1 by omega]
    linarith [(abs_le.mp hnear).1]
  · exact (hhigh.trans (Binary.toRat_lt_high _)).le
  · exact absurd (even_two_pow (by omega)) hodd

theorem reads_settle (hp : 1 ≤ f.precision)
    (hlow : e = f.minExponent ∨ twoPow (e + f.precision - 1) ≤ x)
    (hm : Nearest (x / twoPow e) m) (hne : m ≠ 2 ^ f.precision) :
    (f.settle m e).reads f x = true := by
  obtain ⟨hnear, htie⟩ := nearest_div_iff.mp hm
  have habs := abs_le.mp hnear
  have hvalue : (⟨m, e⟩ : Binary).toRat = m * twoPow e := rfl
  have hend : (⟨m, e⟩ : Binary).high = m * twoPow e + twoPow (e - 1) := rfl
  have hstrict : m % 2 ≠ 0 → |x - m * twoPow e| < twoPow (e - 1) := fun hodd =>
    lt_of_le_of_ne hnear fun heq => hodd (htie heq)
  rw [settle_of_ne hne, Binary.reads_iff_bounds, hend]
  obtain ⟨⟨hpow, hless⟩, -⟩ | ⟨-, hstart⟩ := Binary.low_cases f ⟨m, e⟩
  · -- no number with the same last digit is smaller
    have hleast : (⟨m, e⟩ : Binary).toRat ≤ x := by
      have hlow := hlow.resolve_left hless.ne'
      rw [add_sub_assoc, ← Nat.cast_pred hp, twoPow_add_natCast, ← hpow] at hlow
      exact hlow
    have hlt := lt_of_lt_of_le (Binary.low_lt_toRat f _) hleast
    refine ⟨⟨hlt.le, by linarith [habs.2]⟩, fun hodd => ⟨hlt, ?_⟩⟩
    linarith [(abs_lt.mp (hstrict hodd)).2]
  · rw [hstart, hvalue]
    refine ⟨⟨by linarith [habs.1], by linarith [habs.2]⟩, fun hodd => ?_⟩
    have habs := abs_lt.mp (hstrict hodd)
    exact ⟨by linarith [habs.1], by linarith [habs.2]⟩

theorem reads_of_round (hp : 2 ≤ f.precision) (hx : 0 < x) (h : f.round x = b) :
    b.reads f x = true := by
  obtain ⟨m, hm, hround⟩ := f.exists_round hx
  obtain ⟨hmin, hhigh, hlow⟩ := (lastExponent_eq_iff (f := f) hx).mp rfl
  rw [← h, hround]
  obtain rfl | hne := eq_or_ne m (2 ^ f.precision)
  · exact reads_settle_carry hp hmin hhigh hm
  · exact reads_settle (by omega) hlow hm hne

theorem round_of_reads (hp : 2 ≤ f.precision) (hb : f.Normal b) (hx : 0 < x)
    (h : b.reads f x = true) : f.round x = b := by
  obtain ⟨⟨hlow, hhigh⟩, hodd⟩ := Binary.reads_iff_bounds.mp h
  have hnear := Binary.abs_sub_le_of_reads h
  obtain ⟨m, e⟩ := b
  obtain ⟨hleast, hmost, hmin⟩ := hb
  simp only at hleast hmost hmin hodd hnear
  have hvalue : (⟨m, e⟩ : Binary).toRat = m * twoPow e := rfl
  have hend : (⟨m, e⟩ : Binary).high = m * twoPow e + twoPow (e - 1) := rfl
  have hhalf := Binary.sub_half_le_low f ⟨m, e⟩
  rw [hvalue] at hhalf hnear
  rw [hend] at hodd
  by_cases hpart : e = f.minExponent ∨ twoPow (e + f.precision - 1) ≤ x
  · refine round_of_near hx hmost hmin hpart hnear fun htie => ?_
    by_contra hne
    obtain ⟨hlow, hhigh⟩ := hodd hne
    exact absurd htie (abs_sub_lt_iff.mpr ⟨by linarith, by linarith⟩).ne
  · obtain ⟨hne, hlt⟩ := not_or.mp hpart
    have hless := lt_of_le_of_ne hmin (Ne.symm hne)
    rw [not_le, add_sub_assoc, ← Nat.cast_pred (by omega), twoPow_add_natCast] at hlt
    -- of the numbers with this last digit only the least can read a smaller one
    have hpow : m = 2 ^ (f.precision - 1) := by
      refine le_antisymm (not_lt.mp fun hgt => ?_) hleast
      have hstep : ((2 ^ (f.precision - 1) + 1 : Nat) : ℚ) * twoPow e ≤ m * twoPow e :=
        mul_le_mul_of_nonneg_right (by exact_mod_cast hgt) (twoPow_pos e).le
      have hpred := twoPow_pred e
      have hunit := twoPow_pos e
      push_cast at hstep hlt
      linarith
    rw [Binary.low, if_pos ⟨hpow, hless⟩, hvalue, hpow] at hlow
    rw [hpow]
    exact round_of_near_two_pow (by omega) hx hless hlow hlt

/-- What reads back as a number is what is rounded to it. -/
theorem reads_iff (hp : 2 ≤ f.precision) (hb : f.Normal b) (hx : 0 < x) :
    b.reads f x = true ↔ f.round x = b :=
  ⟨round_of_reads hp hb hx, reads_of_round hp hx⟩

end Round

end Format

/-! ## Grids -/

theorem tenPow_pos (e : Int) : 0 < tenPow e :=
  zpow_pos (by norm_num) e

theorem tenPow_natCast (k : Nat) : tenPow k = 10 ^ k :=
  zpow_natCast 10 k

namespace Binary

section Grid

variable {f : Format} {tie : Tie} {b : Binary} {d : Decimal} {e : Int} {n : Nat}

theorem toRat_nonneg (b : Binary) : 0 ≤ b.toRat :=
  mul_nonneg (Nat.cast_nonneg _) (twoPow_pos _).le

theorem nearer_cases (b : Binary) (tie : Tie) (below above : Decimal) :
    b.nearer tie below above = below ∨ b.nearer tie below above = above := by
  unfold nearer
  dsimp only
  split_ifs <;> simp

/-- A number lies between two neighbours on a grid. -/
theorem grid_bounds (b : Binary) (e : Int) :
    ((b.toRat / tenPow e).floor.toNat : ℚ) * tenPow e ≤ b.toRat ∧
      b.toRat < ((b.toRat / tenPow e).floor.toNat + 1 : Nat) * tenPow e := by
  have hpos := tenPow_pos e
  have hfloor : ((b.toRat / tenPow e).floor.toNat : Int) = (b.toRat / tenPow e).floor :=
    Int.toNat_of_nonneg (Int.floor_nonneg.mpr (div_nonneg b.toRat_nonneg hpos.le))
  have hcast : ((b.toRat / tenPow e).floor.toNat : ℚ) = (b.toRat / tenPow e).floor := by
    exact_mod_cast hfloor
  push_cast
  rw [hcast]
  exact ⟨(le_div_iff₀ hpos).mp (Int.floor_le _), (div_lt_iff₀ hpos).mp (Int.lt_floor_add_one _)⟩

theorem onGrid?_eq_some (h : b.onGrid? f tie e = some d) :
    d.exponent = e ∧ b.reads f d.toRat = true := by
  unfold onGrid? at h
  dsimp only at h
  split at h
  · next hbelow habove =>
    cases h
    obtain heq | heq := b.nearer_cases tie _ _
    · rw [heq]
      exact ⟨rfl, hbelow⟩
    · rw [heq]
      exact ⟨rfl, habove⟩
  · next hbelow habove =>
    cases h
    exact ⟨rfl, hbelow⟩
  · next hbelow habove =>
    cases h
    exact ⟨rfl, habove⟩
  · cases h

/-- A grid with nothing to offer has no decimal that reads back. -/
theorem not_reads_of_onGrid?_eq_none (h : b.onGrid? f tie e = none) (k : Nat) :
    ¬ b.reads f (k * tenPow e) = true := by
  intro hk
  obtain ⟨hbelow, habove⟩ := b.grid_bounds e
  have hself := b.reads_toRat f
  unfold onGrid? at h
  generalize (b.toRat / tenPow e).floor.toNat = q at *
  have hscale : ∀ {i j : Nat}, i ≤ j → (i : ℚ) * tenPow e ≤ j * tenPow e := fun hij =>
    mul_le_mul_of_nonneg_right (by exact_mod_cast hij) (tenPow_pos e).le
  dsimp only at h
  obtain hle | hlt := le_or_gt k q
  · have hread : b.reads f (⟨q, e⟩ : Decimal).toRat = true :=
      reads_between hk hself (hscale hle) hbelow
    rw [hread] at h
    cases hother : b.reads f (⟨q + 1, e⟩ : Decimal).toRat <;> rw [hother] at h <;> cases h
  · have hread : b.reads f (⟨q + 1, e⟩ : Decimal).toRat = true :=
      reads_between hself hk habove.le (hscale hlt)
    rw [hread] at h
    cases hother : b.reads f (⟨q, e⟩ : Decimal).toRat <;> rw [hother] at h <;> cases h

theorem floor_units (hwhole : b.toRat = n) : (b.toRat / tenPow 0).floor.toNat = n := by
  rw [hwhole, show tenPow 0 = 1 from rfl, div_one]
  exact congrArg Int.toNat (Int.floor_natCast (R := ℚ) n)

/-- On the grid of the units a whole number is nearest to itself. -/
theorem onGrid?_zero (f : Format) (tie : Tie) (hwhole : b.toRat = n) :
    b.onGrid? f tie 0 = some ⟨n, 0⟩ := by
  have hbelow : (⟨n, 0⟩ : Decimal).toRat = b.toRat := by
    rw [hwhole]
    exact mul_one _
  have hgap : 0 < (⟨n + 1, 0⟩ : Decimal).toRat - b.toRat := by
    rw [hwhole, Decimal.toRat, show tenPow 0 = 1 from rfl]
    push_cast
    linarith
  unfold onGrid?
  dsimp only
  rw [floor_units hwhole, hbelow, reads_toRat, nearer, hbelow, sub_self, if_pos hgap]
  cases b.reads f (⟨n + 1, 0⟩ : Decimal).toRat <;> rfl

theorem search_zero (f : Format) (tie : Tie) (hwhole : b.toRat = n) (steps : Nat) :
    b.search f tie steps 0 = ⟨n, 0⟩ := by
  cases steps with
  | zero => rw [search, floor_units hwhole]
  | succ steps => rw [search, onGrid?_zero f tie hwhole]

/-- What is found on the grids up to one of them. -/
structure Found (f : Format) (b : Binary) (n : Nat) (top : Int) (d : Decimal) : Prop where
  whole : 0 ≤ d.exponent
  units : d.exponent = 0 → d.digits = n
  reads : b.reads f d.toRat = true
  coarsest : ∀ (e : Int) (k : Nat), e ≤ top → b.reads f (k * tenPow e) = true → e ≤ d.exponent

/-- The search for a whole number goes no further than to the units. -/
theorem search_found (f : Format) (tie : Tie) (hwhole : b.toRat = n) {top steps : Nat}
    (h : top ≤ steps) : Found f b n top (b.search f tie steps top) := by
  induction top generalizing steps with
  | zero =>
    obtain ⟨-, hread⟩ := onGrid?_eq_some (onGrid?_zero f tie hwhole)
    rw [Nat.cast_zero, search_zero f tie hwhole]
    exact ⟨le_rfl, fun _ => rfl, hread, fun e k he _ => he⟩
  | succ top ih =>
    obtain ⟨steps, rfl⟩ : ∃ s, steps = s + 1 := Nat.exists_eq_add_of_le' (by omega)
    rw [search]
    cases hgrid : b.onGrid? f tie (top + 1 : Nat) with
    | some d =>
      obtain ⟨hexponent, hread⟩ := onGrid?_eq_some hgrid
      dsimp only
      exact ⟨by omega, fun h => by omega, hread, fun e k he _ => by omega⟩
    | none =>
      have hfound := ih (show top ≤ steps by omega)
      rw [show ((top + 1 : Nat) : Int) - 1 = top by omega]
      refine ⟨hfound.whole, hfound.units, hfound.reads, fun e k he hk => ?_⟩
      obtain rfl | hlt := eq_or_lt_of_le he
      · exact absurd hk (not_reads_of_onGrid?_eq_none hgrid k)
      · exact hfound.coarsest e k (by omega) hk

theorem reads_bounds {x : ℚ} (hm : b.mantissa ≠ 0) (h : b.reads f x = true) :
    0 < x ∧ x < 2 * b.toRat := by
  have habs := abs_sub_le_iff.mp (abs_sub_le_of_reads h)
  have hpred := twoPow_pred b.exponent
  have hpos := twoPow_pos b.exponent
  have hunit : 1 * twoPow b.exponent ≤ b.toRat :=
    mul_le_mul_of_nonneg_right (by exact_mod_cast Nat.one_le_iff_ne_zero.mpr hm) hpos.le
  exact ⟨by linarith, by linarith⟩

/-- A whole number is written with as few digits as any number that reads back. -/
theorem shortest_found (f : Format) (tie : Tie) (hm : b.mantissa ≠ 0) (hwhole : b.toRat = n)
    (top : Int) : Found f b n top (b.shortest f tie) := by
  have hfloor : b.toRat.floor.toNat = n := by
    rw [hwhole]
    exact congrArg Int.toNat (Int.floor_natCast (R := ℚ) n)
  unfold shortest
  rw [if_neg hm, hfloor]
  dsimp only
  have hlength : n < 10 ^ (Nat.toDigits 10 n).length :=
    (Nat.length_toDigits_le_iff (by decide) (List.length_pos_iff.mpr Nat.toDigits_ne_nil)).mp le_rfl
  generalize (Nat.toDigits 10 n).length = width at *
  have hfound := search_found f tie hwhole (Nat.le_add_right width (-b.exponent).toNat)
  refine ⟨hfound.whole, hfound.units, hfound.reads, fun e k _ hk => ?_⟩
  refine hfound.coarsest e k (not_lt.mp fun hlt => ?_) hk
  -- a multiple of a larger power of ten is more than twice as large
  obtain ⟨hpos, hless⟩ := reads_bounds hm hk
  have hone : (1 : ℚ) ≤ k := by
    have : (0 : ℚ) < k := pos_of_mul_pos_left hpos (tenPow_pos e).le
    exact_mod_cast this
  have hten : tenPow (width + 1 : Nat) ≤ tenPow e :=
    zpow_le_zpow_right₀ (by norm_num : (1 : ℚ) ≤ 10) (by omega)
  have hn : (n : ℚ) < 10 ^ width := by exact_mod_cast hlength
  have hnonneg : (0 : ℚ) ≤ n := n.cast_nonneg
  refine absurd hless (not_lt.mpr ?_)
  calc 2 * b.toRat ≤ 10 ^ width * 10 := by rw [hwhole]; linarith
    _ ≤ tenPow e := by rwa [← pow_succ, ← tenPow_natCast]
    _ ≤ k * tenPow e := le_mul_of_one_le_left (tenPow_pos e).le hone

end Grid

end Binary

/-! ## Positional text -/

theorem Decimal.positional_of_nonneg {d : Decimal} (h : 0 ≤ d.exponent) :
    d.positional = Text.ofNat (d.digits * 10 ^ d.exponent.toNat) := by
  unfold positional
  dsimp only
  split_ifs with hzero
  · rw [hzero, zero_mul]
  · exact (Text.ofNat_mul_pow_ten hzero _).symm

theorem Decimal.toRat_of_nonneg {d : Decimal} (h : 0 ≤ d.exponent) :
    d.toRat = (d.digits * 10 ^ d.exponent.toNat : Nat) := by
  rw [toRat, ← Int.toNat_of_nonneg h, tenPow_natCast, Int.toNat_natCast]
  push_cast
  rfl

/-! ## Natural numbers -/

namespace Format

/-- A natural number is shown for another one. It is the number itself as long as the format keeps
all natural numbers. -/
structure Shows (f : Format) (n shown : Nat) : Prop where
  same : f.round shown = f.round n
  /-- No number that is the same for the format ends in more zeros. -/
  fewest : ∀ e w : Nat, f.round w = f.round n → 10 ^ e ∣ w → 10 ^ e ∣ shown
  near : |(shown : ℚ) - n| * 2 ^ (f.precision - 1) ≤ n
  kept : n ≤ 2 ^ f.precision → shown = n

section Shows

variable {f : Format} {b : Binary} {x y : ℚ} {m n : Nat}

theorem Normal.high_lt (hb : f.Normal b) : b.high < twoPow (b.exponent + f.precision) :=
  add_half_lt hb.high

/-- Numbers that read back as the same one are close to each other. -/
theorem Normal.close (hb : f.Normal b) (hmin : f.minExponent < b.exponent)
    (hx : b.reads f x = true) (hy : b.reads f y = true) :
    |x - y| * 2 ^ (f.precision - 1) ≤ y := by
  obtain ⟨⟨hxlow, hxhigh⟩, -⟩ := Binary.reads_iff_bounds.mp hx
  obtain ⟨⟨hylow, hyhigh⟩, -⟩ := Binary.reads_iff_bounds.mp hy
  -- everything is counted in quarters of the last digit
  have hhalf : twoPow (b.exponent - 1) = 2 * twoPow (b.exponent - 2) := by
    rw [← twoPow_pred (b.exponent - 1), show b.exponent - 1 - 1 = b.exponent - 2 by omega]
  have hunit : twoPow b.exponent = 4 * twoPow (b.exponent - 2) := by
    rw [← twoPow_pred b.exponent, hhalf]
    ring
  have hpos := twoPow_pos (b.exponent - 2)
  have hone : (1 : ℚ) ≤ 2 ^ (f.precision - 1) := one_le_pow₀ (by norm_num)
  have hscale : ∀ gap : ℚ, |x - y| ≤ gap →
      |x - y| * 2 ^ (f.precision - 1) ≤ gap * 2 ^ (f.precision - 1) := fun _ h =>
    mul_le_mul_of_nonneg_right h (zero_le_one.trans hone)
  rw [Binary.high, hhalf] at hxhigh hyhigh
  obtain ⟨⟨hpow, -⟩, hlow⟩ | ⟨hpow, hlow⟩ := b.low_cases f
  · rw [hlow] at hxlow hylow
    have hgap := hscale (3 * twoPow (b.exponent - 2))
      (abs_sub_le_iff.mpr ⟨by linarith, by linarith⟩)
    have hvalue : b.toRat = 2 ^ (f.precision - 1) * (4 * twoPow (b.exponent - 2)) := by
      rw [Binary.toRat, hpow, hunit]
      push_cast
      rfl
    have hleast := mul_le_mul_of_nonneg_right hone hpos.le
    linarith
  · rw [hlow, hhalf] at hxlow hylow
    have hgap := hscale (4 * twoPow (b.exponent - 2))
      (abs_sub_le_iff.mpr ⟨by linarith, by linarith⟩)
    have hnext : 2 ^ (f.precision - 1) + 1 ≤ b.mantissa :=
      lt_of_le_of_ne hb.low fun h => hpow ⟨h.symm, hmin⟩
    have hleast : ((2 ^ (f.precision - 1) + 1 : Nat) : ℚ) * twoPow b.exponent ≤ b.toRat :=
      mul_le_mul_of_nonneg_right (by exact_mod_cast hnext) (twoPow_pos _).le
    rw [hunit] at hleast
    push_cast at hleast
    linarith

/-- As long as all natural numbers are kept, no other even one reads back as one of them. -/
theorem Normal.eq_of_reads (hp : 1 ≤ f.precision) (hb : f.Normal b) (hwhole : b.toRat = n)
    (hn : n ≤ 2 ^ f.precision) (hread : b.reads f (m : Nat) = true) (heven : m % 2 = 0) :
    m = n := by
  have hleast := hb.twoPow_le hp
  have hnear := Binary.abs_sub_le_of_reads hread
  rw [hwhole] at hleast hnear
  obtain hlt | rfl := lt_or_eq_of_le hn
  · have hless : twoPow (b.exponent + f.precision - 1) < twoPow f.precision := by
      rw [twoPow_natCast]
      exact lt_of_le_of_lt hleast (by exact_mod_cast hlt)
    have hexponent := twoPow_lt_twoPow.mp hless
    have hhalf : twoPow (b.exponent - 1) ≤ 1 / 2 := by
      have hunit : twoPow b.exponent ≤ twoPow 0 := twoPow_le_twoPow.mpr (by omega)
      have hpred := twoPow_pred b.exponent
      rw [twoPow_zero] at hunit
      linarith
    obtain ⟨habove, hbelow⟩ := abs_sub_le_iff.mp (hnear.trans hhalf)
    have hle : m < n + 1 := by exact_mod_cast (by linarith : (m : ℚ) < n + 1)
    have hge : n < m + 1 := by exact_mod_cast (by linarith : (n : ℚ) < m + 1)
    omega
  · have hless : twoPow (b.exponent + f.precision - 1) ≤ twoPow f.precision := by
      rw [twoPow_natCast]
      exact_mod_cast hleast
    have hexponent := twoPow_le_twoPow.mp hless
    have hone : twoPow (b.exponent - 1) ≤ twoPow 0 := twoPow_le_twoPow.mpr (by omega)
    rw [twoPow_zero] at hone
    obtain ⟨habove, hbelow⟩ := abs_sub_le_iff.mp (hnear.trans hone)
    have hle : m ≤ 2 ^ f.precision + 1 := by
      exact_mod_cast (by linarith : (m : ℚ) ≤ (2 ^ f.precision : Nat) + 1)
    have hge : 2 ^ f.precision ≤ m + 1 := by
      exact_mod_cast (by linarith : ((2 ^ f.precision : Nat) : ℚ) ≤ m + 1)
    -- the neighbours are odd
    have heven' := even_two_pow hp
    omega

/-- A natural number is written as a natural number. -/
theorem exists_shows (hp : 2 ≤ f.precision) (hmin : f.minExponent + f.precision ≤ 1) (tie : Tie)
    (hn : n ≠ 0) : ∃ shown : Nat,
      ((f.round n).shortest f tie).positional = Text.ofNat shown ∧ f.Shows n shown := by
  have hpos : (0 : ℚ) < n := by exact_mod_cast Nat.pos_of_ne_zero hn
  have hb : f.Normal (f.round n) := normal_round_natCast (by omega) hmin hn
  obtain ⟨k, hk, hexact⟩ := exists_toRat_round_natCast (f := f) (by omega) (by omega) hn
  have hself := (reads_iff hp hb hpos).mpr rfl
  have hfound := Binary.shortest_found f tie hb.mantissa_ne_zero hk
  generalize (f.round n).shortest f tie = d at *
  have hwhole := (hfound 0).whole
  have hread := (hfound 0).reads
  rw [Decimal.toRat_of_nonneg hwhole] at hread
  have hkept : n ≤ 2 ^ f.precision → d.digits * 10 ^ d.exponent.toNat = n := by
    intro hle
    rw [hexact hle] at hk hfound
    obtain hzero | hne := eq_or_ne d.exponent 0
    · rw [(hfound 0).units hzero, hzero]
      exact mul_one n
    · refine hb.eq_of_reads (by omega) hk hle hread ?_
      obtain ⟨j, hj⟩ := Nat.exists_eq_add_of_le' (show 1 ≤ d.exponent.toNat by omega)
      rw [hj, Nat.pow_succ, ← mul_assoc]
      omega
  refine ⟨_, Decimal.positional_of_nonneg hwhole, ?_, ?_, ?_, hkept⟩
  · exact (reads_iff hp hb (Binary.reads_bounds hb.mantissa_ne_zero hread).1).mp hread
  · rintro e _ hw ⟨j, rfl⟩
    have hpos : (0 : ℚ) < (10 ^ e * j : Nat) := by
      refine lt_of_le_of_ne (Nat.cast_nonneg _) fun hzero => hb.mantissa_ne_zero ?_
      rw [← hw, ← hzero, round_zero]
    have hread := (reads_iff hp hb hpos).mpr hw
    have hgrid : ((10 ^ e * j : Nat) : ℚ) = j * tenPow e := by
      rw [tenPow_natCast]
      push_cast
      ring
    rw [hgrid] at hread
    have hle := (hfound e).coarsest e j le_rfl hread
    exact (pow_dvd_pow 10 (by omega)).mul_left _
  · by_cases hle : n ≤ 2 ^ f.precision
    · rw [hkept hle, sub_self, abs_zero, zero_mul]
      exact hpos.le
    · refine hb.close ?_ hread hself
      obtain ⟨⟨-, hhigh⟩, -⟩ := Binary.reads_iff_bounds.mp hself
      have hlt : twoPow f.precision < twoPow ((f.round n).exponent + f.precision) := by
        refine lt_trans ?_ (hhigh.trans_lt hb.high_lt)
        rw [twoPow_natCast]
        exact_mod_cast not_le.mp hle
      have := twoPow_lt_twoPow.mp hlt
      omega

end Shows

end Format

end DiagramService.Number
