import Mathlib
import ControlRecords.Decimal.Shortest

/-! # The shortest decimal of a binary number

The reals that round to `m * 2 ^ q` form an interval, and the search for the shortest decimal tries
the points of ever finer grids.  All its tests are on natural numbers; they say what they should of
the rational numbers that these stand for (`Interval.contains_iff`, `Interval.magnitude_spec`).

The grid of seventeen digits has steps that are smaller than the interval
(`Interval.step_lt_width`), so one of the two neighbours of the number there lies in it, and the
search ends with a hit at last (`Interval.hit?_of_seventeen`).  A grid without a hit has no point in
the interval at all (`Interval.not_admits_of_hit?_eq_none`), so no other decimal of the interval has
fewer digits (`Format.exponent_le_shortest`).  A power of ten is a point of every grid up to its own
step, so none lies between the number and a neighbour of it.  Hence the shortest decimal is read
back as the number, has at most seventeen digits, and is of the same magnitude
(`Format.shortest_spec`). -/
namespace ControlRecords.Decimal

/-- The number that a decimal names. -/
def Digits.toRat (d : Digits) : ℚ := d.significand * 10 ^ d.exponent

theorem zpow_eq_div (b : ℚ) (e : Int) : b ^ e = b ^ e.toNat / b ^ (-e).toNat := by
  rcases Int.le_total 0 e with h | h
  · obtain ⟨k, rfl⟩ := Int.eq_ofNat_of_zero_le h
    simp
  · obtain ⟨k, rfl⟩ := Int.exists_eq_neg_ofNat h
    simp

/-- A power of ten is a point of the grid of any smaller one. -/
theorem ten_zpow_eq {a b : Int} (le : b ≤ a) : (10 : ℚ) ^ a = 10 ^ (a - b).toNat * 10 ^ b := by
  rw [← zpow_natCast, ← zpow_add₀ (by norm_num)]
  congr 1
  omega

namespace Interval
variable (i : Interval)

/-- The number in the middle, and the two ends. -/
def number : ℚ := i.value / i.denominator

def lowEnd : ℚ := i.low / i.denominator

def highEnd : ℚ := i.high / i.denominator

/-- The number lies in the interval. -/
def Admits (x : ℚ) : Prop :=
  if i.closed then i.lowEnd ≤ x ∧ x ≤ i.highEnd else i.lowEnd < x ∧ x < i.highEnd

/-- What the interval of a binary number is like: it lies above zero around the number, is not too
narrow for a grid of seventeen digits, and not too near to zero for the search for its
magnitude. -/
structure Proper (i : Interval) : Prop where
  denominator_pos : 0 < i.denominator
  low_pos : 0 < i.low
  low_lt : i.low < i.value
  lt_high : i.value < i.high
  high_le : i.high ≤ 2 * i.value
  wide : 10 ^ 16 * i.low + i.value < 10 ^ 16 * i.high
  near : ∃ k ≤ 400, i.denominator ≤ i.value * 10 ^ k

variable {i} (h : i.Proper) {e : Int} {n : Nat}

include h in
theorem denominator_cast_pos : (0 : ℚ) < i.denominator := by exact_mod_cast h.denominator_pos

include h in
/-- A point of a grid is in the interval if the number that it stands for is. -/
theorem contains_iff : i.contains n e = true ↔ i.Admits (n * 10 ^ e) := by
  have unit : (0 : ℚ) < 10 ^ (-e).toNat := by positivity
  have denominator := denominator_cast_pos h
  have point : (n : ℚ) * 10 ^ e = (n * 10 ^ e.toNat : ℚ) / 10 ^ (-e).toNat := by
    rw [zpow_eq_div, mul_div_assoc]
  rw [point]
  unfold contains Admits lowEnd highEnd
  simp only [Nat.pow_eq]
  split
  · rw [div_le_div_iff₀ denominator unit, div_le_div_iff₀ unit denominator, Bool.and_eq_true,
      decide_eq_true_eq, decide_eq_true_eq]
    norm_cast
  · rw [div_lt_div_iff₀ denominator unit, div_lt_div_iff₀ unit denominator, Bool.and_eq_true,
      decide_eq_true_eq, decide_eq_true_eq]
    norm_cast

include h in
theorem below_le : (i.below e : ℚ) * 10 ^ e ≤ i.number := by
  have unit : (0 : ℚ) < 10 ^ (-e).toNat := by positivity
  have denominator := denominator_cast_pos h
  rw [zpow_eq_div, ← mul_div_assoc, number, div_le_div_iff₀ unit denominator]
  have floor : i.below e * (i.denominator * 10 ^ e.toNat) ≤ i.value * 10 ^ (-e).toNat :=
    Nat.div_mul_le_self _ _
  have : i.below e * 10 ^ e.toNat * i.denominator ≤ i.value * 10 ^ (-e).toNat := by
    rwa [mul_assoc, mul_comm (10 ^ _)]
  exact_mod_cast this

include h in
theorem lt_below_succ : i.number < (i.below e + 1 : ℚ) * 10 ^ e := by
  have unit : (0 : ℚ) < 10 ^ (-e).toNat := by positivity
  have denominator := denominator_cast_pos h
  rw [zpow_eq_div, ← mul_div_assoc, number, div_lt_div_iff₀ denominator unit]
  have positive : 0 < i.denominator * 10 ^ e.toNat := Nat.mul_pos h.denominator_pos (by positivity)
  have floor : i.value * 10 ^ (-e).toNat < (i.below e + 1) * (i.denominator * 10 ^ e.toNat) :=
    (Nat.div_lt_iff_lt_mul positive).1 (Nat.lt_succ_self _)
  have : i.value * 10 ^ (-e).toNat < (i.below e + 1) * 10 ^ e.toNat * i.denominator := by
    rwa [mul_assoc, mul_comm (10 ^ _)]
  exact_mod_cast this

/-- What stands for the number on a grid is one of its two neighbours there, in the interval. -/
theorem hit?_eq_some {n : Nat} (found : i.hit? e = some n) :
    i.contains n e = true ∧ n ≠ 0 ∧ (n = i.below e ∨ n = i.below e + 1) := by
  unfold hit? at found
  dsimp only at found
  split at found
  · rename_i first second
    rw [Bool.and_eq_true, bne_iff_ne] at first
    split at found
    · obtain rfl := Option.some.inj found
      exact ⟨first.2, first.1, Or.inl rfl⟩
    · obtain rfl := Option.some.inj found
      exact ⟨second, by omega, Or.inr rfl⟩
  · rename_i first second
    rw [Bool.and_eq_true, bne_iff_ne] at first
    obtain rfl := Option.some.inj found
    exact ⟨first.2, first.1, Or.inl rfl⟩
  · rename_i second
    obtain rfl := Option.some.inj found
    exact ⟨second, by omega, Or.inr rfl⟩
  · contradiction

/-- A grid without a hit has neither neighbour in the interval. -/
theorem hit?_eq_none (missed : i.hit? e = none) :
    (i.below e ≠ 0 → i.contains (i.below e) e = false) ∧ i.contains (i.below e + 1) e = false := by
  unfold hit? at missed
  dsimp only at missed
  split at missed <;> first | contradiction | skip
  rename_i first second
  refine ⟨fun nonzero => ?_, second⟩
  simpa [nonzero] using first

/-! The magnitude. -/

theorem places_spec {fuel j k : Nat} (tried : j ≤ k + fuel)
    (reached : i.denominator ≤ i.value * 10 ^ j) :
    k ≤ i.places fuel k ∧ i.denominator ≤ i.value * 10 ^ i.places fuel k ∧
      ∀ l, k ≤ l → l < i.places fuel k → i.value * 10 ^ l < i.denominator := by
  induction fuel generalizing k with
  | zero =>
    have enough : 10 ^ j ≤ 10 ^ k := Nat.pow_le_pow_right (by decide) tried
    exact ⟨le_rfl, reached.trans (Nat.mul_le_mul_left _ enough),
      fun l above below => absurd below (Nat.not_lt.2 above)⟩
  | succ fuel ih =>
    unfold places
    split
    · rename_i here
      exact ⟨le_rfl, here, fun l above below => absurd below (Nat.not_lt.2 above)⟩
    · rename_i short
      obtain ⟨above, enough, least⟩ := ih (k := k + 1) (by omega)
      refine ⟨by omega, enough, fun l from_k below => ?_⟩
      rcases Nat.eq_or_lt_of_le from_k with rfl | later
      · exact Nat.not_le.1 short
      · exact least l later below

/-- A number lies between the powers of ten that its count of digits names. -/
theorem length_toDigits_spec {n : Nat} (nonzero : n ≠ 0) :
    ∃ k, (Nat.toDigits 10 n).length = k + 1 ∧ 10 ^ k ≤ n ∧ n < 10 ^ (k + 1) := by
  have digits : ∀ {k}, 0 < k → ((Nat.toDigits 10 n).length ≤ k ↔ n < 10 ^ k) :=
    Nat.length_toDigits_le_iff (by decide)
  obtain ⟨k, count⟩ : ∃ k, (Nat.toDigits 10 n).length = k + 1 :=
    ⟨_, (Nat.succ_pred_eq_of_pos (List.length_pos_of_ne_nil Nat.toDigits_ne_nil)).symm⟩
  rw [count] at digits
  refine ⟨k, count, ?_, (digits (Nat.succ_pos k)).1 le_rfl⟩
  rcases Nat.eq_zero_or_pos k with rfl | positive
  · simpa using Nat.one_le_iff_ne_zero.2 nonzero
  · by_contra less
    exact absurd ((digits positive).2 (Nat.not_le.1 less)) (by omega)

include h in
/-- The magnitude is the power of ten next above the number. -/
theorem magnitude_spec : (10 : ℚ) ^ (i.magnitude - 1) ≤ i.number ∧ i.number < 10 ^ i.magnitude := by
  have denominator := denominator_cast_pos h
  unfold magnitude
  dsimp only
  split
  · rename_i fraction
    have small : i.value < i.denominator := by
      simpa [Nat.div_eq_zero_iff, h.denominator_pos.ne'] using fraction
    obtain ⟨j, bounded, near⟩ := h.near
    have tried : j ≤ 1 + 400 := by omega
    obtain ⟨one, enough, least⟩ := places_spec tried near
    obtain ⟨k, count⟩ : ∃ k, i.places 400 1 = k + 1 := ⟨_, (Nat.sub_add_cancel one).symm⟩
    rw [count] at enough least ⊢
    have lower : (1 : ℤ) - ((k + 1 : ℕ) : ℤ) - 1 = -((k + 1 : ℕ) : ℤ) := by omega
    have upper : (1 : ℤ) - ((k + 1 : ℕ) : ℤ) = -(k : ℤ) := by omega
    have before : i.value * 10 ^ k < i.denominator := by
      rcases Nat.eq_zero_or_pos k with rfl | positive
      · simpa using small
      · exact least k positive (Nat.lt_succ_self k)
    rw [lower, upper, zpow_neg, zpow_neg, zpow_natCast, zpow_natCast, number, inv_eq_one_div,
      inv_eq_one_div, div_le_div_iff₀ (by positivity) denominator,
      div_lt_div_iff₀ denominator (by positivity)]
    simp only [one_mul]
    exact ⟨by exact_mod_cast enough, by exact_mod_cast before⟩
  · rename_i whole
    obtain ⟨k, count, low, high⟩ := length_toDigits_spec whole
    have exponent : ((k + 1 : ℕ) : ℤ) - 1 = k := by omega
    have least := (Nat.le_div_iff_mul_le h.denominator_pos).1 low
    have greatest := (Nat.div_lt_iff_lt_mul h.denominator_pos).1 high
    rw [count, exponent, zpow_natCast, zpow_natCast, number, le_div_iff₀ denominator,
      div_lt_iff₀ denominator]
    exact ⟨by exact_mod_cast least, by exact_mod_cast greatest⟩

/-! The search. -/

include h in
/-- A step of the grid of seventeen digits is smaller than the interval. -/
theorem step_lt_width : (10 : ℚ) ^ (i.magnitude - 17) < i.highEnd - i.lowEnd := by
  have denominator := denominator_cast_pos h
  have wide : (10 : ℚ) ^ 16 * i.low + i.value < 10 ^ 16 * i.high := by exact_mod_cast h.wide
  have sixteen : (i.magnitude - 1 - (i.magnitude - 17)).toNat = 16 := by omega
  have steps : 10 ^ 16 * (10 : ℚ) ^ (i.magnitude - 17) ≤ i.value / i.denominator := by
    rw [← sixteen, ← ten_zpow_eq (by omega)]
    exact (magnitude_spec h).1
  have width : i.value / i.denominator < 10 ^ 16 * (i.highEnd - i.lowEnd) := by
    rw [highEnd, lowEnd, ← sub_div, ← mul_div_assoc]
    exact (div_lt_div_iff_of_pos_right denominator).2 (by linarith)
  exact lt_of_mul_lt_mul_left (steps.trans_lt width) (by positivity)

include h in
theorem lowEnd_lt_number : 0 < i.lowEnd ∧ i.lowEnd < i.number ∧ i.number < i.highEnd := by
  have denominator := denominator_cast_pos h
  have low : (0 : ℚ) < i.low := by exact_mod_cast h.low_pos
  exact ⟨div_pos low denominator,
    (div_lt_div_iff_of_pos_right denominator).2 (by exact_mod_cast h.low_lt),
    (div_lt_div_iff_of_pos_right denominator).2 (by exact_mod_cast h.lt_high)⟩

/-- What lies strictly between the ends is admitted. -/
theorem admits_of_lt {x : ℚ} (low : i.lowEnd < x) (high : x < i.highEnd) : i.Admits x := by
  unfold Admits
  split
  · exact ⟨low.le, high.le⟩
  · exact ⟨low, high⟩

/-- What lies between numbers of the interval is in the interval. -/
theorem Admits.between {x y z : ℚ} (first : i.Admits x) (last : i.Admits z) (le : x ≤ y)
    (le' : y ≤ z) : i.Admits y := by
  unfold Admits at *
  split at first
  · rename_i closed
    rw [if_pos closed] at last ⊢
    exact ⟨first.1.trans le, le'.trans last.2⟩
  · rename_i closed
    rw [if_neg closed] at last ⊢
    exact ⟨first.1.trans_le le, le'.trans_lt last.2⟩

include h in
theorem admits_number : i.Admits i.number :=
  admits_of_lt (lowEnd_lt_number h).2.1 (lowEnd_lt_number h).2.2

theorem Admits.bounds {x : ℚ} (admitted : i.Admits x) : i.lowEnd ≤ x ∧ x ≤ i.highEnd := by
  unfold Admits at admitted
  split at admitted
  · exact admitted
  · exact ⟨admitted.1.le, admitted.2.le⟩

include h in
/-- Seventeen digits are enough: one of the neighbours on their grid stands for the number. -/
theorem hit?_of_seventeen : i.hit? (i.magnitude - 17) ≠ none := by
  intro missed
  obtain ⟨low, high⟩ := hit?_eq_none missed
  have step := step_lt_width h
  obtain ⟨positive, below, above⟩ := lowEnd_lt_number h
  have floor := below_le h (e := i.magnitude - 17)
  have ceiling := lt_below_succ h (e := i.magnitude - 17)
  -- if the neighbour below is not in the interval, then the next one is less than its width away
  by_cases inside : i.lowEnd < i.below (i.magnitude - 17) * 10 ^ (i.magnitude - 17)
  · have nonzero : i.below (i.magnitude - 17) ≠ 0 := by
      intro zero
      rw [zero, Nat.cast_zero, zero_mul] at inside
      exact absurd inside positive.not_gt
    have hit := (contains_iff h).2 (admits_of_lt inside (floor.trans_lt above))
    rw [low nonzero] at hit
    contradiction
  · have next : (i.below (i.magnitude - 17) + 1 : ℚ) * 10 ^ (i.magnitude - 17) < i.highEnd := by
      rw [add_mul, one_mul]
      linarith [not_lt.1 inside]
    have hit : i.contains (i.below (i.magnitude - 17) + 1) (i.magnitude - 17) = true :=
      (contains_iff h).2 (admits_of_lt (by push_cast; linarith) (by exact_mod_cast next))
    rw [high] at hit
    contradiction

include h in
/-- A grid without a hit has no point in the interval at all, since one of the neighbours would lie
between that point and the number. -/
theorem not_admits_of_hit?_eq_none (missed : i.hit? e = none) (nonzero : n ≠ 0) :
    ¬i.Admits (n * 10 ^ e) := by
  obtain ⟨below_out, above_out⟩ := hit?_eq_none missed
  have step : (0 : ℚ) < 10 ^ e := by positivity
  intro admitted
  rcases Nat.lt_or_ge (i.below e) n with above | below
  · have next : ((i.below e + 1 : ℕ) : ℚ) * 10 ^ e ≤ n * 10 ^ e := by
      gcongr
      exact above
    have beyond : i.number ≤ (i.below e + 1 : ℕ) * 10 ^ e := by
      push_cast
      exact (lt_below_succ h).le
    have inside := (contains_iff h).2 ((admits_number h).between admitted beyond next)
    rw [above_out] at inside
    contradiction
  · have next : (n : ℚ) * 10 ^ e ≤ i.below e * 10 ^ e := by
      gcongr
    have inside := (contains_iff h).2 (admitted.between (admits_number h) next (below_le h))
    rw [below_out (by omega)] at inside
    contradiction

/-- The search ends with the first hit, on a grid that is no finer than one known to have a hit. -/
theorem search_spec {fuel : Nat} {e : Int} {k : Nat} (tried : k < fuel)
    (hit : i.hit? (e - k) ≠ none) :
    i.hit? (i.search fuel e).exponent = some (i.search fuel e).significand ∧
      e - k ≤ (i.search fuel e).exponent ∧ (i.search fuel e).exponent ≤ e ∧
      ∀ l, (i.search fuel e).exponent < l → l ≤ e → i.hit? l = none := by
  induction fuel generalizing e k with
  | zero => contradiction
  | succ fuel ih =>
    unfold search
    split
    · rename_i n found
      exact ⟨found, Int.sub_le_self e (Int.natCast_nonneg k), le_rfl,
        fun l above below => absurd above (not_lt.2 below)⟩
    · rename_i missed
      cases k with
      | zero => exact absurd missed (by simpa using hit)
      | succ k =>
        have finer : e - ((k + 1 : ℕ) : ℤ) = e - 1 - k := by omega
        rw [finer] at hit
        obtain ⟨found, lower, upper, first⟩ := ih (by omega) hit
        refine ⟨found, by omega, by omega, fun l above below => ?_⟩
        rcases Int.lt_or_eq_of_le below with before | rfl
        · exact first l above (by omega)
        · exact missed

/-! No power of ten lies between the number and a neighbour of it, since it would be a point of the
same grid. -/

include h in
theorem below_lt (le : e ≤ i.magnitude) : i.below e < 10 ^ (i.magnitude - e).toNat := by
  have step : (0 : ℚ) < 10 ^ e := by positivity
  have below : (i.below e : ℚ) * 10 ^ e < 10 ^ (i.magnitude - e).toNat * 10 ^ e := by
    rw [← ten_zpow_eq le]
    exact (below_le h).trans_lt (magnitude_spec h).2
  exact_mod_cast lt_of_mul_lt_mul_right below step.le

include h in
theorem le_below (le : e ≤ i.magnitude - 1) :
    10 ^ (i.magnitude - 1 - e).toNat ≤ i.below e := by
  have step : (0 : ℚ) < 10 ^ e := by positivity
  have below : (10 : ℚ) ^ (i.magnitude - 1 - e).toNat * 10 ^ e < (i.below e + 1) * 10 ^ e := by
    rw [← ten_zpow_eq le]
    exact (magnitude_spec h).1.trans_lt (lt_below_succ h)
  apply Nat.lt_succ_iff.1
  exact_mod_cast lt_of_mul_lt_mul_right below step.le

include h in
theorem hit?_bounds (found : i.hit? e = some n) (le : e ≤ i.magnitude) :
    n ≤ 10 ^ (i.magnitude - e).toNat ∧
      (10 : ℚ) ^ (i.magnitude - 1) ≤ n * 10 ^ e ∧ (n * 10 ^ e : ℚ) ≤ 10 ^ i.magnitude := by
  obtain ⟨-, nonzero, neighbour⟩ := hit?_eq_some found
  have below := below_lt h le
  have top : n ≤ 10 ^ (i.magnitude - e).toNat := by
    rcases neighbour with rfl | rfl <;> omega
  refine ⟨top, ?_, ?_⟩
  · rcases neighbour with rfl | rfl
    · -- on the grid of the magnitude itself the neighbour below is zero
      have coarse : e ≤ i.magnitude - 1 := by
        by_contra same
        have zero : (i.magnitude - e).toNat = 0 := by omega
        rw [zero, pow_zero, Nat.lt_one_iff] at below
        exact nonzero below
      rw [ten_zpow_eq coarse]
      gcongr
      exact_mod_cast le_below h coarse
    · push_cast
      exact ((magnitude_spec h).1.trans_lt (lt_below_succ h)).le
  · rw [ten_zpow_eq le]
    gcongr
    exact_mod_cast top

include h in
/-- On a grid whose step is a power of ten beyond the number, no point is near enough. -/
theorem not_admits_of_magnitude_lt (lt : i.magnitude < e) (nonzero : n ≠ 0) :
    ¬i.Admits (n * 10 ^ e) := by
  have one : (1 : ℚ) ≤ n := by exact_mod_cast Nat.one_le_iff_ne_zero.2 nonzero
  have high : i.highEnd ≤ 2 * i.number := by
    rw [highEnd, number, ← mul_div_assoc]
    have := denominator_cast_pos h
    gcongr
    exact_mod_cast h.high_le
  obtain ⟨-, less⟩ := magnitude_spec h
  have positive : (0 : ℚ) < 10 ^ i.magnitude := by positivity
  intro admitted
  have : (10 : ℚ) ^ e < 10 ^ e := by
    calc (10 : ℚ) ^ e ≤ n * 10 ^ e := le_mul_of_one_le_left (by positivity) one
      _ ≤ i.highEnd := admitted.bounds.2
      _ ≤ 2 * i.number := high
      _ < 10 * 10 ^ i.magnitude := by linarith
      _ = 10 ^ (i.magnitude + 1) := by rw [zpow_add₀ (by norm_num), zpow_one, mul_comm]
      _ ≤ 10 ^ e := zpow_le_zpow_right₀ (by norm_num) lt
  exact lt_irrefl _ this

include h in
/-- What the search ends with: a decimal of at most seventeen digits in the interval, between the
powers of ten around the number, on the coarsest grid that has a point there. -/
theorem search_of_proper :
    let d := i.search gridCount i.magnitude
    i.Admits d.toRat ∧ d.significand ≠ 0 ∧ d.significand ≤ 10 ^ 17 ∧
      i.magnitude - 17 ≤ d.exponent ∧
      (10 : ℚ) ^ (i.magnitude - 1) ≤ d.toRat ∧ d.toRat ≤ 10 ^ i.magnitude ∧
      ∀ n e, n ≠ 0 → d.exponent < e → ¬i.Admits ((n : ℕ) * 10 ^ e) := by
  intro d
  have tried : 17 < gridCount := by decide
  obtain ⟨found, finest, coarsest, first⟩ := search_spec tried (hit?_of_seventeen h)
  change i.magnitude - 17 ≤ d.exponent at finest
  obtain ⟨inside, nonzero, -⟩ := hit?_eq_some found
  obtain ⟨top, least, greatest⟩ := hit?_bounds h found coarsest
  have seventeen : 10 ^ (i.magnitude - d.exponent).toNat ≤ 10 ^ 17 :=
    Nat.pow_le_pow_right (by decide) (by omega)
  refine ⟨(contains_iff h).1 inside, nonzero, top.trans seventeen, finest, least, greatest, ?_⟩
  intro n e point coarser
  rcases Int.lt_or_le i.magnitude e with beyond | within
  · exact not_admits_of_magnitude_lt h beyond point
  · exact not_admits_of_hit?_eq_none h (first e coarser within) point

end Interval

namespace Digits

/-- Zeros that move into the exponent do not change the decimal. -/
theorem stripped_spec (fuel : Nat) (d : Digits) (nonzero : d.significand ≠ 0) :
    (stripped fuel d).toRat = d.toRat ∧ (stripped fuel d).significand ≠ 0 ∧
      (stripped fuel d).significand ≤ d.significand ∧ d.exponent ≤ (stripped fuel d).exponent := by
  induction fuel generalizing d with
  | zero => exact ⟨rfl, nonzero, le_rfl, le_rfl⟩
  | succ fuel ih =>
    unfold stripped
    split
    · rename_i zero
      obtain ⟨k, tens⟩ := Nat.dvd_of_mod_eq_zero zero.2
      have quotient : d.significand / 10 = k := by omega
      rw [quotient]
      obtain ⟨same, stays, smaller, greater⟩ := ih ⟨k, d.exponent + 1⟩ (by dsimp only; omega)
      refine ⟨?_, stays, ?_, ?_⟩
      · rw [same, toRat, toRat, tens, zpow_add₀ (by norm_num), zpow_one]
        push_cast
        ring
      · exact smaller.trans (by dsimp only; omega)
      · exact le_trans (Int.le_add_one le_rfl) greater
    · exact ⟨rfl, nonzero, le_rfl, le_rfl⟩

end Digits

namespace Format
variable {f : Format} {m : Nat} {q : Int}

/-- The format is no larger than double precision. -/
structure Covered (f : Format) : Prop where
  leadingBit_le : f.leadingBit ≤ 2 ^ 52
  le_leastExponent : -1074 ≤ f.leastExponent

/-- The two formats that values have. -/
theorem covered_of_eq (basic : f = .single ∨ f = .double) : f.Covered := by
  rcases basic with rfl | rfl <;> exact ⟨by decide, by decide⟩

/-- The format has the number `m * 2 ^ q`, which is not zero. -/
structure Has (f : Format) (m : Nat) (q : Int) : Prop where
  positive : 0 < m
  lt : m < 2 * f.leadingBit
  le_exponent : f.leastExponent ≤ q

/-- The finite numbers that are read off bits are numbers of the format. -/
theorem has_of_decode {bits : Nat} {negative : Bool} (read : f.decode bits = .finite negative m q)
    (nonzero : m ≠ 0) : f.Has m q := by
  have leading : 0 < f.leadingBit := by simp [leadingBit, Nat.one_shiftLeft]
  have fraction : bits % f.leadingBit < f.leadingBit := Nat.mod_lt _ leading
  unfold decode at read
  dsimp only at read
  split at read
  · split at read <;> contradiction
  · split at read
    · obtain ⟨-, rfl, rfl⟩ := Datum.finite.inj read
      exact ⟨Nat.pos_of_ne_zero nonzero, by omega, le_rfl⟩
    · obtain ⟨-, rfl, rfl⟩ := Datum.finite.inj read
      exact ⟨Nat.pos_of_ne_zero nonzero, by omega, by omega⟩

/-- The number in the middle of the interval is the number itself. -/
theorem number_interval (f : Format) (m : Nat) (q : Int) : (f.interval m q).number = m * 2 ^ q := by
  have split : (2 : ℚ) ^ q = 4 * 2 ^ (q - 2) := by
    rw [zpow_sub₀ (by norm_num)]
    norm_num
    ring
  have opposite : -(q - 2) = 2 - q := by omega
  rw [split, zpow_eq_div, opposite]
  simp only [Interval.number, interval, Nat.one_shiftLeft]
  push_cast
  ring

theorem interval_proper (covered : f.Covered) (has : f.Has m q) : (f.interval m q).Proper := by
  obtain ⟨leading, exponent⟩ := covered
  obtain ⟨positive, lt, le⟩ := has
  have scale : 0 < 2 ^ (q - 2).toNat := by positivity
  constructor <;> simp only [interval, Nat.one_shiftLeft]
  · positivity
  · apply Nat.mul_pos _ scale
    split <;> omega
  · apply Nat.mul_lt_mul_of_pos_right _ scale
    split <;> omega
  · apply Nat.mul_lt_mul_of_pos_right _ scale
    omega
  · rw [← Nat.mul_assoc]
    apply Nat.mul_le_mul_right
    omega
  · rw [← Nat.mul_assoc, ← Nat.mul_assoc, ← Nat.add_mul]
    apply Nat.mul_lt_mul_of_pos_right _ scale
    split <;> omega
  · -- three bits are less than a decimal digit
    refine ⟨((2 - q).toNat + 2) / 3, by omega, ?_⟩
    calc 2 ^ (2 - q).toNat ≤ 2 ^ (3 * (((2 - q).toNat + 2) / 3)) :=
          Nat.pow_le_pow_right (by decide) (by omega)
      _ = (2 ^ 3) ^ (((2 - q).toNat + 2) / 3) := Nat.pow_mul 2 3 _
      _ ≤ 10 ^ (((2 - q).toNat + 2) / 3) := Nat.pow_le_pow_left (by decide) _
      _ ≤ 4 * m * 2 ^ (q - 2).toNat * 10 ^ (((2 - q).toNat + 2) / 3) :=
          Nat.le_mul_of_pos_left _ (by positivity)

/-- **The shortest decimal is read back**: it lies in the interval of the reals that round to the
number.  It has at most seventeen digits, counted from the first place of the number on, and no
power of ten lies between the two. -/
theorem shortest_spec (covered : f.Covered) (has : f.Has m q) :
    let d := f.shortest m q
    (f.interval m q).Admits d.toRat ∧ d.significand ≠ 0 ∧ d.significand ≤ 10 ^ 17 ∧
      ∃ k : Int, (10 : ℚ) ^ (k - 1) ≤ m * 2 ^ q ∧ (m * 2 ^ q : ℚ) < 10 ^ k ∧
        (10 : ℚ) ^ (k - 1) ≤ d.toRat ∧ d.toRat ≤ 10 ^ k ∧ k - 17 ≤ d.exponent := by
  have proper := interval_proper covered has
  obtain ⟨admitted, nonzero, digits, finest, least, greatest, -⟩ := Interval.search_of_proper proper
  obtain ⟨same, stays, smaller, coarser⟩ := Digits.stripped_spec 400 _ nonzero
  have magnitude := Interval.magnitude_spec proper
  rw [number_interval] at magnitude
  dsimp only [shortest]
  rw [same]
  exact ⟨admitted, stays, smaller.trans digits, _, magnitude.1, magnitude.2, least, greatest,
    finest.trans coarser⟩

/-- **No decimal of the interval is shorter**: none has fewer places, or more zeros at its end. -/
theorem exponent_le_shortest (covered : f.Covered) (has : f.Has m q) {n : Nat} {e : Int}
    (nonzero : n ≠ 0) (admitted : (f.interval m q).Admits (n * 10 ^ e)) :
    e ≤ (f.shortest m q).exponent := by
  obtain ⟨-, significand, -, -, -, -, coarsest⟩ :=
    Interval.search_of_proper (interval_proper covered has)
  obtain ⟨-, -, -, coarser⟩ := Digits.stripped_spec 400 _ significand
  by_contra above
  exact coarsest n e nonzero (coarser.trans_lt (not_le.1 above)) admitted

end Format

end ControlRecords.Decimal
