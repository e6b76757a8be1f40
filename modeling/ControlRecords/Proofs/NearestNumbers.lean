import Mathlib
import ControlRecords.Decimal.Reading
import ControlRecords.Proofs.ShortestDecimals

/-! # The nearest number of a format

Without their signs, the finite numbers of a format are counted by their bits: `Format.numberAt`
goes through them in order, in even steps within a binade and in steps twice as great in the next
one (`Format.numberAt_binade`).  Past the greatest number the count goes on as if there were no
infinity, so that a fraction overflows exactly if a number of that part is nearest to it.

A fraction *rounds* to the number that is nearest to it, or to the one with even bits if two are
(`Format.Rounds`); there is only one (`Format.Rounds.unique`).  Between two neighbours of the count
it is found by comparing the fraction with their mean (`Format.rounds_of_between`), and that is what
rounding a quotient does (`Format.exists_rounds_round`).  So the bits that are read from a decimal
are those of the number that the decimal rounds to (`exists_rounds_nearest`). -/
namespace ControlRecords.Decimal

/-- What lies in an interval, by its two ends. -/
theorem Interval.admits_iff {i : Interval} {x : ℚ} : i.Admits x ↔
    (i.lowEnd ≤ x ∧ (x = i.lowEnd → i.closed = true)) ∧
      x ≤ i.highEnd ∧ (x = i.highEnd → i.closed = true) := by
  unfold Admits
  split
  · rename_i closed
    simp [closed]
  · rename_i closed
    simp only [closed, lt_iff_le_and_ne]
    tauto

namespace Format
variable (f : Format)

theorem leadingBit_eq : f.leadingBit = 2 ^ f.fractionBits := Nat.one_shiftLeft _

theorem leadingBit_pos : 0 < f.leadingBit := by
  rw [leadingBit_eq]
  positivity

/-- The significand of the number with the bits. -/
def significandAt (n : Nat) : Nat :=
  if n < f.leadingBit then n else f.leadingBit + n % f.leadingBit

/-- The exponent of its last bit. -/
def exponentAt (n : Nat) : Int := f.leastExponent + (n / f.leadingBit - 1 : Nat)

/-- The number with the bits. -/
def numberAt (n : Nat) : ℚ := f.significandAt n * 2 ^ f.exponentAt n

variable {f} {bits n k m : Nat} {negative : Bool} {q : Int}

/-- What is read off bits is the number that they count. -/
theorem decode_eq_finite (read : f.decode bits = .finite negative m q) :
    bits % f.signBit < f.infinity ∧ m = f.significandAt (bits % f.signBit) ∧
      q = f.exponentAt (bits % f.signBit) := by
  have fraction : bits % f.signBit % f.leadingBit = bits % f.leadingBit :=
    Nat.mod_mul_left_mod ..
  have exponent : bits % f.signBit / f.leadingBit = bits / f.leadingBit % (f.topExponent + 1) :=
    Nat.mod_mul_left_div_self ..
  unfold decode at read
  dsimp only at read
  rw [infinity, ← Nat.div_lt_iff_lt_mul f.leadingBit_pos, significandAt, exponentAt, fraction,
    exponent]
  have top : bits / f.leadingBit % (f.topExponent + 1) < f.topExponent + 1 :=
    Nat.mod_lt _ (Nat.succ_pos _)
  generalize bits / f.leadingBit % (f.topExponent + 1) = e at *
  generalize bits % f.signBit = n at *
  split at read
  · split at read <;> contradiction
  · split at read
    · rename_i least
      obtain ⟨-, rfl, rfl⟩ := Datum.finite.inj read
      have below : n < f.leadingBit := by
        rwa [least, Nat.div_eq_zero_iff_lt f.leadingBit_pos] at exponent
      rw [if_pos below, ← fraction, Nat.mod_eq_of_lt below, least]
      exact ⟨by omega, rfl, by simp⟩
    · obtain ⟨-, rfl, rfl⟩ := Datum.finite.inj read
      have above : ¬n < f.leadingBit := by
        rw [← Nat.div_eq_zero_iff_lt f.leadingBit_pos]
        omega
      rw [if_neg above]
      exact ⟨by omega, rfl, rfl⟩

/-- The bits of a finite number are read as the number that they count, with its sign. -/
theorem decode_withSign (finite : n < f.infinity) :
    f.decode (f.withSign negative n) = .finite negative (f.significandAt n) (f.exponentAt n) := by
  have positive := f.leadingBit_pos
  have below : n / f.leadingBit < f.topExponent := (Nat.div_lt_iff_lt_mul positive).2 finite
  have signed : f.withSign negative n =
      negative.toNat * (f.topExponent + 1) * f.leadingBit + n := by
    cases negative <;> simp [withSign, signBit]
  have fraction : f.withSign negative n % f.leadingBit = n % f.leadingBit := by
    rw [signed, Nat.mul_add_mod']
  have quotient : f.withSign negative n / f.leadingBit =
      negative.toNat * (f.topExponent + 1) + n / f.leadingBit := by
    rw [signed, Nat.add_comm, Nat.add_mul_div_right _ _ positive, Nat.add_comm]
  have exponent : f.withSign negative n / f.leadingBit % (f.topExponent + 1) =
      n / f.leadingBit := by
    rw [quotient, Nat.mul_add_mod', Nat.mod_eq_of_lt (by omega)]
  have sign : (f.withSign negative n / f.leadingBit / (f.topExponent + 1) % 2 == 1) =
      negative := by
    rw [quotient, Nat.add_comm, Nat.add_mul_div_right _ _ (Nat.succ_pos _),
      Nat.div_eq_of_lt (by omega)]
    cases negative <;> rfl
  unfold decode
  dsimp only
  rw [sign, exponent, fraction, if_neg below.ne, significandAt, exponentAt]
  simp only [Nat.div_eq_zero_iff_lt positive]
  split
  · rename_i subnormal
    rw [Nat.mod_eq_of_lt subnormal, Nat.div_eq_of_lt subnormal]
    simp
  · rfl

/-! The count of the numbers. -/

/-- The significands of a binade start at the leading bit, or at zero in the first binade, whose
numbers are as close as those below it. -/
theorem significandAt_binade (leading : k = 0 ∨ f.leadingBit ≤ m) (lt : m < 2 * f.leadingBit) :
    f.significandAt (k * f.leadingBit + m) = m ∧
      f.exponentAt (k * f.leadingBit + m) = f.leastExponent + k := by
  have positive := f.leadingBit_pos
  rcases Nat.lt_or_ge m f.leadingBit with subnormal | normal
  · obtain rfl : k = 0 := leading.resolve_right (Nat.not_le.2 subnormal)
    simp [significandAt, exponentAt, subnormal, Nat.div_eq_of_lt subnormal]
  · obtain ⟨r, rfl⟩ := Nat.exists_eq_add_of_le normal
    have above : ¬k * f.leadingBit + (f.leadingBit + r) < f.leadingBit := by omega
    have split : k * f.leadingBit + (f.leadingBit + r) = (k + 1) * f.leadingBit + r := by ring
    have quotient : ((k + 1) * f.leadingBit + r) / f.leadingBit = k + 1 :=
      Nat.div_eq_of_lt_le (by omega) (by rw [Nat.succ_mul (k + 1)]; omega)
    rw [significandAt, if_neg above, exponentAt, split, quotient, Nat.mul_add_mod',
      Nat.mod_eq_of_lt (by omega), Nat.add_sub_cancel]
    exact ⟨rfl, rfl⟩

/-- The numbers of a binade, its end included. -/
theorem numberAt_binade (leading : k = 0 ∨ f.leadingBit ≤ m) (le : m ≤ 2 * f.leadingBit) :
    f.numberAt (k * f.leadingBit + m) = m * 2 ^ (f.leastExponent + k) := by
  have positive := f.leadingBit_pos
  rcases Nat.lt_or_eq_of_le le with lt | rfl
  · rw [numberAt, (significandAt_binade leading lt).1, (significandAt_binade leading lt).2]
  · have next : k * f.leadingBit + 2 * f.leadingBit = (k + 1) * f.leadingBit + f.leadingBit := by
      ring
    obtain ⟨significand, exponent⟩ :=
      significandAt_binade (f := f) (k := k + 1) (Or.inr le_rfl) (by omega)
    rw [next, numberAt, significand, exponent, Nat.cast_succ, ← add_assoc,
      zpow_add_one₀ (by norm_num)]
    push_cast
    ring

/-- Every number lies in a binade. -/
theorem exists_binade (f : Format) (n : Nat) :
    ∃ k m, n = k * f.leadingBit + m ∧ (k = 0 ∨ f.leadingBit ≤ m) ∧ m < 2 * f.leadingBit := by
  have positive := f.leadingBit_pos
  have split := Nat.div_add_mod' n f.leadingBit
  have rest := Nat.mod_lt n positive
  rcases Nat.eq_zero_or_pos (n / f.leadingBit) with zero | some
  · refine ⟨0, n, by simp, Or.inl rfl, ?_⟩
    rw [zero] at split
    omega
  · obtain ⟨k, quotient⟩ := Nat.exists_eq_add_of_le' some
    refine ⟨k, f.leadingBit + n % f.leadingBit, ?_, Or.inr (Nat.le_add_right ..), by omega⟩
    rw [quotient, Nat.succ_mul] at split
    omega

theorem numberAt_strictMono (f : Format) : StrictMono f.numberAt := by
  refine strictMono_nat_of_lt_succ fun n => ?_
  obtain ⟨k, m, rfl, leading, lt⟩ := f.exists_binade n
  rw [Nat.add_assoc, numberAt_binade leading lt.le,
    numberAt_binade (leading.imp_right Nat.le_succ_of_le) lt]
  gcongr
  exact Nat.lt_succ_self m

/-! What a fraction rounds to. -/

/-- Of all numbers in the count the one with the bits `n` is nearest to `x`, and `n` is even if
another number is as near. -/
structure Rounds (f : Format) (x : ℚ) (n : Nat) : Prop where
  nearest : ∀ k, |x - f.numberAt n| ≤ |x - f.numberAt k|
  even : ∀ k, k ≠ n → |x - f.numberAt n| = |x - f.numberAt k| → n % 2 = 0

/-- The fraction `x` rounds to the finite number `m * 2 ^ q` of the format. -/
def RoundsTo (f : Format) (x : ℚ) (m : Nat) (q : Int) : Prop :=
  ∃ n < f.infinity, m = f.significandAt n ∧ q = f.exponentAt n ∧ f.Rounds x n

variable {x a b : ℚ}

/-- The lesser of two numbers is as near as the greater one up to their mean. -/
theorem abs_sub_le_iff (lt : a < b) : |x - a| ≤ |x - b| ↔ 2 * x ≤ a + b := by
  rw [← sq_le_sq]
  constructor <;> intro <;> nlinarith

theorem abs_sub_ge_iff (lt : a < b) : |x - b| ≤ |x - a| ↔ a + b ≤ 2 * x := by
  rw [← sq_le_sq]
  constructor <;> intro <;> nlinarith

theorem abs_sub_eq_iff (lt : a < b) : |x - a| = |x - b| ↔ 2 * x = a + b := by
  rw [le_antisymm_iff, abs_sub_le_iff lt, abs_sub_ge_iff lt, le_antisymm_iff]

/-- What rounds to a number lies between its means with the two neighbours, of which it may be
one if the number is even.  Below zero there is no neighbour. -/
theorem rounds_iff : f.Rounds x n ↔
    (2 * x ≤ f.numberAt n + f.numberAt (n + 1) ∧
      (2 * x = f.numberAt n + f.numberAt (n + 1) → n % 2 = 0)) ∧
    ∀ k, n = k + 1 → f.numberAt k + f.numberAt n ≤ 2 * x ∧
      (2 * x = f.numberAt k + f.numberAt n → n % 2 = 0) := by
  have order := f.numberAt_strictMono
  constructor
  · intro rounds
    have next := order (Nat.lt_succ_self n)
    refine ⟨⟨(abs_sub_le_iff next).1 (rounds.nearest _), fun mean => ?_⟩, ?_⟩
    · exact rounds.even _ (Nat.succ_ne_self n) ((abs_sub_eq_iff next).2 mean)
    · rintro k rfl
      have before := order (Nat.lt_succ_self k)
      refine ⟨(abs_sub_ge_iff before).1 (rounds.nearest _), fun mean => ?_⟩
      exact rounds.even _ (Nat.succ_ne_self k).symm ((abs_sub_eq_iff before).2 mean).symm
  · rintro ⟨⟨upper, upperEven⟩, below⟩
    -- beyond its neighbours the other numbers are only farther away
    refine ⟨fun k => ?_, fun k other same => ?_⟩
    · rcases Nat.lt_trichotomy k n with less | rfl | greater
      · obtain ⟨j, rfl⟩ := Nat.exists_eq_add_of_lt less
        rw [abs_sub_ge_iff (order less)]
        linarith [(below (k + j) rfl).1, order.monotone (Nat.le_add_right k j)]
      · exact le_rfl
      · rw [abs_sub_le_iff (order greater)]
        linarith [order.monotone (Nat.succ_le_of_lt greater)]
    · rcases Nat.lt_or_gt_of_ne other with less | greater
      · obtain ⟨j, rfl⟩ := Nat.exists_eq_add_of_lt less
        obtain ⟨lower, lowerEven⟩ := below (k + j) rfl
        have mean := (abs_sub_eq_iff (order less)).1 same.symm
        exact lowerEven (by linarith [order.monotone (Nat.le_add_right k j)])
      · have mean := (abs_sub_eq_iff (order greater)).1 same
        exact upperEven (by linarith [order.monotone (Nat.succ_le_of_lt greater)])

/-- A fraction that does not exceed a number rounds to it or to a lesser one. -/
theorem Rounds.le_of_le (rounds : f.Rounds x n) (le : x ≤ f.numberAt k) : n ≤ k := by
  by_contra above
  have lt := f.numberAt_strictMono (Nat.not_le.1 above)
  linarith [(abs_sub_ge_iff lt).1 (rounds.nearest k)]

theorem Rounds.ge_of_ge (rounds : f.Rounds x n) (ge : f.numberAt k ≤ x) : k ≤ n := by
  by_contra below
  have lt := f.numberAt_strictMono (Nat.not_le.1 below)
  linarith [(abs_sub_le_iff lt).1 (rounds.nearest k)]

/-- A fraction rounds to one number only: of two, both would be even, and the number between them
nearer. -/
theorem Rounds.le (first : f.Rounds x n) (second : f.Rounds x k) : k ≤ n := by
  by_contra above
  have lt := Nat.not_le.1 above
  have same : |x - f.numberAt n| = |x - f.numberAt k| :=
    le_antisymm (first.nearest k) (second.nearest n)
  have mean := (abs_sub_eq_iff (f.numberAt_strictMono lt)).1 same
  have low := first.even k lt.ne' same
  have high := second.even n lt.ne same.symm
  have next := f.numberAt_strictMono (Nat.lt_succ_self n)
  have between := f.numberAt_strictMono (show n + 1 < k by omega)
  linarith [(abs_sub_le_iff next).1 (first.nearest (n + 1))]

theorem Rounds.unique (first : f.Rounds x n) (second : f.Rounds x k) : n = k :=
  Nat.le_antisymm (second.le first) (first.le second)

theorem RoundsTo.unique {m' : Nat} {q' : Int} (first : f.RoundsTo x m q)
    (second : f.RoundsTo x m' q') : m = m' ∧ q = q' := by
  obtain ⟨n, -, rfl, rfl, rounds⟩ := first
  obtain ⟨n', -, rfl, rfl, rounds'⟩ := second
  rw [rounds.unique rounds']
  exact ⟨rfl, rfl⟩

/-- From a number up to its mean with the next one a fraction rounds down. -/
theorem rounds_of_le_mean (le : f.numberAt n ≤ x)
    (mean : 2 * x ≤ f.numberAt n + f.numberAt (n + 1))
    (even : 2 * x = f.numberAt n + f.numberAt (n + 1) → n % 2 = 0) : f.Rounds x n := by
  refine rounds_iff.2 ⟨⟨mean, even⟩, ?_⟩
  rintro k rfl
  have before := f.numberAt_strictMono (Nat.lt_succ_self k)
  exact ⟨by linarith, fun same => absurd same (by linarith)⟩

/-- From the mean of two neighbours up to the greater one a fraction rounds up. -/
theorem rounds_of_mean_le (le : x ≤ f.numberAt (n + 1))
    (mean : f.numberAt n + f.numberAt (n + 1) ≤ 2 * x)
    (even : 2 * x = f.numberAt n + f.numberAt (n + 1) → (n + 1) % 2 = 0) :
    f.Rounds x (n + 1) := by
  have next := f.numberAt_strictMono (Nat.lt_succ_self (n + 1))
  refine rounds_iff.2 ⟨⟨by linarith, fun same => absurd same (by linarith)⟩, ?_⟩
  intro k equal
  obtain rfl := Nat.succ.inj equal
  exact ⟨mean, even⟩

/-! Rounding. -/

/-- A quotient in steps of a binade rounds to the nearest step. -/
theorem rounds_roundEven {a d : Nat} (fraction : 0 < f.fractionBits) (positive : 0 < d)
    (leading : k = 0 ∨ f.leadingBit ≤ a / d) (lt : a / d < 2 * f.leadingBit) :
    f.Rounds (a / d * 2 ^ (f.leastExponent + k)) (k * f.leadingBit + roundEven a d) := by
  have even : (k * f.leadingBit + a / d) % 2 = a / d % 2 := by
    obtain ⟨p, bits⟩ := Nat.exists_eq_add_of_le' fraction
    rw [leadingBit_eq, bits, pow_succ, ← mul_assoc, Nat.mul_add_mod']
  -- the two neighbours and the quotient in parts of a step
  obtain ⟨part, some, step⟩ : ∃ part : ℚ, 0 < part ∧ (2 : ℚ) ^ (f.leastExponent + k) = d * part :=
    ⟨2 ^ (f.leastExponent + k) / d, by positivity, (mul_div_cancel₀ _ (by positivity)).symm⟩
  have below : f.numberAt (k * f.leadingBit + a / d) = (a / d : ℕ) * (d * part) := by
    rw [numberAt_binade leading lt.le, step]
  have above : f.numberAt (k * f.leadingBit + a / d + 1) =
      (a / d : ℕ) * (d * part) + d * part := by
    rw [Nat.add_assoc, numberAt_binade (leading.imp_right Nat.le_succ_of_le) lt, step]
    push_cast
    ring
  have value : (a / d : ℚ) * 2 ^ (f.leastExponent + k) =
      (a / d : ℕ) * (d * part) + (a % d : ℕ) * part := by
    have division : (d * (a / d : ℕ) + (a % d : ℕ) : ℚ) = a := by
      exact_mod_cast Nat.div_add_mod a d
    have whole : (a / d : ℚ) * d = a := div_mul_cancel₀ _ (by positivity)
    rw [step, ← mul_assoc, whole, ← division]
    ring
  have least : (0 : ℚ) ≤ (a % d : ℕ) * part := by positivity
  have greatest : ((a % d : ℕ) : ℚ) * part ≤ d * part := by
    gcongr
    exact (Nat.mod_lt a positive).le
  have mean : (2 * ((a % d : ℕ) * part) : ℚ) = d * part ↔ 2 * (a % d) = d := by
    rw [← mul_assoc, mul_left_inj' some.ne']
    exact_mod_cast Iff.rfl
  rw [value, roundEven]
  split
  · rename_i down
    have half : (2 * ((a % d : ℕ) * part) : ℚ) ≤ d * part := by
      rw [← mul_assoc]
      gcongr
      exact_mod_cast (by omega : 2 * (a % d) ≤ d)
    refine rounds_of_le_mean (by linarith) (by linarith) fun same => ?_
    have equal := mean.1 (by linarith)
    omega
  · rename_i up
    have half : (d * part : ℚ) ≤ 2 * ((a % d : ℕ) * part) := by
      rw [← mul_assoc]
      gcongr
      exact_mod_cast (by omega : d ≤ 2 * (a % d))
    rw [← Nat.add_assoc]
    refine rounds_of_mean_le (by linarith) (by linarith) fun same => ?_
    have equal := mean.1 (by linarith)
    omega

/-- **Rounding finds the number that a quotient rounds to**, or infinity if that is beyond the
greatest number. -/
theorem exists_rounds_round (numerator : Nat) {denominator : Nat} (fraction : 0 < f.fractionBits)
    (least : f.leastExponent ≤ 0) (positive : 0 < denominator) :
    ∃ n, f.Rounds (numerator / denominator) n ∧
      f.round numerator denominator = min f.infinity n := by
  unfold round
  dsimp only
  generalize scaled : numerator <<< (-f.leastExponent).toNat = steps
  generalize count : (steps / denominator).log2 - f.fractionBits = binades
  refine ⟨_, ?_, rfl⟩
  have quotient : (numerator / denominator : ℚ) =
      steps / (denominator <<< binades : ℕ) * 2 ^ (f.leastExponent + binades) := by
    obtain ⟨p, opposite⟩ := Int.exists_eq_neg_ofNat least
    have power : (2 : ℚ) ^ (-(p : ℤ)) * 2 ^ p = 1 := by
      rw [zpow_neg, zpow_natCast, inv_mul_cancel₀ (by positivity)]
    rw [← scaled, opposite, Int.neg_neg, Int.toNat_natCast, Nat.shiftLeft_eq, Nat.shiftLeft_eq,
      zpow_add₀ (by norm_num), zpow_natCast]
    push_cast
    field_simp
    linear_combination -(numerator : ℚ) * power
  have division : steps / (denominator <<< binades) = steps / denominator / 2 ^ binades := by
    rw [Nat.shiftLeft_eq, Nat.div_div_eq_div_mul]
  have below : steps / (denominator <<< binades) < 2 * f.leadingBit := by
    rw [division, Nat.div_lt_iff_lt_mul (by positivity), leadingBit_eq, ← Nat.pow_succ',
      ← Nat.pow_add]
    exact Nat.lt_log2_self.trans_le (Nat.pow_le_pow_right (by decide) (by omega))
  have leading : binades = 0 ∨ f.leadingBit ≤ steps / (denominator <<< binades) := by
    refine Classical.or_iff_not_imp_left.2 fun coarser => ?_
    rw [division, Nat.le_div_iff_mul_le (by positivity), leadingBit_eq, ← Nat.pow_add]
    have nonzero : steps / denominator ≠ 0 := by
      intro zero
      rw [zero] at count
      simp at count
      omega
    exact (Nat.pow_le_pow_right (by decide) (by omega)).trans (Nat.log2_self_le nonzero)
  rw [quotient]
  refine rounds_roundEven fraction ?_ leading below
  rw [Nat.shiftLeft_eq]
  positivity

/-! The interval of a number. -/

theorem numberAt_succ (f : Format) (n : Nat) :
    f.numberAt (n + 1) = f.numberAt n + 2 ^ f.exponentAt n := by
  obtain ⟨k, m, rfl, leading, lt⟩ := f.exists_binade n
  rw [Nat.add_assoc, numberAt_binade leading lt.le,
    numberAt_binade (leading.imp_right Nat.le_succ_of_le) lt, (significandAt_binade leading lt).2]
  push_cast
  ring

/-- The step to a number from below is its own last bit, and half of it where a binade starts. -/
theorem exponentAt_pred (f : Format) (n : Nat) :
    f.exponentAt n = if f.significandAt (n + 1) = f.leadingBit ∧ n + 1 ≠ f.leadingBit
      then f.exponentAt (n + 1) - 1 else f.exponentAt (n + 1) := by
  have positive := f.leadingBit_pos
  obtain ⟨k, m, binade, leading, lt⟩ := f.exists_binade (n + 1)
  rw [binade, (significandAt_binade leading lt).1, (significandAt_binade leading lt).2]
  split
  · rename_i start
    obtain ⟨rfl, later⟩ := start
    have first : k ≠ 0 := by
      rintro rfl
      simp at later
    obtain ⟨j, rfl⟩ := Nat.exists_eq_add_one_of_ne_zero first
    have before : n = j * f.leadingBit + (2 * f.leadingBit - 1) := by
      rw [Nat.succ_mul] at binade
      omega
    rw [before, (significandAt_binade (Or.inr (by omega)) (by omega)).2]
    push_cast
    ring
  · rename_i inside
    have before : n = k * f.leadingBit + (m - 1) := by
      rcases leading with rfl | le <;> omega
    have leading' : k = 0 ∨ f.leadingBit ≤ m - 1 := by
      refine Classical.or_iff_not_imp_left.2 fun later => ?_
      have one : f.leadingBit ≤ k * f.leadingBit :=
        Nat.le_mul_of_pos_left _ (Nat.pos_of_ne_zero later)
      have le := leading.resolve_left later
      by_contra none
      exact inside ⟨by omega, by omega⟩
    rw [before, (significandAt_binade leading' (by omega)).2]

/-- The ends of the interval lie half a step away, but the lower one of a leading bit that stands
alone only a quarter. -/
theorem ends_interval (f : Format) (positive : 0 < m) (q : Int) :
    (f.interval m q).lowEnd =
        m * 2 ^ q - (if m = f.leadingBit then 2 ^ q / 4 else 2 ^ q / 2 : ℚ) ∧
      (f.interval m q).highEnd = m * 2 ^ q + 2 ^ q / 2 := by
  obtain ⟨quarter, step⟩ : ∃ quarter : ℚ, (2 : ℚ) ^ q = 4 * quarter := ⟨2 ^ q / 4, by ring⟩
  have parts : quarter = 2 ^ (q - 2).toNat / 2 ^ (2 - q).toNat := by
    have opposite : 2 - q = -(q - 2) := by omega
    rw [opposite, ← zpow_eq_div, zpow_sub₀ (by norm_num), step]
    norm_num
  have low : ((if m = f.leadingBit then 4 * m - 1 else 4 * m - 2 : ℕ) : ℚ) =
      4 * m - if m = f.leadingBit then 1 else 2 := by
    split <;> rw [Nat.cast_sub (by omega)] <;> push_cast <;> rfl
  simp only [Interval.lowEnd, Interval.highEnd, interval, Nat.one_shiftLeft, Nat.cast_mul, low,
    Nat.cast_pow, Nat.cast_ofNat, mul_div_assoc, ← parts, step]
  constructor
  · split <;> ring
  · push_cast
    ring

theorem significandAt_pos (f : Format) (n : Nat) : 0 < f.significandAt (n + 1) := by
  have := f.leadingBit_pos
  unfold significandAt
  split <;> omega

/-- So they are the means with the neighbours; only the least number with a leading bit has its
lower neighbour farther away than its interval says. -/
theorem means_interval (f : Format) (n : Nat) :
    let i := f.interval (f.significandAt (n + 1)) (f.exponentAt (n + 1))
    2 * i.highEnd = f.numberAt (n + 1) + f.numberAt (n + 1 + 1) ∧
      f.numberAt n + f.numberAt (n + 1) ≤ 2 * i.lowEnd ∧
      (n + 1 ≠ f.leadingBit → 2 * i.lowEnd = f.numberAt n + f.numberAt (n + 1)) := by
  have positive := f.significandAt_pos n
  have below := f.numberAt_succ n
  have above := f.numberAt_succ (n + 1)
  have start : f.exponentAt n = _ := f.exponentAt_pred n
  have value : f.numberAt (n + 1) = f.significandAt (n + 1) * 2 ^ f.exponentAt (n + 1) := rfl
  obtain ⟨low, high⟩ := f.ends_interval positive (f.exponentAt (n + 1))
  dsimp only
  rw [low, high]
  have half : (2 : ℚ) ^ (f.exponentAt (n + 1) - 1) = 2 ^ f.exponentAt (n + 1) / 2 := by
    rw [zpow_sub_one₀ (by norm_num)]
    rfl
  have step : (0 : ℚ) < 2 ^ f.exponentAt (n + 1) := by positivity
  split at start
  · rename_i leading
    rw [start, half] at below
    rw [if_pos leading.1]
    exact ⟨by linarith, by linarith, fun _ => by linarith⟩
  · rename_i inside
    rw [start] at below
    refine ⟨by linarith, by split <;> linarith, fun common => ?_⟩
    rw [if_neg fun leading => inside ⟨leading, common⟩]
    linarith

/-- A number is even with its significand. -/
theorem significandAt_mod_two (fraction : 0 < f.fractionBits) :
    f.significandAt n % 2 = n % 2 := by
  obtain ⟨p, bits⟩ := Nat.exists_eq_add_of_le' fraction
  obtain ⟨k, m, rfl, leading, lt⟩ := f.exists_binade n
  rw [(significandAt_binade leading lt).1, leadingBit_eq, bits, pow_succ, ← mul_assoc,
    Nat.mul_add_mod']

/-- The ends belong to the interval of an even number. -/
theorem closed_interval_iff (fraction : 0 < f.fractionBits) :
    (f.interval (f.significandAt n) q).closed = true ↔ n % 2 = 0 := by
  rw [← significandAt_mod_two fraction]
  exact beq_iff_eq

/-- A fraction in the interval of a number rounds to it. -/
theorem rounds_of_admits (fraction : 0 < f.fractionBits)
    (admitted : (f.interval (f.significandAt (n + 1)) (f.exponentAt (n + 1))).Admits x) :
    f.Rounds x (n + 1) := by
  obtain ⟨high, low, -⟩ := f.means_interval n
  have even := closed_interval_iff (n := n + 1) (q := f.exponentAt (n + 1)) fraction
  obtain ⟨⟨above, first⟩, below, last⟩ := Interval.admits_iff.1 admitted
  refine rounds_iff.2 ⟨⟨by linarith, fun mean => even.1 (last (by linarith))⟩, ?_⟩
  intro k next
  obtain rfl := Nat.succ.inj next
  exact ⟨by linarith, fun mean => even.1 (first (by linarith))⟩

/-- Apart from the least number with a leading bit, only such a fraction does. -/
theorem admits_of_rounds (fraction : 0 < f.fractionBits) (common : n + 1 ≠ f.leadingBit)
    (rounds : f.Rounds x (n + 1)) :
    (f.interval (f.significandAt (n + 1)) (f.exponentAt (n + 1))).Admits x := by
  obtain ⟨high, -, low⟩ := f.means_interval n
  have even := closed_interval_iff (n := n + 1) (q := f.exponentAt (n + 1)) fraction
  obtain ⟨⟨below, last⟩, others⟩ := rounds_iff.1 rounds
  obtain ⟨above, first⟩ := others n rfl
  have lower := low common
  exact Interval.admits_iff.2
    ⟨⟨by linarith, fun mean => even.2 (first (by linarith))⟩,
      by linarith, fun mean => even.2 (last (by linarith))⟩

/-- What stands for a finite number of the format, by lying in its interval, rounds to it. -/
theorem roundsTo_of_decode (fraction : 0 < f.fractionBits)
    (read : f.decode bits = .finite negative m q)
    (stands : if m = 0 then x = 0 else (f.interval m q).Admits x) : f.RoundsTo x m q := by
  obtain ⟨finite, rfl, rfl⟩ := decode_eq_finite read
  refine ⟨_, finite, rfl, rfl, ?_⟩
  generalize bits % f.signBit = n at *
  cases n with
  | zero =>
    have null : f.significandAt 0 = 0 := if_pos f.leadingBit_pos
    have zero : f.numberAt 0 = 0 := by simp [numberAt, null]
    have next := f.numberAt_strictMono (Nat.lt_succ_self 0)
    rw [if_pos null] at stands
    exact rounds_of_le_mean (by rw [stands, zero]) (by linarith) fun _ => rfl
  | succ n =>
    rw [if_neg (significandAt_pos f n).ne'] at stands
    exact rounds_of_admits fraction stands

/-- What rounds to a number lies in its interval, unless it is the least one with a leading bit. -/
theorem RoundsTo.admits (fraction : 0 < f.fractionBits) (nonzero : m ≠ 0)
    (common : ¬(m = f.leadingBit ∧ q = f.leastExponent)) (rounds : f.RoundsTo x m q) :
    (f.interval m q).Admits x := by
  obtain ⟨n, -, rfl, rfl, rounds⟩ := rounds
  cases n with
  | zero => exact absurd (if_pos f.leadingBit_pos) nonzero
  | succ n =>
    refine admits_of_rounds fraction (fun least => common ?_) rounds
    rw [significandAt, exponentAt, least, if_neg (lt_irrefl _), Nat.mod_self,
      Nat.div_self f.leadingBit_pos]
    simp

end Format

/-! Reading a decimal. -/

/-- Three bits are less than a decimal digit. -/
theorem two_pow_le_ten_pow {j k : ℕ} (le : j ≤ 3 * k) : (2 : ℚ) ^ j ≤ 10 ^ k :=
  calc (2 : ℚ) ^ j ≤ 2 ^ (3 * k) := pow_le_pow_right₀ (by norm_num) le
    _ = (2 ^ 3) ^ k := pow_mul 2 3 k
    _ ≤ 10 ^ k := pow_le_pow_left₀ (by norm_num) (by norm_num) k

/-- Double precision reaches from `2 ^ -1074` to less than `10 ^ 400`. -/
theorem numberAt_double : Format.double.numberAt 0 = 0 ∧
    Format.double.numberAt 1 = 2 ^ (-1074 : ℤ) ∧
    Format.double.numberAt Format.double.infinity ≤ 10 ^ 400 := by
  have binade : Format.double.infinity =
      2045 * Format.double.leadingBit + 2 * Format.double.leadingBit := by decide
  have leading : Format.double.leadingBit = 2 ^ 52 := by decide
  have least : Format.double.leastExponent = -1074 := by decide
  refine ⟨?_, ?_, ?_⟩
  · have zero := Format.numberAt_binade (f := .double) (k := 0) (m := 0) (Or.inl rfl) (by omega)
    simpa using zero
  · have one := Format.numberAt_binade (f := .double) (k := 0) (m := 1) (Or.inl rfl) (by omega)
    simpa [least] using one
  · have top : (-1074 : ℤ) + (2045 : ℕ) = (971 : ℕ) := rfl
    have width : ((2 * 2 ^ 52 : ℕ) : ℚ) = 2 ^ 53 := by norm_num
    rw [binade, Format.numberAt_binade (Or.inr (by omega)) le_rfl, leading, least, top,
      zpow_natCast, width, ← pow_add]
    exact two_pow_le_ten_pow (by decide)

/-- A decimal lies between the powers of ten that its count of digits names. -/
theorem magnitude_bounds {m : Nat} (nonzero : m ≠ 0) (e : Int) :
    (10 : ℚ) ^ ((Nat.toDigits 10 m).length + e - 1) ≤ m * 10 ^ e ∧
      (m * 10 ^ e : ℚ) < 10 ^ ((Nat.toDigits 10 m).length + e) := by
  obtain ⟨k, count, least, greatest⟩ := Interval.length_toDigits_spec nonzero
  have low : ((k + 1 : ℕ) : ℤ) + e - 1 = k + e := by omega
  rw [count, low, zpow_add₀ (by norm_num), zpow_add₀ (by norm_num), zpow_natCast, zpow_natCast]
  constructor
  · gcongr
    exact_mod_cast least
  · gcongr
    exact_mod_cast greatest

/-- A decimal that ends more than 400 places behind the point rounds to zero. -/
theorem rounds_zero_of_tiny {m : Nat} {e : Int}
    (tiny : m = 0 ∨ (Nat.toDigits 10 m).length + e < -400) :
    Format.double.Rounds (m * 10 ^ e) 0 := by
  obtain ⟨zero, one, -⟩ := numberAt_double
  have small : (2 * (m * 10 ^ e) : ℚ) ≤ 2 ^ (-1074 : ℤ) := by
    by_cases null : m = 0
    · rw [null, Nat.cast_zero, zero_mul, mul_zero]
      positivity
    · have below : (Nat.toDigits 10 m).length + e ≤ -((401 : ℕ) : ℤ) := by
        have := tiny.resolve_left null
        omega
      calc (2 * (m * 10 ^ e) : ℚ)
          ≤ 2 * 10 ^ (-((401 : ℕ) : ℤ)) := by
            gcongr
            exact (magnitude_bounds null e).2.le.trans (zpow_le_zpow_right₀ (by norm_num) below)
        _ ≤ 2 * 2 ^ (-((1075 : ℕ) : ℤ)) := by
            rw [zpow_neg, zpow_neg, zpow_natCast, zpow_natCast]
            gcongr
            exact two_pow_le_ten_pow (by decide)
        _ = 2 ^ (-1074 : ℤ) := by
            rw [mul_comm, ← zpow_add_one₀ (by norm_num)]
            rfl
  refine Format.rounds_of_le_mean ?_ ?_ fun _ => rfl
  · rw [zero]
    positivity
  · rwa [zero, zero_add, one]

/-- One with more than 400 digits before the point is beyond the greatest number. -/
theorem infinity_le_of_huge {m n : Nat} {e : Int} (nonzero : m ≠ 0)
    (huge : 400 < (Nat.toDigits 10 m).length + e) (rounds : Format.double.Rounds (m * 10 ^ e) n) :
    Format.double.infinity ≤ n := by
  obtain ⟨-, -, infinity⟩ := numberAt_double
  refine rounds.ge_of_ge ?_
  calc Format.double.numberAt Format.double.infinity
      ≤ 10 ^ 400 := infinity
    _ = 10 ^ ((400 : ℕ) : ℤ) := (zpow_natCast _ _).symm
    _ ≤ 10 ^ ((Nat.toDigits 10 m).length + e - 1) :=
      zpow_le_zpow_right₀ (by norm_num) (by omega)
    _ ≤ m * 10 ^ e := (magnitude_bounds nonzero e).1

/-- **The bits of a decimal are those of the number that it rounds to**, or of infinity if that is
beyond the greatest number. -/
theorem exists_rounds_nearest (m : Nat) (e : Int) :
    ∃ n, Format.double.Rounds (m * 10 ^ e) n ∧ nearest m e = min Format.double.infinity n := by
  have quotient : ((m * Nat.pow 10 e.toNat : ℕ) / (Nat.pow 10 (-e).toNat : ℕ) : ℚ) =
      m * 10 ^ e := by
    rw [zpow_eq_div, ← mul_div_assoc]
    simp
  have positive : 0 < Nat.pow 10 (-e).toNat := Nat.pow_pos (by decide)
  obtain ⟨n, rounds, bits⟩ := Format.exists_rounds_round (f := .double) (m * Nat.pow 10 e.toNat)
    (by decide) (by decide) positive
  rw [quotient] at rounds
  refine ⟨n, rounds, ?_⟩
  unfold nearest
  dsimp only
  split
  · rename_i tiny
    rw [rounds.unique (rounds_zero_of_tiny tiny), Nat.min_zero]
  · rename_i common
    split
    · rename_i huge
      have nonzero : m ≠ 0 := fun zero => common (Or.inl zero)
      exact (Nat.min_eq_left (infinity_le_of_huge nonzero huge rounds)).symm
    · exact bits

/-- A finite single-precision number has its place among the doubles, and so has what rounds to
it. -/
theorem exists_roundsTo_double {f : Format} (basic : f = .single ∨ f = .double) {m n : Nat}
    {q e : Int} (rounds : f.RoundsTo (n * 10 ^ e) m q) :
    ∃ m' q', Format.double.RoundsTo (n * 10 ^ e) m' q' := by
  rcases basic with rfl | rfl
  · obtain ⟨k, finite, -, -, rounds⟩ := rounds
    obtain ⟨j, nearest, -⟩ := exists_rounds_nearest n e
    have top : Format.single.numberAt Format.single.infinity =
        Format.double.numberAt (1150 * 2 ^ 52 + 2 ^ 52) := by
      have single := Format.numberAt_binade (f := .single) (k := 253) (m := 2 ^ 24)
        (Or.inr (by decide)) (by decide)
      have double := Format.numberAt_binade (f := .double) (k := 1150) (m := 2 ^ 52)
        (Or.inr (by decide)) (by decide)
      have infinity : Format.single.infinity = 253 * Format.single.leadingBit + 2 ^ 24 := by decide
      have leading : Format.double.leadingBit = 2 ^ 52 := by decide
      have exponents : Format.single.leastExponent + (253 : ℕ) = 104 ∧
          Format.double.leastExponent + (1150 : ℕ) = 76 := by decide
      rw [leading] at double
      rw [infinity, single, double, exponents.1, exponents.2]
      norm_num
    have below : (n * 10 ^ e : ℚ) ≤ Format.single.numberAt Format.single.infinity := by
      have order := Format.single.numberAt_strictMono
      linarith [((Format.rounds_iff).1 rounds).1.1, order finite,
        order.monotone (Nat.succ_le_of_lt finite)]
    have within : j < Format.double.infinity :=
      lt_of_le_of_lt (nearest.le_of_le (below.trans_eq top)) (by decide)
    exact ⟨_, _, j, within, rfl, rfl, nearest⟩
  · exact ⟨m, q, rounds⟩

/-! The bits of a double. -/

open Float.Model.UnpackedFloat in
/-- The bits of infinities and of all finite numbers are kept. -/
theorem toBits_ofBits {b : UInt64} (finite : b.toNat / 2 ^ 52 % 2 ^ 11 ≠ 2047) :
    (Float.ofBits b).toBits = b := by
  have number : @isNaNBits .binary64 b.toBitVec = false := by
    refine decide_eq_false fun ⟨top, _⟩ => finite ?_
    have fields := congrArg BitVec.toNat top
    rwa [unpackExponent_def, BitVec.extractLsb'_toNat, Nat.shiftRight_eq_div_pow] at fields
  have packed := @pack_unpack .binary64 b.toBitVec (by decide)
  rw [number, if_neg Bool.false_ne_true] at packed
  exact UInt64.toBitVec_inj.1 packed

/-- The double with the bits of a finite number is that number. -/
theorem ofDouble_doubleOf {n : Nat} {negative : Bool} (finite : n < Format.double.infinity) :
    ofDouble (doubleOf negative n) =
      .finite negative (Format.double.significandAt n) (Format.double.exponentAt n) := by
  have infinity : Format.double.infinity = 2047 * 2 ^ 52 := by decide
  have signBit : Format.double.signBit = 2 ^ 63 := by decide
  have bits : Format.double.withSign negative n < 2 ^ 64 ∧
      Format.double.withSign negative n / 2 ^ 52 % 2 ^ 11 ≠ 2047 := by
    unfold Format.withSign
    split <;> omega
  have same : (UInt64.ofNat (Format.double.withSign negative n)).toNat =
      Format.double.withSign negative n := UInt64.toNat_ofNat_of_lt' bits.1
  rw [ofDouble, doubleOf, toBits_ofBits (by rw [same]; exact bits.2), same,
    Format.decode_withSign finite]

/-- **A decimal is read as the finite number that it rounds to.** -/
theorem ofDouble_nearest {m n : Nat} {q e : Int} (negative : Bool)
    (rounds : Format.double.RoundsTo (n * 10 ^ e) m q) :
    ofDouble (doubleOf negative (nearest n e)) = .finite negative m q := by
  obtain ⟨k, finite, rfl, rfl, rounds⟩ := rounds
  obtain ⟨j, nearest, bits⟩ := exists_rounds_nearest n e
  obtain rfl := nearest.unique rounds
  rw [bits, Nat.min_eq_right finite.le, ofDouble_doubleOf finite]

end ControlRecords.Decimal
