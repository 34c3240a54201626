import DecisionSpace.Proofs.Double

/-!
# Rounding

How a number is rounded to a double.  The number is a mantissa with what was cut off from it,
which two residual bits locate; at the exponent that doubles of its size have, the mantissa is
rounded to a nearest whole number.  No double is closer to the number than the result, and the
error is at most half of the last place.
-/

set_option autoImplicit false

namespace DecisionSpace.Double

open Float.Model Float.Model.UnpackedFloat
open Float.Model.Format (binary64)

/-! ## Mantissas with residual bits -/

/-- Where a number lies that has lost the bits behind its mantissa: the round bit is set in the
upper half, the sticky bit anywhere but at the bottom and in the middle. -/
structure Locates (em : ExtendedMantissa) (y : ℚ) : Prop where
  lower : em.mantissa ≤ y
  upper : y < em.mantissa + 1
  round : em.roundBit ↔ em.mantissa + 1 / 2 ≤ y
  sticky : em.stickyBit ↔ y ≠ em.mantissa ∧ y ≠ em.mantissa + 1 / 2

theorem locates_exact (m : ℕ) : Locates (.ofMantissaAndAccuracy m .exact) m := by
  constructor
  · exact le_rfl
  · exact lt_add_one _
  · simp [ExtendedMantissa.ofMantissaAndAccuracy]
  · simp [ExtendedMantissa.ofMantissaAndAccuracy]

section
variable {em : ExtendedMantissa} {y : ℚ} (located : Locates em y)

include located

theorem Locates.inexact_iff : (em.roundBit || em.stickyBit) ↔ y ≠ em.mantissa := by
  rw [Bool.or_eq_true, located.round, located.sticky]
  constructor
  · intro rest same
    rcases rest with upperHalf | apart
    · linarith
    · exact apart.1 same
  · intro apart
    by_cases middle : y = em.mantissa + 1 / 2
    · exact .inl middle.ge
    · exact .inr ⟨apart, middle⟩

theorem Locates.half : Locates em.shiftRightOne (y / 2) := by
  have inexact := located.inexact_iff
  obtain ⟨lower, upper, _, _⟩ := located
  obtain ⟨m, r, s⟩ := em
  obtain ⟨k, rfl | rfl⟩ := Nat.even_or_odd' m
  · have shifted : ExtendedMantissa.shiftRightOne ⟨2 * k, r, s⟩ = ⟨k, false, r || s⟩ := by
      simp [ExtendedMantissa.shiftRightOne]
    rw [shifted]
    push_cast at lower upper inexact
    refine ⟨?_, ?_, ?_, ?_⟩
    · dsimp only
      linarith
    · dsimp only
      linarith
    · simp only [Bool.false_eq_true, false_iff, not_le]
      linarith
    · rw [inexact]
      constructor
      · intro apart
        exact ⟨fun same => apart (by linarith), fun same => by linarith⟩
      · intro apart same
        exact apart.1 (by linarith)
  · have shifted : ExtendedMantissa.shiftRightOne ⟨2 * k + 1, r, s⟩ = ⟨k, true, r || s⟩ := by
      simp [ExtendedMantissa.shiftRightOne]
      omega
    rw [shifted]
    push_cast at lower upper inexact
    refine ⟨?_, ?_, ?_, ?_⟩
    · dsimp only
      linarith
    · dsimp only
      linarith
    · simp only [true_iff]
      linarith
    · rw [inexact]
      constructor
      · intro apart
        exact ⟨fun same => by linarith, fun same => apart (by linarith)⟩
      · intro apart same
        exact apart.2 (by linarith)

theorem Locates.shiftRight (k : ℕ) : Locates (em >>> k) (y / 2 ^ k) := by
  change Locates (k.repeat ExtendedMantissa.shiftRightOne em) _
  induction k with
  | zero => simpa [Nat.repeat] using located
  | succ k ih =>
      rw [pow_succ, ← div_div, Nat.repeat]
      exact ih.half

theorem Locates.abs_sub_le : |y - em.roundedMantissa| ≤ 1 / 2 := by
  obtain ⟨lower, upper, round, sticky⟩ := located
  obtain ⟨m, r, s⟩ := em
  dsimp only at lower upper round sticky
  rw [abs_le]
  cases r with
  | false =>
      have lowerHalf : y < m + 1 / 2 := by simpa using round
      have rounded : (ExtendedMantissa.mk m false s).roundedMantissa = m := by
        cases s with
        | _ => rfl
      rw [rounded]
      constructor
      · linarith
      · linarith
  | true =>
      have upperHalf : m + 1 / 2 ≤ y := by simpa using round
      cases s with
      | true =>
          have rounded : (ExtendedMantissa.mk m true true).roundedMantissa = m + 1 := rfl
          rw [rounded]
          push_cast
          constructor
          · linarith
          · linarith
      | false =>
          -- in the middle the mantissa is rounded to the even side, whichever that is
          have middle : y = m + 1 / 2 := by
            by_contra apart
            have bottom : y ≠ m := fun same => by linarith
            simpa using sticky.mpr ⟨bottom, apart⟩
          have rounded : (ExtendedMantissa.mk m true false).roundedMantissa = m + m % 2 := rfl
          have side : m % 2 ≤ 1 := Nat.le_of_lt_succ (Nat.mod_lt m two_pos)
          have side' : ((m % 2 : ℕ) : ℚ) ≤ 1 := by exact_mod_cast side
          have side'' : (0 : ℚ) ≤ ((m % 2 : ℕ) : ℚ) := Nat.cast_nonneg _
          rw [rounded, Nat.cast_add]
          constructor
          · linarith
          · linarith

end

/-! ## The nearest multiple -/

def power (e : ℤ) : ℚ := 2 ^ e

theorem power_pos (e : ℤ) : 0 < power e := zpow_pos two_pos e

theorem power_le {e f : ℤ} (le : e ≤ f) : power e ≤ power f := zpow_le_zpow_right₀ one_le_two le

theorem power_lt_iff {e f : ℤ} : power e < power f ↔ e < f := zpow_lt_zpow_iff_right₀ one_lt_two

theorem power_add (e f : ℤ) : power (e + f) = power e * power f := zpow_add₀ two_ne_zero e f

theorem power_succ {e f : ℤ} (next : f = e + 1) : power f = 2 * power e := by
  rw [next, power_add, mul_comm]
  rfl

theorem power_natCast (k : ℕ) : power k = 2 ^ k := zpow_natCast 2 k

theorem power_add_natCast (e : ℤ) (k : ℕ) : power (e + k) = 2 ^ k * power e := by
  rw [power_add, power_natCast, mul_comm]

/-- A multiple of a power of two that is nearest to a number.  The power is the least one by
which the number can be written with a full mantissa, or the least of all. -/
structure Near (q : ℚ) (n e : ℤ) : Prop where
  least : -1074 ≤ e
  error : |q - n * power e| ≤ power e / 2
  below : |q| < power (e + 53)
  full : e = -1074 ∨ power (e + 52) ≤ |q|

theorem Near.neg {q : ℚ} {n e : ℤ} (near : Near q n e) : Near (-q) (-n) e := by
  refine ⟨near.least, ?_, ?_, ?_⟩
  · have turned : -q - (-n : ℤ) * power e = -(q - n * power e) := by
      push_cast
      ring
    rw [turned, abs_neg]
    exact near.error
  · rw [abs_neg]
    exact near.below
  · rw [abs_neg]
    exact near.full

structure Canonical (k f : ℤ) : Prop where
  least : -1074 ≤ f
  top : |k| < 2 ^ 53
  full : f = -1074 ∨ 2 ^ 52 ≤ |k|

theorem Canonical.abs_lt {k f : ℤ} (canonical : Canonical k f) :
    |k * power f| < power (f + 53) := by
  have top : |(k : ℚ)| < 2 ^ 53 := by exact_mod_cast canonical.top
  rw [abs_mul, abs_of_pos (power_pos f)]
  exact (mul_lt_mul_of_pos_right top (power_pos f)).trans_eq (power_add_natCast f 53).symm

theorem Canonical.near {k f : ℤ} (canonical : Canonical k f) : Near (k * power f) k f := by
  refine ⟨canonical.least, ?_, canonical.abs_lt, ?_⟩
  · rw [sub_self, abs_zero]
    exact (half_pos (power_pos f)).le
  · refine canonical.full.imp_right fun full => ?_
    have full' : (2 : ℚ) ^ 52 ≤ |(k : ℚ)| := by exact_mod_cast full
    rw [abs_mul, abs_of_pos (power_pos f)]
    exact (power_add_natCast f 52).trans_le (mul_le_mul_of_nonneg_right full' (power_pos f).le)

theorem le_of_mul_power_lt {n k e : ℤ} (less : n * power e < (k + 1) * power e) : n ≤ k := by
  have below : (n : ℚ) < k + 1 := lt_of_mul_lt_mul_right less (power_pos e).le
  exact Int.lt_add_one_iff.mp (by exact_mod_cast below)

theorem mul_power_le {n k : ℤ} (le : n ≤ k) (e : ℤ) : n * power e ≤ k * power e :=
  mul_le_mul_of_nonneg_right (by exact_mod_cast le) (power_pos e).le

section
variable {q : ℚ} {n e k f : ℤ} (near : Near q n e)

include near

theorem Near.le_of_multiple (j : ℤ) : |n * power e - q| ≤ |j * power e - q| := by
  rcases eq_or_ne n j with rfl | other
  · exact le_rfl
  · have apart : power e ≤ |n * power e - j * power e| := by
      have whole : (1 : ℚ) ≤ |(n : ℚ) - j| := by
        exact_mod_cast Int.one_le_abs (sub_ne_zero.mpr other)
      rw [← sub_mul, abs_mul, abs_of_pos (power_pos e)]
      exact le_mul_of_one_le_left (power_pos e).le whole
    have detour := abs_sub_le (n * power e : ℚ) q (j * power e)
    have error := near.error
    rw [abs_sub_comm] at error
    rw [abs_sub_comm q] at detour
    linarith

theorem Near.nearest (canonical : Canonical k f) : |n * power e - q| ≤ |k * power f - q| := by
  rcases le_or_gt e f with finer | coarser
  · -- the double is a multiple of the same power
    obtain ⟨d, rfl⟩ := Int.le.dest finer
    have multiple : k * power (e + d) = (k * 2 ^ d : ℤ) * power e := by
      rw [power_add_natCast, ← mul_assoc]
      norm_cast
    rw [multiple]
    exact near.le_of_multiple _
  · -- the double is below all numbers with a full mantissa, and the least of them is closer
    have size := near.full.resolve_left (by have := canonical.least; omega)
    have reach := abs_lt.mp (canonical.abs_lt.trans_le (power_le (show f + 53 ≤ e + 52 by omega)))
    have bound : power (e + 52) = (2 ^ 52 : ℤ) * power e := mod_cast power_add_natCast e 52
    rcases abs_cases q with positive | negative
    · refine (near.le_of_multiple (2 ^ 52)).trans ?_
      rw [← bound, abs_sub_comm, abs_of_nonneg (by linarith), abs_sub_comm, abs_of_pos (by linarith)]
      linarith
    · refine (near.le_of_multiple (-2 ^ 52)).trans ?_
      have turned : ((-2 ^ 52 : ℤ) : ℚ) * power e = -power (e + 52) := by
        rw [bound]
        push_cast
        ring
      rw [turned, abs_of_nonneg (by linarith), abs_of_pos (by linarith)]
      linarith

theorem Near.abs_sub_le : |n * power e - q| ≤ |q| * power (-53) + power (-1075) := by
  have small := power_pos (-1075)
  have factor := power_pos (-53)
  rw [abs_sub_comm]
  refine near.error.trans ?_
  rw [div_le_iff₀ two_pos]
  rcases near.full with rfl | full
  · have least : power (-1074) = 2 * power (-1075) := power_succ (by norm_num)
    have size := mul_nonneg (abs_nonneg q) factor.le
    rw [least]
    linarith
  · have step : power e = 2 * (power (e + 52) * power (-53)) := by
      rw [← power_add]
      exact power_succ (by omega)
    have size := mul_le_mul_of_nonneg_right full factor.le
    linarith

theorem Near.eq_zero (small : |q| < power (-1075)) : n = 0 := by
  have least : e = -1074 := by
    rcases near.full with least | full
    · exact least
    · have order := power_le (show -1075 ≤ e + 52 by have := near.least; omega)
      linarith
  subst least
  have step : power (-1074) = 2 * power (-1075) := power_succ (by norm_num)
  have error := abs_le.mp near.error
  have size := abs_lt.mp small
  have below : n ≤ 0 := le_of_mul_power_lt (e := -1074) (by push_cast; linarith)
  have above : -n ≤ 0 := le_of_mul_power_lt (e := -1074) (by push_cast; linarith)
  omega

theorem Near.le_of_half (least : -1074 ≤ f) (close : q < power (f + 52) + power f / 2) :
    n * power e ≤ power (f + 52) := by
  have bound : power (f + 52) = (2 ^ 52 : ℤ) * power f := mod_cast power_add_natCast f 52
  rcases le_or_gt q (power (f + 52)) with below | above
  · have full : Canonical (2 ^ 52) f := ⟨least, by decide, .inr (by decide)⟩
    have nearest := near.nearest full
    rw [← bound, abs_of_nonneg (sub_nonneg.mpr below)] at nearest
    linarith [(abs_le.mp nearest).2]
  · have positive : 0 < q := (power_pos _).trans above
    have scale := power_pos f
    have exponent : e = f := by
      have top := near.below
      rw [abs_of_pos positive] at top
      have low := power_lt_iff.mp (above.trans top)
      rcases near.full with minimal | size
      · omega
      · have double : power (f + 53) = 2 * power (f + 52) := power_succ (by omega)
        rw [abs_of_pos positive] at size
        have high : power (e + 52) < power (f + 53) := by
          push_cast at bound
          linarith
        have order := power_lt_iff.mp high
        omega
    subst exponent
    have error := abs_le.mp near.error
    rw [bound] at close ⊢
    refine mul_power_le (le_of_mul_power_lt (e := e) ?_) e
    push_cast at close ⊢
    linarith

end

/-! ## Data that numbers are rounded to -/

theorem exists_reads (s : Sign) {m : ℕ} {e : ℤ} (pos : 0 < m) (canonical : Canonical m e)
    (most : e ≤ 971) : ∃ w, Reads w (.finite s m e pos) := by
  obtain ⟨least, top, full⟩ := canonical
  rw [Nat.abs_cast] at top full
  by_cases short : m < 2 ^ 52
  · obtain ⟨v, rfl⟩ : ∃ v : BitVec 52, m = v.toNat :=
      ⟨BitVec.ofNat 52 m, by rw [BitVec.toNat_ofNat, Nat.mod_eq_of_lt short]⟩
    obtain rfl : e = -1074 := full.resolve_right (by omega)
    exact ⟨_, .subnormal s v pos⟩
  · obtain ⟨v, rfl⟩ : ∃ v : BitVec 52, m = 2 ^ 52 + v.toNat :=
      ⟨BitVec.ofNat 52 (m - 2 ^ 52), by rw [BitVec.toNat_ofNat, Nat.mod_eq_of_lt (by omega)]; omega⟩
    obtain ⟨x, rfl⟩ : ∃ x : BitVec 11, e = x.toNat - 1075 :=
      ⟨BitVec.ofNat 11 (e + 1075).toNat, by rw [BitVec.toNat_ofNat, Nat.mod_eq_of_lt (by omega)]; omega⟩
    exact ⟨_, .normal s x v (by omega) (by omega) pos⟩

theorem exists_canonical {w : BitVec 64} {u : UnpackedFloat} (reads : Reads w u) (finite : u.isFinite) :
    ∃ k f, Canonical k f ∧ value u = k * power f := by
  cases u with
  | infinity s => cases finite
  | notANumber => cases finite
  | zero s => exact ⟨0, -1074, ⟨le_rfl, by decide, .inl rfl⟩, by simp [value]⟩
  | finite s m e pos =>
      obtain ⟨top, least, full⟩ := reads.bounds
      have size : |s.apply m| = m := by
        cases s with
        | negative => exact (abs_neg _).trans (Nat.abs_cast m)
        | positive => exact Nat.abs_cast m
      refine ⟨s.apply m, e, ⟨least, ?_, ?_⟩, rfl⟩
      · rw [size]
        exact_mod_cast top
      · rw [size]
        exact full.symm.imp_right fun full => by exact_mod_cast full

structure Rounds (q : ℚ) (u : UnpackedFloat) : Prop where
  reads : ∃ w, Reads w u
  isFinite : u.isFinite
  near : ∃ n e, Near q n e ∧ value u = n * power e

theorem Rounds.self {w : BitVec 64} {u : UnpackedFloat} (reads : Reads w u) (finite : u.isFinite) :
    Rounds (value u) u := by
  obtain ⟨k, f, canonical, same⟩ := exists_canonical reads finite
  refine ⟨⟨w, reads⟩, finite, k, f, ?_, same⟩
  rw [same]
  exact canonical.near

def limit : ℚ := power 1024 - power 970

section
variable {m : ℕ} {e t : ℤ} {accuracy : Accuracy} {x : ℚ}

theorem targetExponent_eq (m : ℕ) (e : ℤ) :
    binary64.targetExponent (totalExponent m e) = max (m.log2 + 1 + e - 53) (-1074) := rfl

theorem mantissa_ofMantissaAndAccuracy (m : ℕ) (accuracy : Accuracy) :
    (ExtendedMantissa.ofMantissaAndAccuracy m accuracy).mantissa = m := by
  rcases accuracy with _ | (_ | _ | _)
  all_goals rfl

theorem locates_shiftToTargetExponent
    (located : Locates (.ofMantissaAndAccuracy m accuracy) (x / power e))
    (enough : e ≤ binary64.targetExponent (totalExponent m e)) :
    let t := binary64.targetExponent (totalExponent m e)
    ∃ em, shiftToTargetExponent binary64 m e accuracy = (em, t) ∧ Locates em (x / power t) := by
  intro t
  obtain ⟨k, exponent⟩ := Int.le.dest enough
  have amount : (t - e).toNat = k := by omega
  have shifted := located.shiftRight k
  rw [div_div, ← power_natCast, ← power_add, exponent] at shifted
  refine ⟨_, ?_, shifted⟩
  rw [shiftToTargetExponent, shiftToExponent, amount, exponent]

theorem between_of_target (lower : m ≤ x / power e) (upper : x / power e < m + 1)
    (enough : e ≤ binary64.targetExponent (totalExponent m e)) :
    let t := binary64.targetExponent (totalExponent m e)
    x < power (t + 53) ∧ (t = -1074 ∨ power (t + 52) ≤ x) := by
  intro t
  have target : t = max (m.log2 + 1 + e - 53) (-1074) := targetExponent_eq m e
  rw [le_div_iff₀ (power_pos e)] at lower
  rw [div_lt_iff₀ (power_pos e)] at upper
  change e ≤ t at enough
  rcases Nat.eq_zero_or_pos m with rfl | pos
  · have exponent : t = -1074 := by
      rw [Nat.log2_zero] at target
      omega
    refine ⟨?_, .inl exponent⟩
    have upper : x < power e := by simpa using upper
    exact upper.trans_le (power_le (by omega))
  · have reach : ((m : ℚ) + 1) * power e ≤ power (m.log2 + 1 + e) := by
      have top : m + 1 ≤ 2 ^ (m.log2 + 1) := Nat.lt_log2_self
      have top' : (m : ℚ) + 1 ≤ power (m.log2 + 1 : ℕ) := by
        rw [power_natCast]
        exact_mod_cast top
      rw [power_add]
      exact mul_le_mul_of_nonneg_right top' (power_pos e).le
    have bottom : power (m.log2 + e) ≤ m * power e := by
      have least : 2 ^ m.log2 ≤ m := Nat.log2_self_le (Nat.ne_of_gt pos)
      rw [power_add, power_natCast]
      exact mul_le_mul_of_nonneg_right (by exact_mod_cast least) (power_pos e).le
    refine ⟨(upper.trans_le reach).trans_le (power_le (by omega)), ?_⟩
    by_cases minimal : t = -1074
    · exact .inl minimal
    · exact .inr ((power_le (by omega)).trans (bottom.trans lower))

theorem shiftToTargetExponent_of_canonical (canonical : Canonical m e) :
    shiftToTargetExponent binary64 m e .exact = (⟨m, false, false⟩, e) := by
  obtain ⟨least, top, full⟩ := canonical
  rw [Nat.abs_cast] at top full
  have still : binary64.targetExponent (totalExponent m e) = e := by
    rw [targetExponent_eq]
    rcases Nat.eq_zero_or_pos m with rfl | pos
    · rw [Nat.log2_zero]
      omega
    · have short : m.log2 < 53 := (Nat.log2_lt (Nat.ne_of_gt pos)).mpr (by omega)
      rcases full with minimal | full
      · omega
      · have long : 52 ≤ m.log2 := (Nat.le_log2 (Nat.ne_of_gt pos)).mpr (by omega)
        omega
  have amount : (e - e).toNat = 0 := by omega
  rw [shiftToTargetExponent, still, shiftToExponent, amount]
  congr 1
  exact Int.add_zero e

theorem shiftToTargetExponent_carry (least : -1074 ≤ e) :
    shiftToTargetExponent binary64 (2 ^ 53) e .exact = (⟨2 ^ 52, false, false⟩, e + 1) := by
  have next : binary64.targetExponent (totalExponent (2 ^ 53) e) = e + 1 := by
    rw [targetExponent_eq, Nat.log2_two_pow]
    omega
  have amount : (e + 1 - e).toNat = 1 := by omega
  have doubled : (2 : ℕ) ^ 53 = 2 ^ 1 * 2 ^ 52 := by decide
  rw [shiftToTargetExponent, next, shiftToExponent, amount, doubled]
  exact congrArg (·, e + 1) (shiftRight_exact (2 ^ 52) 1)

theorem Locates.near {em : ExtendedMantissa} (located : Locates em (x / power t))
    (least : -1074 ≤ t) (below : x < power (t + 53)) (full : t = -1074 ∨ power (t + 52) ≤ x) :
    Near x em.roundedMantissa t := by
  have scale := power_pos t
  have scaled : x = x / power t * power t := (div_mul_cancel₀ x scale.ne').symm
  have nonneg : 0 ≤ x := by
    rw [scaled]
    exact mul_nonneg (em.mantissa.cast_nonneg.trans located.lower) scale.le
  have difference : x - (em.roundedMantissa : ℤ) * power t =
      (x / power t - em.roundedMantissa) * power t := by
    rw [sub_mul, ← scaled, Int.cast_natCast]
  refine ⟨least, ?_, by rwa [abs_of_nonneg nonneg], by rwa [abs_of_nonneg nonneg]⟩
  rw [difference, abs_mul, abs_of_pos scale]
  have half := mul_le_mul_of_nonneg_right located.abs_sub_le scale.le
  linarith

theorem Near.canonical_or_carry {n : ℕ} (near : Near x n t) (nonneg : 0 ≤ x) (small : x < limit) :
    t ≤ 971 ∧ (Canonical n t ∨ n = 2 ^ 53 ∧ t < 971) := by
  obtain ⟨least, error, below, full⟩ := near
  rw [abs_of_nonneg nonneg] at below full
  have error := abs_le.mp error
  have scale := power_pos t
  have reach : power (t + 53) = 2 ^ 53 * power t := power_add_natCast t 53
  have top : (n : ℤ) ≤ 2 ^ 53 := by
    refine le_of_mul_power_lt (e := t) ?_
    push_cast at error ⊢
    linarith
  have most : t ≤ 971 := by
    rcases full with minimal | full
    · omega
    · have far : limit < power 1024 := sub_lt_self _ (power_pos _)
      have order := power_lt_iff.mp ((full.trans_lt small).trans far)
      omega
  refine ⟨most, ?_⟩
  rcases top.lt_or_eq with less | carry
  · refine .inl ⟨least, by rwa [Nat.abs_cast], full.imp_right fun full => ?_⟩
    have filled : power (t + 52) = 2 ^ 52 * power t := power_add_natCast t 52
    rw [Nat.abs_cast]
    refine le_of_mul_power_lt (e := t) ?_
    push_cast at error ⊢
    linarith
  · refine .inr ⟨by exact_mod_cast carry, most.lt_of_ne fun last => ?_⟩
    subst last
    have step : power 971 = 2 * power 970 := power_succ (by norm_num)
    have power_top : power 1024 = 2 ^ 53 * power 971 := reach
    rw [carry] at error
    rw [limit] at small
    push_cast at error
    linarith

theorem rounds_roundWithAccuracy (s : Sign)
    (located : Locates (.ofMantissaAndAccuracy m accuracy) (x / power e))
    (enough : e ≤ binary64.targetExponent (totalExponent m e)) (small : x < limit) :
    Rounds (s.apply 1 * x) (roundWithAccuracy binary64 s m e accuracy) := by
  have lower := located.lower
  have upper := located.upper
  rw [mantissa_ofMantissaAndAccuracy] at lower upper
  obtain ⟨below, full⟩ := between_of_target lower upper enough
  obtain ⟨em, first, shifted⟩ := locates_shiftToTargetExponent located enough
  have near := shifted.near (le_max_right _ _) below full
  generalize binary64.targetExponent (totalExponent m e) = t at first near
  have nonneg : 0 ≤ x := by
    have scaled : x = x / power e * power e := (div_mul_cancel₀ x (power_pos e).ne').symm
    rw [scaled]
    exact mul_nonneg (m.cast_nonneg.trans lower) (power_pos e).le
  -- the second shift only matters when rounding has carried into another bit
  obtain ⟨k, f, second, canonical, most, same⟩ : ∃ (k : ℕ) (f : ℤ),
      shiftToTargetExponent binary64 em.roundedMantissa t .exact = (⟨k, false, false⟩, f) ∧
        Canonical k f ∧ f ≤ 971 ∧ (k * power f : ℚ) = em.roundedMantissa * power t := by
    obtain ⟨most, canonical | ⟨carry, room⟩⟩ := near.canonical_or_carry nonneg small
    · exact ⟨_, _, shiftToTargetExponent_of_canonical canonical, canonical, most, rfl⟩
    · have doubled : power (t + 1) = 2 * power t := power_succ rfl
      have least := near.least
      rw [carry]
      refine ⟨_, _, shiftToTargetExponent_carry least, ⟨by omega, by decide, .inr (by decide)⟩,
        by omega, ?_⟩
      push_cast
      rw [doubled]
      ring
  have result : roundWithAccuracy binary64 s m e accuracy =
      if zero : k = 0 then .zero s else .finite s k f (Nat.pos_of_ne_zero zero) := by
    simp only [roundWithAccuracy, first, second]
  rw [result]
  have signed : Near (s.apply 1 * x) (s.apply em.roundedMantissa) t := by
    cases s with
    | positive => simpa [Sign.apply] using near
    | negative => simpa [Sign.apply] using near.neg
  have value_signed : (s.apply k : ℚ) * power f = (s.apply em.roundedMantissa : ℤ) * power t := by
    cases s with
    | positive => simpa [Sign.apply] using same
    | negative => simpa [Sign.apply] using same
  split
  · rename_i zero
    refine ⟨⟨_, .zero s⟩, rfl, _, _, signed, ?_⟩
    rw [← value_signed, zero]
    cases s with
    | _ => simp [Sign.apply]
  · rename_i zero
    obtain ⟨w, reads⟩ := exists_reads s (Nat.pos_of_ne_zero zero) canonical most
    exact ⟨⟨w, reads⟩, rfl, _, _, signed, value_signed⟩

end

end DecisionSpace.Double
