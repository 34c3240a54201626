import DecisionSpace.Proofs.Arithmetic
import DecisionSpace.Proofs.Bandit.Restoration

/-!
# Stability of statistics

Running statistics are updated in doubles, and a mean that is rounded past an observation lowers
the squared deviations.  The rounding errors of one update are relative ones of a few units in
the last place.  When the weight before is not negligible, the mean stops short of the observation
by more than that, so the deviations grow; when the mean is so close to the observation that
errors are not relative ones, what is added to the deviations is rounded to zero.
-/

set_option autoImplicit false

namespace DecisionSpace

namespace Double

theorem power_mul_power {e f g : ℤ} (sum : e + f = g) : power e * power f = power g := by
  rw [← power_add, sum]

theorem power_add_power_le {e f g : ℤ} (first : e < g) (second : f < g) :
    power e + power f ≤ power g := by
  have double : power g = 2 * power (g - 1) := power_succ (by omega)
  have := power_le (show e ≤ g - 1 by omega)
  have := power_le (show f ≤ g - 1 by omega)
  linarith

theorem roundsTo_add_of_little {x y : Float} (finite : x.isFinite) (finite' : y.isFinite)
    (nonneg : 0 ≤ toRat x) (nonneg' : 0 ≤ toRat y) (most : toRat x ≤ power 1023)
    (little : toRat y < power 970) :
    RoundsTo (toRat x + toRat y) (x + y) ∧ toRat (x + y) ≤ power 1023 := by
  have size : |toRat x + toRat y| = toRat x + toRat y := abs_of_nonneg (add_nonneg nonneg nonneg')
  have top : power 1024 = 2 * power 1023 := power_succ (by norm_num)
  have half : power 971 = 2 * power 970 := power_succ (by norm_num)
  have far : power 970 + power 970 ≤ power 1023 := power_add_power_le (by norm_num) (by norm_num)
  have small : |toRat x + toRat y| < limit := by
    rw [size, limit]
    linarith
  have rounds := roundsTo_add finite finite' small
  have sum : power (971 + 52) = power 1023 := congrArg power (by norm_num)
  have close : |toRat x + toRat y| < power (971 + 52) + power 971 / 2 := by
    rw [size, sum, half]
    linarith
  have bound := rounds.abs_le_power (f := 971) (by norm_num) close
  rw [sum] at bound
  exact ⟨rounds, (le_abs_self _).trans bound⟩

end Double

open Double

namespace RunningStats

/-! ## Moderate sizes -/

structure IsScale (a : ℚ) : Prop where
  least : power (-200) ≤ a
  most : a ≤ power 50

/-- An observation of moderate size, whose weight is the scale or up to `2 ^ 48` times as much. -/
structure Modest (a : ℚ) (value weight : Float) : Prop where
  value : value.isFinite ∧ |toRat value| ≤ power 400
  weight : weight.isFinite ∧ a ≤ toRat weight ∧ toRat weight ≤ power 48 * a

structure Steady (a : ℚ) (s : Stats) : Prop where
  mean : s.mean.isFinite ∧ |toRat s.mean| ≤ power 401
  deviations : s.squaredDeviations.isFinite ∧ 0 ≤ toRat s.squaredDeviations ∧
    toRat s.squaredDeviations ≤ power 1023
  weight : s.weight.isFinite ∧ (toRat s.weight = 0 ∨ a ≤ toRat s.weight) ∧
    toRat s.weight ≤ power 1023

theorem IsScale.pos {a : ℚ} (scale : IsScale a) : 0 < a := (power_pos _).trans_le scale.least

theorem Steady.weight_nonneg {a : ℚ} (scale : IsScale a) {s : Stats} (steady : Steady a s) :
    0 ≤ toRat s.weight := by
  rcases steady.weight.2.1 with none | some
  · exact none.ge
  · exact scale.pos.le.trans some

theorem Steady.restorable {a : ℚ} (scale : IsScale a) {s : Stats} (steady : Steady a s) :
    s.Restorable := by
  refine ⟨steady.mean.1, ⟨steady.deviations.1, ?_⟩, steady.weight.1, ?_⟩
  · exact (not_neg_iff_toRat_nonneg steady.deviations.1).mpr steady.deviations.2.1
  · exact (not_neg_iff_toRat_nonneg steady.weight.1).mpr (steady.weight_nonneg scale)

/-! ## What one observation computes -/

section
variable (s : Stats) (value weight : Float)

def newWeight : Float := s.weight + weight

def gap : Float := value - s.mean

def step : Float := s.gap value * weight / s.newWeight weight

def newMean : Float := s.mean + s.step value weight

def increment : Float := weight * s.gap value * (value - s.newMean value weight)

theorem accept_eq : s.accept value weight =
    if 0 < weight then
      if s.weight ≤ 0 then ⟨value, 0, s.newWeight weight, s.nextCount⟩
      else ⟨s.newMean value weight, s.squaredDeviations + s.increment value weight,
        s.newWeight weight, s.nextCount⟩
    else s := rfl

end

/-! ## Relative errors -/

theorem power_unit_le : power (-52) ≤ 1 / 100 := by
  have order := power_le (show (-52 : ℤ) ≤ -10 by norm_num)
  have exact : power (-10) = 1 / 1024 := by norm_num [power]
  linarith

theorem le_of_relative {d w t g p r u : ℚ} (unit : 0 < u) (small : u ≤ 1 / 100) (nonneg : 0 ≤ d)
    (weight : 0 < w) (gap : g ≤ d * (1 + u)) (gained : p ≤ g * w * (1 + u))
    (total : w * (1 + 14 * u) ≤ t) (step : r ≤ p / t * (1 + u) + d * u) : r ≤ d := by
  have positive : 0 < t := by nlinarith
  have scaled : p * (1 + u) ≤ d * (1 - u) * t := by
    calc p * (1 + u) ≤ g * w * (1 + u) * (1 + u) := by gcongr
      _ ≤ d * (1 + u) * w * (1 + u) * (1 + u) := by gcongr
      _ = d * w * (1 + u) ^ 3 := by ring
      _ ≤ d * w * ((1 - u) * (1 + 14 * u)) := by
        have rest : 0 ≤ 10 - 17 * u - u ^ 2 := by nlinarith
        have cubed : (1 + u) ^ 3 ≤ (1 - u) * (1 + 14 * u) := by nlinarith [mul_nonneg unit.le rest]
        gcongr
      _ = d * (1 - u) * (w * (1 + 14 * u)) := by ring
      _ ≤ d * (1 - u) * t := by
        have rest : 0 ≤ 1 - u := by linarith
        gcongr
  have quotient : p / t * (1 + u) ≤ d * (1 - u) := by
    rw [div_mul_eq_mul_div, div_le_iff₀ positive]
    exact scaled
  linarith

/-! ## One observation -/

theorem Modest.sub_roundsTo {a : ℚ} {value weight mean : Float} (modest : Modest a value weight)
    (finite : mean.isFinite) (bounded : |toRat mean| ≤ power 401) :
    RoundsTo (toRat value - toRat mean) (value - mean) ∧
      |toRat value - toRat mean| ≤ power 402 := by
  have sizes := abs_sub (toRat value) (toRat mean)
  have first := modest.value.2
  have sum : power 400 + power 401 ≤ power 402 := power_add_power_le (by norm_num) (by norm_num)
  have size : |toRat value - toRat mean| ≤ power 402 := by linarith
  exact ⟨roundsTo_sub modest.value.1 finite (size.trans_lt (power_lt_limit (by norm_num))), size⟩

theorem gap_roundsTo {a : ℚ} {s : Stats} (steady : Steady a s) {value weight : Float}
    (modest : Modest a value weight) :
      RoundsTo (toRat value - toRat s.mean) (s.gap value) ∧
      |toRat value - toRat s.mean| ≤ power 402 :=
  modest.sub_roundsTo steady.mean.1 steady.mean.2

section
variable {a : ℚ} (scale : IsScale a) {s : Stats} (steady : Steady a s) {value weight : Float}
  (modest : Modest a value weight)

include scale modest

theorem Modest.weight_pos : 0 < toRat weight := scale.pos.trans_le modest.weight.2.1

theorem Modest.weight_le : toRat weight ≤ power 98 := by
  have most := mul_le_mul_of_nonneg_left scale.most (power_pos 48).le
  rw [power_mul_power (show (48 : ℤ) + 50 = 98 by norm_num)] at most
  exact modest.weight.2.2.trans most

include steady

theorem newWeight_roundsTo :
    RoundsTo (toRat s.weight + toRat weight) (s.newWeight weight) ∧
      toRat (s.newWeight weight) ≤ power 1023 := by
  refine roundsTo_add_of_little steady.weight.1 modest.weight.1 (steady.weight_nonneg scale)
    (modest.weight_pos scale).le steady.weight.2.2 ?_
  exact (modest.weight_le scale).trans_lt (power_lt_iff.mpr (by norm_num))

theorem le_newWeight : toRat weight ≤ toRat (s.newWeight weight) := by
  have nonneg := steady.weight_nonneg scale
  exact (newWeight_roundsTo scale steady modest).1.ge_of_ge modest.weight.1 (by linarith)

theorem gained_roundsTo {k : ℤ} (least : -1022 ≤ k) (most : k ≤ 402)
    (close : |toRat value - toRat s.mean| ≤ power k) :
    RoundsTo (toRat (s.gap value) * toRat weight) (s.gap value * weight) ∧
      RoundsTo (toRat weight * toRat (s.gap value)) (weight * s.gap value) ∧
      |toRat (s.gap value) * toRat weight| ≤ power (k + 98) := by
  obtain ⟨rounds, _⟩ := gap_roundsTo steady modest
  have gap := rounds.abs_le_of_le least close
  have size : |toRat (s.gap value) * toRat weight| ≤ power (k + 98) := by
    rw [abs_mul, abs_of_pos (modest.weight_pos scale), power_add]
    exact mul_le_mul gap (modest.weight_le scale) (modest.weight_pos scale).le (power_pos k).le
  have small : |toRat (s.gap value) * toRat weight| < limit :=
    size.trans_lt (power_lt_limit (by omega))
  refine ⟨roundsTo_mul rounds.isFinite modest.weight.1 small, ?_, size⟩
  rw [mul_comm] at small
  exact roundsTo_mul modest.weight.1 rounds.isFinite small

theorem step_roundsTo {k : ℤ} (least : -1022 ≤ k) (most : k ≤ 402)
    (close : |toRat value - toRat s.mean| ≤ power k) :
    RoundsTo (toRat (s.gap value * weight) / toRat (s.newWeight weight)) (s.step value weight) ∧
      |toRat (s.gap value * weight) / toRat (s.newWeight weight)| ≤ power (k + 298) := by
  obtain ⟨rounds, _, size⟩ := gained_roundsTo scale steady modest least most close
  have gained := rounds.abs_le_of_le (by omega) size
  obtain ⟨total, _⟩ := newWeight_roundsTo scale steady modest
  have heavy : power (-200) ≤ toRat (s.newWeight weight) :=
    scale.least.trans (modest.weight.2.1.trans (le_newWeight scale steady modest))
  have positive : 0 < toRat (s.newWeight weight) := (power_pos _).trans_le heavy
  have bound : |toRat (s.gap value * weight) / toRat (s.newWeight weight)| ≤ power (k + 298) := by
    rw [abs_div, abs_of_pos positive, div_le_iff₀ positive]
    have split : power (k + 298) * power (-200) = power (k + 98) := power_mul_power (by omega)
    have scaled := mul_le_mul_of_nonneg_left heavy (power_pos (k + 298)).le
    linarith
  exact ⟨roundsTo_div rounds.isFinite total.isFinite positive.ne'
    (bound.trans_lt (power_lt_limit (by omega))), bound⟩

theorem newMean_roundsTo :
    RoundsTo (toRat s.mean + toRat (s.step value weight)) (s.newMean value weight) := by
  obtain ⟨_, close⟩ := gap_roundsTo steady modest
  obtain ⟨rounds, size⟩ := step_roundsTo scale steady modest (by norm_num) le_rfl close
  have step := rounds.abs_le_of_le (by norm_num) size
  have mean := steady.mean.2
  have sizes := abs_add_le (toRat s.mean) (toRat (s.step value weight))
  have sum : power 401 + power (402 + 298) ≤ power 701 :=
    power_add_power_le (by norm_num) (by norm_num)
  have limited : power 701 < limit := power_lt_limit (by norm_num)
  exact roundsTo_add steady.mean.1 rounds.isFinite (by linarith)

/-! ## Means near the observation -/

/-- When the mean is as close as this, the increment is rounded to zero. -/
theorem newMean_of_close (close : |toRat value - toRat s.mean| ≤ power (-750)) :
    |toRat (s.newMean value weight)| ≤ power 401 ∧
      |toRat (s.newMean value weight) - toRat s.mean| ≤ power (-451) := by
  obtain ⟨rounds, size⟩ := step_roundsTo scale steady modest (by norm_num) (by norm_num) close
  have step := rounds.abs_le_of_le (by norm_num) size
  have mean := newMean_roundsTo scale steady modest
  have sizes := abs_add_le (toRat s.mean) (toRat (s.step value weight))
  norm_num at step
  constructor
  · have near : |toRat s.mean| ≤ |toRat value| + power (-750) := by
      have := abs_sub_abs_le_abs_sub (toRat s.mean) (toRat value)
      rw [abs_sub_comm] at this
      linarith
    have value := modest.value.2
    have first : power (-750) + power (-452) ≤ power 399 :=
      power_add_power_le (by norm_num) (by norm_num)
    have second : power 400 + power 399 ≤ power 401 := power_add_power_le (by norm_num) (by norm_num)
    exact mean.abs_le_of_le (by norm_num) (by linarith)
  · -- the old mean is itself a double, so the new one is no further away than twice the step
    have nearest := mean.nearest steady.mean.1
    have double : power (-451) = 2 * power (-452) := power_succ (by norm_num)
    have detour := abs_sub_le (toRat (s.newMean value weight))
      (toRat s.mean + toRat (s.step value weight)) (toRat s.mean)
    have own : |toRat s.mean - (toRat s.mean + toRat (s.step value weight))| =
        |toRat (s.step value weight)| := by
      rw [sub_add_cancel_left, abs_neg]
    have back : toRat s.mean + toRat (s.step value weight) - toRat s.mean =
        toRat (s.step value weight) := add_sub_cancel_left _ _
    rw [own] at nearest
    rw [back] at detour
    linarith

/-! ## Means away from the observation -/

theorem mul_le_newWeight (weighted : toRat s.weight ≠ 0) :
    toRat weight * (1 + 14 * power (-52)) ≤ toRat (s.newWeight weight) := by
  obtain ⟨rounds, _⟩ := newWeight_roundsTo scale steady modest
  have positive := modest.weight_pos scale
  have before : a ≤ toRat s.weight := steady.weight.2.1.resolve_left weighted
  have small := power_unit_le
  have share : 16 * power (-52) * toRat weight ≤ toRat s.weight := by
    have sixteen : 16 * power (-52) = power (-48) := by
      have four : power 4 = 16 := by norm_num [power]
      rw [← four]
      exact power_mul_power (by norm_num)
    have one : power (-48) * power 48 = 1 := power_mul_power (show (-48 : ℤ) + 48 = 0 by norm_num)
    have most := mul_le_mul_of_nonneg_left modest.weight.2.2 (power_pos (-48)).le
    rw [← mul_assoc, one] at most
    rw [sixteen]
    linarith
  have sum : 0 < toRat s.weight + toRat weight := by
    have := steady.weight_nonneg scale
    linarith
  have large : power (-1022) ≤ |toRat s.weight + toRat weight| := by
    have order := power_le (show (-1022 : ℤ) ≤ -200 by norm_num)
    have least := scale.least
    rw [abs_of_pos sum]
    linarith
  have error := (abs_le.mp (rounds.abs_sub_le_mul large)).1
  rw [abs_of_pos sum] at error
  have unit := power_pos (-52)
  nlinarith [mul_pos positive unit]

section
variable (weighted : toRat s.weight ≠ 0)

include weighted

theorem abs_step_le (far : power (-750) ≤ |toRat value - toRat s.mean|) :
    |toRat (s.step value weight)| ≤ |toRat value - toRat s.mean| := by
  obtain ⟨rounds, close⟩ := gap_roundsTo steady modest
  obtain ⟨gained, _, size⟩ := gained_roundsTo scale steady modest (by norm_num) le_rfl close
  obtain ⟨quotient, _⟩ := step_roundsTo scale steady modest (by norm_num) le_rfl close
  have positive := modest.weight_pos scale
  have total : 0 < toRat (s.newWeight weight) :=
    positive.trans_le (le_newWeight scale steady modest)
  have unit := power_pos (-52)
  have small := power_unit_le
  have gap := rounds.abs_sub_le_mul ((power_le (by norm_num)).trans far)
  have gap_le : |toRat (s.gap value)| ≤ |toRat value - toRat s.mean| * (1 + power (-52)) := by
    have := abs_sub_abs_le_abs_sub (toRat (s.gap value)) (toRat value - toRat s.mean)
    linarith
  have le_gap : power (-751) ≤ |toRat (s.gap value)| := by
    have := abs_sub_abs_le_abs_sub (toRat value - toRat s.mean) (toRat (s.gap value))
    have double : power (-750) = 2 * power (-751) := power_succ (by norm_num)
    rw [abs_sub_comm] at gap
    nlinarith
  have product : |toRat (s.gap value) * toRat weight| = |toRat (s.gap value)| * toRat weight := by
    rw [abs_mul, abs_of_pos positive]
  have large : power (-1022) ≤ |toRat (s.gap value) * toRat weight| := by
    have least := mul_le_mul le_gap (scale.least.trans modest.weight.2.1) (power_pos _).le
      (abs_nonneg _)
    rw [power_mul_power (show (-751 : ℤ) + -200 = -951 by norm_num), ← product] at least
    exact (power_le (by norm_num)).trans least
  have gained_le : |toRat (s.gap value * weight)| ≤
      |toRat (s.gap value)| * toRat weight * (1 + power (-52)) := by
    have error := gained.abs_sub_le_mul large
    have := abs_sub_abs_le_abs_sub (toRat (s.gap value * weight)) (toRat (s.gap value) * toRat weight)
    rw [product] at error this
    linarith
  -- the quotient may be so small that its error is not a relative one; the distance pays for the rest
  have step_le : |toRat (s.step value weight)| ≤
      |toRat (s.gap value * weight)| / toRat (s.newWeight weight) * (1 + power (-52)) +
        |toRat value - toRat s.mean| * power (-52) := by
    have error := quotient.abs_sub_le
    have := abs_sub_abs_le_abs_sub (toRat (s.step value weight))
      (toRat (s.gap value * weight) / toRat (s.newWeight weight))
    have finer : power (-53) ≤ power (-52) := power_le (by norm_num)
    have rest : power (-1075) ≤ |toRat value - toRat s.mean| * power (-52) := by
      rw [← power_mul_power (show (-1023 : ℤ) + -52 = -1075 by norm_num)]
      exact mul_le_mul_of_nonneg_right ((power_le (by norm_num)).trans far) unit.le
    rw [abs_div, abs_of_pos total] at error this
    have nonneg : 0 ≤ |toRat (s.gap value * weight)| / toRat (s.newWeight weight) :=
      div_nonneg (abs_nonneg _) total.le
    nlinarith
  exact le_of_relative unit small (abs_nonneg _) positive gap_le gained_le
    (mul_le_newWeight scale steady modest weighted) step_le

theorem newMean_between (far : power (-750) ≤ |toRat value - toRat s.mean|) :
    (toRat s.mean ≤ toRat value ∧ toRat s.mean ≤ toRat (s.newMean value weight) ∧
        toRat (s.newMean value weight) ≤ toRat value) ∨
      (toRat value ≤ toRat s.mean ∧ toRat (s.newMean value weight) ≤ toRat s.mean ∧
        toRat value ≤ toRat (s.newMean value weight)) := by
  obtain ⟨rounds, close⟩ := gap_roundsTo steady modest
  obtain ⟨gained, _, _⟩ := gained_roundsTo scale steady modest (by norm_num) le_rfl close
  obtain ⟨quotient, _⟩ := step_roundsTo scale steady modest (by norm_num) le_rfl close
  have positive := (modest.weight_pos scale).le
  have total : 0 ≤ toRat (s.newWeight weight) := positive.trans (le_newWeight scale steady modest)
  have mean := newMean_roundsTo scale steady modest
  have step := abs_step_le scale steady modest weighted far
  rcases le_total (toRat s.mean) (toRat value) with below | above
  · have gap := rounds.nonneg (sub_nonneg.mpr below)
    have forward := quotient.nonneg (div_nonneg (gained.nonneg (mul_nonneg gap positive)) total)
    rw [abs_of_nonneg (sub_nonneg.mpr below), abs_of_nonneg forward] at step
    exact .inl ⟨below, mean.ge_of_ge steady.mean.1 (by linarith), mean.le_of_le modest.value.1 (by linarith)⟩
  · have gap := rounds.nonpos (sub_nonpos.mpr above)
    have backward := quotient.nonpos
      (div_nonpos_of_nonpos_of_nonneg (gained.nonpos (mul_nonpos_of_nonpos_of_nonneg gap positive)) total)
    rw [abs_of_nonpos (sub_nonpos.mpr above), abs_of_nonpos backward] at step
    exact .inr ⟨above, mean.le_of_le steady.mean.1 (by linarith), mean.ge_of_ge modest.value.1 (by linarith)⟩

theorem abs_newMean_le : |toRat (s.newMean value weight)| ≤ power 401 := by
  rcases le_total (|toRat value - toRat s.mean|) (power (-750)) with close | far
  · exact (newMean_of_close scale steady modest close).1
  · have mean := abs_le.mp steady.mean.2
    have observed := abs_le.mp (modest.value.2.trans (power_le (show (400 : ℤ) ≤ 401 by norm_num)))
    rw [abs_le]
    rcases newMean_between scale steady modest weighted far with upward | downward
    · exact ⟨mean.1.trans upward.2.1, upward.2.2.trans observed.2⟩
    · exact ⟨observed.1.trans downward.2.2, downward.2.1.trans mean.2⟩

theorem residue_roundsTo :
    RoundsTo (toRat value - toRat (s.newMean value weight)) (value - s.newMean value weight) ∧
      |toRat value - toRat (s.newMean value weight)| ≤ power 402 :=
  modest.sub_roundsTo (newMean_roundsTo scale steady modest).isFinite
    (abs_newMean_le scale steady modest weighted)

theorem increment_roundsTo :
    RoundsTo (toRat (weight * s.gap value) * toRat (value - s.newMean value weight))
        (s.increment value weight) ∧
      |toRat (weight * s.gap value) * toRat (value - s.newMean value weight)| ≤ power 902 := by
  obtain ⟨_, close⟩ := gap_roundsTo steady modest
  obtain ⟨_, gained, size⟩ := gained_roundsTo scale steady modest (by norm_num) le_rfl close
  obtain ⟨residue, apart⟩ := residue_roundsTo scale steady modest weighted
  rw [mul_comm] at size
  have first := gained.abs_le_of_le (by norm_num) size
  have second := residue.abs_le_of_le (by norm_num) apart
  have bound : |toRat (weight * s.gap value) * toRat (value - s.newMean value weight)| ≤ power 902 := by
    rw [abs_mul, ← power_mul_power (show (402 + 98 : ℤ) + 402 = 902 by norm_num)]
    exact mul_le_mul first second (abs_nonneg _) (power_pos _).le
  exact ⟨roundsTo_mul gained.isFinite residue.isFinite
    (bound.trans_lt (power_lt_limit (by norm_num))), bound⟩

theorem increment_nonneg : 0 ≤ toRat (s.increment value weight) := by
  obtain ⟨gap, near⟩ := gap_roundsTo steady modest
  obtain ⟨residue, _⟩ := residue_roundsTo scale steady modest weighted
  obtain ⟨rounds, _⟩ := increment_roundsTo scale steady modest weighted
  have positive := (modest.weight_pos scale).le
  rcases le_total (|toRat value - toRat s.mean|) (power (-750)) with close | far
  · -- the mean may pass the observation here, but what that makes of the product underflows
    obtain ⟨_, gained, size⟩ := gained_roundsTo scale steady modest (by norm_num) (by norm_num) close
    rw [mul_comm] at size
    have first := gained.abs_le_of_le (by norm_num) size
    have apart : |toRat value - toRat (s.newMean value weight)| ≤ power (-450) := by
      have moved := (newMean_of_close scale steady modest close).2
      have detour := abs_sub_le (toRat value) (toRat s.mean) (toRat (s.newMean value weight))
      have sum : power (-750) + power (-451) ≤ power (-450) :=
        power_add_power_le (by norm_num) (by norm_num)
      rw [abs_sub_comm (toRat s.mean)] at detour
      linarith
    have second := residue.abs_le_of_le (by norm_num) apart
    have tiny : |toRat (weight * s.gap value) * toRat (value - s.newMean value weight)| <
        power (-1075) := by
      rw [abs_mul]
      have product := mul_le_mul first second (abs_nonneg _) (power_pos _).le
      rw [power_mul_power (show (-750 + 98 : ℤ) + -450 = -1102 by norm_num)] at product
      exact product.trans_lt (power_lt_iff.mpr (by norm_num))
    exact (rounds.eq_zero tiny).ge
  · obtain ⟨_, gained, _⟩ := gained_roundsTo scale steady modest (by norm_num) le_rfl
      (gap_roundsTo steady modest).2
    rcases newMean_between scale steady modest weighted far with upward | downward
    · have ahead := gained.nonneg (mul_nonneg positive (gap.nonneg (sub_nonneg.mpr upward.1)))
      exact rounds.nonneg (mul_nonneg ahead (residue.nonneg (sub_nonneg.mpr upward.2.2)))
    · have behind := gained.nonpos
        (mul_nonpos_of_nonneg_of_nonpos positive (gap.nonpos (sub_nonpos.mpr downward.1)))
      exact rounds.nonneg
        (mul_nonneg_of_nonpos_of_nonpos behind (residue.nonpos (sub_nonpos.mpr downward.2.2)))

end

/-- A modest observation leaves steady statistics steady. -/
theorem Steady.accept : Steady a (s.accept value weight) := by
  obtain ⟨total, most⟩ := newWeight_roundsTo scale steady modest
  have heavy : a ≤ toRat (s.newWeight weight) :=
    modest.weight.2.1.trans (le_newWeight scale steady modest)
  have positive : 0 < weight :=
    (pos_iff_toRat_pos modest.weight.1).mpr (modest.weight_pos scale)
  rw [accept_eq, if_pos positive]
  split
  · have none : toRat 0 = 0 := rfl
    exact ⟨⟨modest.value.1, modest.value.2.trans (power_le (by norm_num))⟩,
      ⟨isFinite_zero, none.ge, none.trans_le (power_pos _).le⟩, total.isFinite, .inr heavy, most⟩
  · rename_i some
    have weighted : toRat s.weight ≠ 0 :=
      fun none => some ((le_zero_iff steady.weight.1).mpr none.le)
    obtain ⟨rounds, size⟩ := increment_roundsTo scale steady modest weighted
    obtain ⟨finite, before, bounded⟩ := steady.deviations
    have nonneg := increment_nonneg scale steady modest weighted
    have increment := (abs_le.mp (rounds.abs_le_of_le (by norm_num) size)).2
    obtain ⟨deviations, limited⟩ := roundsTo_add_of_little finite rounds.isFinite before nonneg bounded
      (increment.trans_lt (power_lt_iff.mpr (by norm_num)))
    have mean := newMean_roundsTo scale steady modest
    refine ⟨⟨mean.isFinite, abs_newMean_le scale steady modest weighted⟩,
      ⟨deviations.isFinite, deviations.nonneg (add_nonneg before nonneg), limited⟩,
      total.isFinite, .inr heavy, most⟩

end

end RunningStats

end DecisionSpace
