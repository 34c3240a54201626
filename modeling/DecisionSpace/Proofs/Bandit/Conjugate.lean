import DecisionSpace.Config
import DecisionSpace.Proofs.Bandit.Statistics
import DecisionSpace.Proofs.Double
import DecisionSpace.Proofs.Fallible

/-!
# Beta posteriors

A rate of success is drawn from a beta distribution whose parameters are the sum of the
statistics and what is left of their weight.  Over the rationals, the parameters are those of the
prior, increased at each reward by what it is worth as a success and as a failure.  Both stay
positive, so there is a distribution at any time.

A prior that a configuration is accepted with is read exactly: a double that is finite stands for
a rational number.
-/

set_option autoImplicit false

namespace DecisionSpace

/-! ## Accepted priors -/

theorem isFinite_of_isPositive {x : Float} (positive : isPositive x) : x.isFinite ∧ 0 < x := by
  simpa [isPositive] using positive

theorem require_ok_iff {condition : Bool} {fault : ConfigFault} :
    require condition fault = .ok () ↔ condition := by
  cases condition with
  | false => simp [require]
  | true => simp [require]

theorem Posterior.validate_binomial_iff (p : RatePrior) :
    (Posterior.binomial p).validate = .ok () ↔
      isPositive p.weight ∧ 0 < p.mean ∧ p.mean < 1 := by
  rw [validate, Fallible.check_bind_ok_iff, require_ok_iff, require_ok_iff, Bool.and_eq_true,
    decide_eq_true_iff, decide_eq_true_iff]

theorem RatePrior.bounds {p : RatePrior} (accepted : (Posterior.binomial p).validate = .ok ()) :
    0 < Double.toRat p.weight ∧ 0 < Double.toRat p.mean ∧ Double.toRat p.mean < 1 := by
  obtain ⟨positive, above, below⟩ := (Posterior.validate_binomial_iff p).mp accepted
  obtain ⟨finite, weighted⟩ := isFinite_of_isPositive positive
  have finiteMean := Double.isFinite_of_between Double.isFinite_zero Double.isFinite_one above below
  exact ⟨(Double.pos_iff_toRat_pos finite).mp weighted, (Double.pos_iff_toRat_pos finiteMean).mp above,
    (Double.lt_one_iff_toRat_lt_one finiteMean).mp below⟩

/-! ## Rewards between zero and one -/

def Observation.clamped (o : Observation) : Observation :=
  ⟨RunningStats.clampUnit o.value, o.weight⟩

theorem Observation.total_clamped (worth : Observation → ℚ) (rewards : List Observation) :
    total worth (rewards.map clamped) = total (fun o => worth o.clamped) rewards := by
  rw [total, total, counted, List.filter_map, List.map_map]
  rfl

theorem Observation.total_of_pos (worth : Observation → ℚ) {obs : List Observation}
    (positive : ∀ o ∈ obs, 0 < o.weight) : total worth obs = (obs.map worth).sum := by
  have all : counted obs = obs :=
    List.filter_eq_self.mpr fun o member => decide_eq_true (positive o member)
  rw [total, all]

namespace RunningStats

open Observation

def exact (s : Stats) : RunningStats ℚ :=
  ⟨Double.toRat s.mean, Double.toRat s.squaredDeviations, Double.toRat s.weight, s.count⟩

theorem clampUnit_eq (x : ℚ) : clampUnit x = max 0 (min 1 x) := by
  unfold clampUnit
  split
  · rename_i below
    rw [min_eq_right (below.le.trans zero_le_one), max_eq_left below.le]
  · split
    · rename_i above
      rw [min_eq_left above.le, max_eq_right zero_le_one]
    · rename_i low high
      rw [min_eq_right (not_lt.mp high), max_eq_right (not_lt.mp low)]

theorem clampUnit_nonneg (x : ℚ) : 0 ≤ clampUnit x := by
  rw [clampUnit_eq]
  exact le_max_left 0 _

theorem clampUnit_le_one (x : ℚ) : clampUnit x ≤ 1 := by
  rw [clampUnit_eq]
  exact max_le zero_le_one (min_le_left 1 x)

theorem mean_between {s : RunningStats ℚ} (sum : 0 < s.sum) (remainder : 0 < s.remainder) :
    0 < s.mean ∧ s.mean < 1 := by
  have weighted : 0 < s.weight := by
    rw [RunningStats.remainder] at remainder
    exact sum.trans (sub_pos.mp remainder)
  rw [RunningStats.remainder, RunningStats.sum, sub_pos] at remainder
  refine ⟨pos_of_mul_pos_left sum weighted.le, ?_⟩
  exact lt_of_mul_lt_mul_right (remainder.trans_eq (one_mul _).symm) weighted.le

end RunningStats

namespace Posterior

open Observation
open RunningStats
open Sampling

def updates (p : Posterior) (s : RunningStats ℚ) (rewards : List Observation) : RunningStats ℚ :=
  rewards.foldl (fun s o => p.update s o.value o.weight) s

/-! ## Updates of a rate -/

section
variable (p : RatePrior) {s : RunningStats ℚ}

theorem updates_binomial (s : RunningStats ℚ) (rewards : List Observation) :
    (binomial p).updates s rewards = s.acceptAll (rewards.map clamped) := by
  rw [acceptAll, List.foldl_map]
  rfl

variable (proper : s.Proper) (rewards : List Observation)
include proper

theorem sum_updates : ((binomial p).updates s rewards).sum =
    s.sum + total (fun o => o.weight * clampUnit o.value) rewards := by
  rw [updates_binomial, sum_acceptAll _ proper, total_clamped]
  rfl

/-- What a reward lacks to a whole success is a failure. -/
theorem remainder_updates : ((binomial p).updates s rewards).remainder =
    s.remainder + total (fun o => o.weight * (1 - clampUnit o.value)) rewards := by
  have weight : ((binomial p).updates s rewards).weight =
      s.weight + total Observation.weight rewards := by
    rw [updates_binomial, weight_acceptAll _ proper, total_clamped]
    rfl
  have failures : (fun o : Observation => o.weight * (1 - clampUnit o.value)) =
      fun o => o.weight + -1 * (o.weight * clampUnit o.value) := by
    funext o
    ring
  rw [remainder, remainder, weight, sum_updates p proper, failures, total_add, total_mul]
  ring

theorem sum_le_sum_updates : s.sum ≤ ((binomial p).updates s rewards).sum := by
  rw [sum_updates p proper]
  exact le_add_of_nonneg_right
    (total_nonneg fun o positive => mul_nonneg positive.le (clampUnit_nonneg _))

theorem remainder_le_remainder_updates :
    s.remainder ≤ ((binomial p).updates s rewards).remainder := by
  rw [remainder_updates p proper]
  exact le_add_of_nonneg_right (total_nonneg fun o positive =>
    mul_nonneg positive.le (sub_nonneg.mpr (clampUnit_le_one _)))

end

/-! ## Draws of a rate -/

theorem sampleRate_of_pos {s : RunningStats ℚ} (sum : 0 < s.sum) (remainder : 0 < s.remainder)
    {σ : Type} (draw : Beta ℚ → σ → ℚ × σ) (source : σ) :
    sampleRate draw s source = draw ⟨s.sum, s.remainder⟩ source := by
  simp only [sampleRate, Beta.ofParameters?, sum, remainder, decide_true, Bool.and_self, if_true]

/-- On doubles, a rate is drawn from the statistics by the method of the beta distribution.  With
the same operations over the rationals, from an accepted prior and in whatever order the rewards
come, a rate is drawn with the parameters of the prior to which the successes and the failures
have been added; both are positive, and the mean lies between zero and one. -/
theorem sample_updates_prior {p : RatePrior} (accepted : (binomial p).validate = .ok ())
    {rewards : List Observation} (positive : ∀ o ∈ rewards, 0 < o.weight) :
    let mean₀ := Double.toRat p.mean
    let weight₀ := Double.toRat p.weight
    let alpha := mean₀ * weight₀ + (rewards.map fun o => o.weight * max 0 (min 1 o.value)).sum
    let beta := (1 - mean₀) * weight₀ +
      (rewards.map fun o => o.weight * (1 - max 0 (min 1 o.value))).sum
    let start := (binomial p).prior.exact
    let s := (binomial p).updates start rewards
    (∀ {σ : Type} [Words σ] (stats : Stats) (source : σ),
      (binomial p).sample stats source = sampleRate Beta.sample stats source) ∧
    (∀ {σ : Type} (draw : Beta ℚ → σ → ℚ × σ) (source : σ),
      sampleRate draw s source = draw ⟨alpha, beta⟩ source) ∧
    s.sum = alpha ∧ s.remainder = beta ∧ 0 < alpha ∧ 0 < beta ∧ (0 < s.mean ∧ s.mean < 1) ∧
    ∀ other, rewards.Perm other → (binomial p).updates start other = s := by
  intro mean₀ weight₀ alpha beta start s
  obtain ⟨weighted, above, below⟩ := RatePrior.bounds accepted
  have proper : start.Proper := proper_ofPrior _ _ weighted
  have rest : start.remainder = (1 - mean₀) * weight₀ := by
    rw [remainder, RunningStats.sum, sub_mul, one_mul]
    rfl
  have successes : s.sum = alpha := by
    rw [sum_updates p proper, total_of_pos _ positive]
    simp only [clampUnit_eq]
    rfl
  have failures : s.remainder = beta := by
    rw [remainder_updates p proper, total_of_pos _ positive, rest]
    simp only [clampUnit_eq]
    rfl
  have sum : 0 < s.sum := (mul_pos above weighted).trans_le (sum_le_sum_updates p proper rewards)
  have remainder : 0 < s.remainder := by
    refine lt_of_lt_of_le ?_ (remainder_le_remainder_updates p proper rewards)
    rw [rest]
    exact mul_pos (sub_pos.mpr below) weighted
  refine ⟨fun _ _ => rfl, fun draw source => ?_, successes, failures, successes ▸ sum,
    failures ▸ remainder, mean_between sum remainder, fun other perm => ?_⟩
  · rw [sampleRate_of_pos sum remainder, successes, failures]
  · rw [updates_binomial, ← acceptAll_perm proper (perm.map clamped), ← updates_binomial p]

theorem sample_updates_prior_uniform :
    let rewards : List Observation := [⟨1, 1⟩, ⟨0, 1⟩, ⟨7, 1 / 2⟩]
    let start := (binomial {}).prior.exact
    let s := (binomial {}).updates start rewards
    sampleRate (fun rate (_ : ℚ) => (rate.alpha, rate.beta)) s 0 = (5 / 2, 2) ∧
      (0 < s.mean ∧ s.mean < 1) ∧
      (binomial {}).updates start [⟨7, 1 / 2⟩, ⟨1, 1⟩, ⟨0, 1⟩] = s := by
  intro rewards start s
  have accepted : (binomial {}).validate = .ok () := rfl
  have positive : ∀ o ∈ rewards, 0 < o.weight := by decide +kernel
  obtain ⟨_, drawn, _, _, _, _, mean, perm⟩ := sample_updates_prior accepted positive
  have turned : ([⟨1, 1⟩, ⟨0, 1⟩] ++ [⟨7, 1 / 2⟩] : List Observation).Perm
      ([⟨7, 1 / 2⟩] ++ [⟨1, 1⟩, ⟨0, 1⟩]) := List.perm_append_comm
  refine ⟨(drawn _ 0).trans ?_, mean, perm _ turned⟩
  decide +kernel

end Posterior

end DecisionSpace
