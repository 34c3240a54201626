import Mathlib
import DecisionSpace.Bandit.RunningStats

/-!
# Statistics of all observations at once

Running statistics take one observation at a time and keep none of them.  Over the rationals they
are what the formulas for a whole list of observations give, with the start as observations of
its own: their weight, their weighted sum and their weighted sum of squares grow at each counted
observation by what that observation is worth, and the mean and the deviations can be found from
these three.  So the order of the observations is forgotten.
-/

set_option autoImplicit false

namespace DecisionSpace

structure Observation where
  value : ℚ
  weight : ℚ

namespace Observation

def counted (obs : List Observation) : List Observation := obs.filter fun o => 0 < o.weight

def total (worth : Observation → ℚ) (obs : List Observation) : ℚ := ((counted obs).map worth).sum

section
variable (f g : Observation → ℚ) (obs : List Observation)

theorem counted_cons_of_pos {o : Observation} (positive : 0 < o.weight) :
    counted (o :: obs) = o :: counted obs := by
  simp [counted, positive]

theorem counted_cons_of_not_pos {o : Observation} (ignored : ¬ 0 < o.weight) :
    counted (o :: obs) = counted obs := by
  simp [counted, ignored]

theorem total_cons_of_pos {o : Observation} (positive : 0 < o.weight) :
    total f (o :: obs) = f o + total f obs := by
  rw [total, counted_cons_of_pos obs positive, List.map_cons, List.sum_cons, total]

theorem total_cons_of_not_pos {o : Observation} (ignored : ¬ 0 < o.weight) :
    total f (o :: obs) = total f obs := by
  rw [total, counted_cons_of_not_pos obs ignored, total]

theorem total_add : total (fun o => f o + g o) obs = total f obs + total g obs :=
  List.sum_map_add

theorem total_mul (c : ℚ) : total (fun o => c * f o) obs = c * total f obs :=
  List.sum_map_mul_left (counted obs) f c

theorem total_spread (c : ℚ) :
    total (fun o => o.weight * (o.value - c) ^ 2) obs =
      total (fun o => o.weight * o.value ^ 2) obs +
        (-(2 * c) * total (fun o => o.weight * o.value) obs + c ^ 2 * total weight obs) := by
  have expand : (fun o : Observation => o.weight * (o.value - c) ^ 2) = fun o =>
      o.weight * o.value ^ 2 + (-(2 * c) * (o.weight * o.value) + c ^ 2 * o.weight) := by
    funext o
    ring
  rw [expand, total_add, total_add, total_mul, total_mul]

variable {f obs}

theorem counted_perm {other : List Observation} (perm : obs.Perm other) :
    (counted obs).Perm (counted other) := perm.filter _

theorem total_perm {other : List Observation} (perm : obs.Perm other) :
    total f obs = total f other :=
  ((counted_perm perm).map f).sum_eq

theorem pos_of_mem_counted {o : Observation} (member : o ∈ counted obs) : 0 < o.weight :=
  of_decide_eq_true (List.mem_filter.mp member).2

theorem total_weight_pos (found : counted obs ≠ []) : 0 < total weight obs := by
  apply List.sum_pos
  · intro x member
    obtain ⟨o, listed, rfl⟩ := List.mem_map.mp member
    exact pos_of_mem_counted listed
  · rwa [Ne, List.map_eq_nil_iff]

theorem total_nonneg (nonneg : ∀ o : Observation, 0 < o.weight → 0 ≤ f o) : 0 ≤ total f obs := by
  apply List.sum_nonneg
  intro x member
  obtain ⟨o, listed, rfl⟩ := List.mem_map.mp member
  exact nonneg o (pos_of_mem_counted listed)

end

end Observation

namespace RunningStats

/-! ## Counts -/

section
variable {α : Type} (s : RunningStats α)

theorem isFull_iff : s.isFull ↔ s.count.toNat + 1 = UInt64.size := by
  simp [isFull]

theorem nextCount_of_full (full : s.isFull) : s.nextCount = s.count := if_pos full

theorem toNat_nextCount (room : s.isFull = false) : s.nextCount.toNat = s.count.toNat + 1 := by
  have unfull : s.count.toNat + 1 ≠ UInt64.size := by
    rw [← Bool.not_eq_true, isFull_iff] at room
    exact room
  have bound := s.count.toNat_lt_size
  rw [nextCount, room, if_neg Bool.false_ne_true, UInt64.toNat_add, UInt64.toNat_one]
  exact Nat.mod_eq_of_lt (by simp only [UInt64.size] at *; omega)

end

theorem overflows_of_pos {α : Type} [OfNat α 0] [LT α] [DecidableLT α] (s : RunningStats α)
    {weight : α} (positive : 0 < weight) : s.overflows weight = s.isFull := by
  simp [overflows, positive]

section
variable {α : Type} [OfNat α 0] [Add α] [Sub α] [Mul α] [Div α] [LT α] [DecidableLT α]
  [LE α] [DecidableLE α] (s : RunningStats α) {weight : α}

theorem accept_of_not_pos (ignored : ¬ 0 < weight) (value : α) : s.accept value weight = s :=
  if_neg ignored

theorem count_accept (positive : 0 < weight) (value : α) :
    (s.accept value weight).count = s.nextCount := by
  rw [accept, if_pos positive]
  dsimp only
  split
  · rfl
  · rfl

end

/-! ## One observation -/

def squares (s : RunningStats ℚ) : ℚ := s.squaredDeviations + s.weight * s.mean ^ 2

structure Proper (s : RunningStats ℚ) : Prop where
  nonneg : 0 ≤ s.weight
  blank : s.weight = 0 → s.squaredDeviations = 0

section
variable {s : RunningStats ℚ} {weight : ℚ} (value : ℚ)

theorem accept_of_unweighted (unweighted : s.weight ≤ 0) (positive : 0 < weight) :
    s.accept value weight = ⟨value, 0, s.weight + weight, s.nextCount⟩ := by
  rw [accept, if_pos positive]
  exact if_pos unweighted

theorem accept_of_weighted (weighted : 0 < s.weight) (positive : 0 < weight) :
    s.accept value weight =
      let mean := s.mean + (value - s.mean) * weight / (s.weight + weight)
      ⟨mean, s.squaredDeviations + weight * (value - s.mean) * (value - mean), s.weight + weight,
        s.nextCount⟩ := by
  rw [accept, if_pos positive]
  exact if_neg (not_le.mpr weighted)

theorem weight_accept (positive : 0 < weight) :
    (s.accept value weight).weight = s.weight + weight := by
  rw [accept, if_pos positive]
  dsimp only
  split
  · rfl
  · rfl

theorem Proper.accept (proper : s.Proper) (positive : 0 < weight) :
    (s.accept value weight).Proper := by
  have grown : 0 < (s.accept value weight).weight := by
    rw [weight_accept value positive]
    exact add_pos_of_nonneg_of_pos proper.nonneg positive
  exact ⟨grown.le, fun zero => absurd zero grown.ne'⟩

theorem sum_accept (nonneg : 0 ≤ s.weight) (positive : 0 < weight) :
    (s.accept value weight).sum = s.sum + weight * value := by
  obtain weighted | zero := nonneg.lt_or_eq
  · have grown : s.weight + weight ≠ 0 := (add_pos weighted positive).ne'
    rw [accept_of_weighted value weighted positive, sum, sum]
    field_simp
    ring
  · rw [accept_of_unweighted value zero.ge positive, sum, sum, ← zero]
    ring

theorem squaredDeviations_accept (weighted : 0 < s.weight) (positive : 0 < weight) :
    (s.accept value weight).squaredDeviations =
      s.squaredDeviations + s.weight * weight / (s.weight + weight) * (value - s.mean) ^ 2 := by
  have grown : s.weight + weight ≠ 0 := (add_pos weighted positive).ne'
  rw [accept_of_weighted value weighted positive]
  dsimp only
  field_simp
  ring

theorem squaredDeviations_le_accept (weighted : 0 < s.weight) (positive : 0 < weight) :
    s.squaredDeviations ≤ (s.accept value weight).squaredDeviations := by
  rw [squaredDeviations_accept value weighted positive]
  have grown : 0 < s.weight + weight := add_pos weighted positive
  exact le_add_of_nonneg_right (by positivity)

theorem squares_accept (proper : s.Proper) (positive : 0 < weight) :
    (s.accept value weight).squares = s.squares + weight * value ^ 2 := by
  obtain weighted | zero := proper.nonneg.lt_or_eq
  · have grown : s.weight + weight ≠ 0 := (add_pos weighted positive).ne'
    rw [accept_of_weighted value weighted positive, squares, squares]
    dsimp only
    field_simp
    ring
  · rw [accept_of_unweighted value zero.ge positive, squares, squares, proper.blank zero.symm,
      ← zero]
    ring

end

/-! ## All observations -/

open Observation

def acceptAll (s : RunningStats ℚ) (obs : List Observation) : RunningStats ℚ :=
  obs.foldl (fun s o => s.accept o.value o.weight) s

def acceptAll? (s : RunningStats ℚ) (obs : List Observation) : Option (RunningStats ℚ) :=
  obs.foldlM (fun s o => if s.overflows o.weight then none else some (s.accept o.value o.weight)) s

theorem acceptAll_cons (s : RunningStats ℚ) (o : Observation) (rest : List Observation) :
    s.acceptAll (o :: rest) = (s.accept o.value o.weight).acceptAll rest := rfl

theorem acceptAll?_cons (s : RunningStats ℚ) (o : Observation) (rest : List Observation) :
    s.acceptAll? (o :: rest) =
      if s.overflows o.weight then none else (s.accept o.value o.weight).acceptAll? rest := by
  rw [acceptAll?, List.foldlM_cons]
  split
  · rfl
  · rfl

section
variable {s : RunningStats ℚ} (obs : List Observation)

theorem acceptAll_counted (s : RunningStats ℚ) : s.acceptAll (counted obs) = s.acceptAll obs := by
  rw [acceptAll, counted, List.foldl_filter, acceptAll]
  congr 1
  funext s o
  by_cases positive : 0 < o.weight
  · rw [decide_eq_true positive, if_pos rfl]
  · rw [decide_eq_false positive, if_neg Bool.false_ne_true, s.accept_of_not_pos positive]

theorem acceptAll_of_uncounted (empty : counted obs = []) : s.acceptAll obs = s := by
  rw [← acceptAll_counted, empty]
  rfl

theorem acceptAll_of_unweighted {t : RunningStats ℚ} (unweighted : s.weight ≤ 0)
    (weight : t.weight = s.weight) (count : t.count = s.count) (found : counted obs ≠ []) :
    s.acceptAll obs = t.acceptAll obs := by
  obtain ⟨o, rest, first⟩ := List.exists_cons_of_ne_nil found
  have positive : 0 < o.weight := pos_of_mem_counted (by rw [first]; exact List.mem_cons_self)
  have full : t.nextCount = s.nextCount := by rw [nextCount, nextCount, isFull, isFull, count]
  rw [← acceptAll_counted obs s, ← acceptAll_counted obs t, first, acceptAll_cons, acceptAll_cons,
    accept_of_unweighted o.value unweighted positive,
    accept_of_unweighted o.value (weight.trans_le unweighted) positive, weight, full]

/-- What grows at each counted observation by what that one is worth. -/
theorem acceptAll_total {measure : RunningStats ℚ → ℚ} {worth : Observation → ℚ}
    (grows : ∀ (s : RunningStats ℚ) (o : Observation), s.Proper → 0 < o.weight →
      measure (s.accept o.value o.weight) = measure s + worth o) (proper : s.Proper) :
    measure (s.acceptAll obs) = measure s + total worth obs := by
  induction obs generalizing s with
  | nil => exact (add_zero _).symm
  | cons o rest ih =>
      rw [acceptAll_cons]
      by_cases positive : 0 < o.weight
      · rw [ih (proper.accept o.value positive), grows s o proper positive,
          total_cons_of_pos worth rest positive, add_assoc]
      · rw [s.accept_of_not_pos positive, total_cons_of_not_pos worth rest positive]
        exact ih proper

section
variable (proper : s.Proper)
include proper

theorem weight_acceptAll : (s.acceptAll obs).weight = s.weight + total Observation.weight obs :=
  acceptAll_total obs (fun _ o _ => weight_accept o.value) proper

theorem sum_acceptAll :
    (s.acceptAll obs).sum = s.sum + total (fun o => o.weight * o.value) obs :=
  acceptAll_total obs (fun _ o known => sum_accept o.value known.nonneg) proper

theorem squares_acceptAll :
    (s.acceptAll obs).squares = s.squares + total (fun o => o.weight * o.value ^ 2) obs :=
  acceptAll_total obs (fun _ o known => squares_accept o.value known) proper

end

/-! ## Counts of all observations -/

theorem toNat_count_acceptAll :
    (s.acceptAll obs).count.toNat =
      min (s.count.toNat + (counted obs).length) (UInt64.size - 1) := by
  have bound := s.count.toNat_lt_size
  induction obs generalizing s with
  | nil =>
      rw [acceptAll, counted, List.filter_nil, List.length_nil, Nat.add_zero]
      exact (Nat.min_eq_left (Nat.le_sub_one_of_lt bound)).symm
  | cons o rest ih =>
      rw [acceptAll_cons, ih (s.accept o.value o.weight).count.toNat_lt_size]
      by_cases positive : 0 < o.weight
      · rw [s.count_accept positive, counted_cons_of_pos rest positive, List.length_cons]
        cases full : s.isFull with
        | true =>
            have last := s.isFull_iff.mp full
            rw [s.nextCount_of_full full]
            omega
        | false =>
            rw [s.toNat_nextCount full]
            omega
      · rw [s.accept_of_not_pos positive, counted_cons_of_not_pos rest positive]

theorem acceptAll?_eq :
    s.acceptAll? obs =
      if s.count.toNat + (counted obs).length < UInt64.size then some (s.acceptAll obs)
      else none := by
  induction obs generalizing s with
  | nil =>
      rw [if_pos (by simpa [counted] using s.count.toNat_lt_size)]
      rfl
  | cons o rest ih =>
      rw [acceptAll?_cons, acceptAll_cons, ih]
      by_cases positive : 0 < o.weight
      · rw [s.overflows_of_pos positive, s.count_accept positive, counted_cons_of_pos rest positive,
          List.length_cons]
        cases full : s.isFull with
        | true =>
            have last := s.isFull_iff.mp full
            rw [if_pos rfl, if_neg (by omega)]
        | false =>
            rw [if_neg Bool.false_ne_true, s.toNat_nextCount full, Nat.add_assoc, Nat.add_comm 1]
      · have counts : s.overflows o.weight = false := by simp [overflows, positive]
        rw [counts, if_neg Bool.false_ne_true, s.accept_of_not_pos positive,
          counted_cons_of_not_pos rest positive]

end

/-! ## Batches -/

/-- What statistics are by the formulas for all observations at once, the start being worth so
much weight. -/
structure IsBatch (s : RunningStats ℚ) (mean₀ deviations₀ weight₀ : ℚ) (obs : List Observation) :
    Prop where
  weight : s.weight = weight₀ + total Observation.weight obs
  mean : s.mean = (weight₀ * mean₀ + total (fun o => o.weight * o.value) obs) / s.weight
  squaredDeviations : s.squaredDeviations = deviations₀ + weight₀ * (mean₀ - s.mean) ^ 2 +
    total (fun o => o.weight * (o.value - s.mean) ^ 2) obs

section
variable {s : RunningStats ℚ} {obs : List Observation}

theorem IsBatch.nonneg {mean₀ deviations₀ weight₀ : ℚ}
    (batch : s.IsBatch mean₀ deviations₀ weight₀ obs) (deviations : 0 ≤ deviations₀)
    (weight : 0 ≤ weight₀) : 0 ≤ s.squaredDeviations := by
  have spread : 0 ≤ total (fun o => o.weight * (o.value - s.mean) ^ 2) obs :=
    total_nonneg fun o positive => mul_nonneg positive.le (sq_nonneg _)
  rw [batch.squaredDeviations]
  exact add_nonneg (add_nonneg deviations (mul_nonneg weight (sq_nonneg _))) spread

theorem isBatch_acceptAll (proper : s.Proper) (weighted : 0 < (s.acceptAll obs).weight) :
    (s.acceptAll obs).IsBatch s.mean s.squaredDeviations s.weight obs := by
  have weight := weight_acceptAll obs proper
  have sum := sum_acceptAll obs proper
  have squares := squares_acceptAll obs proper
  rw [RunningStats.sum, RunningStats.sum] at sum
  rw [RunningStats.squares, RunningStats.squares] at squares
  refine ⟨weight, ?_, ?_⟩
  · rw [eq_div_iff weighted.ne', sum, mul_comm s.mean]
  · -- the squares around the mean, with all three sums put in
    rw [total_spread]
    linear_combination squares - 2 * (s.acceptAll obs).mean * sum +
      (s.acceptAll obs).mean ^ 2 * weight

theorem eq_of_sums {s t : RunningStats ℚ} (weighted : s.weight ≠ 0) (weight : s.weight = t.weight)
    (sum : s.sum = t.sum) (squares : s.squares = t.squares) (count : s.count = t.count) : s = t := by
  have mean : s.mean = t.mean := by
    rw [RunningStats.sum, RunningStats.sum, ← weight] at sum
    exact mul_right_cancel₀ weighted sum
  have deviations : s.squaredDeviations = t.squaredDeviations := by
    rw [RunningStats.squares, RunningStats.squares, ← weight, ← mean] at squares
    exact add_right_cancel squares
  cases s
  cases t
  simp_all

theorem acceptAll_perm (proper : s.Proper) {other : List Observation} (perm : obs.Perm other) :
    s.acceptAll obs = s.acceptAll other := by
  have count : (s.acceptAll obs).count = (s.acceptAll other).count := by
    apply UInt64.toNat_inj.mp
    rw [toNat_count_acceptAll, toNat_count_acceptAll, (counted_perm perm).length_eq]
  by_cases empty : counted obs = []
  · have others : counted other = [] := (empty ▸ counted_perm perm).symm.eq_nil
    rw [acceptAll_of_uncounted obs empty, acceptAll_of_uncounted other others]
  · have weighted : (s.acceptAll obs).weight ≠ 0 := by
      rw [weight_acceptAll obs proper]
      exact (add_pos_of_nonneg_of_pos proper.nonneg (total_weight_pos empty)).ne'
    apply eq_of_sums weighted _ _ _ count
    · rw [weight_acceptAll obs proper, weight_acceptAll other proper, total_perm perm]
    · rw [sum_acceptAll obs proper, sum_acceptAll other proper, total_perm perm]
    · rw [squares_acceptAll obs proper, squares_acceptAll other proper, total_perm perm]

/-! ## Statistics from a start -/

section
variable (mean₀ deviations₀ : ℚ) {weight₀ : ℚ} (known : 0 ≤ weight₀)

theorem proper_ofPrior (weighted : 0 < weight₀) :
    (ofPrior mean₀ deviations₀ weight₀).Proper :=
  ⟨weighted.le, fun zero => absurd zero weighted.ne'⟩

theorem proper_blank : (ofPrior 0 0 0 : RunningStats ℚ).Proper := ⟨le_rfl, fun _ => rfl⟩

theorem acceptAll_ofPrior_zero (found : counted obs ≠ []) :
    (ofPrior mean₀ deviations₀ 0).acceptAll obs = (ofPrior 0 0 0).acceptAll obs :=
  acceptAll_of_unweighted obs le_rfl rfl rfl found

include known

theorem acceptAll_ofPrior_cases (obs : List Observation) :
    let s := (ofPrior mean₀ deviations₀ weight₀).acceptAll obs
    (0 < weight₀ ∧ 0 < s.weight ∧ s.IsBatch mean₀ deviations₀ weight₀ obs) ∨
      (weight₀ = 0 ∧ counted obs ≠ [] ∧ 0 < s.weight ∧ s.IsBatch 0 0 0 obs) ∨
      (weight₀ = 0 ∧ counted obs = [] ∧ s = ofPrior mean₀ deviations₀ weight₀) := by
  obtain weighted | rfl := known.lt_or_eq
  · have proper := proper_ofPrior mean₀ deviations₀ weighted
    have grown : 0 < ((ofPrior mean₀ deviations₀ weight₀).acceptAll obs).weight := by
      rw [weight_acceptAll obs proper]
      exact add_pos_of_pos_of_nonneg weighted (total_nonneg fun _ positive => positive.le)
    exact .inl ⟨weighted, grown, isBatch_acceptAll proper grown⟩
  · by_cases empty : counted obs = []
    · exact .inr (.inr ⟨rfl, empty, acceptAll_of_uncounted obs empty⟩)
    · have grown : 0 < ((ofPrior 0 0 0).acceptAll obs).weight := by
        rw [weight_acceptAll obs proper_blank]
        exact add_pos_of_nonneg_of_pos le_rfl (total_weight_pos empty)
      dsimp only
      rw [acceptAll_ofPrior_zero mean₀ deviations₀ empty]
      exact .inr (.inl ⟨rfl, empty, grown, isBatch_acceptAll proper_blank grown⟩)

theorem acceptAll_ofPrior_perm {obs other : List Observation} (perm : obs.Perm other) :
    (ofPrior mean₀ deviations₀ weight₀).acceptAll obs =
      (ofPrior mean₀ deviations₀ weight₀).acceptAll other := by
  obtain weighted | rfl := known.lt_or_eq
  · exact acceptAll_perm (proper_ofPrior mean₀ deviations₀ weighted) perm
  · have same := counted_perm perm
    by_cases empty : counted obs = []
    · rw [empty] at same
      rw [acceptAll_of_uncounted obs empty, acceptAll_of_uncounted other same.symm.eq_nil]
    · have found : counted other ≠ [] := fun nil => empty (by rw [nil] at same; exact same.eq_nil)
      rw [acceptAll_ofPrior_zero mean₀ deviations₀ empty,
        acceptAll_ofPrior_zero mean₀ deviations₀ found]
      exact acceptAll_perm proper_blank perm

theorem squaredDeviations_accept_lt {obs : List Observation} {o : Observation} :
    let s := (ofPrior mean₀ deviations₀ weight₀).acceptAll obs
    let t := s.accept o.value o.weight
    t.squaredDeviations < s.squaredDeviations →
      0 < o.weight ∧ weight₀ = 0 ∧ counted obs = [] ∧ t.squaredDeviations = 0 := by
  intro s t falls
  by_cases positive : 0 < o.weight
  · have never : ¬ 0 < s.weight := fun weighted =>
      not_le.mpr falls (squaredDeviations_le_accept o.value weighted positive)
    obtain ⟨_, weighted, _⟩ | ⟨_, _, weighted, _⟩ | ⟨zero, empty, _⟩ :=
      acceptAll_ofPrior_cases mean₀ deviations₀ known obs
    · exact absurd weighted never
    · exact absurd weighted never
    · have first := accept_of_unweighted o.value (not_lt.mp never) positive
      exact ⟨positive, zero, empty, congrArg squaredDeviations first⟩
  · exact absurd (congrArg squaredDeviations (s.accept_of_not_pos positive o.value)) falls.ne

end

/-- Statistics are those of the whole list of counted observations, in whatever order they come,
and the start counts as observations of its own unless it has no weight. -/
theorem acceptAll_ofPrior (mean₀ deviations₀ : ℚ) {weight₀ : ℚ} (known : 0 ≤ weight₀)
    (obs : List Observation) :
    let start := ofPrior mean₀ deviations₀ weight₀
    let s := start.acceptAll obs
    (0 < weight₀ → s.IsBatch mean₀ deviations₀ weight₀ obs) ∧
      (weight₀ = 0 → counted obs ≠ [] → s.IsBatch 0 0 0 obs) ∧
      (counted obs = [] → s = start) ∧
      ((counted obs).length < UInt64.size →
        start.acceptAll? obs = some s ∧ s.count.toNat = (counted obs).length) ∧
      (UInt64.size ≤ (counted obs).length → start.acceptAll? obs = none) ∧
      (∀ other, obs.Perm other →
        start.acceptAll other = s ∧ start.acceptAll? other = start.acceptAll? obs) ∧
      (0 ≤ deviations₀ → 0 ≤ s.squaredDeviations) ∧
      ∀ o : Observation,
        let t := s.accept o.value o.weight
        (0 < o.weight → s.weight < t.weight) ∧
          (t.squaredDeviations < s.squaredDeviations →
            0 < o.weight ∧ weight₀ = 0 ∧ counted obs = [] ∧ t.squaredDeviations = 0) := by
  intro start s
  have kinds := acceptAll_ofPrior_cases mean₀ deviations₀ known obs
  have partialRun := acceptAll?_eq (s := start)
  have zero : start.count.toNat = 0 := rfl
  simp only [zero, Nat.zero_add] at partialRun
  refine ⟨?_, ?_, acceptAll_of_uncounted obs, ?_, ?_, ?_, ?_, ?_⟩
  · intro weighted
    obtain ⟨_, _, batch⟩ | ⟨zero, _⟩ | ⟨zero, _⟩ := kinds
    · exact batch
    · exact absurd zero weighted.ne'
    · exact absurd zero weighted.ne'
  · intro zero found
    obtain ⟨weighted, _⟩ | ⟨_, _, _, batch⟩ | ⟨_, empty, _⟩ := kinds
    · exact absurd zero weighted.ne'
    · exact batch
    · exact absurd empty found
  · intro fits
    rw [partialRun, if_pos fits, toNat_count_acceptAll, zero]
    exact ⟨rfl, by omega⟩
  · intro full
    rw [partialRun, if_neg (not_lt.mpr full)]
  · intro other perm
    have same := (acceptAll_ofPrior_perm mean₀ deviations₀ known perm).symm
    rw [partialRun, partialRun, (counted_perm perm).length_eq]
    exact ⟨same, by rw [same]⟩
  · intro nonneg
    obtain ⟨_, _, batch⟩ | ⟨_, _, _, batch⟩ | ⟨_, _, same⟩ := kinds
    · exact batch.nonneg nonneg known
    · exact batch.nonneg le_rfl le_rfl
    · exact nonneg.trans_eq (congrArg squaredDeviations same).symm
  · intro o
    refine ⟨fun positive => ?_, squaredDeviations_accept_lt mean₀ deviations₀ known⟩
    exact (lt_add_of_pos_right _ positive).trans_eq (weight_accept o.value positive).symm

theorem acceptAll_ofPrior_three :
    let start : RunningStats ℚ := ofPrior 1 2 3
    let obs : List Observation := [⟨2, 1⟩, ⟨5, 0⟩, ⟨-1, 1 / 2⟩]
    let s := start.acceptAll obs
    s.IsBatch 1 2 3 obs ∧ start.acceptAll? obs = some s ∧ s.count.toNat = 2 ∧
      (s.mean, s.squaredDeviations, s.weight) = (1, 5, 9 / 2) ∧
      start.acceptAll [⟨-1, 1 / 2⟩, ⟨2, 1⟩, ⟨5, 0⟩] = s := by
  intro start obs s
  have known : (0 : ℚ) ≤ 3 := by decide +kernel
  obtain ⟨batch, _, _, run, _, perm, _⟩ := acceptAll_ofPrior 1 2 known obs
  have two : (counted obs).length = 2 := by decide +kernel
  obtain ⟨run, count⟩ := run (two.trans_lt (by decide))
  have turned : ([⟨2, 1⟩, ⟨5, 0⟩] ++ [⟨-1, 1 / 2⟩] : List Observation).Perm
      ([⟨-1, 1 / 2⟩] ++ [⟨2, 1⟩, ⟨5, 0⟩]) := List.perm_append_comm
  exact ⟨batch (by decide +kernel), run, count.trans two, by decide +kernel, (perm _ turned).1⟩

end

end RunningStats

end DecisionSpace
