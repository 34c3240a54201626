import DecisionSpace.Proofs.Rounding

/-!
# Arithmetic of doubles

What the operations on doubles have to do with those on the numbers that they stand for.  The
exact result of an operation on finite doubles is rounded, unless it is beyond all doubles.  So
results keep their order with respect to doubles, their sign and, but for an error, their size.
-/

set_option autoImplicit false

namespace DecisionSpace.Double

open Float.Model Float.Model.UnpackedFloat
open Float.Model.Format (binary64)

/-! ## Operations on data -/

theorem rounds_zero (s : Sign) : Rounds 0 (.zero s) := Rounds.self (.zero s) rfl

theorem apply_eq (s : Sign) (m : ℕ) : (s.apply m : ℚ) = s.apply 1 * m := by
  cases s with
  | _ => simp [Sign.apply]

theorem abs_apply_mul (s : Sign) (x : ℚ) : |s.apply 1 * x| = |x| := by
  cases s with
  | _ => simp [Sign.apply]

theorem apply_mul (s t : Sign) : ((s * t).apply 1 : ℚ) = s.apply 1 * t.apply 1 := by
  cases s with
  | negative =>
      cases t with
      | _ => simp [Sign.apply]
  | positive => simp [Sign.apply, positive_mul]

theorem apply_div (s t : Sign) : ((s / t).apply 1 : ℚ) = s.apply 1 / t.apply 1 := by
  have turned : ((s / t).apply 1 : ℚ) = (s * t).apply 1 := by
    cases s with
    | _ => cases t <;> rfl
  rw [turned, apply_mul]
  cases t with
  | negative => simp [Sign.apply, div_neg]
  | positive => simp [Sign.apply]

theorem value_finite (s : Sign) {m : ℕ} (e : ℤ) (pos : 0 < m) :
    value (.finite s m e pos) = s.apply 1 * (m * power e) := by
  rw [← mul_assoc, ← apply_eq]
  rfl

theorem scaled_nonneg (m : ℕ) (e : ℤ) : 0 ≤ m * power e := mul_nonneg m.cast_nonneg (power_pos e).le

section
variable {w w' : BitVec 64} {u v : UnpackedFloat} (reads : Reads w u) (reads' : Reads w' v)
  (finite : u.isFinite) (finite' : v.isFinite)

include reads reads' finite finite'

theorem rounds_mul (small : |value u * value v| < limit) :
    Rounds (value u * value v) (UnpackedFloat.mul binary64 u v) := by
  cases u with
  | infinity s => cases finite
  | notANumber => cases finite
  | zero s =>
      rw [value_zero, zero_mul]
      cases v with
      | infinity t => cases finite'
      | notANumber => cases finite'
      | zero t => exact rounds_zero _
      | finite t m e pos => exact rounds_zero _
  | finite s m e pos =>
      cases v with
      | infinity t => cases finite'
      | notANumber => cases finite'
      | zero t =>
          rw [value_zero, mul_zero]
          exact rounds_zero _
      | finite t m' e' pos' =>
          obtain ⟨_, least, full⟩ := reads.bounds
          obtain ⟨_, least', full'⟩ := reads'.bounds
          have product : value (.finite s m e pos) * value (.finite t m' e' pos') =
              (s * t).apply 1 * ((m * m' : ℕ) * power (e + e')) := by
            rw [value_finite, value_finite, apply_mul, power_add]
            push_cast
            ring
          have located : Locates (.ofMantissaAndAccuracy (m * m') .exact)
              (((m * m' : ℕ) * power (e + e')) / power (e + e')) := by
            rw [mul_div_cancel_right₀ _ (power_pos _).ne']
            exact locates_exact _
          have enough : e + e' ≤ binary64.targetExponent (totalExponent (m * m') (e + e')) := by
            rw [targetExponent_eq]
            by_cases long : 2 ^ 52 ≤ m * m'
            · have bits : 52 ≤ (m * m').log2 := (Nat.le_log2 (Nat.mul_pos pos pos').ne').mpr long
              omega
            · -- neither mantissa is full, so both exponents are the least
              have short : ¬ 2 ^ 52 ≤ m := fun full => long (full.trans (Nat.le_mul_of_pos_right m pos'))
              have short' : ¬ 2 ^ 52 ≤ m' := fun full => long (full.trans (Nat.le_mul_of_pos_left m' pos))
              have := full.resolve_left short
              have := full'.resolve_left short'
              omega
          rw [product] at small ⊢
          rw [abs_apply_mul, abs_of_nonneg (scaled_nonneg _ _)] at small
          exact rounds_roundWithAccuracy _ located enough small

end

theorem rounds_round (s : Sign) {m : ℕ} (pos : 0 < m) (e : ℤ) (small : m * power e < limit) :
    Rounds (s.apply 1 * (m * power e)) (UnpackedFloat.round binary64 s m e) := by
  generalize target : binary64.targetExponent (totalExponent m e) = t
  generalize amount : (e - t).toNat = k
  have scaled : m * power e = (m <<< k : ℕ) * power (e - k) := by
    have split : power e = power (e - k) * 2 ^ k := by
      rw [← power_natCast, ← power_add, Int.sub_add_cancel]
    rw [split, Nat.shiftLeft_eq]
    push_cast
    ring
  have total : totalExponent (m <<< k) (e - k) = totalExponent m e := by
    rw [totalExponent, totalExponent, Nat.shiftLeft_eq, Nat.mul_comm, log2_shifted pos]
    omega
  have located : Locates (.ofMantissaAndAccuracy (m <<< k) .exact) ((m * power e) / power (e - k)) := by
    rw [scaled, mul_div_cancel_right₀ _ (power_pos _).ne']
    exact locates_exact _
  have enough : e - k ≤ binary64.targetExponent (totalExponent (m <<< k) (e - k)) := by
    rw [total, target]
    omega
  have result : UnpackedFloat.round binary64 s m e = roundWithAccuracy binary64 s (m <<< k) (e - k) .exact := by
    rw [UnpackedFloat.round, target, decreaseExponent, amount]
  rw [result]
  exact rounds_roundWithAccuracy s located enough small

theorem rounds_normalize (n : ℤ) (e : ℤ) (s : Sign) (small : |n * power e| < limit) :
    Rounds (n * power e) (UnpackedFloat.normalize binary64 n e s) := by
  have scale := power_pos e
  rcases lt_trichotomy n 0 with negative | rfl | positive
  · have order : compare n 0 = .lt := Int.compare_eq_lt.mpr negative
    have turned : (n : ℚ) = Sign.negative.apply 1 * (-n).toNat := by
      have size : ((-n).toNat : ℤ) = -n := Int.toNat_of_nonneg (by omega)
      have size' : ((-n).toNat : ℚ) = -n := by exact_mod_cast size
      rw [size']
      simp [Sign.apply]
    rw [UnpackedFloat.normalize, order]
    rw [turned, mul_assoc] at small ⊢
    rw [abs_apply_mul, abs_of_nonneg (scaled_nonneg _ _)] at small
    exact rounds_round .negative (by omega) e small
  · simp only [Int.cast_zero, zero_mul]
    exact rounds_zero s
  · have order : compare n 0 = .gt := Int.compare_eq_gt.mpr positive
    have same : (n : ℚ) = Sign.positive.apply 1 * n.toNat := by
      have size : (n.toNat : ℤ) = n := Int.toNat_of_nonneg positive.le
      have size' : (n.toNat : ℚ) = n := by exact_mod_cast size
      rw [size']
      simp [Sign.apply]
    rw [UnpackedFloat.normalize, order]
    rw [same, mul_assoc] at small ⊢
    rw [abs_apply_mul, abs_of_nonneg (scaled_nonneg _ _)] at small
    exact rounds_round .positive (by omega) e small

theorem value_decreaseExponent (s : Sign) {m : ℕ} {e t : ℤ} (pos : 0 < m) (le : t ≤ e) :
    value (.finite s m e pos) = (s.apply (decreaseExponent m e t).1 : ℤ) * power t := by
  obtain ⟨k, rfl⟩ := Int.le.dest le
  have amount : (t + k - t).toNat = k := by omega
  rw [value_finite, decreaseExponent, amount, power_add, power_natCast, apply_eq, Nat.shiftLeft_eq]
  push_cast
  ring

section
variable {w w' : BitVec 64} {u v : UnpackedFloat} (reads : Reads w u) (reads' : Reads w' v)
  (finite : u.isFinite) (finite' : v.isFinite)

include reads reads' finite finite'

theorem rounds_add (small : |value u + value v| < limit) :
    Rounds (value u + value v) (UnpackedFloat.add binary64 u v) := by
  cases u with
  | infinity s => cases finite
  | notANumber => cases finite
  | zero s =>
      cases v with
      | infinity t => cases finite'
      | notANumber => cases finite'
      | zero t =>
          rw [value_zero, value_zero, add_zero, UnpackedFloat.add]
          split
          · exact rounds_zero _
          · exact rounds_zero _
      | finite t m e pos =>
          rw [value_zero, zero_add]
          exact Rounds.self reads' rfl
  | finite s m e pos =>
      cases v with
      | infinity t => cases finite'
      | notANumber => cases finite'
      | zero t =>
          rw [value_zero, add_zero]
          exact Rounds.self reads rfl
      | finite t m' e' pos' =>
          have sum : value (.finite s m e pos) + value (.finite t m' e' pos') =
              (s.apply (decreaseExponent m e (min e e')).1 +
                t.apply (decreaseExponent m' e' (min e e')).1 : ℤ) * power (min e e') := by
            rw [value_decreaseExponent s pos (min_le_left e e'),
              value_decreaseExponent t pos' (min_le_right e e')]
            push_cast
            ring
          rw [sum] at small ⊢
          exact rounds_normalize _ _ _ small

end

theorem sub_eq_add_neg_unpacked (u v : UnpackedFloat) :
    UnpackedFloat.sub binary64 u v = UnpackedFloat.add binary64 u v.neg := by
  have turned : ∀ (t : Sign) (n : ℤ), (-t).apply n = -t.apply n := by
    intro t n
    cases t with
    | negative => exact (neg_neg n).symm
    | positive => rfl
  cases u with
  | infinity s => cases v <;> rfl
  | notANumber => cases v <;> rfl
  | zero s => cases v <;> rfl
  | finite s m e pos =>
      cases v with
      | finite t m' e' pos' =>
          simp only [UnpackedFloat.sub, UnpackedFloat.neg, UnpackedFloat.add, turned]
          rfl
      | _ => rfl

theorem value_neg (u : UnpackedFloat) : value u.neg = -value u := by
  cases u with
  | infinity s => exact neg_zero.symm
  | notANumber => exact neg_zero.symm
  | zero s => exact neg_zero.symm
  | finite s m e pos =>
      cases s with
      | negative => exact (value_positive m e pos).trans (by rw [value_negative, neg_neg])
      | positive => exact (value_negative m e pos).trans (by rw [value_positive])

theorem isFinite_neg (u : UnpackedFloat) : u.neg.isFinite = u.isFinite := by
  cases u with
  | _ => rfl

theorem locates_fraction (m : ℕ) {x : ℚ} (inside : 0 < x) (proper : x < 1) {o : Ordering}
    (lower : o = .lt ↔ x < 1 / 2) (middle : o = .eq ↔ x = 1 / 2) :
    Locates (.ofMantissaAndAccuracy m (.inexact o)) (m + x) := by
  have same := mantissa_ofMantissaAndAccuracy m (.inexact o)
  have bottom : (m : ℚ) + x ≠ m := fun bottom => by linarith
  constructor
  · rw [same]
    linarith
  · rw [same]
    linarith
  · rw [same, add_le_add_iff_left, ← not_lt, ← lower]
    cases o with
    | _ => simp [ExtendedMantissa.ofMantissaAndAccuracy]
  · rw [same, Ne, Ne, add_right_inj, ← middle, and_iff_right bottom]
    cases o with
    | _ => simp [ExtendedMantissa.ofMantissaAndAccuracy]

theorem locates_div (m : ℕ) {d : ℕ} (pos : 0 < d) :
    Locates (.ofMantissaAndAccuracy (m / d) (accuracyOfFraction (m % d) d)) ((m : ℚ) / d) := by
  have scale : (0 : ℚ) < d := by exact_mod_cast pos
  have quotient : (m : ℚ) / d = (m / d : ℕ) + (m % d : ℕ) / d := by
    have split : (m : ℚ) = (m / d : ℕ) * d + (m % d : ℕ) := by
      exact_mod_cast (Nat.div_add_mod' m d).symm
    rw [div_eq_iff scale.ne', add_mul, div_mul_cancel₀ _ scale.ne']
    exact split
  rw [quotient, accuracyOfFraction]
  split
  · rename_i whole
    rw [whole, Nat.cast_zero, zero_div, add_zero]
    exact locates_exact _
  · rename_i rest
    refine locates_fraction _ ?_ ?_ ?_ ?_
    · exact div_pos (by exact_mod_cast Nat.pos_of_ne_zero rest) scale
    · rw [div_lt_one scale]
      exact_mod_cast Nat.mod_lt m pos
    · rw [Nat.compare_eq_lt, div_lt_div_iff₀ scale two_pos, mul_comm]
      norm_cast
      rw [Nat.one_mul]
    · rw [Nat.compare_eq_eq, div_eq_div_iff scale.ne' two_ne_zero, mul_comm]
      norm_cast
      rw [Nat.one_mul]

theorem exists_divCore {m m' : ℕ} (pos : 0 < m) (pos' : 0 < m') (e e' : ℤ) :
    ∃ n t accuracy, divCore binary64 m e m' e' = (n, t, accuracy) ∧
      Locates (.ofMantissaAndAccuracy n accuracy) (m * power e / (m' * power e') / power t) ∧
      t ≤ binary64.targetExponent (totalExponent n t) := by
  generalize target : min (e - e')
    (binary64.targetExponent (totalExponent m e - totalExponent m' e')) = t
  have least : t ≤ max (totalExponent m e - totalExponent m' e' - 53) (-1074) :=
    target ▸ min_le_right _ _
  obtain ⟨k, amount⟩ := Int.le.dest (target ▸ min_le_left _ _ : t ≤ e - e')
  have shift : (e - e' - t).toNat = k := by omega
  refine ⟨(m <<< k) / m', t, accuracyOfFraction ((m <<< k) % m') m', ?_, ?_, ?_⟩
  · rw [divCore, target, shift]
  · have scaled : m * power e / (m' * power e') / power t = ((m <<< k : ℕ) : ℚ) / m' := by
      have split : power e = 2 ^ k * (power e' * power t) := by
        rw [← power_natCast, ← power_add, ← power_add]
        congr 1
        omega
      have scale := power_pos e'
      have scale' := power_pos t
      rw [split, Nat.shiftLeft_eq]
      push_cast
      field_simp
    rw [scaled]
    exact locates_div _ pos'
  · rw [targetExponent_eq]
    by_cases minimal : t ≤ -1074
    · exact minimal.trans (le_max_right _ _)
    · -- the shifted dividend has at least 53 bits more than the divisor
      have bits : m'.log2 + 53 ≤ k + m.log2 := by
        rw [totalExponent, totalExponent] at least
        omega
      have long : 2 ^ 52 ≤ m <<< k / m' := by
        have below : m' < 2 ^ (m'.log2 + 1) := Nat.lt_log2_self
        have above : 2 ^ (k + m.log2) ≤ m <<< k := by
          rw [Nat.shiftLeft_eq, Nat.pow_add, Nat.mul_comm]
          exact Nat.mul_le_mul_right _ (Nat.log2_self_le pos.ne')
        rw [Nat.le_div_iff_mul_le pos']
        calc 2 ^ 52 * m' ≤ 2 ^ 52 * 2 ^ (m'.log2 + 1) := Nat.mul_le_mul_left _ below.le
          _ = 2 ^ (m'.log2 + 53) := by rw [← Nat.pow_add]; congr 1; omega
          _ ≤ 2 ^ (k + m.log2) := Nat.pow_le_pow_right two_pos bits
          _ ≤ m <<< k := above
      have full : 52 ≤ (m <<< k / m').log2 := (Nat.le_log2 (by omega)).mpr long
      omega

section
variable {w w' : BitVec 64} {u v : UnpackedFloat} (reads : Reads w u) (reads' : Reads w' v)
  (finite : u.isFinite) (finite' : v.isFinite)

include reads reads' finite finite'

theorem rounds_sub (small : |value u - value v| < limit) :
    Rounds (value u - value v) (UnpackedFloat.sub binary64 u v) := by
  obtain ⟨_, negated⟩ := reads'.neg
  rw [sub_eq_add_neg] at small ⊢
  rw [sub_eq_add_neg_unpacked]
  rw [← value_neg] at small ⊢
  exact rounds_add reads negated finite ((isFinite_neg v).trans finite') small

theorem rounds_div (divisor : value v ≠ 0) (small : |value u / value v| < limit) :
    Rounds (value u / value v) (UnpackedFloat.div binary64 u v) := by
  cases v with
  | infinity t => cases finite'
  | notANumber => cases finite'
  | zero t => exact absurd rfl divisor
  | finite t m' e' pos' =>
      cases u with
      | infinity s => cases finite
      | notANumber => cases finite
      | zero s =>
          rw [value_zero, zero_div]
          exact rounds_zero _
      | finite s m e pos =>
          obtain ⟨n, d, accuracy, core, located, enough⟩ := exists_divCore pos pos' e e'
          have quotient : value (.finite s m e pos) / value (.finite t m' e' pos') =
              (s / t).apply 1 * (m * power e / (m' * power e')) := by
            rw [value_finite, value_finite, apply_div, mul_div_mul_comm]
          have nonneg : 0 ≤ m * power e / (m' * power e') :=
            div_nonneg (scaled_nonneg m e) (scaled_nonneg m' e')
          rw [quotient] at small ⊢
          rw [abs_apply_mul, abs_of_nonneg nonneg] at small
          rw [UnpackedFloat.div, core]
          exact rounds_roundWithAccuracy _ located enough small

end

/-! ## Operations on doubles -/

/-- A finite double that a number is rounded to. -/
def RoundsTo (q : ℚ) (x : Float) : Prop := Rounds q x.toModel.unpack

theorem roundsTo_of_pack {q : ℚ} {u : UnpackedFloat} (rounds : Rounds q u) {x : Float}
    (packed : x.toModel = Float.Model.pack u) : RoundsTo q x := by
  obtain ⟨w, reads⟩ := rounds.reads
  have word : x.toModel.toBits.toBitVec = w := by
    rw [packed]
    exact reads.pack
  rwa [RoundsTo, Float.Model.unpack, word, reads.unpack]

section
variable {x y : Float} (finite : x.isFinite) (finite' : y.isFinite)

include finite finite'

theorem roundsTo_add (small : |toRat x + toRat y| < limit) : RoundsTo (toRat x + toRat y) (x + y) :=
  roundsTo_of_pack (rounds_add (reads x.toModel) (reads y.toModel) finite finite' small) rfl

theorem roundsTo_sub (small : |toRat x - toRat y| < limit) : RoundsTo (toRat x - toRat y) (x - y) :=
  roundsTo_of_pack (rounds_sub (reads x.toModel) (reads y.toModel) finite finite' small) rfl

theorem roundsTo_mul (small : |toRat x * toRat y| < limit) : RoundsTo (toRat x * toRat y) (x * y) :=
  roundsTo_of_pack (rounds_mul (reads x.toModel) (reads y.toModel) finite finite' small) rfl

theorem roundsTo_div (divisor : toRat y ≠ 0) (small : |toRat x / toRat y| < limit) :
    RoundsTo (toRat x / toRat y) (x / y) :=
  roundsTo_of_pack (rounds_div (reads x.toModel) (reads y.toModel) finite finite' divisor small) rfl

end

namespace RoundsTo

variable {q : ℚ} {x y : Float} (rounds : RoundsTo q x)

include rounds

theorem isFinite : x.isFinite := Rounds.isFinite rounds

theorem exists_near : ∃ n e, Near q n e ∧ toRat x = n * power e := Rounds.near rounds

theorem nearest (finite : y.isFinite) : |toRat x - q| ≤ |toRat y - q| := by
  obtain ⟨n, e, near, same⟩ := rounds.exists_near
  obtain ⟨k, f, canonical, same'⟩ : ∃ k f, Canonical k f ∧ toRat y = k * power f :=
    exists_canonical (reads y.toModel) finite
  rw [same, same']
  exact near.nearest canonical

theorem le_of_le (finite : y.isFinite) (le : q ≤ toRat y) : toRat x ≤ toRat y := by
  have nearest := rounds.nearest finite
  rw [abs_of_nonneg (sub_nonneg.mpr le)] at nearest
  linarith [(abs_le.mp nearest).2]

theorem ge_of_ge (finite : y.isFinite) (ge : toRat y ≤ q) : toRat y ≤ toRat x := by
  have nearest := rounds.nearest finite
  rw [abs_of_nonpos (sub_nonpos.mpr ge)] at nearest
  linarith [(abs_le.mp nearest).1]

theorem nonneg (sign : 0 ≤ q) : 0 ≤ toRat x := rounds.ge_of_ge isFinite_zero sign

theorem nonpos (sign : q ≤ 0) : toRat x ≤ 0 := rounds.le_of_le isFinite_zero sign

theorem abs_sub_le : |toRat x - q| ≤ |q| * power (-53) + power (-1075) := by
  obtain ⟨n, e, near, same⟩ := rounds.exists_near
  rw [same]
  exact near.abs_sub_le

theorem abs_sub_le_mul (large : power (-1022) ≤ |q|) : |toRat x - q| ≤ |q| * power (-52) := by
  have split : power (-1075) = power (-1022) * power (-53) := by
    rw [← power_add]
    norm_num
  have double : power (-52) = 2 * power (-53) := power_succ (by norm_num)
  have error := rounds.abs_sub_le
  have least := mul_le_mul_of_nonneg_right large (power_pos (-53)).le
  rw [double]
  linarith

theorem eq_zero (small : |q| < power (-1075)) : toRat x = 0 := by
  obtain ⟨n, e, near, same⟩ := rounds.exists_near
  rw [same, near.eq_zero small, Int.cast_zero, zero_mul]

theorem abs_le_power {f : ℤ} (least : -1074 ≤ f) (close : |q| < power (f + 52) + power f / 2) :
    |toRat x| ≤ power (f + 52) := by
  obtain ⟨n, e, near, same⟩ := rounds.exists_near
  obtain ⟨above, below⟩ := abs_lt.mp close
  have upper := near.le_of_half least below
  have lower := near.neg.le_of_half least (neg_lt.mp above)
  push_cast at lower
  rw [same, abs_le]
  exact ⟨by linarith, upper⟩

theorem abs_le_of_le {k : ℤ} (least : -1022 ≤ k) (le : |q| ≤ power k) : |toRat x| ≤ power k := by
  obtain ⟨f, rfl⟩ : ∃ f, k = f + 52 := ⟨k - 52, by omega⟩
  exact rounds.abs_le_power (by omega) (le.trans_lt (lt_add_of_pos_right _ (half_pos (power_pos f))))

end RoundsTo

theorem power_lt_limit {k : ℤ} (le : k ≤ 1023) : power k < limit := by
  have double : power 1024 = 2 * power 1023 := power_succ (by norm_num)
  have less : power 970 < power 1023 := power_lt_iff.mpr (by norm_num)
  have order := power_le le
  rw [limit]
  linarith

theorem le_zero_iff {x : Float} (finite : x.isFinite) : x ≤ 0 ↔ toRat x ≤ 0 := by
  have unpacked : x ≤ 0 ↔ x.toModel.unpack.le (.zero .positive) := decide_eq_true_iff
  have finite : x.toModel.unpack.isFinite := finite
  rw [unpacked, toRat]
  generalize x.toModel.unpack = u at finite
  cases u with
  | infinity s => cases finite
  | notANumber => cases finite
  | zero s => exact iff_of_true rfl le_rfl
  | finite s m e pos =>
      have size := scaled_pos m e pos
      cases s with
      | negative => exact iff_of_true rfl (by rw [value_negative]; linarith)
      | positive => exact iff_of_false Bool.false_ne_true (by rw [value_positive]; linarith)

end DecisionSpace.Double
