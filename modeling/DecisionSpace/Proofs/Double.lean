import Mathlib

/-!
# Doubles

The order of the doubles, their sign and the numbers that they stand for.  A word stands for a
datum that is read off its fields; each reading packs to the word it comes from, so that an
operation on data that leads from one reading to another says what the operation does to the
doubles themselves.
-/

set_option autoImplicit false

namespace DecisionSpace.Double

open Float.Model Float.Model.UnpackedFloat
open Float.Model.Format (binary64)

/-! ## Words and what they stand for -/

inductive Reads : BitVec 64 → UnpackedFloat → Prop where
  | infinity (s : Sign) : Reads (packedInfinity binary64 s) (.infinity s)
  | notANumber : Reads (packedNaN binary64) .notANumber
  | zero (s : Sign) : Reads (packedZero binary64 s) (.zero s)
  | subnormal (s : Sign) (m : BitVec 52) (pos : 0 < m.toNat) :
      Reads (packComponents binary64 s 0#11 m) (.finite s m.toNat (-1074) pos)
  | normal (s : Sign) (e : BitVec 11) (m : BitVec 52) (positive : 0 < e.toNat)
      (bounded : e.toNat < 2047) (pos : 0 < 2 ^ 52 + m.toNat) :
      Reads (packComponents binary64 s e m) (.finite s (2 ^ 52 + m.toNat) (e.toNat - 1075) pos)

theorem ofBitVec_toBitVec (s : Sign) : Sign.ofBitVec s.toBitVec = s := by
  cases s with
  | negative => rfl
  | positive => rfl

theorem unpackSign_packComponents (s : Sign) (e : BitVec 11) (m : BitVec 52) :
    @unpackSign binary64 (packComponents binary64 s e m) = s.toBitVec := by
  change (s.toBitVec ++ e ++ m).extractLsb' 63 1 = s.toBitVec
  rw [BitVec.extractLsb'_append_eq_of_le (by decide), BitVec.extractLsb'_append_eq_left]

theorem exists_components (w : BitVec 64) : ∃ s e m, w = packComponents binary64 s e m := by
  have sign : ∀ v : BitVec 1, (Sign.ofBitVec v).toBitVec = v := by decide
  have upper : 63 = 52 + 11 := by decide
  have lower : 52 = 0 + 52 := by decide
  refine ⟨Sign.ofBitVec (w.extractLsb' 63 1), w.extractLsb' 52 11, w.extractLsb' 0 52, ?_⟩
  rw [packComponents, sign, BitVec.extractLsb'_append_extractLsb'_eq_extractLsb' upper,
    BitVec.extractLsb'_append_extractLsb'_eq_extractLsb' lower, BitVec.extractLsb'_eq_self]

theorem toNat_implicit (m : BitVec 52) : (1#1 ++ m).toNat = 2 ^ 52 + m.toNat := by
  rw [BitVec.toNat_append, ← Nat.shiftLeft_add_eq_or_of_lt m.isLt]
  rfl

theorem log2_implicit (m : BitVec 52) : (2 ^ 52 + m.toNat).log2 = 52 := by
  have bound := m.isLt
  exact (Nat.log2_eq_iff (by omega)).mpr ⟨by omega, by omega⟩

section
variable {w : BitVec 64} {u : UnpackedFloat}

theorem Reads.unpack (reads : Reads w u) : unpack binary64 w = u := by
  cases reads with
  | infinity s => cases s with
    | negative => rfl
    | positive => rfl
  | notANumber => rfl
  | zero s => cases s with
    | negative => rfl
    | positive => rfl
  | subnormal s m pos =>
      have some : m ≠ 0#52 := (BitVec.pos_iff_ne_zero m).mp ((BitVec.toNat_pos m).mp pos)
      simp only [UnpackedFloat.unpack, unpackMantissa_packComponents,
        unpackExponent_packComponents, unpackSign_packComponents, ofBitVec_toBitVec]
      rw [if_neg (by decide), if_pos trivial, dif_neg some]
      rfl
  | normal s e m positive bounded pos =>
      have low : e ≠ 0#11 := fun zero => by rw [zero] at positive; exact absurd positive (by decide)
      have high : e ≠ -1#11 := fun top => by rw [top] at bounded; exact absurd bounded (by decide)
      have bias : (binary64.exponentBias : Int) = 1023 := rfl
      simp only [UnpackedFloat.unpack, unpackMantissa_packComponents,
        unpackExponent_packComponents, unpackSign_packComponents, ofBitVec_toBitVec]
      rw [if_neg high, if_neg low]
      simp only [toNat_implicit, bias]
      congr 1

theorem Reads.pack (reads : Reads w u) : pack binary64 u = w := by
  cases reads with
  | infinity s => rfl
  | notANumber => rfl
  | zero s => rfl
  | subnormal s m pos =>
      have short : m.toNat.log2 < 52 := (Nat.log2_lt (Nat.ne_of_gt pos)).mpr m.isLt
      have bits : binary64.mantissaBits = 53 := rfl
      have exponent : ((-1074 : Int) + binary64.exponentBias + (52 : Nat)).toNat = 1 := rfl
      simp only [UnpackedFloat.pack, exponent, bits]
      rw [if_neg (by decide), if_neg (by omega), BitVec.ofNat_toNat, BitVec.setWidth_eq]
  | normal s e m positive bounded pos =>
      have bias : (binary64.exponentBias : Int) = 1023 := rfl
      have bits : binary64.mantissaBits = 53 := rfl
      have exponent : ((e.toNat : Int) - 1075 + binary64.exponentBias + (52 : Nat)).toNat =
          e.toNat := by omega
      have mantissa : BitVec.ofNat 52 (2 ^ 52 + m.toNat) = m := by
        apply BitVec.eq_of_toNat_eq
        rw [BitVec.toNat_ofNat, Nat.add_mod_left, Nat.mod_eq_of_lt m.isLt]
      simp only [UnpackedFloat.pack, exponent, log2_implicit, bits, mantissa]
      rw [if_neg (by omega), if_pos trivial, BitVec.ofNat_toNat, BitVec.setWidth_eq]

theorem reads (x : Float.Model) : Reads x.toBits.toBitVec x.unpack := by
  suffices some : ∃ u, Reads x.toBits.toBitVec u by
    obtain ⟨u, reads⟩ := some
    rw [Float.Model.unpack, reads.unpack]
    exact reads
  -- a word that stands for no number is the one such word that is allowed
  obtain ⟨nan⟩ := x.valid
  obtain ⟨s, e, m, word⟩ := exists_components x.toBits.toBitVec
  rw [word, unpackExponent_packComponents, unpackMantissa_packComponents] at nan
  rw [word]
  have bound : e.toNat < 2048 := e.isLt
  by_cases top : e = -1#11
  · by_cases none : m = 0#52
    · rw [top, none]
      exact ⟨_, .infinity s⟩
    · rw [nan top none]
      exact ⟨_, .notANumber⟩
  · have bounded : e.toNat < 2047 := by
      have : e.toNat ≠ 2047 := fun same => top (BitVec.eq_of_toNat_eq same)
      omega
    by_cases zero : e = 0#11
    · by_cases none : m = 0#52
      · rw [zero, none]
        exact ⟨_, .zero s⟩
      · rw [zero]
        exact ⟨_, .subnormal s m (BitVec.toNat_pos_of_ne_zero none)⟩
    · exact ⟨_, .normal s e m (BitVec.toNat_pos_of_ne_zero zero) bounded (by omega)⟩

theorem Reads.neg (reads : Reads w u) : ∃ w', Reads w' u.neg := by
  cases reads with
  | infinity s => exact ⟨_, .infinity (-s)⟩
  | notANumber => exact ⟨_, .notANumber⟩
  | zero s => exact ⟨_, .zero (-s)⟩
  | subnormal s m pos => exact ⟨_, .subnormal (-s) m pos⟩
  | normal s e m positive bounded pos => exact ⟨_, .normal (-s) e m positive bounded pos⟩

end

theorem pack_unpack (x : Float.Model) : pack x.unpack = x := by
  have word := (reads x).pack
  cases x
  simp only [Float.Model.pack, word]

theorem unpack_neg (x : Float.Model) : (-x).unpack = x.unpack.neg := by
  obtain ⟨w, negated⟩ := (reads x).neg
  have word : (-x).toBits.toBitVec = w := negated.pack
  rw [Float.Model.unpack, word, negated.unpack]

/-! ## Multiples of one -/

theorem shiftRight_exact (m k : Nat) :
    ExtendedMantissa.mk (2 ^ k * m) false false >>> k = ⟨m, false, false⟩ := by
  change k.repeat ExtendedMantissa.shiftRightOne _ = _
  induction k generalizing m with
  | zero =>
      rw [Nat.pow_zero, Nat.one_mul]
      rfl
  | succ k ih =>
      have half : 2 ^ (k + 1) * m = 2 ^ k * (2 * m) := by rw [Nat.pow_succ, Nat.mul_assoc]
      rw [Nat.repeat, half, ih]
      simp [ExtendedMantissa.shiftRightOne]

theorem log2_shifted {m : Nat} (pos : 0 < m) (k : Nat) : (2 ^ k * m).log2 = k + m.log2 := by
  have shifted : 0 < 2 ^ k * m := Nat.mul_pos (Nat.two_pow_pos k) pos
  apply (Nat.log2_eq_iff (Nat.ne_of_gt shifted)).mpr
  have lower : 2 ^ m.log2 ≤ m := Nat.log2_self_le (Nat.ne_of_gt pos)
  have upper : m < 2 ^ (m.log2 + 1) := Nat.lt_log2_self
  rw [Nat.add_assoc, Nat.pow_add, Nat.pow_add]
  exact ⟨Nat.mul_le_mul_left _ lower, Nat.mul_lt_mul_of_pos_left upper (Nat.two_pow_pos k)⟩

section
variable {w : BitVec 64} {s : Sign} {m : Nat} {e : Int} {pos : 0 < m}

theorem Reads.targetExponent (reads : Reads w (.finite s m e pos)) :
    binary64.targetExponent (totalExponent m e) = e := by
  have bits : binary64.mantissaBits = 53 := rfl
  have least : binary64.minExponent = -1074 := rfl
  rw [Format.targetExponent, totalExponent, bits, least]
  cases reads with
  | subnormal _ m =>
      have short : m.toNat.log2 < 52 := (Nat.log2_lt (Nat.ne_of_gt pos)).mpr m.isLt
      omega
  | normal _ e m positive =>
      rw [log2_implicit]
      omega

theorem round_shifted (reads : Reads w (.finite s m e pos)) (sign : Sign) :
    roundWithAccuracy binary64 sign (2 ^ 52 * m) (-52 + e) .exact = .finite sign m e pos := by
  have target := reads.targetExponent
  have total : totalExponent (2 ^ 52 * m) (-52 + e) = totalExponent m e := by
    rw [totalExponent, totalExponent, log2_shifted pos]
    omega
  -- the first shift undoes the product, and the second one has nothing left to do
  have back : shiftToTargetExponent binary64 (2 ^ 52 * m) (-52 + e) .exact =
      (⟨m, false, false⟩, e) := by
    have amount : (e - (-52 + e)).toNat = 52 := by omega
    rw [shiftToTargetExponent, total, target, shiftToExponent, amount,
      ExtendedMantissa.ofMantissaAndAccuracy, shiftRight_exact]
    congr 1
    omega
  have still : shiftToTargetExponent binary64 m e .exact = (⟨m, false, false⟩, e) := by
    have amount : (e - e).toNat = 0 := by omega
    rw [shiftToTargetExponent, target, shiftToExponent, amount]
    congr 1
    exact Int.add_zero e
  have rounded : ExtendedMantissa.roundedMantissa ⟨m, false, false⟩ = m := rfl
  rw [roundWithAccuracy, back]
  simp only [rounded, still]
  rw [dif_neg (Nat.ne_of_gt pos)]

end

theorem positive_mul (s : Sign) : Sign.positive * s = s := by
  cases s with
  | negative => rfl
  | positive => rfl

theorem negative_mul (s : Sign) : Sign.negative * s = -s := by
  cases s with
  | negative => rfl
  | positive => rfl

def unit (s : Sign) : UnpackedFloat := .finite s (2 ^ 52) (-52) (by decide)

section
variable {w : BitVec 64} {u : UnpackedFloat}

theorem unit_mul (reads : Reads w u) : UnpackedFloat.mul binary64 (unit .positive) u = u := by
  cases u with
  | infinity s => rw [unit, UnpackedFloat.mul, positive_mul]
  | notANumber => rfl
  | zero s => rw [unit, UnpackedFloat.mul, positive_mul]
  | finite s m e pos => exact (round_shifted reads _).trans (by rw [positive_mul])

theorem unit_mul_neg (reads : Reads w u) : UnpackedFloat.mul binary64 (unit .negative) u = u.neg := by
  cases u with
  | infinity s => rw [unit, UnpackedFloat.mul, negative_mul, UnpackedFloat.neg]
  | notANumber => rfl
  | zero s => rw [unit, UnpackedFloat.mul, negative_mul, UnpackedFloat.neg]
  | finite s m e pos => exact (round_shifted reads _).trans (by rw [negative_mul, UnpackedFloat.neg])

end

theorem one_mul (x : Float) : 1.0 * x = x := by
  have one : (1.0 : Float).toModel.unpack = unit .positive := rfl
  have product : (1.0 * x).toModel = pack (UnpackedFloat.mul binary64
      (1.0 : Float).toModel.unpack x.toModel.unpack) := rfl
  rw [one, unit_mul (reads x.toModel), pack_unpack] at product
  cases x
  exact congrArg Float.ofModel product

theorem neg_one_mul (x : Float) : -1.0 * x = -x := by
  have one : (-1.0 : Float).toModel.unpack = unit .negative := rfl
  have product : (-1.0 * x).toModel = pack (UnpackedFloat.mul binary64
      (-1.0 : Float).toModel.unpack x.toModel.unpack) := rfl
  rw [one, unit_mul_neg (reads x.toModel)] at product
  exact congrArg Float.ofModel product

/-! ## The order of the doubles -/

/-- Where a datum stands among the others: by its sign and by whether it is finite, then by
exponent and mantissa. -/
def height : UnpackedFloat → Int × Int × Int
  | .infinity .negative => (-2, 0, 0)
  | .finite .negative m e _ => (-1, -e, -m)
  | .zero _ => (0, 0, 0)
  | .finite .positive m e _ => (1, e, m)
  | .infinity .positive => (2, 0, 0)
  | .notANumber => (0, 0, 0)

def Below (a b : Int × Int × Int) : Prop :=
  a.1 < b.1 ∨ a.1 = b.1 ∧ (a.2.1 < b.2.1 ∨ a.2.1 = b.2.1 ∧ a.2.2 ≤ b.2.2)

instance (a b : Int × Int × Int) : Decidable (Below a b) :=
  inferInstanceAs (Decidable (_ ∨ _))

theorem isLE_compare_iff (e₁ e₂ : Int) (m₁ m₂ : Nat) :
    ((compare e₁ e₂).then (compare m₁ m₂)).isLE ↔ e₁ < e₂ ∨ e₁ = e₂ ∧ m₁ ≤ m₂ := by
  rw [Ordering.isLE_then_iff_or, Int.compare_eq_lt, Int.compare_eq_eq, Nat.isLE_compare]

theorem isGE_compare_iff (e₁ e₂ : Int) (m₁ m₂ : Nat) :
    ((compare e₁ e₂).then (compare m₁ m₂)).isGE ↔ e₂ < e₁ ∨ e₁ = e₂ ∧ m₂ ≤ m₁ := by
  have swapped := isLE_compare_iff e₂ e₁ m₂ m₁
  rw [← Int.compare_swap, ← Nat.compare_swap, ← Ordering.swap_then, Ordering.isLE_swap,
    @eq_comm _ e₂] at swapped
  exact swapped

theorem le_iff_below (u v : UnpackedFloat) :
    u.le v ↔ u.isNaN = false ∧ v.isNaN = false ∧ Below (height u) (height v) := by
  unfold UnpackedFloat.le
  cases u with
  | notANumber => simp [UnpackedFloat.compare, UnpackedFloat.isNaN]
  | infinity s =>
      cases v with
      | infinity t => cases s <;> cases t <;> decide
      | notANumber => simp [UnpackedFloat.compare, UnpackedFloat.isNaN]
      | zero t => cases s <;> simp [UnpackedFloat.compare, UnpackedFloat.isNaN, height, Below]
      | finite t m e pos =>
          cases s <;> cases t <;>
            simp [UnpackedFloat.compare, UnpackedFloat.isNaN, height, Below]
  | zero s =>
      cases v with
      | infinity t => cases t <;> simp [UnpackedFloat.compare, UnpackedFloat.isNaN, height, Below]
      | notANumber => simp [UnpackedFloat.compare, UnpackedFloat.isNaN]
      | zero t => simp [UnpackedFloat.compare, UnpackedFloat.isNaN, height, Below]
      | finite t m e pos =>
          cases t <;> simp [UnpackedFloat.compare, UnpackedFloat.isNaN, height, Below]
  | finite s m e pos =>
      cases v with
      | infinity t =>
          cases s <;> cases t <;>
            simp [UnpackedFloat.compare, UnpackedFloat.isNaN, height, Below]
      | notANumber => simp [UnpackedFloat.compare, UnpackedFloat.isNaN]
      | zero t => cases s <;> simp [UnpackedFloat.compare, UnpackedFloat.isNaN, height, Below]
      | finite t m' e' pos' =>
          cases s <;> cases t <;>
            simp [UnpackedFloat.compare, UnpackedFloat.isNaN, height, Below, isLE_compare_iff,
              isGE_compare_iff]

theorem height_neg (u : UnpackedFloat) :
    height u.neg = (-(height u).1, -(height u).2.1, -(height u).2.2) := by
  cases u with
  | infinity s => cases s <;> rfl
  | notANumber => rfl
  | zero s => rfl
  | finite s m e pos => cases s <;> simp [UnpackedFloat.neg, height]

theorem isNaN_neg_unpacked (u : UnpackedFloat) : u.neg.isNaN = u.isNaN := by
  cases u with
  | infinity s => rfl
  | notANumber => rfl
  | zero s => rfl
  | finite s m e pos => rfl

section
variable {x y z : Float}

theorem le_iff : x ≤ y ↔ x.isNaN = false ∧ y.isNaN = false ∧
    Below (height x.toModel.unpack) (height y.toModel.unpack) := by
  have unpacked : x ≤ y ↔ x.toModel.unpack.le y.toModel.unpack := decide_eq_true_iff
  rw [unpacked, le_iff_below]
  rfl

theorem isNaN_neg (x : Float) : (-x).isNaN = x.isNaN := by
  have negated : (-x).toModel.unpack = x.toModel.unpack.neg := unpack_neg x.toModel
  rw [Float.isNaN, Float.Model.isNaN, negated, isNaN_neg_unpacked]
  rfl

theorem le_refl (number : x.isNaN = false) : x ≤ x := by
  rw [le_iff]
  exact ⟨number, number, by unfold Below; omega⟩

theorem le_trans (lower : x ≤ y) (upper : y ≤ z) : x ≤ z := by
  rw [le_iff] at lower upper ⊢
  obtain ⟨first, _, below⟩ := lower
  obtain ⟨_, last, above⟩ := upper
  refine ⟨first, last, ?_⟩
  unfold Below at below above ⊢
  omega

theorem le_total (first : x.isNaN = false) (second : y.isNaN = false) : x ≤ y ∨ y ≤ x := by
  rw [le_iff, le_iff]
  have total : Below (height x.toModel.unpack) (height y.toModel.unpack) ∨
      Below (height y.toModel.unpack) (height x.toModel.unpack) := by
    unfold Below
    omega
  exact total.imp (⟨first, second, ·⟩) (⟨second, first, ·⟩)

theorem neg_infinity_le (number : x.isNaN = false) : -1.0 / 0.0 ≤ x := by
  have least : (-1.0 / 0.0 : Float).toModel.unpack = .infinity .negative := rfl
  rw [le_iff, least]
  refine ⟨rfl, number, ?_⟩
  generalize x.toModel.unpack = u
  cases u with
  | infinity s => cases s <;> decide
  | notANumber => decide
  | zero s => exact .inl (by simp [height])
  | finite s m e pos => cases s <;> exact .inl (by simp [height])

theorem neg_le_neg_iff : -x ≤ -y ↔ y ≤ x := by
  have left : (-x).toModel.unpack = x.toModel.unpack.neg := unpack_neg x.toModel
  have right : (-y).toModel.unpack = y.toModel.unpack.neg := unpack_neg y.toModel
  rw [le_iff, le_iff, isNaN_neg, isNaN_neg, left, right, height_neg, height_neg]
  simp only [Below]
  constructor
  · intro above
    obtain ⟨first, second, below⟩ := above
    exact ⟨second, first, by omega⟩
  · intro above
    obtain ⟨second, first, below⟩ := above
    exact ⟨first, second, by omega⟩

end

/-! ## Exact numbers -/

def value : UnpackedFloat → ℚ
  | .finite s m e _ => s.apply m * 2 ^ e
  | _ => 0

/-- The number that a finite double stands for. -/
def toRat (x : Float) : ℚ := value x.toModel.unpack

section
variable {w w' : BitVec 64} {s s' : Sign} {m m' : Nat} {e e' : Int} {pos : 0 < m} {pos' : 0 < m'}

theorem Reads.bounds (reads : Reads w (.finite s m e pos)) :
    m < 2 ^ 53 ∧ -1074 ≤ e ∧ (2 ^ 52 ≤ m ∨ e = -1074) := by
  cases reads with
  | subnormal _ m => exact ⟨by omega, le_rfl, .inr rfl⟩
  | normal _ e m positive => exact ⟨by omega, by omega, .inl (Nat.le_add_right _ _)⟩

theorem scaled_lt (reads : Reads w (.finite s m e pos)) (reads' : Reads w' (.finite s' m' e' pos'))
    (below : e < e' ∨ e = e' ∧ m < m') : (m : ℚ) * 2 ^ e < m' * 2 ^ e' := by
  obtain ⟨top, least, _⟩ := reads.bounds
  obtain ⟨_, _, full⟩ := reads'.bounds
  obtain lower | ⟨rfl, less⟩ := below
  · -- a full mantissa with a larger exponent is at least twice as far as any mantissa reaches
    have reaches : (m : ℚ) < 2 ^ 53 := by exact_mod_cast top
    have filled : (2 : ℚ) ^ 52 ≤ m' := by exact_mod_cast (full.resolve_right (by omega))
    have split : (2 : ℚ) ^ e' = 2 ^ (e' - e - 1) * 2 * 2 ^ e := by
      rw [← zpow_add_one₀ two_ne_zero, ← zpow_add₀ two_ne_zero]
      congr 1
      omega
    have factor : (1 : ℚ) ≤ 2 ^ (e' - e - 1) := one_le_zpow₀ one_le_two (by omega)
    have scale : (0 : ℚ) < 2 ^ e := zpow_pos two_pos e
    calc (m : ℚ) * 2 ^ e < 2 ^ 53 * 2 ^ e := mul_lt_mul_of_pos_right reaches scale
      _ = 2 ^ 52 * (1 * 2 * 2 ^ e) := by ring
      _ ≤ m' * (2 ^ (e' - e - 1) * 2 * 2 ^ e) := by gcongr
      _ = m' * 2 ^ e' := by rw [split]
  · exact mul_lt_mul_of_pos_right (by exact_mod_cast less) (zpow_pos two_pos e)

theorem scaled_lt_iff (reads : Reads w (.finite s m e pos))
    (reads' : Reads w' (.finite s' m' e' pos')) :
    (m : ℚ) * 2 ^ e < m' * 2 ^ e' ↔ ((compare e e').then (compare m m')) = .lt := by
  rw [Ordering.then_eq_lt, Int.compare_eq_lt, Int.compare_eq_eq, Nat.compare_eq_lt]
  refine ⟨fun less => ?_, scaled_lt reads reads'⟩
  by_contra above
  obtain beyond | ⟨rfl, rfl⟩ : (e' < e ∨ e' = e ∧ m' < m) ∨ e = e' ∧ m = m' := by omega
  · exact lt_asymm less (scaled_lt reads' reads beyond)
  · exact lt_irrefl _ less

end

section
variable (m : Nat) (e : Int) (pos : 0 < m)

@[simp] theorem value_zero (s : Sign) : value (.zero s) = 0 := rfl

@[simp] theorem value_positive : value (.finite .positive m e pos) = m * 2 ^ e := rfl

@[simp] theorem value_negative : value (.finite .negative m e pos) = -(m * 2 ^ e) := by
  simp [value, Sign.apply]

include pos in
theorem scaled_pos : (0 : ℚ) < m * 2 ^ e :=
  mul_pos (by exact_mod_cast pos) (zpow_pos two_pos e)

end

theorem lt_iff_value_lt {w w' : BitVec 64} {u v : UnpackedFloat} (reads : Reads w u)
    (reads' : Reads w' v) (finite : u.isFinite) (finite' : v.isFinite) :
    u.lt v ↔ value u < value v := by
  unfold UnpackedFloat.lt
  cases u with
  | infinity s => simp [UnpackedFloat.isFinite] at finite
  | notANumber => simp [UnpackedFloat.isFinite] at finite
  | zero s =>
      cases v with
      | infinity t => simp [UnpackedFloat.isFinite] at finite'
      | notANumber => simp [UnpackedFloat.isFinite] at finite'
      | zero t => simp [UnpackedFloat.compare]
      | finite t m e pos =>
          cases t with
          | positive => simpa [UnpackedFloat.compare] using scaled_pos m e pos
          | negative => simpa [UnpackedFloat.compare] using (scaled_pos m e pos).le
  | finite s m e pos =>
      cases v with
      | infinity t => simp [UnpackedFloat.isFinite] at finite'
      | notANumber => simp [UnpackedFloat.isFinite] at finite'
      | zero t =>
          cases s with
          | positive => simpa [UnpackedFloat.compare] using (scaled_pos m e pos).le
          | negative => simpa [UnpackedFloat.compare] using scaled_pos m e pos
      | finite t m' e' pos' =>
          have apart : -(m' * 2 ^ e' : ℚ) < m * 2 ^ e ∧ -(m * 2 ^ e : ℚ) < m' * 2 ^ e' := by
            have far := scaled_pos m e pos
            have far' := scaled_pos m' e' pos'
            constructor <;> linarith
          cases s with
          | positive =>
              cases t with
              | positive => simpa [UnpackedFloat.compare] using (scaled_lt_iff reads reads').symm
              | negative => simpa [UnpackedFloat.compare] using apart.1.le
          | negative =>
              cases t with
              | positive => simpa [UnpackedFloat.compare] using apart.2
              | negative =>
                  have turned := scaled_lt_iff reads' reads
                  rw [← Int.compare_swap, ← Nat.compare_swap, ← Ordering.swap_then] at turned
                  simpa [UnpackedFloat.compare] using turned.symm

theorem lt_iff_toRat_lt {x y : Float} (finite : x.isFinite) (finite' : y.isFinite) :
    x < y ↔ toRat x < toRat y := by
  have unpacked : x < y ↔ x.toModel.unpack.lt y.toModel.unpack := decide_eq_true_iff
  rw [unpacked]
  exact lt_iff_value_lt (reads x.toModel) (reads y.toModel) finite finite'

theorem isFinite_of_lt_lt {u v w : UnpackedFloat} (low : u.isFinite) (high : w.isFinite)
    (above : u.lt v) (below : v.lt w) : v.isFinite := by
  unfold UnpackedFloat.lt at above below
  cases v with
  | zero s => rfl
  | finite s m e pos => rfl
  | notANumber => cases u <;> simp [UnpackedFloat.compare] at above
  | infinity s =>
      cases s with
      | negative => cases u <;> simp_all [UnpackedFloat.compare, UnpackedFloat.isFinite]
      | positive => cases w <;> simp_all [UnpackedFloat.compare, UnpackedFloat.isFinite]

theorem isFinite_of_between {x y z : Float} (low : x.isFinite) (high : z.isFinite) (above : x < y)
    (below : y < z) : y.isFinite :=
  isFinite_of_lt_lt low high (decide_eq_true_iff.mp above) (decide_eq_true_iff.mp below)

/-! ## Zero and one -/

theorem isFinite_zero : (0 : Float).isFinite := rfl

theorem isFinite_one : (1 : Float).isFinite := rfl

theorem toRat_one : toRat 1 = 1 := by
  change ((2 : ℕ) ^ 52 : ℚ) * 2 ^ (-52 : ℤ) = 1
  norm_num

section
variable {x : Float} (finite : x.isFinite)

include finite

theorem pos_iff_toRat_pos : 0 < x ↔ 0 < toRat x := lt_iff_toRat_lt isFinite_zero finite

theorem not_neg_iff_toRat_nonneg : ¬ x < 0 ↔ 0 ≤ toRat x := by
  rw [lt_iff_toRat_lt finite isFinite_zero, not_lt]
  rfl

theorem lt_one_iff_toRat_lt_one : x < 1 ↔ toRat x < 1 := by
  rw [lt_iff_toRat_lt finite isFinite_one, toRat_one]

theorem one_lt_iff_one_lt_toRat : 1 < x ↔ 1 < toRat x := by
  rw [lt_iff_toRat_lt isFinite_one finite, toRat_one]

end

end DecisionSpace.Double
