import Mathlib.Algebra.Ring.Nat
import Watershed.Edge.Thinning

/-!
# Double-precision numbers from one on, and up to one

Products of numbers that are at least one stay at least one, and the quotient of one and such a
number lies between zero and one. In exact arithmetic nothing has to be said about this. In double
precision a product can become infinite and a quotient can become zero, but rounding never crosses
one, and no operation is left without an answer.

A number of either kind is described twice: by the fields of its pattern, whose order is the order
of the numbers, and by its mantissa and its exponent, which the operations work on.
-/

namespace Watershed.Rounding

open Float.Model (UnpackedFloat Format totalExponent)
open Float.Model.UnpackedFloat

theorem toNat_append_eq {high low : Nat} (front : BitVec high) (back : BitVec low) :
    (front ++ back).toNat = front.toNat * 2 ^ low + back.toNat := by
  rw [BitVec.toNat_append, ← Nat.shiftLeft_add_eq_or_of_lt back.isLt, Nat.shiftLeft_eq]

/-- The fields of a positive pattern. -/
theorem toNat_packComponents (exponent : BitVec 11) (mantissa : BitVec 52) :
    (packComponents Format.binary64 .positive exponent mantissa).toNat =
      exponent.toNat * 2 ^ 52 + mantissa.toNat := by
  unfold packComponents
  rw [toNat_append_eq, toNat_append_eq]
  simp [Sign.toBitVec]

theorem toNat_unpackExponent (pattern : BitVec 64) :
    (@unpackExponent Format.binary64 pattern).toNat = pattern.toNat / 2 ^ 52 % 2 ^ 11 := by
  simp [unpackExponent, Nat.shiftRight_eq_div_pow]

theorem toNat_unpackMantissa (pattern : BitVec 64) :
    (@unpackMantissa Format.binary64 pattern).toNat = pattern.toNat % 2 ^ 52 := by
  simp [unpackMantissa]

theorem unpackSign_eq (pattern : BitVec 64) (below : pattern.toNat < 2 ^ 63) :
    @unpackSign Format.binary64 pattern = 0#1 := by
  apply BitVec.eq_of_toNat_eq
  unfold unpackSign
  simp [Nat.shiftRight_eq_div_pow]
  omega

theorem unpackExponent_eq_iff (pattern : BitVec 64) (below : pattern.toNat < 2 ^ 63)
    (field : BitVec 11) :
    @unpackExponent Format.binary64 pattern = field ↔ pattern.toNat / 2 ^ 52 = field.toNat := by
  rw [← BitVec.toNat_inj, toNat_unpackExponent, Nat.mod_eq_of_lt (by omega)]

theorem unpackMantissa_eq_zero_iff (pattern : BitVec 64) :
    @unpackMantissa Format.binary64 pattern = 0#52 ↔ pattern.toNat % 2 ^ 52 = 0 := by
  rw [← BitVec.toNat_inj, toNat_unpackMantissa]
  rfl

/-- An unpacked number that is at least one, infinity included. -/
inductive AtLeastOne : UnpackedFloat → Prop where
  | infinity : AtLeastOne (.infinity .positive)
  | finite {mantissa : Nat} {exponent : Int} (positive : 0 < mantissa) (full : 2 ^ 52 ≤ mantissa)
      (bounded : mantissa < 2 ^ 53) (large : -52 ≤ exponent) :
      AtLeastOne (.finite .positive mantissa exponent positive)

/-- An unpacked number from zero to one. -/
inductive AtMostOne : UnpackedFloat → Prop where
  | zero : AtMostOne (.zero .positive)
  | small {mantissa : Nat} {exponent : Int} (positive : 0 < mantissa) (bounded : mantissa < 2 ^ 53)
      (below : exponent ≤ -53) : AtMostOne (.finite .positive mantissa exponent positive)
  | one {mantissa : Nat} {exponent : Int} (positive : 0 < mantissa) (unit : mantissa = 2 ^ 52)
      (fixed : exponent = -52) : AtMostOne (.finite .positive mantissa exponent positive)

theorem atLeastOne_unpack {pattern : BitVec 64} (lower : 1023 * 2 ^ 52 ≤ pattern.toNat)
    (upper : pattern.toNat ≤ 2047 * 2 ^ 52) : AtLeastOne (unpack Format.binary64 pattern) := by
  have below : pattern.toNat < 2 ^ 63 := by omega
  have noZero : ¬ @unpackExponent Format.binary64 pattern = 0#11 := by
    rw [unpackExponent_eq_iff pattern below]
    simp
    omega
  unfold unpack
  dsimp only
  rw [unpackSign_eq pattern below]
  by_cases all : @unpackExponent Format.binary64 pattern = -1#11
  · have whole := (unpackExponent_eq_iff pattern below _).1 all
    rw [if_pos all, if_pos ((unpackMantissa_eq_zero_iff pattern).2 (by simp at whole; omega))]
    exact .infinity
  · rw [if_neg all, if_neg noZero]
    rw [unpackExponent_eq_iff pattern below] at all
    have fraction := toNat_unpackMantissa pattern
    have field := toNat_unpackExponent pattern
    apply AtLeastOne.finite
    · rw [toNat_append_eq]
      simp
    · rw [toNat_append_eq]
      simp
      omega
    · rw [field]
      simp [Format.exponentBias]
      omega

theorem atMostOne_unpack {pattern : BitVec 64} (upper : pattern.toNat ≤ 1023 * 2 ^ 52) :
    AtMostOne (unpack Format.binary64 pattern) := by
  have below : pattern.toNat < 2 ^ 63 := by omega
  have notAll : ¬ @unpackExponent Format.binary64 pattern = -1#11 := by
    rw [unpackExponent_eq_iff pattern below]
    simp
    omega
  have fraction := toNat_unpackMantissa pattern
  have field := toNat_unpackExponent pattern
  unfold unpack
  dsimp only
  rw [unpackSign_eq pattern below, if_neg notAll]
  by_cases subnormal : @unpackExponent Format.binary64 pattern = 0#11
  · rw [if_pos subnormal]
    by_cases empty : @unpackMantissa Format.binary64 pattern = 0#52
    · rw [dif_pos empty]
      exact .zero
    · rw [dif_neg empty]
      apply AtMostOne.small
      · rw [fraction]
        omega
      · rw [subnormal]
        simp [Format.exponentBias]
  · rw [if_neg subnormal]
    by_cases unit : pattern.toNat = 1023 * 2 ^ 52
    · have mantissa : (1#1 ++ @unpackMantissa Format.binary64 pattern).toNat = 2 ^ 52 := by
        rw [toNat_append_eq, fraction, unit]
        rfl
      have exponent : ((@unpackExponent Format.binary64 pattern).toNat : Int) -
          (Format.binary64.exponentBias + Format.binary64.mantissaBitsWithoutImplicit) = -52 := by
        rw [field, unit]
        rfl
      exact .one _ mantissa exponent
    · apply AtMostOne.small
      · rw [toNat_append_eq]
        simp
        omega
      · rw [field]
        simp [Format.exponentBias]
        omega

theorem toNat_pack_of_atLeastOne {number : UnpackedFloat} (large : AtLeastOne number) :
    1023 * 2 ^ 52 ≤ (pack Format.binary64 number).toNat ∧
      (pack Format.binary64 number).toNat ≤ 2047 * 2 ^ 52 := by
  have infinite : (packedInfinity Format.binary64 .positive).toNat = 2047 * 2 ^ 52 := rfl
  cases large with
  | infinity =>
      unfold pack
      rw [infinite]
      decide
  | @finite mantissa exponent positive full bounded large =>
      have bits : mantissa.log2 + 1 = 53 := by
        rw [(Nat.log2_eq_iff (Nat.ne_of_gt positive)).2 ⟨full, bounded⟩]
      unfold pack
      dsimp only
      split
      · rw [infinite]
        decide
      · next fits =>
        have normal : mantissa.log2 + 1 = Format.binary64.mantissaBits := bits
        rw [if_pos normal, toNat_packComponents]
        simp [Format.exponentBias] at fits ⊢
        omega

theorem toNat_pack_of_atMostOne {number : UnpackedFloat} (small : AtMostOne number) :
    (pack Format.binary64 number).toNat ≤ 1023 * 2 ^ 52 := by
  have mantissaBelow : ∀ mantissa : BitVec 52, mantissa.toNat < 2 ^ 52 := fun mantissa =>
    mantissa.isLt
  cases small with
  | zero => decide
  | one _ unit fixed =>
      subst unit fixed
      exact Nat.le_refl _
  | @small mantissa exponent positive bounded below =>
      unfold pack
      dsimp only
      split
      · next overflows =>
        simp [Format.exponentBias] at overflows
        omega
      · split
        · rw [toNat_packComponents]
          have := mantissaBelow (BitVec.ofNat 52 mantissa)
          simp [Format.exponentBias] at this ⊢
          omega
        · rw [toNat_packComponents]
          have := mantissaBelow (BitVec.ofNat 52 mantissa)
          simp at this ⊢
          omega

theorem mantissa_shiftRight (extended : ExtendedMantissa) (count : Nat) :
    (extended >>> count).mantissa = extended.mantissa / 2 ^ count := by
  change (count.repeat ExtendedMantissa.shiftRightOne extended).mantissa = _
  induction count with
  | zero => simp [Nat.repeat]
  | succ count ih =>
      change (count.repeat ExtendedMantissa.shiftRightOne extended).mantissa / 2 = _
      rw [ih, Nat.div_div_eq_div_mul, Nat.pow_succ]

theorem roundedMantissa_bounds (extended : ExtendedMantissa) :
    extended.mantissa ≤ extended.roundedMantissa ∧
      extended.roundedMantissa ≤ extended.mantissa + 1 := by
  rcases extended with ⟨mantissa, roundBit, stickyBit⟩
  cases roundBit <;> cases stickyBit <;>
    simp [ExtendedMantissa.roundedMantissa, ExtendedMantissa.accuracy, Accuracy.roundToNearestEven]
  omega

theorem mantissa_ofMantissaAndAccuracy (mantissa : Nat) (accuracy : Accuracy) :
    (ExtendedMantissa.ofMantissaAndAccuracy mantissa accuracy).mantissa = mantissa := by
  cases accuracy with
  | exact => rfl
  | inexact half => cases half <;> rfl

theorem targetExponent_eq (total : Int) :
    Format.binary64.targetExponent total = max (total - 53) (-1074) :=
  rfl

theorem targetExponent_totalExponent (mantissa : Nat) (exponent : Int) :
    Format.binary64.targetExponent (totalExponent mantissa exponent) =
      max (mantissa.log2 + exponent - 52) (-1074) := by
  rw [targetExponent_eq, totalExponent]
  omega

theorem log2_le_of_lt {n bits : Nat} (below : n < 2 ^ (bits + 1)) : n.log2 ≤ bits := by
  by_cases zero : n = 0
  · simp [zero]
  · exact Nat.lt_succ_iff.1 ((Nat.log2_lt zero).2 below)

/-- A mantissa of at most 53 bits is not shifted any more. -/
theorem shiftToTargetExponent_of_lt {mantissa : Nat} {exponent : Int} (bounded : mantissa < 2 ^ 53)
    (normal : -1074 ≤ exponent) :
    shiftToTargetExponent Format.binary64 mantissa exponent .exact =
      (⟨mantissa, false, false⟩, exponent) := by
  have bits : mantissa.log2 ≤ 52 := log2_le_of_lt bounded
  have none : (max (mantissa.log2 + exponent - 52) (-1074) - exponent).toNat = 0 := by omega
  simp [shiftToTargetExponent, targetExponent_totalExponent, shiftToExponent, none,
    HShiftRight.hShiftRight, Nat.repeat, ExtendedMantissa.ofMantissaAndAccuracy]

/-- A mantissa that rounding has carried to 54 bits is shifted once more. -/
theorem shiftToTargetExponent_carry {exponent : Int} (normal : -1074 ≤ exponent) :
    shiftToTargetExponent Format.binary64 (2 ^ 53) exponent .exact =
      (⟨2 ^ 52, false, false⟩, exponent + 1) := by
  have once : (max ((2 ^ 53 : Nat).log2 + exponent - 52) (-1074) - exponent).toNat = 1 := by
    rw [Nat.log2_two_pow]
    omega
  simp only [shiftToTargetExponent, targetExponent_totalExponent, shiftToExponent, once]
  rfl

/-- A positive number is rounded to a mantissa of at most 53 bits. -/
theorem exists_rounded (mantissa : Nat) {exponent target : Int} (accuracy : Accuracy)
    (aimed : target = max (mantissa.log2 + exponent - 52) (-1074)) (le : exponent ≤ target) :
    ∃ rounded, mantissa / 2 ^ (target - exponent).toNat ≤ rounded ∧
      roundWithAccuracy Format.binary64 .positive mantissa exponent accuracy =
        if rounded < 2 ^ 53 then
          if positive : 0 < rounded then .finite .positive rounded target positive
          else .zero .positive
        else .finite .positive (2 ^ 52) (target + 1) (by decide) := by
  have first : (shiftToTargetExponent Format.binary64 mantissa exponent accuracy).2 = target ∧
      (shiftToTargetExponent Format.binary64 mantissa exponent accuracy).1.mantissa =
        mantissa / 2 ^ (target - exponent).toNat := by
    simp only [shiftToTargetExponent, targetExponent_totalExponent, ← aimed, shiftToExponent,
      mantissa_shiftRight, mantissa_ofMantissaAndAccuracy, and_true]
    omega
  have shifted : mantissa / 2 ^ (target - exponent).toNat < 2 ^ 53 := by
    rw [Nat.div_lt_iff_lt_mul (Nat.two_pow_pos _), ← Nat.pow_add]
    apply Nat.lt_of_lt_of_le Nat.lt_log2_self
    apply Nat.pow_le_pow_right (by decide)
    omega
  have normal : -1074 ≤ target := by omega
  have bounds := roundedMantissa_bounds
    (shiftToTargetExponent Format.binary64 mantissa exponent accuracy).1
  rw [first.2] at bounds
  refine ⟨_, bounds.1, ?_⟩
  rw [roundWithAccuracy]
  generalize shiftToTargetExponent Format.binary64 mantissa exponent accuracy = start
    at first bounds
  rcases start with ⟨extended, reached⟩
  obtain rfl : reached = target := first.1
  dsimp only at bounds ⊢
  -- rounding up can carry the mantissa to 54 bits, and only then is it shifted a second time
  by_cases below : extended.roundedMantissa < 2 ^ 53
  · rw [shiftToTargetExponent_of_lt below normal, if_pos below]
    by_cases zero : extended.roundedMantissa = 0
    · rw [dif_pos zero, dif_neg (Nat.not_lt.2 (Nat.le_of_eq zero))]
    · rw [dif_neg zero, dif_pos (Nat.pos_of_ne_zero zero)]
  · have carried : extended.roundedMantissa = 2 ^ 53 := by omega
    rw [carried, shiftToTargetExponent_carry normal, if_neg (Nat.lt_irrefl _)]
    rfl

theorem AtLeastOne.round {mantissa : Nat} {exponent : Int} (accuracy : Accuracy)
    (enough : 52 ≤ mantissa.log2) (large : 0 ≤ mantissa.log2 + exponent) :
    AtLeastOne (roundWithAccuracy Format.binary64 .positive mantissa exponent accuracy) := by
  have nonzero : mantissa ≠ 0 := by
    rintro rfl
    simp at enough
  rcases @exists_rounded mantissa exponent _ accuracy rfl (by omega) with ⟨rounded, above, result⟩
  have shift : (max (mantissa.log2 + exponent - 52) (-1074) - exponent).toNat =
      mantissa.log2 - 52 := by omega
  have full : 2 ^ 52 ≤ mantissa / 2 ^ (mantissa.log2 - 52) := by
    rw [Nat.le_div_iff_mul_le (Nat.two_pow_pos _), ← Nat.pow_add, Nat.add_sub_cancel' enough]
    exact Nat.log2_self_le nonzero
  rw [shift] at above
  rw [result]
  by_cases below : rounded < 2 ^ 53
  · rw [if_pos below, dif_pos (by omega)]
    exact .finite _ (Nat.le_trans full above) below (by omega)
  · rw [if_neg below]
    exact .finite _ (Nat.le_refl _) (by decide) (by omega)

theorem AtMostOne.round {mantissa : Nat} {exponent : Int} (accuracy : Accuracy)
    (fine : 52 ≤ mantissa.log2 ∨ exponent ≤ -1074) (small : mantissa.log2 + exponent ≤ -1) :
    AtMostOne (roundWithAccuracy Format.binary64 .positive mantissa exponent accuracy) := by
  rcases @exists_rounded mantissa exponent _ accuracy rfl (by omega) with ⟨rounded, -, result⟩
  rw [result]
  by_cases below : rounded < 2 ^ 53
  · rw [if_pos below]
    by_cases positive : 0 < rounded
    · rw [dif_pos positive]
      exact .small _ below (by omega)
    · rw [dif_neg positive]
      exact .zero
  · rw [if_neg below]
    by_cases top : max (mantissa.log2 + exponent - 52) (-1074) = -53
    · rw [top]
      exact .one _ rfl rfl
    · exact .small _ (by decide) (by omega)

theorem log2_shiftLeft {n : Nat} (nonzero : n ≠ 0) (count : Nat) :
    (n <<< count).log2 = n.log2 + count := by
  induction count with
  | zero => rfl
  | succ count ih =>
      have more : n <<< count ≠ 0 := by
        rw [Nat.shiftLeft_eq]
        exact Nat.mul_ne_zero nonzero (Nat.ne_of_gt (Nat.two_pow_pos count))
      rw [Nat.shiftLeft_succ, Nat.log2_two_mul more, ih, Nat.add_assoc]

theorem AtLeastOne.ofNat {n : Nat} (nonzero : n ≠ 0) :
    AtLeastOne (UnpackedFloat.ofNat Format.binary64 n) := by
  have sign : compare (n : Int) 0 = .gt := by
    rw [Int.compare_eq_gt]
    omega
  simp only [UnpackedFloat.ofNat, ofInt, UnpackedFloat.normalize, sign, UnpackedFloat.round,
    decreaseExponent, targetExponent_totalExponent, Int.toNat_natCast]
  apply AtLeastOne.round <;> rw [log2_shiftLeft nonzero] <;> omega

theorem AtLeastOne.mul {x y : UnpackedFloat} (xLarge : AtLeastOne x) (yLarge : AtLeastOne y) :
    AtLeastOne (UnpackedFloat.mul Format.binary64 x y) := by
  cases xLarge with
  | infinity => cases yLarge <;> exact .infinity
  | @finite mantissa _ positive full _ _ =>
      cases yLarge with
      | infinity => exact .infinity
      | @finite otherMantissa _ otherPositive otherFull _ _ =>
          have bits : 104 ≤ (mantissa * otherMantissa).log2 := by
            have nonzero := Nat.ne_of_gt (Nat.mul_pos positive otherPositive)
            rw [Nat.le_log2 nonzero, show 104 = 52 + 52 from rfl, Nat.pow_add]
            exact Nat.mul_le_mul full otherFull
          apply AtLeastOne.round <;> omega

/-- A shifted power of two, divided by a mantissa of 53 bits. -/
theorem quotient_bounds {mantissa : Nat} (full : 2 ^ 52 ≤ mantissa) (bounded : mantissa < 2 ^ 53)
    (shift : Nat) :
    2 ^ shift / 2 ≤ 2 ^ 52 <<< shift / mantissa ∧ 2 ^ 52 <<< shift / mantissa ≤ 2 ^ shift ∧
      (mantissa ≠ 2 ^ 52 → 2 ^ 52 <<< shift / mantissa < 2 ^ shift) := by
  have positive : 0 < mantissa := by omega
  rw [Nat.shiftLeft_eq]
  refine ⟨?_, ?_, ?_⟩
  · rw [Nat.le_div_iff_mul_le positive]
    calc 2 ^ shift / 2 * mantissa ≤ 2 ^ shift / 2 * (2 * 2 ^ 52) :=
          Nat.mul_le_mul_left _ (by omega)
      _ = 2 ^ shift / 2 * 2 * 2 ^ 52 := (Nat.mul_assoc _ _ _).symm
      _ ≤ 2 ^ shift * 2 ^ 52 := Nat.mul_le_mul_right _ (Nat.div_mul_le_self _ _)
      _ = 2 ^ 52 * 2 ^ shift := Nat.mul_comm _ _
  · apply Nat.div_le_of_le_mul
    exact Nat.mul_le_mul_right _ full
  · intro different
    rw [Nat.div_lt_iff_lt_mul positive, Nat.mul_comm]
    exact Nat.mul_lt_mul_of_pos_left (by omega) (Nat.two_pow_pos shift)

/-- The quotient of one and a number that is at least one. -/
theorem AtLeastOne.one_div {x : UnpackedFloat} (large : AtLeastOne x) (unit : 0 < 2 ^ 52) :
    AtMostOne (UnpackedFloat.div Format.binary64 (.finite .positive (2 ^ 52) (-52) unit) x) := by
  cases large with
  | infinity => exact .zero
  | @finite mantissa exponent positive full bounded large =>
      by_cases one : mantissa = 2 ^ 52 ∧ exponent = -52
      · rcases one with ⟨rfl, rfl⟩
        exact .one _ rfl rfl
      · have unitExponent : totalExponent (2 ^ 52) (-52) = 1 := rfl
        have bits : mantissa.log2 = 52 :=
          (Nat.log2_eq_iff (Nat.ne_of_gt positive)).2 ⟨full, bounded⟩
        have target : Format.binary64.targetExponent
            (1 - totalExponent mantissa exponent) = max (-105 - exponent) (-1074) := by
          rw [targetExponent_eq, totalExponent, bits]
          omega
        change AtMostOne (roundWithAccuracy Format.binary64 .positive
          (divCore Format.binary64 (2 ^ 52) (-52) mantissa exponent).1 _ _)
        simp only [divCore, unitExponent, target]
        generalize reached : min (-52 - exponent) (max (-105 - exponent) (-1074)) = least
        generalize moved : (-52 - exponent - least).toNat = shift
        rcases quotient_bounds full bounded shift with ⟨half, most, less⟩
        apply AtMostOne.round
        · by_cases fine : least ≤ -1074
          · exact .inr fine
          · have shift_eq : shift = 53 := by omega
            subst shift_eq
            exact .inl ((Nat.le_log2 (by omega)).2 half)
        -- a power of two divides exactly, but then its exponent is larger; any other mantissa
        -- costs the quotient one more bit
        · by_cases unitMantissa : mantissa = 2 ^ 52
          · have bits : (2 ^ 52 <<< shift / mantissa).log2 ≤ shift :=
              log2_le_of_lt (Nat.lt_of_le_of_lt most
                (Nat.pow_lt_pow_right (by decide) (Nat.lt_succ_self shift)))
            omega
          · cases shift with
            | zero =>
                have bits : (2 ^ 52 <<< 0 / mantissa).log2 ≤ 0 := log2_le_of_lt (by omega)
                omega
            | succ shift =>
                have bits : (2 ^ 52 <<< (shift + 1) / mantissa).log2 ≤ shift :=
                  log2_le_of_lt (less unitMantissa)
                omega

/-- Positive numbers are compared by their exponents, and only then by their mantissas. -/
theorem compare_finite {mantissa other : Nat} {exponent otherExponent : Int}
    (positive : 0 < mantissa) (otherPositive : 0 < other) :
    UnpackedFloat.compare (.finite .positive mantissa exponent positive)
        (.finite .positive other otherExponent otherPositive) =
      some ((compare exponent otherExponent).then (compare mantissa other)) :=
  rfl

namespace AtMostOne

variable {x : UnpackedFloat}

theorem zero_le (small : AtMostOne x) : UnpackedFloat.le (.zero .positive) x = true := by
  cases small <;> rfl

theorem not_lt_zero (small : AtMostOne x) : UnpackedFloat.lt x (.zero .positive) = false := by
  cases small <;> rfl

theorem le_one (small : AtMostOne x) {unit : 0 < 2 ^ 52} :
    UnpackedFloat.le x (.finite .positive (2 ^ 52) (-52) unit) = true := by
  cases small with
  | zero => rfl
  | one _ unit fixed =>
      subst unit fixed
      rfl
  | small _ _ below =>
      have less : compare _ (-52 : Int) = .lt :=
        Int.compare_eq_lt.2 (Int.lt_of_le_of_lt below (by decide))
      rw [UnpackedFloat.le, compare_finite, less]
      rfl

theorem not_one_lt (small : AtMostOne x) {unit : 0 < 2 ^ 52} :
    UnpackedFloat.lt (.finite .positive (2 ^ 52) (-52) unit) x = false := by
  cases small with
  | zero => rfl
  | one _ unit fixed =>
      subst unit fixed
      rfl
  | small _ _ below =>
      have greater : compare (-52 : Int) _ = .gt :=
        Int.compare_eq_gt.2 (Int.lt_of_le_of_lt below (by decide))
      rw [UnpackedFloat.lt, compare_finite, greater]
      rfl

end AtMostOne

end Watershed.Rounding
