import Watershed.Grid.Layout
import Watershed.Proofs.Rounding

/-!
# The share of kept edges is a probability

The share of edges that random thinning keeps is computed in double precision, as one over the
product of the strides. Strides that pass their check are positive, so every partial product is at
least one, the product may be infinite but is a number, and the share lies between zero and one.
Clamping it there changes nothing.
-/

namespace Watershed

namespace Binary64

variable {x y : Binary64}

/-- The number is at least one, infinity included. -/
def AtLeastOne (x : Binary64) : Prop :=
  1023 * 2 ^ 52 ≤ x.bits.toNat ∧ x.bits.toNat ≤ 2047 * 2 ^ 52

/-- The number lies between zero and one. -/
def AtMostOne (x : Binary64) : Prop :=
  x.bits.toNat ≤ 1023 * 2 ^ 52

theorem isNaN_eq_false (upper : x.bits.toNat ≤ 2047 * 2 ^ 52) : x.isNaN = false := by
  have clear : x.bits &&& 0x7fffffffffffffff = x.bits := by
    apply UInt64.toNat_inj.1
    rw [UInt64.toNat_and]
    change x.bits.toNat &&& (2 ^ 63 - 1) = x.bits.toNat
    rw [Nat.and_two_pow_sub_one_eq_mod, Nat.mod_eq_of_lt (by omega)]
  rw [isNaN, clear, decide_eq_false_iff_not, UInt64.lt_iff_toNat_lt, Nat.not_lt]
  exact upper

theorem combine_eq {operation : Float → Float → Float} (xUpper : x.bits.toNat ≤ 2047 * 2 ^ 52)
    (yUpper : y.bits.toNat ≤ 2047 * 2 ^ 52)
    (upper : (operation x.toFloat y.toFloat).toBits.toNat ≤ 2047 * 2 ^ 52) :
    combine operation x y = ⟨(operation x.toFloat y.toFloat).toBits⟩ := by
  have number : (⟨(operation x.toFloat y.toFloat).toBits⟩ : Binary64).isNaN = false :=
    isNaN_eq_false upper
  simp [combine, isNaN_eq_false xUpper, isNaN_eq_false yUpper, number]

theorem AtLeastOne.toFloat (large : x.AtLeastOne) :
    Rounding.AtLeastOne x.toFloat.toModel.unpack := by
  have packed := Rounding.toNat_pack_of_atLeastOne (Rounding.atLeastOne_unpack large.1 large.2)
  exact Rounding.atLeastOne_unpack packed.1 packed.2

theorem AtMostOne.toFloat (small : x.AtMostOne) : Rounding.AtMostOne x.toFloat.toModel.unpack :=
  Rounding.atMostOne_unpack (Rounding.toNat_pack_of_atMostOne (Rounding.atMostOne_unpack small))

theorem atLeastOne_one : one.AtLeastOne := by
  constructor <;> decide

theorem atLeastOne_ofNat {n : Nat} (nonzero : n ≠ 0) (below : n < addressLimit) :
    (ofNat n).AtLeastOne := by
  have same : n.toUInt64.toNat = n := Nat.mod_eq_of_lt below
  apply Rounding.toNat_pack_of_atLeastOne
  rw [Float.Model.UnpackedFloat.ofUInt64, same]
  exact .ofNat nonzero

theorem AtLeastOne.mul (xLarge : x.AtLeastOne) (yLarge : y.AtLeastOne) : (x * y).AtLeastOne := by
  have packed := Rounding.toNat_pack_of_atLeastOne (xLarge.toFloat.mul yLarge.toFloat)
  have product : x * y = ⟨(x.toFloat * y.toFloat).toBits⟩ :=
    combine_eq xLarge.2 yLarge.2 packed.2
  rw [product]
  exact packed

theorem AtLeastOne.one_div (large : x.AtLeastOne) : (one / x).AtMostOne := by
  have packed := Rounding.toNat_pack_of_atMostOne (large.toFloat.one_div (by decide))
  have upper : (one.toFloat / x.toFloat).toBits.toNat ≤ 2047 * 2 ^ 52 :=
    Nat.le_trans packed (by decide)
  have quotient : one / x = ⟨(one.toFloat / x.toFloat).toBits⟩ :=
    combine_eq atLeastOne_one.2 large.2 upper
  rw [quotient]
  exact packed

end Binary64

namespace Thinning

theorem atMostOne_keepProbability {strides : List Nat} (positive : 0 ∉ strides)
    (addressed : ∀ stride ∈ strides, stride < addressLimit) :
    (keepProbability strides).AtMostOne := by
  have product : ∀ start : Binary64, start.AtLeastOne →
      (strides.foldl (fun product stride => product * .ofNat stride) start).AtLeastOne := by
    induction strides with
    | nil => exact fun _ large => large
    | cons stride strides ih =>
        intro start large
        have nonzero : stride ≠ 0 := by
          rintro rfl
          exact positive List.mem_cons_self
        have factor := Binary64.atLeastOne_ofNat nonzero (addressed stride List.mem_cons_self)
        apply ih
        · exact fun member => positive (List.mem_cons_of_mem _ member)
        · exact fun other member => addressed other (List.mem_cons_of_mem _ member)
        · exact large.mul factor
  exact (product .one Binary64.atLeastOne_one).one_div

/-- A number between zero and one is a probability, and clamping leaves it as it is. -/
theorem unit_of_atMostOne {x : Binary64} (small : x.AtMostOne) :
    0.0 ≤ x.toFloat ∧ x.toFloat ≤ 1.0 ∧ clampUnit x.toFloat = x.toFloat := by
  have known := small.toFloat
  have zero : (0.0 : Float).toModel.unpack = .zero .positive := rfl
  have one : (1.0 : Float).toModel.unpack = .finite .positive (2 ^ 52) (-52) (by decide) := rfl
  have notBelow : ¬ x.toFloat < 0.0 := by
    intro below
    have less : Float.Model.UnpackedFloat.lt _ _ = true := of_decide_eq_true below
    rw [zero, known.not_lt_zero] at less
    exact Bool.false_ne_true less
  have notAbove : ¬ x.toFloat > 1.0 := by
    intro above
    have less : Float.Model.UnpackedFloat.lt _ _ = true := of_decide_eq_true above
    rw [one, known.not_one_lt] at less
    exact Bool.false_ne_true less
  refine ⟨decide_eq_true ?_, decide_eq_true ?_, ?_⟩
  · change Float.Model.UnpackedFloat.le _ _ = true
    rw [zero]
    exact known.zero_le
  · change Float.Model.UnpackedFloat.le _ _ = true
    rw [one]
    exact known.le_one
  · simp [clampUnit, notBelow, notAbove]

/-- The probability with which random thinning keeps an edge. -/
def share (strides : List Nat) : Float :=
  clampUnit (keepProbability strides).toFloat

theorem share_eq {strides : List Nat} (positive : 0 ∉ strides)
    (addressed : ∀ stride ∈ strides, stride < addressLimit) :
    share strides = (keepProbability strides).toFloat ∧
      0.0 ≤ share strides ∧ share strides ≤ 1.0 := by
  rcases unit_of_atMostOne (atMostOne_keepProbability positive addressed) with
      ⟨lower, upper, unclamped⟩
  rw [share, unclamped]
  exact ⟨rfl, lower, upper⟩

end Thinning

end Watershed
