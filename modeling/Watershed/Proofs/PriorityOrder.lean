import Watershed.Proofs.Ranking
import Watershed.Proofs.Tensor

/-!
# The one order by priority

The total order of floating-point numbers compares bit patterns by sign and magnitude. A ranking
orders the valid edges by it, after a zero has been added to each weight, and breaks ties by the
numbers of the edges. `Ranking.Ordered` says this of a list of edges without the key by which the
list is sorted. A ranking is such a list, and there is no other one, so that the weights of edges
that are not valid have no influence on it.
-/

namespace Watershed

namespace Binary32

/--
The total order of patterns. A negative pattern precedes every other one; of two negative patterns
the one of greater magnitude comes first, of two others the one of smaller magnitude.
-/
def totalCompare (x y : Binary32) : Ordering :=
  match x.isNegative, y.isNegative with
  | true, true => compare y.abs.bits.toNat x.abs.bits.toNat
  | true, false => .lt
  | false, true => .gt
  | false, false => compare x.abs.bits.toNat y.abs.bits.toNat

theorem isNegative_iff {x : Binary32} : x.isNegative = true ↔ 2 ^ 31 ≤ x.bits.toNat := by
  rw [isNegative, decide_eq_true_eq, UInt32.le_iff_toNat_le]
  exact Iff.rfl

theorem toNat_abs (x : Binary32) : x.abs.bits.toNat = x.bits.toNat % 2 ^ 31 := by
  rw [abs, UInt32.toNat_and]
  exact Nat.and_two_pow_sub_one_eq_mod _ 31

theorem orderKey_of_negative {x : Binary32} (negative : x.isNegative = true) :
    x.orderKey = 2 ^ 31 - 1 - x.abs.bits.toNat := by
  have low := isNegative_iff.1 negative
  have high := x.bits.toNat_lt
  rw [orderKey, if_pos negative, toNat_abs]
  omega

theorem orderKey_of_not_negative {x : Binary32} (positive : x.isNegative = false) :
    x.orderKey = 2 ^ 31 + x.abs.bits.toNat := by
  have high : ¬ 2 ^ 31 ≤ x.bits.toNat := fun low => by simp [isNegative_iff.2 low] at positive
  rw [orderKey, positive, if_neg Bool.false_ne_true, toNat_abs]
  omega

/-- The position of a pattern tells how it compares with others. -/
theorem compare_orderKey (x y : Binary32) :
    compare x.orderKey y.orderKey = totalCompare x y := by
  have bounded : ∀ z : Binary32, z.abs.bits.toNat < 2 ^ 31 := fun z => by
    rw [toNat_abs]
    exact Nat.mod_lt _ (by decide)
  have xBounded := bounded x
  have yBounded := bounded y
  rw [totalCompare]
  cases xSign : x.isNegative <;> cases ySign : y.isNegative
  case false.false =>
    rw [orderKey_of_not_negative xSign, orderKey_of_not_negative ySign]
    simp only [Nat.compare_eq_ite_lt, Nat.add_lt_add_iff_left]
  case false.true =>
    rw [orderKey_of_not_negative xSign, orderKey_of_negative ySign]
    exact Nat.compare_eq_gt.2 (by omega)
  case true.false =>
    rw [orderKey_of_negative xSign, orderKey_of_not_negative ySign]
    exact Nat.compare_eq_lt.2 (by omega)
  case true.true =>
    have turned : ∀ {a b : Nat}, a < 2 ^ 31 → b < 2 ^ 31 →
        (2 ^ 31 - 1 - a < 2 ^ 31 - 1 - b ↔ b < a) := by
      intro a b aBounded bBounded
      omega
    rw [orderKey_of_negative xSign, orderKey_of_negative ySign]
    simp only [Nat.compare_eq_ite_lt, turned xBounded yBounded, turned yBounded xBounded]

end Binary32

namespace Ranking

variable {weights others : Tensor Binary32} {valid : Tensor Bool} {edge other : Nat}

/--
The weight of an edge is greater than that of another one, or the two weights are equal and the
number of the edge is lower. Weights are compared in the total order after zero has been added.
-/
def Precedes (weights : Tensor Binary32) (edge other : Nat) : Prop :=
  ∃ weight otherWeight, weights.data[edge]? = some weight ∧
    weights.data[other]? = some otherWeight ∧
    ((weight + .zero).totalCompare (otherWeight + .zero) = .gt ∨
      ((weight + .zero).totalCompare (otherWeight + .zero) = .eq ∧ edge < other))

/--
A list of edges by priority. It holds every edge once. The valid edges are counted and come first,
each one before those that it precedes, and the other edges follow by ascending number.
-/
structure Ordered (weights : Tensor Binary32) (valid : Tensor Bool) (order : List Nat)
    (count : Nat) : Prop where
  perm : order.Perm (List.range weights.size)
  count_le : count ≤ order.length
  mem_take_iff : ∀ edge, edge ∈ order.take count ↔ valid.data[edge]? = some true
  precedes : ∀ i j edge other, i < j → j < count → order[i]? = some edge →
    order[j]? = some other → Precedes weights edge other
  mem_drop_iff : ∀ edge, edge ∈ order.drop count ↔ valid.data[edge]? = some false
  ascending : (order.drop count).Pairwise (· < ·)

theorem precedes_iff_outranks (inside : edge < weights.size) (otherInside : other < weights.size) :
    Precedes weights edge other ↔
      Outranks (weights.data.map Binary32.priority) edge other := by
  have here := Array.getElem?_eq_getElem inside
  have there := Array.getElem?_eq_getElem otherInside
  simp only [Precedes, Outranks, priority, Array.getElem?_map, here, there, Option.some.injEq,
    exists_and_left, exists_eq_left', Option.map_some, Option.getD_some,
    ← Binary32.compare_orderKey, Nat.compare_eq_gt, Nat.compare_eq_eq, Binary32.priority]

/-- Each edge of a list precedes all later ones if and only if the list is in the order of ranks. -/
theorem forall_precedes_iff_pairwise {order : List Nat} {count : Nat}
    (bounded : ∀ edge ∈ order, edge < weights.size) :
    (∀ i j edge other, i < j → j < count → order[i]? = some edge → order[j]? = some other →
      Precedes weights edge other) ↔
      (order.take count).Pairwise (Outranks (weights.data.map Binary32.priority)) := by
  have precedes_iff : ∀ i j edge other, order[i]? = some edge → order[j]? = some other →
      (Precedes weights edge other ↔
        Outranks (weights.data.map Binary32.priority) edge other) := fun i j _ _ here there =>
    precedes_iff_outranks (bounded _ (List.mem_of_getElem? here))
      (bounded _ (List.mem_of_getElem? there))
  rw [List.pairwise_iff_getElem]
  constructor
  · intro precedes i j iBound jBound less
    rw [List.length_take] at iBound jBound
    have here := List.getElem?_eq_getElem (Nat.lt_of_lt_of_le iBound (Nat.min_le_right _ _))
    have there := List.getElem?_eq_getElem (Nat.lt_of_lt_of_le jBound (Nat.min_le_right _ _))
    rw [List.getElem_take, List.getElem_take, ← precedes_iff i j _ _ here there]
    exact precedes i j _ _ less (by omega) here there
  · intro outranks i j edge other less below here there
    rw [precedes_iff i j _ _ here there]
    rcases List.getElem?_eq_some_iff.1 here with ⟨iBound, rfl⟩
    rcases List.getElem?_eq_some_iff.1 there with ⟨jBound, rfl⟩
    have sorted := outranks i j (by rw [List.length_take]; omega)
      (by rw [List.length_take]; omega) less
    rwa [List.getElem_take, List.getElem_take] at sorted

namespace Ordered

variable {order another : List Nat} {count anotherCount : Nat}

theorem lt_size (ordered : Ordered weights valid order count) :
    ∀ edge ∈ order, edge < weights.size :=
  fun _ member => List.mem_range.1 (ordered.perm.mem_iff.1 member)

theorem pairwise_take (ordered : Ordered weights valid order count) :
    (order.take count).Pairwise (Outranks (weights.data.map Binary32.priority)) :=
  (forall_precedes_iff_pairwise ordered.lt_size).1 ordered.precedes

/-- There is at most one list of edges by priority. -/
theorem unique (ordered : Ordered weights valid order count)
    (anotherOrdered : Ordered weights valid another anotherCount) :
    order = another ∧ count = anotherCount := by
  have kept : order.take count = another.take anotherCount :=
    eq_of_pairwise_outranks ordered.pairwise_take anotherOrdered.pairwise_take fun edge =>
      (ordered.mem_take_iff edge).trans (anotherOrdered.mem_take_iff edge).symm
  have left : order.drop count = another.drop anotherCount := by
    apply List.Perm.eq_of_pairwise _ ordered.ascending anotherOrdered.ascending
    · rw [List.perm_ext_iff_of_nodup (ordered.ascending.imp Nat.ne_of_lt)
        (anotherOrdered.ascending.imp Nat.ne_of_lt)]
      exact fun edge => (ordered.mem_drop_iff edge).trans (anotherOrdered.mem_drop_iff edge).symm
    · intro edge other _ _ less reverse
      exact absurd reverse (Nat.lt_asymm less)
  constructor
  · rw [← List.take_append_drop count order, kept, left, List.take_append_drop]
  · have lengths := congrArg List.length kept
    rwa [List.length_take_of_le ordered.count_le,
      List.length_take_of_le anotherOrdered.count_le] at lengths

/-- Only the weights of valid edges matter. -/
theorem congr (ordered : Ordered weights valid order count) (sizes : others.size = weights.size)
    (agree : ∀ edge : Nat, valid.data[edge]? = some true →
      others.data[edge]? = weights.data[edge]?) : Ordered others valid order count := by
  refine ⟨sizes ▸ ordered.perm, ordered.count_le, ordered.mem_take_iff, ?_, ordered.mem_drop_iff,
    ordered.ascending⟩
  intro i j edge other less below here there
  have isValid : ∀ {k edge : Nat}, k < count → order[k]? = some edge →
      valid.data[edge]? = some true := by
    intro k edge early placed
    refine (ordered.mem_take_iff edge).1 (List.mem_of_getElem? (i := k) ?_)
    rwa [List.getElem?_take_of_lt early]
  rw [Precedes, agree edge (isValid (Nat.lt_trans less below) here),
    agree other (isValid below there)]
  exact ordered.precedes i j edge other less below here there

end Ordered

theorem ordered_ranked (sizes : weights.size = valid.size) :
    Ordered weights valid (ranked weights valid ++ dropped weights valid)
      (ranked weights valid).length := by
  have taken : (ranked weights valid ++ dropped weights valid).take (ranked weights valid).length =
      ranked weights valid := List.take_left
  have rest : (ranked weights valid ++ dropped weights valid).drop (ranked weights valid).length =
      dropped weights valid := List.drop_left
  have perm : (ranked weights valid ++ dropped weights valid).Perm (List.range weights.size) :=
    ((List.mergeSort_perm _ _).append_right _).trans (List.filter_append_perm _ _)
  refine ⟨perm, ?_, fun edge => ?_, ?_, fun edge => ?_, ?_⟩
  · rw [List.length_append]
    exact Nat.le_add_right _ _
  · rw [taken, mem_ranked_of_size sizes]
  · rw [forall_precedes_iff_pairwise fun edge member =>
      List.mem_range.1 (perm.mem_iff.1 member), taken]
    exact pairwise_ranked
  · rw [rest, mem_dropped, sizes]
    constructor
    · rintro ⟨inside, invalid⟩
      obtain ⟨mark, present⟩ : ∃ mark, valid.data[edge]? = some mark :=
        ⟨_, Array.getElem?_eq_getElem inside⟩
      cases mark with
      | true => exact absurd present invalid
      | false => exact present
    · intro invalid
      exact ⟨(Array.getElem?_eq_some_iff.1 invalid).1, by simp [invalid]⟩
  · rw [rest]
    exact List.pairwise_lt_range.filter _

/--
A ranking is the one list of edges by priority. For weights and a mask of one shape, whatever the
weights are, it holds every edge once, the valid ones first and by descending weight, equal weights
by ascending number, and the others behind them by ascending number. There is no other list like
this, and the weights of edges that are not valid have no influence on it.
-/
theorem ofWeights_unique_order (sameShape : weights.shape = valid.shape) :
    ∃ ranking, ofWeights weights valid = .ok ranking ∧ ranking.valid = valid.data ∧
      Ordered weights valid ranking.order ranking.validCount ∧
      (∀ order count another anotherCount, Ordered weights valid order count →
        Ordered weights valid another anotherCount → order = another ∧ count = anotherCount) ∧
      ∀ others : Tensor Binary32, others.shape = weights.shape →
        (∀ edge : Nat, valid.data[edge]? = some true → others.data[edge]? = weights.data[edge]?) →
        ofWeights others valid = .ok ranking := by
  have sizes : ∀ {one : Tensor Binary32}, one.shape = valid.shape → one.size = valid.size := by
    intro one shapes
    rw [Tensor.size_eq_volume, Tensor.size_eq_volume, shapes]
  have ordered := ordered_ranked (sizes sameShape)
  refine ⟨_, ofWeights_eq_ok sameShape, rfl, ordered, ?_, ?_⟩
  · exact fun _ _ _ _ one another => one.unique another
  · intro others shapes agree
    have othersShape := shapes.trans sameShape
    have moved := ordered.congr ((sizes othersShape).trans (sizes sameShape).symm) agree
    rcases moved.unique (ordered_ranked (sizes othersShape)) with ⟨orders, counts⟩
    rw [ofWeights_eq_ok othersShape, ← orders, ← counts]

/-- Zeros of either sign, two equal weights, a NaN and an infinite weight that is left out. -/
theorem ofWeights_unique_order_six :
    ∃ (weights others : Tensor Binary32) (valid : Tensor Bool) (ranking : Ranking),
      weights.shape = valid.shape ∧ others ≠ weights ∧
      ofWeights weights valid = .ok ranking ∧ ofWeights others valid = .ok ranking ∧
      ranking.order = [5, 1, 4, 0, 2, 3] ∧ ranking.validCount = 5 ∧
      Ordered weights valid [5, 1, 4, 0, 2, 3] 5 := by
  let half : Binary32 := ⟨0x3f000000⟩
  let valid : Tensor Bool := ⟨[2, 3], #[true, true, true, false, true, true], rfl⟩
  let weights : Tensor Binary32 :=
    ⟨[2, 3], #[.setSign .zero, half, .zero, .infinity, half, .quietNaN], rfl⟩
  let others : Tensor Binary32 :=
    ⟨[2, 3], #[.setSign .zero, half, .zero, .minusOne, half, .quietNaN], rfl⟩
  have agree : ∀ edge : Nat, valid.data[edge]? = some true →
      others.data[edge]? = weights.data[edge]? := by
    intro edge isValid
    match edge with
    | 0 | 1 | 2 | 4 | 5 => rfl
    | 3 => exact absurd isValid (by decide)
    | edge + 6 => rfl
  have differ : others ≠ weights := fun same => by
    have entries := congrArg (fun tensor : Tensor Binary32 => tensor.data[3]?) same
    exact absurd entries (by decide)
  rcases @ofWeights_unique_order weights valid rfl with
      ⟨ranking, ranked, -, ordered, unique, unaffected⟩
  have sorted : ([5, 1, 4, 0, 2] : List Nat).Pairwise
      (Outranks (weights.data.map Binary32.priority)) := by
    unfold Outranks
    decide +kernel
  have listed : Ordered weights valid [5, 1, 4, 0, 2, 3] 5 := by
    refine ⟨by decide, by decide, fun edge => ?_, ?_, fun edge => ?_, by decide⟩
    · match edge with
      | 0 | 1 | 2 | 3 | 4 | 5 => decide
      | edge + 6 => simp [valid]
    · exact (forall_precedes_iff_pairwise (by decide)).2 sorted
    · match edge with
      | 0 | 1 | 2 | 3 | 4 | 5 => decide
      | edge + 6 => simp [valid]
  rcases unique _ _ _ _ ordered listed with ⟨order, count⟩
  exact ⟨weights, others, valid, ranking, rfl, differ, ranked, unaffected others rfl agree, order,
    count, listed⟩

end Ranking

end Watershed
