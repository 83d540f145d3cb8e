import Mathlib.Data.List.Nodup
import Watershed.Edge.Ranking

/-!
# The order of a ranking

A ranking lists every edge once. The valid edges come first, and of two of them the one of higher
priority precedes; edges of equal priority stand in the order of their numbers. `Ranking.Outranks`
is this strict order of edges, and it is total, so that it determines the list.
-/

namespace Watershed.Ranking

/-- An edge has a higher priority than another one, or an equal one and a lower number. -/
def Outranks (priorities : Array Nat) (edge other : Nat) : Prop :=
  priority priorities other < priority priorities edge ∨
    (priority priorities edge = priority priorities other ∧ edge < other)

variable {priorities : Array Nat}

theorem Outranks.irrefl (edge : Nat) : ¬ Outranks priorities edge edge := by
  simp [Outranks]

theorem Outranks.trans {first second third : Nat} (left : Outranks priorities first second)
    (right : Outranks priorities second third) : Outranks priorities first third := by
  simp only [Outranks] at left right ⊢
  omega

theorem Outranks.asymm {edge other : Nat} (outranks : Outranks priorities edge other) :
    ¬ Outranks priorities other edge :=
  fun reverse => Outranks.irrefl edge (outranks.trans reverse)

theorem mem_byPriority {edges : List Nat} {edge : Nat} :
    edge ∈ byPriority priorities edges ↔ edge ∈ edges :=
  List.mem_mergeSort

theorem nodup_byPriority {edges : List Nat} (ascending : edges.Pairwise (· < ·)) :
    (byPriority priorities edges).Nodup :=
  (List.mergeSort_perm edges _).nodup_iff.2 (ascending.imp Nat.ne_of_lt)

theorem pair_sublist_of_ascending {edges : List Nat} (ascending : edges.Pairwise (· < ·))
    {edge other : Nat} (member : edge ∈ edges) (otherMember : other ∈ edges)
    (less : edge < other) : [edge, other].Sublist edges := by
  rcases List.append_of_mem member with ⟨earlier, later, rfl⟩
  have apart := (List.pairwise_append.1 ascending).2.2
  have inLater : other ∈ later := by
    rcases List.mem_append.1 otherMember with before | after
    · have := apart other before edge List.mem_cons_self
      omega
    · exact (List.mem_cons.1 after).resolve_left (Nat.ne_of_gt less)
  exact ((List.singleton_sublist.2 inLater).cons_cons edge).trans (List.sublist_append_right _ _)

theorem not_sublist_of_sublist {edges : List Nat} (distinct : edges.Nodup) {edge other : Nat}
    (pair : [edge, other].Sublist edges) : ¬ [other, edge].Sublist edges := by
  induction edges with
  | nil => simp at pair
  | cons head edges ih =>
      rcases List.nodup_cons.1 distinct with ⟨fresh, rest⟩
      intro reverse
      rcases List.sublist_cons_iff.1 pair with within | ⟨_, equal, within⟩ <;>
        rcases List.sublist_cons_iff.1 reverse with reverseWithin | ⟨_, reverseEqual, reverseWithin⟩
      · exact ih rest within reverseWithin
      · rcases List.cons.inj reverseEqual with ⟨rfl, rfl⟩
        exact fresh (within.subset (by simp))
      · rcases List.cons.inj equal with ⟨rfl, rfl⟩
        exact fresh (reverseWithin.subset (by simp))
      · rcases List.cons.inj equal with ⟨rfl, rfl⟩
        rcases List.cons.inj reverseEqual with ⟨rfl, rfl⟩
        exact fresh (within.subset (by simp))

/-- Sorting edges with ascending numbers by priority puts them into the order of their ranks. -/
theorem pairwise_byPriority {edges : List Nat} (ascending : edges.Pairwise (· < ·)) :
    (byPriority priorities edges).Pairwise (Outranks priorities) := by
  have trans : ∀ a b c, decide (priority priorities b ≤ priority priorities a) = true →
      decide (priority priorities c ≤ priority priorities b) = true →
      decide (priority priorities c ≤ priority priorities a) = true := by
    intro a b c
    simp only [decide_eq_true_eq]
    omega
  have total : ∀ a b, (decide (priority priorities b ≤ priority priorities a) ||
      decide (priority priorities a ≤ priority priorities b)) = true := by
    intro a b
    simp only [Bool.or_eq_true, decide_eq_true_eq]
    omega
  have sorted := List.pairwise_mergeSort trans total edges
  rw [List.pairwise_iff_forall_sublist] at sorted ⊢
  intro edge other pair
  have le : priority priorities other ≤ priority priorities edge := by simpa using sorted pair
  rcases Nat.lt_or_eq_of_le le with less | equal
  · exact .inl less
  · refine .inr ⟨equal.symm, ?_⟩
    have distinct := @nodup_byPriority priorities edges ascending
    have different : edge ≠ other := by
      rintro rfl
      exact not_sublist_of_sublist distinct pair pair
    by_contra notLess
    have members : edge ∈ edges ∧ other ∈ edges :=
      ⟨mem_byPriority.1 (pair.subset (by simp)), mem_byPriority.1 (pair.subset (by simp))⟩
    -- equal priorities would keep the two in the order of their numbers
    have kept : [other, edge].Sublist (byPriority priorities edges) :=
      List.pair_sublist_mergeSort trans total (by simp [equal])
        (pair_sublist_of_ascending ascending members.2 members.1 (by omega))
    exact not_sublist_of_sublist distinct pair kept

/-- The valid edges, by descending rank. -/
def ranked (weights : Tensor Binary32) (valid : Tensor Bool) : List Nat :=
  byPriority (weights.data.map Binary32.priority)
    ((List.range weights.size).filter fun edge => valid.data[edge]?.getD false)

/-- The other edges, by ascending number. -/
def dropped (weights : Tensor Binary32) (valid : Tensor Bool) : List Nat :=
  (List.range weights.size).filter fun edge => !valid.data[edge]?.getD false

variable {weights : Tensor Binary32} {valid : Tensor Bool}

theorem ofWeights_eq_ok (sameShape : weights.shape = valid.shape) :
    ofWeights weights valid = .ok
      ⟨valid.data, ranked weights valid ++ dropped weights valid,
        (ranked weights valid).length⟩ := by
  have count : (ranked weights valid).length =
      ((List.range weights.size).filter fun edge => valid.data[edge]?.getD false).length :=
    List.length_mergeSort _
  rw [ofWeights, if_pos sameShape, count]
  simp only [List.partition_eq_filter_filter]
  rfl

theorem mem_ranked {edge : Nat} :
    edge ∈ ranked weights valid ↔ edge < weights.size ∧ valid.data[edge]? = some true := by
  rw [ranked, mem_byPriority, List.mem_filter, List.mem_range]
  cases valid.data[edge]? <;> simp

theorem mem_ranked_of_size (sizes : weights.size = valid.size) {edge : Nat} :
    edge ∈ ranked weights valid ↔ valid.data[edge]? = some true := by
  rw [mem_ranked, sizes]
  exact and_iff_right_of_imp fun isValid => (Array.getElem?_eq_some_iff.1 isValid).1

theorem length_ranked (sizes : weights.size = valid.size) :
    (ranked weights valid).length = valid.data.count true := by
  have listed : valid.data.toList =
      (List.range valid.size).map fun edge => valid.data[edge]?.getD false := by
    apply List.ext_getElem?
    intro edge
    by_cases inside : edge < valid.data.size <;> simp [Tensor.size, inside]
  rw [ranked, byPriority, List.length_mergeSort, ← List.countP_eq_length_filter, sizes,
    ← Array.count_toList, listed, List.count, List.countP_map]
  congr 1
  funext edge
  simp

theorem mem_dropped {edge : Nat} :
    edge ∈ dropped weights valid ↔ edge < weights.size ∧ valid.data[edge]? ≠ some true := by
  rw [dropped, List.mem_filter, List.mem_range]
  cases valid.data[edge]? <;> simp

theorem pairwise_ranked :
    (ranked weights valid).Pairwise (Outranks (weights.data.map Binary32.priority)) :=
  pairwise_byPriority (List.pairwise_lt_range.filter _)

theorem outranks_of_idxOf_lt {order : List Nat} (sorted : order.Pairwise (Outranks priorities))
    {edge other : Nat} (otherMember : other ∈ order)
    (less : order.idxOf edge < order.idxOf other) : Outranks priorities edge other := by
  have otherBound : order.idxOf other < order.length := List.idxOf_lt_length_iff.2 otherMember
  have placed :=
    List.pairwise_iff_getElem.1 sorted _ _ (Nat.lt_trans less otherBound) otherBound less
  rwa [List.getElem_idxOf, List.getElem_idxOf] at placed

/-- In a list in the order of ranks an edge that outranks another one comes earlier. -/
theorem idxOf_lt_of_outranks {order : List Nat} (sorted : order.Pairwise (Outranks priorities))
    {edge other : Nat} (member : edge ∈ order) (outranks : Outranks priorities edge other) :
    order.idxOf edge < order.idxOf other := by
  by_contra notLess
  rcases Nat.lt_or_eq_of_le (Nat.le_of_not_lt notLess) with less | equal
  · exact outranks.asymm (outranks_of_idxOf_lt sorted member less)
  · rw [List.idxOf_inj member |>.1 equal.symm] at outranks
    exact Outranks.irrefl other outranks

theorem nodup_of_pairwise_outranks {order : List Nat}
    (sorted : order.Pairwise (Outranks priorities)) : order.Nodup := by
  apply sorted.imp
  rintro edge _ outranks rfl
  exact Outranks.irrefl edge outranks

/-- A list in the order of ranks is determined by its members. -/
theorem eq_of_pairwise_outranks {left right : List Nat}
    (sortedLeft : left.Pairwise (Outranks priorities))
    (sortedRight : right.Pairwise (Outranks priorities))
    (same : ∀ edge, edge ∈ left ↔ edge ∈ right) : left = right := by
  apply List.Perm.eq_of_pairwise _ sortedLeft sortedRight
  · rw [List.perm_ext_iff_of_nodup (nodup_of_pairwise_outranks sortedLeft)
      (nodup_of_pairwise_outranks sortedRight)]
    exact same
  · intro edge other _ _ outranks reverse
    exact absurd reverse outranks.asymm

theorem nodup_ranked : (ranked weights valid).Nodup :=
  nodup_of_pairwise_outranks pairwise_ranked

/--
A renaming of edges that keeps their priorities, and the order of their numbers, renames a ranking.
-/
theorem ranked_eq_map {otherWeights : Tensor Binary32} {otherValid : Tensor Bool}
    {rename : Nat → Nat}
    (members : ∀ edge, edge ∈ ranked otherWeights otherValid ↔
      ∃ old ∈ ranked weights valid, rename old = edge)
    (keeps : ∀ edge ∈ ranked weights valid,
      priority (otherWeights.data.map Binary32.priority) (rename edge) =
        priority (weights.data.map Binary32.priority) edge)
    (ascends : ∀ edge ∈ ranked weights valid, ∀ other ∈ ranked weights valid, edge < other →
      rename edge < rename other) :
    ranked otherWeights otherValid = (ranked weights valid).map rename := by
  have sorted : ((ranked weights valid).map rename).Pairwise
      (Outranks (otherWeights.data.map Binary32.priority)) := by
    rw [List.pairwise_map]
    apply pairwise_ranked.imp_of_mem
    intro edge other member otherMember outranks
    rw [Outranks, keeps edge member, keeps other otherMember]
    rcases outranks with higher | ⟨equal, less⟩
    · exact .inl higher
    · exact .inr ⟨equal, ascends edge member other otherMember less⟩
  refine eq_of_pairwise_outranks pairwise_ranked sorted fun edge => ?_
  rw [members, List.mem_map]

end Watershed.Ranking
