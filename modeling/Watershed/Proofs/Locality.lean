import Watershed.Proofs.Agreement
import Watershed.Proofs.Divisive
import Watershed.Proofs.GrowthLocality
import Watershed.Proofs.Segmentation

/-!
# Clustering is local

What a clustering makes of a closed part of a grid depends on the part only: on the edges that are
valid there and on the order of their priorities. This is about the labels themselves, so the nodes
that stand for the classes have to be the same ones in both runs.

Greedy clustering takes the edges one by one, and the edges outside of the part can be left out of
its order. The first pass of divisive clustering may end at different moments in the two runs; but
the forest of an order was described without that, and the second pass goes through the forest edge
by edge again.
-/

namespace Watershed

namespace Greedy

variable {index : EdgeIndex} {part : Set (Fin index.nodes)} {valid otherValid : Array Bool}
  {order otherOrder : List Nat}

theorem respects_of_run {partition : Partition index.nodes}
    (closed : (index.graph valid).Closed part) (inRange : ∀ edge ∈ order, edge < valid.size)
    (ran : run index valid order = .ok partition) : partition.Respects part := by
  rcases run_realizes inRange with ⟨found, again, realizes⟩
  rcases Except.ok.inj (ran.symm.trans again) with rfl
  exact realizes.respects closed

open Classical in
/--
A run over some edges and a run over the inner ones among them agree on a closed part, also if the
mask of the second run differs outside of the part.
-/
theorem run_filter_agreeOn (agree : (index.graph valid).AgreeOn part (index.graph otherValid))
    (inRange : ∀ edge ∈ order, edge < valid.size)
    (otherInRange : ∀ edge ∈ order, edge < otherValid.size) :
    ∃ partition restricted, run index valid order = .ok partition ∧
      run index otherValid (order.filter (· ∈ (index.graph valid).inner part)) = .ok restricted ∧
      partition.AgreeOn part restricted := by
  -- from the end of the order, where a run takes one more edge than the run before
  induction order using List.reverseRecOn with
  | nil => exact ⟨_, _, rfl, rfl, .refl _⟩
  | append_singleton order edge ih =>
      have last : edge ∈ order ++ [edge] := by simp
      have inRangeBefore : ∀ other ∈ order, other < valid.size := fun other member =>
        inRange other (List.mem_append_left _ member)
      have otherInRangeBefore : ∀ other ∈ order, other < otherValid.size := fun other member =>
        otherInRange other (List.mem_append_left _ member)
      rcases ih inRangeBefore otherInRangeBefore with ⟨partition, restricted, ran, otherRan, same⟩
      have respects := respects_of_run agree.closed inRangeBefore ran
      have otherRespects := respects_of_run agree.otherClosed
        (fun other member => otherInRangeBefore other (List.mem_filter.1 member).1) otherRan
      rw [run_append_singleton ran (inRange edge last), List.filter_append]
      by_cases isInner : edge ∈ (index.graph valid).inner part
      · rw [List.filter_cons_of_pos (by simpa using isInner), List.filter_nil,
          run_append_singleton otherRan (otherInRange edge last)]
        rcases isInner with ⟨a, insideA, b, insideB, ends⟩
        rw [ends, (agree.ends edge a insideA b insideB).2 ends]
        exact ⟨_, _, rfl, rfl, (same.addEdge respects otherRespects insideA insideB _).2⟩
      · -- an outer edge is taken by the first run only
        rw [List.filter_cons_of_neg (by simpa using isInner), List.filter_nil, List.append_nil]
        refine ⟨_, restricted, rfl, otherRan, ?_⟩
        cases ends : (index.graph valid).ends? edge with
        | none => exact same
        | some pair =>
            rcases agree.closed.not_mem ends isInner with ⟨outsideA, outsideB⟩
            exact (Partition.AgreeOn.of_addEdge respects outsideA outsideB _).symm.trans same

open Classical in
/-- Two runs that take the inner edges of a closed part in the same order agree on the part. -/
theorem run_agreeOn (agree : (index.graph valid).AgreeOn part (index.graph otherValid))
    (sized : valid.size = index.count) (otherSized : otherValid.size = index.count)
    (inRange : ∀ edge ∈ order, edge < index.count)
    (otherInRange : ∀ edge ∈ otherOrder, edge < index.count)
    (same : otherOrder.filter (· ∈ (index.graph otherValid).inner part) =
      order.filter (· ∈ (index.graph valid).inner part)) :
    ∃ partition other, run index valid order = .ok partition ∧
      run index otherValid otherOrder = .ok other ∧ partition.AgreeOn part other := by
  rcases run_filter_agreeOn agree (sized ▸ inRange) (otherSized ▸ inRange) with
      ⟨partition, restricted, ran, ranRestricted, agrees⟩
  rcases run_filter_agreeOn (.refl agree.otherClosed) (otherSized ▸ otherInRange)
      (otherSized ▸ otherInRange) with
    ⟨other, otherRestricted, otherRan, otherRanRestricted, others⟩
  rw [same, ranRestricted] at otherRanRestricted
  rcases Except.ok.inj otherRanRestricted with rfl
  exact ⟨partition, other, ran, otherRan, agrees.trans others.symm⟩

open Classical in
theorem cluster_agreeOn {stencil : Stencil} {gridShape : List Nat}
    (agree : (index.graph valid).AgreeOn part (index.graph otherValid))
    (numbered : EdgeIndex.ofGrid stencil gridShape = .ok index)
    (sized : valid.size = index.count) (otherSized : otherValid.size = index.count)
    (inRange : ∀ edge ∈ order, edge < index.count)
    (otherInRange : ∀ edge ∈ otherOrder, edge < index.count)
    (same : otherOrder.filter (· ∈ (index.graph otherValid).inner part) =
      order.filter (· ∈ (index.graph valid).inner part)) :
    ∃ labels otherLabels, cluster order valid stencil gridShape = .ok labels ∧
      cluster otherOrder otherValid stencil gridShape = .ok otherLabels ∧
      ∀ x ∈ part, ∃ label, labels[x.val]? = some label ∧ otherLabels[x.val]? = some label := by
  rcases run_agreeOn agree sized otherSized inRange otherInRange same with
      ⟨partition, other, ran, otherRan, agrees⟩
  exact ⟨partition.labels, other.labels, cluster_eq_labels numbered sized ran,
    cluster_eq_labels numbered otherSized otherRan, agrees.classes.exists_label⟩

end Greedy

namespace Divisive

variable {index : EdgeIndex} {part : Set (Fin index.nodes)} {forest otherForest : Array Bool}
  {classes others : DisjointSets index.nodes} {edge : Nat}

theorem respects_joinTree (closed : (index.graph forest).Closed part)
    (respects : classes.Respects part) : (joinTree index forest classes edge).Respects part := by
  rw [joinTree_eq]
  cases ends : (index.graph forest).ends? edge with
  | none => exact respects
  | some pair => exact respects.union (closed edge pair.1 pair.2 ends)

theorem joinTree_agreeOn_of_not_mem (closed : (index.graph forest).Closed part)
    (respects : classes.Respects part) (outer : edge ∉ (index.graph forest).inner part) :
    classes.AgreeOn part (joinTree index forest classes edge) := by
  rw [joinTree_eq]
  cases ends : (index.graph forest).ends? edge with
  | none => exact .refl classes
  | some pair =>
      rcases closed.not_mem ends outer with ⟨outsideA, outsideB⟩
      exact .of_union respects outsideA outsideB

theorem joinTree_agreeOn (agree : (index.graph forest).AgreeOn part (index.graph otherForest))
    (respects : classes.Respects part) (otherRespects : others.Respects part)
    (same : classes.AgreeOn part others) :
    (joinTree index forest classes edge).AgreeOn part (joinTree index otherForest others edge) := by
  by_cases isInner : edge ∈ (index.graph forest).inner part
  · rcases isInner with ⟨a, insideA, b, insideB, ends⟩
    rw [joinTree_eq, joinTree_eq, ends, (agree.ends edge a insideA b insideB).2 ends]
    exact same.union respects insideA insideB
  · -- the two runs may differ in what they do outside, so each is compared with its own past
    have before := joinTree_agreeOn_of_not_mem agree.closed respects isInner
    rw [← agree.inner_eq] at isInner
    have after := joinTree_agreeOn_of_not_mem agree.otherClosed otherRespects isInner
    exact (before.symm.trans same).trans after

theorem foldl_joinTree_agreeOn
    (agree : (index.graph forest).AgreeOn part (index.graph otherForest)) (order : List Nat)
    (respects : classes.Respects part) (otherRespects : others.Respects part)
    (same : classes.AgreeOn part others) :
    (order.foldl (joinTree index forest) classes).AgreeOn part
      (order.foldl (joinTree index otherForest) others) := by
  induction order generalizing classes others with
  | nil => exact same
  | cons edge order ih =>
      exact ih (respects_joinTree agree.closed respects)
        (respects_joinTree agree.otherClosed otherRespects)
        (joinTree_agreeOn agree respects otherRespects same)

theorem trees_agreeOn (agree : (index.graph forest).AgreeOn part (index.graph otherForest))
    (sized : otherForest.size = forest.size) :
    (trees index forest).AgreeOn part (trees index otherForest) := by
  rw [trees, trees, sized]
  exact foldl_joinTree_agreeOn agree _ DisjointSets.respects_discrete
    DisjointSets.respects_discrete (.refl _)

variable {valid otherValid : Array Bool} {order otherOrder : List Nat}

theorem ends?_graph_forest_iff
    (marks : ∀ edge, forest[edge]? = some true ↔ edge ∈ (index.graph valid).forest order)
    {ends : Fin index.nodes × Fin index.nodes} : (index.graph forest).ends? edge = some ends ↔
      edge ∈ (index.graph valid).forest order ∧ (index.graph valid).ends? edge = some ends := by
  rw [EdgeIndex.ends?_graph_eq_some_iff, EdgeIndex.ends?_graph_eq_some_iff, marks]
  refine and_congr_right fun planted => (and_iff_right ?_).symm
  rcases planted with ⟨_, _, -, -, a, b, isEdge, -⟩
  exact (EdgeIndex.ends?_graph_eq_some_iff.1 isEdge).1

open Classical in
/--
Forests of orders that take the inner edges of a closed part in the same way agree on the part.
-/
theorem graph_forest_agreeOn (agree : (index.graph valid).AgreeOn part (index.graph otherValid))
    (same : otherOrder.filter (· ∈ (index.graph otherValid).inner part) =
      order.filter (· ∈ (index.graph valid).inner part))
    (marks : ∀ edge, forest[edge]? = some true ↔ edge ∈ (index.graph valid).forest order)
    (otherMarks : ∀ edge, otherForest[edge]? = some true ↔
      edge ∈ (index.graph otherValid).forest otherOrder) :
    (index.graph forest).AgreeOn part (index.graph otherForest) where
  closed edge a b ends := agree.closed edge a b ((ends?_graph_forest_iff marks).1 ends).2
  otherClosed edge a b ends :=
    agree.otherClosed edge a b ((ends?_graph_forest_iff otherMarks).1 ends).2
  ends edge a insideA b insideB := by
    rw [ends?_graph_forest_iff marks, ends?_graph_forest_iff otherMarks,
      agree.ends edge a insideA b insideB]
    refine and_congr_left fun ends => ?_
    have isInner : edge ∈ (index.graph valid).inner part := ⟨a, insideA, b, insideB, ends⟩
    have otherInner : edge ∈ (index.graph otherValid).inner part := agree.inner_eq ▸ isInner
    rw [← agree.mem_forest_filter_iff order isInner, ← same]
    exact ((SignedGraph.AgreeOn.refl agree.otherClosed).mem_forest_filter_iff _ otherInner).symm
  repulsive _ := rfl

open Classical in
theorem cluster_agreeOn {stencil : Stencil} {gridShape : List Nat}
    (agree : (index.graph valid).AgreeOn part (index.graph otherValid))
    (numbered : EdgeIndex.ofGrid stencil gridShape = .ok index)
    (sized : valid.size = index.count) (otherSized : otherValid.size = index.count)
    (inRange : ∀ edge ∈ order, edge < index.count)
    (otherInRange : ∀ edge ∈ otherOrder, edge < index.count)
    (same : otherOrder.filter (· ∈ (index.graph otherValid).inner part) =
      order.filter (· ∈ (index.graph valid).inner part)) :
    ∃ labels otherLabels, cluster order valid stencil gridShape = .ok labels ∧
      cluster otherOrder otherValid stencil gridShape = .ok otherLabels ∧
      ∀ x ∈ part, ∃ label, labels[x.val]? = some label ∧ otherLabels[x.val]? = some label := by
  rcases cluster_eq_trees numbered sized inRange with ⟨forest, clustered, size, marks⟩
  rcases cluster_eq_trees numbered otherSized otherInRange with
      ⟨otherForest, otherClustered, otherSize, otherMarks⟩
  have agrees := trees_agreeOn (graph_forest_agreeOn agree same marks otherMarks)
    (otherSize.trans size.symm)
  exact ⟨_, _, clustered, otherClustered, agrees.exists_label⟩

end Divisive

theorem Growth.cluster_agreeOn {index : EdgeIndex} {part : Set (Fin index.nodes)}
    {stencil : Stencil} {gridShape : List Nat} {weights others : Tensor Binary32}
    {valid otherValid : Tensor Bool}
    (agree : index.AgreeOn part (weights.data.map Binary32.priority)
      (others.data.map Binary32.priority) valid.data otherValid.data)
    (numbered : EdgeIndex.ofGrid stencil gridShape = .ok index)
    (weightSized : weights.data.size = index.count) (sized : valid.data.size = index.count)
    (otherWeightSized : others.data.size = index.count)
    (otherSized : otherValid.data.size = index.count) :
    ∃ labels otherLabels, cluster weights.data valid.data stencil gridShape = .ok labels ∧
      cluster others.data otherValid.data stencil gridShape = .ok otherLabels ∧
      ∀ x ∈ part, ∃ label, labels[x.val]? = some label ∧ otherLabels[x.val]? = some label := by
  exact ⟨_, _, cluster_eq_labels numbered weightSized sized,
    cluster_eq_labels numbered otherWeightSized otherSized,
    (run_agreeOn agree).partition.classes.exists_label⟩

/--
Clustering is local and depends on the order of priorities only. If no valid edge of either run
leaves a part of the grid, the same edges are valid inside of the part, and the priorities of any
two of these compare in the same way, then with every algorithm the labels of the part are identical
in both runs. The whole grid is such a part, so the weights of edges that are not valid have no
influence at all.
-/
theorem Segmentation.cluster_local (algorithm : Algorithm) (stencil : Stencil)
    (gridShape : List Nat) (index : EdgeIndex) (weights others : Tensor Binary32)
    (valid otherValid : Tensor Bool) (part : Set (Fin index.nodes))
    (numbered : EdgeIndex.ofGrid stencil gridShape = .ok index)
    (weightShape : weights.shape = stencil.edgeShape gridShape)
    (validShape : valid.shape = stencil.edgeShape gridShape)
    (otherShape : others.shape = stencil.edgeShape gridShape)
    (otherValidShape : otherValid.shape = stencil.edgeShape gridShape)
    (agree : index.AgreeOn part (weights.data.map Binary32.priority)
      (others.data.map Binary32.priority) valid.data otherValid.data) :
    ∃ labels otherLabels, cluster algorithm weights valid stencil gridShape = .ok labels ∧
      cluster algorithm others otherValid stencil gridShape = .ok otherLabels ∧
      ∀ x ∈ part, ∃ label, labels[x.val]? = some label ∧ otherLabels[x.val]? = some label := by
  have weightSized : weights.size = index.count := EdgeIndex.size_eq_count numbered weightShape
  have sized : valid.data.size = index.count := EdgeIndex.size_eq_count numbered validShape
  have otherWeightSized : others.size = index.count := EdgeIndex.size_eq_count numbered otherShape
  have otherSized : otherValid.data.size = index.count :=
    EdgeIndex.size_eq_count numbered otherValidShape
  have inRange := @Ranking.lt_count_of_mem index weights valid _ _ numbered weightShape
  have otherInRange := @Ranking.lt_count_of_mem index others otherValid _ _ numbered otherShape
  have same := Ranking.filter_order_eq agree weightSized otherWeightSized
  cases algorithm with
  | kruskal =>
      rw [cluster, cluster, Ranking.ofWeights_eq_ok (weightShape.trans validShape.symm),
        Ranking.ofWeights_eq_ok (otherShape.trans otherValidShape.symm)]
      exact Greedy.cluster_agreeOn agree.graph numbered sized otherSized inRange otherInRange same
  | divisive =>
      rw [cluster, cluster, Ranking.ofWeights_eq_ok (weightShape.trans validShape.symm),
        Ranking.ofWeights_eq_ok (otherShape.trans otherValidShape.symm)]
      exact Divisive.cluster_agreeOn agree.graph numbered sized otherSized inRange otherInRange same
  | prim =>
      exact Growth.cluster_agreeOn agree numbered weightSized sized otherWeightSized otherSized

/--
Five cells in a row. The part has the first three, all weights differ, and one mask cuts the others.
-/
theorem Segmentation.cluster_local_row :
    ∃ stencil index, ∃ (weights others : Tensor Binary32) (valid otherValid : Tensor Bool)
      (part : Set (Fin index.nodes)), EdgeIndex.ofGrid stencil [5] = .ok index ∧
      weights.shape = Stencil.edgeShape stencil [5] ∧ valid.shape = Stencil.edgeShape stencil [5] ∧
      others.shape = Stencil.edgeShape stencil [5] ∧
      otherValid.shape = Stencil.edgeShape stencil [5] ∧
      valid.data[3]? = some true ∧ otherValid.data[3]? = some false ∧
      index.AgreeOn part (weights.data.map Binary32.priority) (others.data.map Binary32.priority)
        valid.data otherValid.data ∧
      ∃ labels otherLabels, cluster .prim weights valid stencil [5] = .ok labels ∧
        cluster .prim others otherValid stencil [5] = .ok otherLabels ∧
        ∀ x ∈ part, ∃ label, labels[x.val]? = some label ∧ otherLabels[x.val]? = some label := by
  let stencil : Stencil := ⟨[[1], [2]], 1, 1, by decide, by decide, by decide⟩
  let index : EdgeIndex := ⟨5, #[1, 2], 5⟩
  let weights : Tensor Binary32 := ⟨[2, 5], Array.replicate 10 .one, by decide⟩
  let others : Tensor Binary32 := ⟨[2, 5], Array.replicate 10 .zero, by decide⟩
  let valid : Tensor Bool :=
    ⟨[2, 5], #[true, true, false, true, false, true, false, false, false, false], by decide⟩
  let otherValid : Tensor Bool :=
    ⟨[2, 5], #[true, true, false, false, false, true, false, false, false, false], by decide⟩
  let part : Set (Fin 5) := {x | x.val < 3}
  have numbered : EdgeIndex.ofGrid stencil [5] = .ok index := rfl
  have bounded : ∀ {edge ends}, index.ends? edge = some ends → edge < 10 :=
    EdgeIndex.lt_count_of_ends?_eq
  have sameSide : ∀ edge < 10, ∀ a b : Fin 5, valid.data[edge]? = some true →
      index.ends? edge = some (a, b) → (a.val < 3 ↔ b.val < 3) := by
    decide +kernel
  have subset :
      ∀ edge < 10, otherValid.data[edge]? = some true → valid.data[edge]? = some true := by
    decide +kernel
  have insideEdges : ∀ edge < 10, ∀ a b : Fin 5, index.ends? edge = some (a, b) →
      a.val < 3 ∧ b.val < 3 → edge = 0 ∨ edge = 1 ∨ edge = 5 := by
    decide +kernel
  have equalWeights : ∀ weight : Binary32, ∀ {edge}, edge < 10 →
      Ranking.priority ((Array.replicate 10 weight).map Binary32.priority) edge =
        weight.priority := by
    intro weight edge below
    simp [Ranking.priority, below]
  have agree : index.AgreeOn part (weights.data.map Binary32.priority)
      (others.data.map Binary32.priority) valid.data otherValid.data := by
    refine ⟨?_, ?_, ?_, ?_⟩
    · intro edge a b ends
      rcases EdgeIndex.ends?_graph_eq_some_iff.1 ends with ⟨isValid, known⟩
      exact sameSide edge (bounded known) a b isValid known
    · intro edge a b ends
      rcases EdgeIndex.ends?_graph_eq_some_iff.1 ends with ⟨isValid, known⟩
      exact sameSide edge (bounded known) a b (subset edge (bounded known) isValid) known
    · intro edge a insideA b insideB known
      rcases insideEdges edge (bounded known) a b known ⟨insideA, insideB⟩ with rfl | rfl | rfl <;>
        rfl
    · intro edge isInner rival rivalInner
      rcases isInner with ⟨a, -, b, -, ends⟩
      rcases rivalInner with ⟨c, -, d, -, rivalEnds⟩
      have below := bounded (EdgeIndex.ends?_graph_eq_some_iff.1 ends).2
      have rivalBelow := bounded (EdgeIndex.ends?_graph_eq_some_iff.1 rivalEnds).2
      -- all weights of a run are equal, so any two of them compare as equal
      rw [equalWeights .zero below, equalWeights .zero rivalBelow, equalWeights .one below,
        equalWeights .one rivalBelow, Std.compare_self, Std.compare_self]
  rcases cluster_local .prim stencil [5] index weights others valid otherValid part numbered rfl rfl
      rfl rfl agree with ⟨labels, otherLabels, clustered, otherClustered, same⟩
  exact ⟨stencil, index, weights, others, valid, otherValid, part, numbered, rfl, rfl, rfl, rfl,
    rfl, rfl, agree, labels, otherLabels, clustered, otherClustered, same⟩

end Watershed
