import Watershed.Clustering.Greedy
import Watershed.Proofs.EdgeIndex
import Watershed.Proofs.Realization

/-!
# Greedy clustering computes the greedy set

The partition of a greedy run knows nothing about walks. It is shown here, edge by edge, to realize
the greedy set of the edges that it has seen, so that the labels tell apart exactly the nodes that
this set does not link. With the optimality of greedy sets this says what greedy clustering
optimizes: the set behind its labels is the lexicographically greatest consistent one.
-/

namespace Watershed.Greedy

variable {index : EdgeIndex} {valid : Array Bool}

/-- A step takes into account an edge that the graph has, and passes over any other number. -/
theorem step_eq {edge : Nat} (inRange : edge < valid.size) (partition : Partition index.nodes) :
    step index valid partition edge =
      .ok (((index.graph valid).ends? edge).elim partition fun ends =>
        (partition.addEdge ends.1 ends.2 (index.isRepulsive edge)).2) := by
  simp only [step, EdgeIndex.graph, Array.getElem?_eq_getElem inRange]
  cases valid[edge] with
  | false => rfl
  | true => cases index.ends? edge <;> rfl

theorem step_realizes {partition : Partition index.nodes} {edges : Set Nat} {edge : Nat}
    (realizes : partition.Realizes (index.graph valid) edges)
    (consistent : (index.graph valid).Consistent edges) (inRange : edge < valid.size) :
    ∃ after, step index valid partition edge = .ok after ∧
      after.Realizes (index.graph valid) ((index.graph valid).retain edges edge) := by
  refine ⟨_, step_eq inRange partition, ?_⟩
  cases ends : (index.graph valid).ends? edge with
  | none =>
      rw [SignedGraph.retain_of_ends?_eq_none ends]
      exact realizes
  | some pair => exact realizes.addEdge consistent (SignedGraph.joins_of_ends?_eq ends)

theorem foldlM_step_realizes {partition : Partition index.nodes} {edges : Set Nat}
    {order : List Nat} (realizes : partition.Realizes (index.graph valid) edges)
    (consistent : (index.graph valid).Consistent edges)
    (inRange : ∀ edge ∈ order, edge < valid.size) :
    ∃ after, order.foldlM (step index valid) partition = .ok after ∧
      after.Realizes (index.graph valid) (order.foldl (index.graph valid).retain edges) := by
  induction order generalizing partition edges with
  | nil => exact ⟨partition, rfl, realizes⟩
  | cons edge order ih =>
      rcases step_realizes realizes consistent (inRange edge List.mem_cons_self) with
          ⟨middle, stepped, middleRealizes⟩
      obtain ⟨after, ran, afterRealizes⟩ :=
        ih middleRealizes (SignedGraph.consistent_retain consistent edge)
          fun other member => inRange other (List.mem_cons_of_mem edge member)
      refine ⟨after, ?_, afterRealizes⟩
      rw [List.foldlM_cons, stepped]
      exact ran

/-- A run over edges in range succeeds, and its partition realizes the greedy set of the edges. -/
theorem run_realizes {order : List Nat} (inRange : ∀ edge ∈ order, edge < valid.size) :
    ∃ partition, run index valid order = .ok partition ∧
      partition.Realizes (index.graph valid) ((index.graph valid).greedy order) :=
  foldlM_step_realizes .discrete SignedGraph.consistent_empty inRange

theorem run_append_singleton {order : List Nat} {edge : Nat} {partition : Partition index.nodes}
    (ran : run index valid order = .ok partition) (inRange : edge < valid.size) :
    run index valid (order ++ [edge]) =
      .ok (((index.graph valid).ends? edge).elim partition fun ends =>
        (partition.addEdge ends.1 ends.2 (index.isRepulsive edge)).2) := by
  rw [run, List.foldlM_append, ← run, ran, ← step_eq inRange]
  exact bind_pure (step index valid partition edge)

theorem cluster_eq_labels {stencil : Stencil} {gridShape : List Nat} {order : List Nat}
    {partition : Partition index.nodes} (numbered : EdgeIndex.ofGrid stencil gridShape = .ok index)
    (sized : valid.size = index.count) (ran : run index valid order = .ok partition) :
    cluster order valid stencil gridShape = .ok partition.labels := by
  unfold cluster
  rw [numbered]
  simp only [EdgeIndex.checkCount, if_pos sized, bind, Except.bind, ran]
  rfl

/-- The labels of a greedy clustering are roots, equal exactly where the greedy set links. -/
theorem cluster_eq_ok {stencil : Stencil} {gridShape : List Nat} {order : List Nat}
    (numbered : EdgeIndex.ofGrid stencil gridShape = .ok index)
    (sized : valid.size = index.count) (inRange : ∀ edge ∈ order, edge < index.count) :
    ∃ sets : DisjointSets index.nodes,
      cluster order valid stencil gridShape = .ok (sets.labels.1.map (·.val)) ∧
      ∀ u v, sets.root u = sets.root v ↔
        (index.graph valid).Linked ((index.graph valid).greedy order) u v := by
  rcases @run_realizes index valid order (sized ▸ inRange) with ⟨partition, ran, realizes⟩
  exact ⟨partition.classes, cluster_eq_labels numbered sized ran, realizes.linked⟩

/--
Greedy clustering computes the greedy optimum. Its labels are equal exactly where the greedy set of
the order links two cells, whatever the order repeats; and of an order without repetitions the
greedy set is the lexicographically greatest consistent set of edges: any other one first differs
from it at an edge that it leaves out.
-/
theorem cluster_optimum (stencil : Stencil) (gridShape : List Nat) (index : EdgeIndex)
    (valid : Array Bool) (order : List Nat)
    (numbered : EdgeIndex.ofGrid stencil gridShape = .ok index)
    (sized : valid.size = index.count) (inRange : ∀ edge ∈ order, edge < index.count) :
    ∃ labels, cluster order valid stencil gridShape = .ok labels ∧ labels.size = index.nodes ∧
      (∀ u v : Fin index.nodes, labels[u.val]? = labels[v.val]? ↔
        (index.graph valid).Linked ((index.graph valid).greedy order) u v) ∧
      (index.graph valid).Consistent ((index.graph valid).greedy order) ∧
      (order.Nodup → ∀ edges : Set Nat, (index.graph valid).Consistent edges →
        (∀ edge ∈ edges, edge ∈ order ∧ ((index.graph valid).ends? edge).isSome) →
        edges ≠ (index.graph valid).greedy order →
        ∃ earlier edge later, order = earlier ++ edge :: later ∧
          edge ∈ (index.graph valid).greedy order ∧ edge ∉ edges ∧
          ∀ other ∈ earlier, other ∈ (index.graph valid).greedy order ↔ other ∈ edges) := by
  rcases cluster_eq_ok numbered sized inRange with ⟨sets, clustered, separate⟩
  refine ⟨_, clustered, sets.size_labels, fun u v => (sets.labels_eq_iff u v).trans (separate u v),
    SignedGraph.consistent_greedy order, ?_⟩
  intro distinct edges consistent subset different
  exact SignedGraph.greedy_lexicographic distinct consistent subset different

/-- Four cells in a row; the first repulsive edge comes before all attractive ones. -/
theorem cluster_optimum_row :
    ∃ stencil index, EdgeIndex.ofGrid stencil [4] = .ok index ∧
      #[true, true, true, false, true, true, false, false].size = index.count ∧
      (∀ edge ∈ [4, 0, 2, 1, 5], edge < index.count) ∧
      ∃ labels, cluster [4, 0, 2, 1, 5] #[true, true, true, false, true, true, false, false]
          stencil [4] = .ok labels ∧ labels.size = index.nodes ∧
        ∀ u v : Fin index.nodes, labels[u.val]? = labels[v.val]? ↔
          (index.graph #[true, true, true, false, true, true, false, false]).Linked
            ((index.graph #[true, true, true, false, true, true, false, false]).greedy
              [4, 0, 2, 1, 5]) u v := by
  let stencil : Stencil := ⟨[[1], [2]], 1, 1, by decide, by decide, by decide⟩
  let index : EdgeIndex := ⟨4, #[1, 2], 4⟩
  have numbered : EdgeIndex.ofGrid stencil [4] = .ok index := rfl
  have sized : #[true, true, true, false, true, true, false, false].size = index.count := rfl
  have inRange : ∀ edge ∈ [4, 0, 2, 1, 5], edge < index.count := by decide
  rcases cluster_optimum stencil [4] index _ _ numbered sized inRange with
      ⟨labels, clustered, size, separate, -⟩
  exact ⟨stencil, index, numbered, sized, inRange, labels, clustered, size, separate⟩

end Watershed.Greedy
