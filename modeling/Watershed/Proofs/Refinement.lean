import Watershed.Proofs.Divisive
import Watershed.Proofs.Greedy

/-!
# Divisive clustering refines greedy clustering

On the same order the two runs drift apart at the first cut: from then on the classes of the
divisive run are coarser, and an exclusion can be missing there because its two classes have been
joined. What an edge meets can still be compared. The greedy run has kept some of the edges that
came before, and the divisive run has let all of them in, so whatever is linked or opposed in the
greedy run is so in the divisive one. An edge that the divisive run takes into its forest is
therefore one that the greedy run joins two classes for.
-/

namespace Watershed

namespace Greedy

variable {index : EdgeIndex} {valid : Array Bool} {order : List Nat} {edge : Nat}

/-- An edge of the forest joins two classes when the greedy run comes to it. -/
theorem joined_of_mem_forest (inRange : ∀ other ∈ order, other < valid.size)
    (planted : edge ∈ (index.graph valid).forest order) :
    ∃ earlier later partition source target, order = earlier ++ edge :: later ∧
      run index valid earlier = .ok partition ∧ valid[edge]? = some true ∧
      index.ends? edge = some (source, target) ∧
      (partition.addEdge source target (index.isRepulsive edge)).1 = .joined := by
  rcases planted with ⟨earlier, later, rfl, plants⟩
  have inRangeBefore : ∀ other ∈ earlier, other < valid.size := fun other member =>
    inRange other (List.mem_append_left _ member)
  rcases @run_realizes index valid earlier inRangeBefore with ⟨partition, ran, realizes⟩
  rcases plants.anti (SignedGraph.greedy_subset_listed earlier) with
      ⟨kind, source, target, ends, unlinked, unopposed⟩
  rcases EdgeIndex.ends?_graph_eq_some_iff.1 ends with ⟨isValid, known⟩
  refine ⟨earlier, later, partition, source, target, rfl, ran, isValid, known, ?_⟩
  exact (realizes.addEdge_fst_eq_joined_iff source target _).2 ⟨kind, unlinked, unopposed⟩

end Greedy

namespace SignedGraph

variable {ν : Type} {graph : SignedGraph ν} {order : List Nat} {a b : ν}

/-- Without repulsive edges the forest and the greedy set link the same nodes. -/
theorem linked_forest_iff_linked_greedy
    (silent : ∀ edge ∈ order, graph.repulsive edge = true → graph.ends? edge = none) :
    graph.Linked (graph.forest order) a b ↔ graph.Linked (graph.greedy order) a b := by
  constructor
  · exact fun linked => linked.mono (forest_subset_greedy order)
  · intro linked
    apply linked.induction (graph.Linked (graph.forest order) a) (.refl a)
    intro x y edge _ toX kept kind joins
    rcases List.append_of_mem (greedy_subset_listed order kept) with ⟨earlier, later, rfl⟩
    -- nothing is opposed, so what the edge joins is linked by the forest of the edges up to it
    have unopposed : ∀ c d, ¬ graph.Opposed (listed earlier) c d := by
      intro c d opposed
      rcases opposed_iff.1 opposed with ⟨other, member, otherKind, e, f, ends, -⟩
      have isEdge := isSome_ends?_iff_joins.2 ⟨e, f, ends⟩
      rw [silent other (List.mem_append_left _ member) otherKind] at isEdge
      exact absurd isEdge (by simp)
    exact toX.trans (linked_forest_of_unopposed unopposed kind joins)

end SignedGraph

/--
The divisive segmentation refines the greedy one. Every edge that the divisive run records in its
forest is valid and attractive, and the greedy run on the same input joins two classes for it; so
cells with one divisive label have one greedy label. If no repulsive edge of the order is valid, the
two partitions are equal.
-/
theorem Divisive.cluster_refines_greedy (stencil : Stencil) (gridShape : List Nat)
    (index : EdgeIndex) (valid : Array Bool) (order : List Nat)
    (numbered : EdgeIndex.ofGrid stencil gridShape = .ok index)
    (sized : valid.size = index.count) (inRange : ∀ edge ∈ order, edge < index.count) :
    ∃ progress divided kept, run index valid order (start index) = .ok progress ∧
      cluster order valid stencil gridShape = .ok divided ∧
      Greedy.cluster order valid stencil gridShape = .ok kept ∧
      divided.size = index.nodes ∧ kept.size = index.nodes ∧
      (∀ edge, progress.forest[edge]? = some true → index.isRepulsive edge = false ∧
        ∃ earlier later partition source target, order = earlier ++ edge :: later ∧
          Greedy.run index valid earlier = .ok partition ∧ valid[edge]? = some true ∧
          index.ends? edge = some (source, target) ∧
          (partition.addEdge source target (index.isRepulsive edge)).1 = .joined) ∧
      (∀ u v : Fin index.nodes, divided[u.val]? = divided[v.val]? →
        kept[u.val]? = kept[v.val]?) ∧
      ((∀ edge ∈ order, index.isRepulsive edge = true → valid[edge]? ≠ some true) →
        ∀ u v : Fin index.nodes,
          divided[u.val]? = divided[v.val]? ↔ kept[u.val]? = kept[v.val]?) := by
  rcases cluster_eq_ok numbered sized inRange with ⟨divided, divides, dividedSeparate⟩
  rcases Greedy.cluster_eq_ok numbered sized inRange with ⟨kept, keeps, keptSeparate⟩
  rcases run_marks (Divided.start index (index.graph valid)) (sized ▸ inRange) with
      ⟨progress, ran, -, marks⟩
  refine ⟨progress, _, _, ran, divides, keeps, divided.size_labels, kept.size_labels, ?_, ?_, ?_⟩
  · intro edge marked
    have planted := (marks edge).1 marked
    refine ⟨?_, Greedy.joined_of_mem_forest (sized ▸ inRange) planted⟩
    rcases planted with ⟨-, -, -, kind, -⟩
    exact kind
  · intro u v same
    rw [divided.labels_eq_iff, dividedSeparate] at same
    rw [kept.labels_eq_iff, keptSeparate]
    exact same.mono (SignedGraph.forest_subset_greedy order)
  · intro silent u v
    rw [divided.labels_eq_iff, kept.labels_eq_iff, dividedSeparate, keptSeparate]
    refine SignedGraph.linked_forest_iff_linked_greedy fun edge member kind => ?_
    exact EdgeIndex.ends?_graph_of_not_valid (silent edge member kind)

/--
Three cells in a row; the cut of the first two separates the last one from both in one run only.
-/
theorem Divisive.cluster_refines_greedy_row :
    ∃ stencil index, EdgeIndex.ofGrid stencil [3] = .ok index ∧
      (Array.replicate 9 true).size = index.count ∧
      (∀ edge ∈ [3, 0, 6, 1], edge < index.count) ∧
      ∃ divided kept, cluster [3, 0, 6, 1] (Array.replicate 9 true) stencil [3] = .ok divided ∧
        Greedy.cluster [3, 0, 6, 1] (Array.replicate 9 true) stencil [3] = .ok kept ∧
        divided = #[0, 1, 2] ∧ kept = #[0, 1, 1] ∧
        ∀ u v : Fin index.nodes, divided[u.val]? = divided[v.val]? →
          kept[u.val]? = kept[v.val]? := by
  let stencil : Stencil := ⟨[[1], [1], [2]], 1, 1, by decide, by decide, by decide⟩
  let index : EdgeIndex := ⟨3, #[1, 1, 2], 3⟩
  have numbered : EdgeIndex.ofGrid stencil [3] = .ok index := rfl
  have sized : (Array.replicate 9 true).size = index.count := rfl
  have inRange : ∀ edge ∈ [3, 0, 6, 1], edge < index.count := by decide
  rcases cluster_refines_greedy stencil [3] index _ _ numbered sized inRange with
      ⟨-, divided, kept, -, divides, keeps, -, -, -, refines, -⟩
  have finer : cluster [3, 0, 6, 1] (Array.replicate 9 true) stencil [3] = .ok #[0, 1, 2] := by
    decide +kernel
  have coarser : Greedy.cluster [3, 0, 6, 1] (Array.replicate 9 true) stencil [3] =
      .ok #[0, 1, 1] := by
    decide +kernel
  exact ⟨stencil, index, numbered, sized, inRange, divided, kept, divides, keeps,
    Except.ok.inj (divides.symm.trans finer), Except.ok.inj (keeps.symm.trans coarser), refines⟩

end Watershed
