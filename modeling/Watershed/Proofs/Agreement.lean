import Watershed.Clustering.Growth
import Watershed.Proofs.Greedy
import Watershed.Proofs.GridEdges
import Watershed.Proofs.Growth
import Watershed.Proofs.Numbering

/-!
# Growth and greedy clustering agree

Growth takes the edges with two different ends in an order of its own, and greedy clustering takes
all edges in the order of their ranks. An edge whose two ends are one node links nothing and
separates nothing, so the greedy set may do without such edges; and the history of growth closes the
cycles of the ranking, because on a cycle that an edge closes all other edges outrank it. The two
partitions are therefore the same, for any weights and any mask.
-/

namespace Watershed

namespace SignedGraph

variable {ν : Type} {graph : SignedGraph ν} {edges more : Set Nat} {a b : ν}

/-- A set and a smaller one differ only by attractive edges that lead back to their start. -/
structure SameBut (graph : SignedGraph ν) (edges more : Set Nat) : Prop where
  subset : edges ⊆ more
  loops : ∀ edge ∈ more, edge ∉ edges → graph.repulsive edge = false ∧ ¬ graph.Spans edge

theorem SameBut.walk (sameBut : graph.SameBut edges more) {count : Nat}
    (walk : graph.Walk more count a b) : graph.Walk edges count a b := by
  have stays : ∀ {edge x y}, edge ∈ more → edge ∉ edges → graph.Joins edge x y → x = y := by
    intro edge x y member absent joins
    by_contra different
    exact (sameBut.loops edge member absent).2 ⟨x, y, different, joins⟩
  induction walk with
  | stay a => exact .stay a
  | @attract _ _ _ _ edge _ member kind joins ih =>
      by_cases inside : edge ∈ edges
      · exact .attract ih inside kind joins
      · exact stays member inside joins ▸ ih
  | @repel _ _ _ _ edge _ member kind joins ih =>
      by_cases inside : edge ∈ edges
      · exact .repel ih inside kind joins
      · exact absurd ((sameBut.loops edge member inside).1.symm.trans kind) (by decide)

theorem SameBut.linked_iff (sameBut : graph.SameBut edges more) :
    graph.Linked edges a b ↔ graph.Linked more a b :=
  ⟨fun linked => linked.mono sameBut.subset, fun linked => sameBut.walk linked⟩

theorem SameBut.retain (sameBut : graph.SameBut edges more) (consistent : graph.Consistent edges)
    (consistentMore : graph.Consistent more) {edge : Nat} (spans : graph.Spans edge) :
    graph.SameBut (graph.retain edges edge) (graph.retain more edge) := by
  rcases spans with ⟨x, y, -, joins⟩
  have alike : graph.Consistent (insert edge edges) ↔ graph.Consistent (insert edge more) :=
    consistent_insert_congr joins consistent consistentMore
      (fun count walk => walk.mono sameBut.subset)
      fun count walk => ⟨count, Nat.le_refl count, sameBut.walk walk⟩
  by_cases stays : graph.Consistent (insert edge edges)
  · rw [retain_of_consistent joins stays, retain_of_consistent joins (alike.1 stays)]
    refine ⟨Set.insert_subset_insert sameBut.subset, fun other member absent => ?_⟩
    rw [Set.mem_insert_iff, not_or] at absent
    exact sameBut.loops other ((Set.mem_insert_iff.1 member).resolve_left absent.1) absent.2
  · rw [retain_of_not_consistent stays, retain_of_not_consistent fun both => stays (alike.2 both)]
    exact sameBut

theorem SameBut.retain_loop (sameBut : graph.SameBut edges more) {edge : Nat}
    (loop : ¬ graph.Spans edge) : graph.SameBut edges (graph.retain more edge) := by
  refine ⟨sameBut.subset.trans (subset_retain edge), fun other member absent => ?_⟩
  rcases mem_retain_iff.1 member with old | ⟨rfl, isEdge, consistent⟩
  · exact sameBut.loops other old absent
  · refine ⟨?_, loop⟩
    rcases Option.isSome_iff_exists.1 isEdge with ⟨⟨x, y⟩, ends⟩
    have same : x = y := by
      by_contra different
      exact loop ⟨x, y, different, .inl ends⟩
    subst same
    by_contra kind
    rw [Bool.not_eq_false] at kind
    exact consistent.not_linked (Set.mem_insert _ _) kind (.inl ends) (.refl x)

open Classical in
/-- Without the edges that lead back to their start the greedy set links the same nodes. -/
theorem sameBut_greedy_filter (order : List Nat) :
    graph.SameBut (graph.greedy (order.filter fun edge => graph.Spans edge))
      (graph.greedy order) := by
  induction order using List.reverseRecOn with
  | nil => exact ⟨subset_rfl, fun edge member absent => absurd member absent⟩
  | append_singleton order edge ih =>
      rw [List.filter_append, greedy_append_singleton]
      by_cases spans : graph.Spans edge
      · rw [List.filter_cons_of_pos (by simpa using spans), List.filter_nil,
          greedy_append_singleton]
        exact ih.retain (consistent_greedy _) (consistent_greedy _) spans
      · rw [List.filter_cons_of_neg (by simpa using spans), List.filter_nil, List.append_nil]
        exact ih.retain_loop spans

end SignedGraph

namespace Growth

variable {edges : RankedEdges}

/-- Edges that were surrounded when they were taken close the cycles of the ranking. -/
theorem closes_of_surrounded {order history : List Nat}
    (sorted : order.Pairwise (Ranking.Outranks edges.priorities))
    (spans : ∀ edge ∈ order, edges.graph.Spans edge)
    (same : ∀ edge, edge ∈ order ↔ edge ∈ history)
    (surrounded : ∀ edge ∈ history, Surrounded edges edge (SignedGraph.before history edge)) :
    edges.graph.Closes order history := by
  intro last member edge earlier a b u v lastJoins joins toU fromV
  have below : SignedGraph.before order last ⊆ better edges last := fun other precedes =>
    ⟨spans other precedes.1, Ranking.outranks_of_idxOf_lt sorted member precedes.2⟩
  rcases surrounded last ((same last).1 member) with ⟨s, t, ends, around⟩
  rcases lastJoins.same_ends ends with ⟨rfl, rfl⟩ | ⟨rfl, rfl⟩
  · exact around u (toU.mono below) edge (below earlier) v joins
  · exact around v (fromV.symm.mono below) edge (below earlier) u joins.symm

open Classical in
theorem root_run_eq_iff (edges : RankedEdges) {order : List Nat} (distinct : order.Nodup)
    (sorted : order.Pairwise (Ranking.Outranks edges.priorities))
    (complete : ∀ edge, edges.graph.Spans edge → edge ∈ order) (u v : Fin edges.index.nodes) :
    (run edges).partition.root u = (run edges).partition.root v ↔
      edges.graph.Linked (edges.graph.greedy order) u v := by
  rcases run_grown edges with ⟨history, distinctHistory, all, surrounded, realizes⟩
  have spans : ∀ edge ∈ order.filter fun edge => edges.graph.Spans edge,
      edges.graph.Spans edge := by
    intro edge member
    simpa using (List.mem_filter.1 member).2
  have same : ∀ edge, edge ∈ order.filter (fun edge => edges.graph.Spans edge) ↔
      edge ∈ history := by
    intro edge
    rw [all]
    constructor
    · exact spans edge
    · intro spanning
      exact List.mem_filter.2 ⟨complete edge spanning, by simpa using spanning⟩
  have closes := closes_of_surrounded (sorted.filter _) spans same surrounded
  rw [realizes.linked, ← closes.greedy_eq (distinct.filter _) distinctHistory same]
  exact (SignedGraph.sameBut_greedy_filter order).linked_iff

variable {index : EdgeIndex} {stencil : Stencil} {gridShape : List Nat}
  {weights : Tensor Binary32} {valid : Tensor Bool}

/-- The labels of a growth are roots, equal exactly where the greedy set of the ranking links. -/
theorem cluster_eq_ok (numbered : EdgeIndex.ofGrid stencil gridShape = .ok index)
    (weightShape : weights.shape = stencil.edgeShape gridShape)
    (validShape : valid.shape = stencil.edgeShape gridShape) :
    ∃ sets : DisjointSets index.nodes,
      cluster weights.data valid.data stencil gridShape = .ok (sets.labels.1.map (·.val)) ∧
      ∀ u v, sets.root u = sets.root v ↔
        (index.graph valid.data).Linked
          ((index.graph valid.data).greedy (Ranking.ranked weights valid)) u v := by
  have weightCount : weights.data.size = index.count := EdgeIndex.size_eq_count numbered weightShape
  have validCount : valid.data.size = index.count := EdgeIndex.size_eq_count numbered validShape
  let edges : RankedEdges := ⟨index, weights.data.map Binary32.priority, valid.data⟩
  have complete : ∀ edge, edges.graph.Spans edge → edge ∈ Ranking.ranked weights valid := by
    rintro edge ⟨a, b, -, joins⟩
    refine Ranking.mem_ranked.2 ⟨?_, (EdgeIndex.joins_graph_iff.1 joins).1⟩
    rw [Tensor.size, weightCount]
    exact EdgeIndex.lt_count_of_joins joins
  exact ⟨(run edges).partition.classes, cluster_eq_labels numbered weightCount validCount,
    root_run_eq_iff edges Ranking.nodup_ranked Ranking.pairwise_ranked complete⟩

end Growth

namespace Ranking

variable {index : EdgeIndex} {weights : Tensor Binary32} {valid : Tensor Bool}

theorem lt_count_of_mem {stencil : Stencil} {gridShape : List Nat}
    (numbered : EdgeIndex.ofGrid stencil gridShape = .ok index)
    (weightShape : weights.shape = stencil.edgeShape gridShape) :
    ∀ edge ∈ ranked weights valid ++ dropped weights valid, edge < index.count := by
  intro edge member
  rw [← EdgeIndex.size_eq_count numbered weightShape]
  rcases List.mem_append.1 member with isRanked | isDropped
  · exact (mem_ranked.1 isRanked).1
  · exact (mem_dropped.1 isDropped).1

theorem ends?_of_mem_dropped :
    ∀ edge ∈ dropped weights valid, (index.graph valid.data).ends? edge = none :=
  fun _ member => EdgeIndex.ends?_graph_of_not_valid (mem_dropped.1 member).2

end Ranking

namespace Greedy

variable {index : EdgeIndex} {stencil : Stencil} {gridShape : List Nat}
  {weights : Tensor Binary32} {valid : Tensor Bool}

theorem cluster_ranking_eq_ok (numbered : EdgeIndex.ofGrid stencil gridShape = .ok index)
    (weightShape : weights.shape = stencil.edgeShape gridShape)
    (validShape : valid.shape = stencil.edgeShape gridShape) :
    ∃ sets : DisjointSets index.nodes,
      cluster (Ranking.ranked weights valid ++ Ranking.dropped weights valid) valid.data stencil
        gridShape = .ok (sets.labels.1.map (·.val)) ∧
      ∀ u v, sets.root u = sets.root v ↔
        (index.graph valid.data).Linked
          ((index.graph valid.data).greedy (Ranking.ranked weights valid)) u v := by
  have validCount : valid.data.size = index.count := EdgeIndex.size_eq_count numbered validShape
  rcases cluster_eq_ok numbered validCount (Ranking.lt_count_of_mem numbered weightShape) with
      ⟨sets, clustered, separate⟩
  refine ⟨sets, clustered, fun u v => ?_⟩
  rw [separate, SignedGraph.greedy_append_of_no_ends Ranking.ends?_of_mem_dropped]

end Greedy

/--
Growth and greedy clustering of the ranking induce the same partition. They fail together, when the
edges of the grid cannot be numbered; otherwise their labels repeat themselves at the same cells,
and renumbered consecutively they are equal.
-/
theorem Growth.cluster_agrees (stencil : Stencil) (gridShape : List Nat)
    (weights : Tensor Binary32) (valid : Tensor Bool)
    (weightShape : weights.shape = stencil.edgeShape gridShape)
    (validShape : valid.shape = stencil.edgeShape gridShape) :
    ∃ ranking, Ranking.ofWeights weights valid = .ok ranking ∧
      ((∃ error, EdgeIndex.ofGrid stencil gridShape = .error error ∧
          cluster weights.data valid.data stencil gridShape = .error error ∧
          Greedy.cluster ranking.order valid.data stencil gridShape = .error error) ∨
        ∃ index grown kept, EdgeIndex.ofGrid stencil gridShape = .ok index ∧
          cluster weights.data valid.data stencil gridShape = .ok grown ∧
          Greedy.cluster ranking.order valid.data stencil gridShape = .ok kept ∧
          grown.size = index.nodes ∧ kept.size = index.nodes ∧
          (∀ u v : Fin index.nodes,
            grown[u.val]? = grown[v.val]? ↔ kept[u.val]? = kept[v.val]?) ∧
          Numbering.ofLabels false grown = Numbering.ofLabels false kept) := by
  refine ⟨_, Ranking.ofWeights_eq_ok (weightShape.trans validShape.symm), ?_⟩
  cases numbered : EdgeIndex.ofGrid stencil gridShape with
  | error error =>
      refine .inl ⟨error, rfl, ?_, ?_⟩
      · unfold cluster
        rw [numbered]
        rfl
      · unfold Greedy.cluster
        rw [numbered]
        rfl
  | ok index =>
      rcases cluster_eq_ok numbered weightShape validShape with
          ⟨grown, grew, grownSeparate⟩
      rcases Greedy.cluster_ranking_eq_ok numbered weightShape validShape with
          ⟨kept, clustered, keptSeparate⟩
      have pattern := fun u v => (grown.labels_eq_iff u v).trans
        (((grownSeparate u v).trans (keptSeparate u v).symm).trans (kept.labels_eq_iff u v).symm)
      refine .inr ⟨index, _, _, rfl, grew, clustered, grown.size_labels, kept.size_labels, pattern,
        ?_⟩
      refine Numbering.ofLabels_eq_of_same_pattern (grown.size_labels.trans kept.size_labels.symm)
        ?_ (by simp)
      intro i j iBound jBound
      rw [grown.size_labels] at iBound jBound
      exact pattern ⟨i, iBound⟩ ⟨j, jBound⟩

/-- Four cells in a row with ties among the weights; growth does not take the edges by weight. -/
theorem Growth.cluster_agrees_row :
    ∃ stencil weights valid, weights.shape = Stencil.edgeShape stencil [4] ∧
      valid.shape = Stencil.edgeShape stencil [4] ∧
      ∃ ranking, Ranking.ofWeights weights valid = .ok ranking ∧
        ∃ index grown kept, EdgeIndex.ofGrid stencil [4] = .ok index ∧
          cluster weights.data valid.data stencil [4] = .ok grown ∧
          Greedy.cluster ranking.order valid.data stencil [4] = .ok kept ∧
          ∀ u v : Fin index.nodes, grown[u.val]? = grown[v.val]? ↔ kept[u.val]? = kept[v.val]? := by
  let stencil : Stencil := ⟨[[1], [2]], 1, 1, by decide, by decide, by decide⟩
  let weights : Tensor Binary32 :=
    ⟨[2, 4], #[.zero, .one, .one, .zero, .one, .zero, .zero, .zero], by decide⟩
  let valid : Tensor Bool :=
    ⟨[2, 4], #[true, true, true, false, true, true, false, false], by decide⟩
  have numbered : EdgeIndex.ofGrid stencil [4] = .ok ⟨4, #[1, 2], 4⟩ := rfl
  obtain ⟨ranking, ranked, ⟨error, failed, -⟩ | ⟨index, grown, kept, known, grew, clustered, -, -,
    pattern, -⟩⟩ := cluster_agrees stencil [4] weights valid rfl rfl
  · exact absurd (numbered.symm.trans failed) (by simp)
  · exact ⟨stencil, weights, valid, rfl, rfl, ranking, ranked, index, grown, kept, known, grew,
      clustered, pattern⟩

end Watershed
