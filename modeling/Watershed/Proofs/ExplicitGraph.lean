import Watershed.Clustering.EdgeList
import Watershed.Proofs.Agreement

/-!
# A grid as an explicit graph

The valid edges of a grid can be written down one by one, as two lists of node pairs with their
weights. Clustering these lists gives the labels of the greedy clustering of the grid, with the same
nodes standing for the classes.

The two sort different things: one of them the numbers of all edges, of which the invalid ones come
last and those without two ends are passed over, the other one positions in a list that has the
attractive edges first. Both sorts are stable and attractive edges have lower numbers than repulsive
ones, so the same edges are taken into account in the same order, whatever priorities are equal.
-/

namespace Watershed

namespace EdgeIndex

variable (index : EdgeIndex) (valid : Array Bool)

/-- The valid edges of one kind that have two ends, by ascending number. -/
def listed (repulsive : Bool) : List Nat :=
  (List.range index.count).filter fun edge =>
    valid[edge]? = some true ∧ (index.ends? edge).isSome ∧ index.isRepulsive edge = repulsive

/-- The two nodes of an edge. -/
def pair? (edge : Nat) : Option (Nat × Nat) :=
  (index.ends? edge).map fun ends => (ends.1.val, ends.2.val)

/-- The nodes between which the listed edges of one kind lead. -/
def listedPairs (repulsive : Bool) : List (Nat × Nat) :=
  (index.listed valid repulsive).filterMap index.pair?

/-- The weights of the listed edges of one kind. -/
def listedWeights (weights : Array Binary32) (repulsive : Bool) : List Binary32 :=
  (index.listed valid repulsive).filterMap (weights[·]?)

/-- Whether an edge has two ends and is valid. -/
def hasEnds (edge : Nat) : Bool :=
  ((index.graph valid).ends? edge).isSome

variable {index valid} {edge : Nat} {repulsive : Bool}

theorem exists_ends (isEdge : index.hasEnds valid edge = true) :
    ∃ ends, (index.graph valid).ends? edge = some ends ∧ index.ends? edge = some ends := by
  rcases Option.isSome_iff_exists.1 isEdge with ⟨ends, found⟩
  exact ⟨ends, found, (ends?_graph_eq_some_iff.1 found).2⟩

theorem mem_listed : edge ∈ index.listed valid repulsive ↔
    index.hasEnds valid edge = true ∧ index.isRepulsive edge = repulsive := by
  simp only [listed, hasEnds, List.mem_filter, List.mem_range, decide_eq_true_eq]
  constructor
  · rintro ⟨-, isValid, isEdge, kind⟩
    rw [ends?_graph_of_valid isValid]
    exact ⟨isEdge, kind⟩
  · rintro ⟨isEdge, kind⟩
    rcases exists_ends isEdge with ⟨ends, found, known⟩
    have isValid := (ends?_graph_eq_some_iff.1 found).1
    exact ⟨lt_count_of_ends?_eq known, isValid, by simp [known], kind⟩

theorem length_listedWeights {weights : Array Binary32} (sized : weights.size = index.count) :
    (index.listedWeights valid weights repulsive).length =
      (index.listedPairs valid repulsive).length := by
  have pairs : (index.listedPairs valid repulsive).length =
      (index.listed valid repulsive).length := by
    apply List.filterMap_length_eq_length.2
    intro edge member
    rcases exists_ends (mem_listed.1 member).1 with ⟨ends, -, known⟩
    simp [pair?, known]
  have weighted : (index.listedWeights valid weights repulsive).length =
      (index.listed valid repulsive).length := by
    apply List.filterMap_length_eq_length.2
    intro edge member
    rcases exists_ends (mem_listed.1 member).1 with ⟨ends, -, known⟩
    have inRange := lt_count_of_ends?_eq known
    simp [sized, inRange]
  exact weighted.trans pairs.symm

/-- Attractive edges have lower numbers, so the two lists together are ascending. -/
theorem pairwise_listed :
    (index.listed valid false ++ index.listed valid true).Pairwise (· < ·) := by
  apply List.pairwise_append.2
  refine ⟨List.pairwise_lt_range.filter _, List.pairwise_lt_range.filter _, ?_⟩
  intro edge attracts other repels
  have below := (mem_listed.1 attracts).2
  have above := (mem_listed.1 repels).2
  simp only [isRepulsive, decide_eq_false_iff_not, decide_eq_true_eq] at below above
  omega

end EdgeIndex

namespace EdgeList

variable {index : EdgeIndex} {valid : Array Bool}

/-- The edge of a number, as an edge of an explicit graph. -/
def Edge.ofNumber (priorities : Array Nat) (edge : {edge // index.hasEnds valid edge = true}) :
    Edge index.nodes where
  source := (((index.graph valid).ends? edge).get edge.2).1
  target := (((index.graph valid).ends? edge).get edge.2).2
  repulsive := index.isRepulsive edge
  priority := Ranking.priority priorities edge


/-- The edge of a number, when there is one. -/
theorem Edge.between?_eq {weights : Array Binary32}
    (edge : {edge // index.hasEnds valid edge = true}) {ends : Fin index.nodes × Fin index.nodes}
    {weight : Binary32} (known : index.ends? edge = some ends)
    (weighs : weights[edge.val]? = some weight) :
    Edge.between? (index.isRepulsive edge) (ends.1.val, ends.2.val) weight =
      some (Edge.ofNumber (weights.map Binary32.priority) edge) := by
  have found : (index.graph valid).ends? edge = some ends := by
    rcases EdgeIndex.exists_ends edge.2 with ⟨others, found, same⟩
    rw [found, ← same, known]
  simp [between?, ofNumber, found, Ranking.priority, weighs]

/-- Node pairs and weights of numbered edges of one kind describe these edges. -/
theorem edges?_map {weights : Array Binary32} (sized : weights.size = index.count)
    {repulsive : Bool}
    {numbers : List {edge // index.hasEnds valid edge = true}}
    (kind : ∀ edge ∈ numbers, index.isRepulsive edge = repulsive) :
    edges? index.nodes repulsive ((numbers.map (·.val)).filterMap index.pair?)
        ((numbers.map (·.val)).filterMap (weights[·]?)) =
      some (numbers.map (Edge.ofNumber (weights.map Binary32.priority))) := by
  unfold edges?
  induction numbers with
  | nil => rfl
  | cons edge numbers ih =>
      have others := ih fun other member => kind other (List.mem_cons_of_mem edge member)
      rcases EdgeIndex.exists_ends edge.2 with ⟨ends, -, known⟩
      have pair : index.pair? edge = some (ends.1.val, ends.2.val) := by
        simp [EdgeIndex.pair?, known]
      have inRange : edge.val < weights.size := by
        rw [sized]
        exact EdgeIndex.lt_count_of_ends?_eq known
      have weighs := Array.getElem?_eq_getElem inRange
      have here := Edge.between?_eq edge known weighs
      rw [kind edge List.mem_cons_self] at here
      rw [List.map_cons, List.filterMap_cons_some pair, List.filterMap_cons_some weighs,
        List.zip_cons_cons, List.mapM_cons, others]
      dsimp only
      rw [here]
      rfl

theorem edges?_listed {weights : Array Binary32} (sized : weights.size = index.count)
    (repulsive : Bool) : ∃ numbers : List {edge // index.hasEnds valid edge = true},
      numbers.map (·.val) = index.listed valid repulsive ∧
        edges? index.nodes repulsive (index.listedPairs valid repulsive)
            (index.listedWeights valid weights repulsive) =
          some (numbers.map (Edge.ofNumber (weights.map Binary32.priority))) := by
  have haveEnds : ∀ edge ∈ index.listed valid repulsive, index.hasEnds valid edge = true :=
    fun edge member => (EdgeIndex.mem_listed.1 member).1
  have same := List.attachWith_map_subtype_val haveEnds
  refine ⟨_, same, ?_⟩
  have kind : ∀ edge ∈ (index.listed valid repulsive).attachWith _ haveEnds,
      index.isRepulsive edge = repulsive := by
    intro edge member
    exact (EdgeIndex.mem_listed.1 ((List.mem_attachWith _ _).1 member)).2
  have described := edges?_map sized kind
  rw [same] at described
  exact described

/-- Sorting the edges by priority sorts their numbers. -/
theorem byPriority_map (priorities : Array Nat)
    (numbers : List {edge // index.hasEnds valid edge = true}) :
    ∃ sorted : List {edge // index.hasEnds valid edge = true},
      sorted.map (·.val) = Ranking.byPriority priorities (numbers.map (·.val)) ∧
        sorted.map (Edge.ofNumber priorities) =
          byPriority (numbers.map (Edge.ofNumber priorities)) := by
  refine ⟨numbers.mergeSort fun left right =>
    Ranking.priority priorities right ≤ Ranking.priority priorities left, ?_, ?_⟩
  · exact List.map_mergeSort fun _ _ _ _ => rfl
  · exact List.map_mergeSort fun _ _ _ _ => rfl

/-- The edges of the two lists are taken in the order in which the ranking has them. -/
theorem order_eq {weights : Array Binary32} (sized : weights.size = index.count) :
    ∃ sorted : List {edge // index.hasEnds valid edge = true},
      sorted.map (·.val) = Ranking.byPriority (weights.map Binary32.priority)
          (index.listed valid false ++ index.listed valid true) ∧
        order index.nodes (index.listedPairs valid false) (index.listedWeights valid weights false)
            (index.listedPairs valid true) (index.listedWeights valid weights true) =
          .ok (sorted.map (Edge.ofNumber (weights.map Binary32.priority))) := by
  rcases @edges?_listed index valid weights sized false with ⟨joining, joins, isJoining⟩
  rcases @edges?_listed index valid weights sized true with ⟨separating, separates, isSeparating⟩
  rcases byPriority_map (weights.map Binary32.priority) (joining ++ separating) with
      ⟨sorted, numbers, edges⟩
  rw [List.map_append, joins, separates] at numbers
  rw [List.map_append] at edges
  refine ⟨sorted, numbers, ?_⟩
  unfold order
  rw [isJoining, isSeparating, EdgeIndex.length_listedWeights sized,
    EdgeIndex.length_listedWeights sized, edges]
  simp

end EdgeList

namespace Greedy

variable {index : EdgeIndex} {valid : Array Bool} {order : List Nat}

/-- What an edge does to a partition; without two ends it does nothing. -/
def taken (index : EdgeIndex) (valid : Array Bool) (partition : Partition index.nodes)
    (edge : Nat) : Partition index.nodes :=
  ((index.graph valid).ends? edge).elim partition fun ends =>
    (partition.addEdge ends.1 ends.2 (index.isRepulsive edge)).2

theorem run_eq_ok (inRange : ∀ edge ∈ order, edge < valid.size) :
    run index valid order = .ok (order.foldl (taken index valid) (.discrete index.nodes)) := by
  unfold run
  generalize Partition.discrete index.nodes = partition
  induction order generalizing partition with
  | nil => rfl
  | cons edge order ih =>
      rw [List.foldlM_cons, step_eq (inRange edge List.mem_cons_self)]
      exact ih (fun other member => inRange other (List.mem_cons_of_mem edge member)) _

/-- A run passes over the edges that are not valid or have no two ends. -/
theorem foldl_taken_filter (order : List Nat) (partition : Partition index.nodes) :
    (order.filter (index.hasEnds valid)).foldl (taken index valid) partition =
      order.foldl (taken index valid) partition := by
  rw [List.foldl_filter]
  congr 1
  funext partition edge
  unfold taken EdgeIndex.hasEnds
  cases (index.graph valid).ends? edge <;> rfl

end Greedy

/-- The numbers of the ranking that have two ends are those of the two lists, sorted by priority. -/
theorem Ranking.filter_ranked_eq {index : EdgeIndex} {weights : Tensor Binary32}
    {valid : Tensor Bool} (sized : weights.data.size = index.count) :
    (ranked weights valid).filter (index.hasEnds valid.data) =
      byPriority (weights.data.map Binary32.priority)
        (index.listed valid.data false ++ index.listed valid.data true) := by
  apply eq_of_pairwise_outranks (pairwise_ranked.filter _)
    (pairwise_byPriority EdgeIndex.pairwise_listed)
  intro edge
  simp only [List.mem_filter, mem_byPriority, List.mem_append, EdgeIndex.mem_listed, mem_ranked]
  constructor
  · rintro ⟨-, isEdge⟩
    cases kind : index.isRepulsive edge <;> simp [isEdge]
  · intro either
    have isEdge : index.hasEnds valid.data edge = true := by
      rcases either with attracts | repels
      · exact attracts.1
      · exact repels.1
    rcases EdgeIndex.exists_ends isEdge with ⟨ends, found, known⟩
    refine ⟨⟨?_, (EdgeIndex.ends?_graph_eq_some_iff.1 found).1⟩, isEdge⟩
    rw [Tensor.size, sized]
    exact EdgeIndex.lt_count_of_ends?_eq known

namespace EdgeList

variable {index : EdgeIndex} {valid : Array Bool}

/-- Taking the edges of some numbers into account is the same in both kinds of graph. -/
theorem run_map_ofNumber (priorities : Array Nat)
    (numbers : List {edge // index.hasEnds valid edge = true}) :
    run (numbers.map (Edge.ofNumber priorities)) =
      (numbers.map (·.val)).foldl (Greedy.taken index valid) (.discrete index.nodes) := by
  unfold run
  rw [List.foldl_map, List.foldl_map]
  congr 1
  funext partition edge
  rcases EdgeIndex.exists_ends edge.2 with ⟨ends, found, -⟩
  simp [Edge.ofNumber, Greedy.taken, found]

/--
Clustering a grid is clustering its valid edges one by one. The attractive edges and the repulsive
ones, listed by ascending number with their two nodes and their weights, get exactly the labels that
greedy clustering gives to the ranking of the grid, whichever weights are equal or not numbers.
-/
theorem cluster_eq_greedy (stencil : Stencil) (gridShape : List Nat) (index : EdgeIndex)
    (weights : Tensor Binary32) (valid : Tensor Bool)
    (numbered : EdgeIndex.ofGrid stencil gridShape = .ok index)
    (weightShape : weights.shape = stencil.edgeShape gridShape)
    (validShape : valid.shape = stencil.edgeShape gridShape) :
    ∃ ranking labels, Ranking.ofWeights weights valid = .ok ranking ∧
      Greedy.cluster ranking.order valid.data stencil gridShape = .ok labels ∧
      cluster index.nodes
        (index.listedPairs valid.data false) (index.listedWeights valid.data weights.data false)
        (index.listedPairs valid.data true) (index.listedWeights valid.data weights.data true) =
          .ok labels := by
  have sized : weights.data.size = index.count := EdgeIndex.size_eq_count numbered weightShape
  have validSized : valid.data.size = index.count := EdgeIndex.size_eq_count numbered validShape
  have inRange := @Ranking.lt_count_of_mem index weights valid _ _ numbered weightShape
  have ran := @Greedy.run_eq_ok index valid.data _ (validSized ▸ inRange)
  rcases @order_eq index valid.data _ sized with ⟨sorted, numbers, listed⟩
  have passedOver : (Ranking.dropped weights valid).filter (index.hasEnds valid.data) = [] := by
    apply List.filter_eq_nil_iff.2
    intro edge isDropped
    simp [EdgeIndex.hasEnds, Ranking.ends?_of_mem_dropped edge isDropped]
  -- both runs come down to the same list of edges that have two ends
  have same : run (sorted.map (Edge.ofNumber (weights.data.map Binary32.priority))) =
      (Ranking.ranked weights valid ++ Ranking.dropped weights valid).foldl
        (Greedy.taken index valid.data) (.discrete index.nodes) := by
    have passes := @Greedy.foldl_taken_filter index valid.data
      (Ranking.ranked weights valid ++ Ranking.dropped weights valid) (.discrete index.nodes)
    rw [List.filter_append, passedOver, List.append_nil] at passes
    rw [run_map_ofNumber, numbers, ← Ranking.filter_ranked_eq sized, passes]
  refine ⟨_, _, Ranking.ofWeights_eq_ok (weightShape.trans validShape.symm),
    Greedy.cluster_eq_labels numbered validSized ran, ?_⟩
  unfold cluster
  rw [listed, ← same]
  rfl

/--
Four cells in a row. All weights are zeros of either sign, so the attractive edges come first, and
they leave no cells for the repulsive ones to separate.
-/
theorem cluster_eq_greedy_row :
    ∃ stencil index, ∃ (weights : Tensor Binary32) (valid : Tensor Bool) (labels : Array Nat),
      EdgeIndex.ofGrid stencil [4] = .ok index ∧
      weights.shape = stencil.edgeShape [4] ∧ valid.shape = stencil.edgeShape [4] ∧
      index.listedPairs valid.data false = [(0, 1), (1, 2), (2, 3)] ∧
      index.listedPairs valid.data true = [(0, 2), (1, 3)] ∧
      ∃ ranking, Ranking.ofWeights weights valid = .ok ranking ∧
        Greedy.cluster ranking.order valid.data stencil [4] = .ok labels ∧
        cluster index.nodes
          (index.listedPairs valid.data false) (index.listedWeights valid.data weights.data false)
          (index.listedPairs valid.data true) (index.listedWeights valid.data weights.data true) =
            .ok labels := by
  let stencil : Stencil := ⟨[[1], [2]], 1, 1, by decide, by decide, by decide⟩
  let index : EdgeIndex := ⟨4, #[1, 2], 4⟩
  let weights : Tensor Binary32 :=
    ⟨[2, 4], #[⟨0x80000000⟩, .zero, ⟨0x80000000⟩, .one, .zero, .zero, .one, .one], by decide⟩
  let valid : Tensor Bool := ⟨[2, 4], #[true, true, true, true, true, true, true, false], by decide⟩
  have numbered : EdgeIndex.ofGrid stencil [4] = .ok index := rfl
  rcases cluster_eq_greedy stencil [4] index weights valid numbered rfl rfl with
      ⟨ranking, labels, ranked, clustered, listed⟩
  exact ⟨stencil, index, weights, valid, labels, numbered, rfl, rfl, by decide, by decide, ranking,
    ranked, clustered, listed⟩

end EdgeList

end Watershed
