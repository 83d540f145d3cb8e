import Watershed.Proofs.Agreement
import Watershed.Proofs.Divisive
import Watershed.Proofs.GridEdges
import Watershed.Segmentation.Basic

/-!
# What a segmentation computes

The three algorithms are read as one: each of them chooses a set of edges from the ranked valid
ones, the greedy set or the forest, and labels two cells alike when this set links them. A
segmentation fails exactly when its request for a mask of valid edges cannot be met. Otherwise it
succeeds, and `Segmentation.Run` names what it makes on the way.
-/

namespace Watershed

/-- The set of edges that an algorithm chooses from an order. -/
noncomputable def SignedGraph.chosen {ν : Type} (graph : SignedGraph ν) (algorithm : Algorithm)
    (order : List Nat) : Set Nat :=
  match algorithm with
  | .kruskal => graph.greedy order
  | .prim => graph.greedy order
  | .divisive => graph.forest order

theorem SignedGraph.chosen_subset {ν : Type} (graph : SignedGraph ν) (algorithm : Algorithm)
    (order : List Nat) : graph.chosen algorithm order ⊆ listed order := by
  intro edge member
  cases algorithm with
  | kruskal => exact (mem_of_mem_greedy member).1
  | prim => exact (mem_of_mem_greedy member).1
  | divisive => exact forest_subset order member

theorem Divisive.cluster_ranking_eq_ok {index : EdgeIndex} {stencil : Stencil}
    {gridShape : List Nat} {weights : Tensor Binary32} {valid : Tensor Bool}
    (numbered : EdgeIndex.ofGrid stencil gridShape = .ok index)
    (weightShape : weights.shape = stencil.edgeShape gridShape)
    (validShape : valid.shape = stencil.edgeShape gridShape) :
    ∃ sets : DisjointSets index.nodes,
      cluster (Ranking.ranked weights valid ++ Ranking.dropped weights valid) valid.data stencil
        gridShape = .ok (sets.labels.1.map (·.val)) ∧
      ∀ u v, sets.root u = sets.root v ↔
        (index.graph valid.data).Linked
          ((index.graph valid.data).forest (Ranking.ranked weights valid)) u v := by
  have validCount : valid.data.size = index.count := EdgeIndex.size_eq_count numbered validShape
  rcases cluster_eq_ok numbered validCount (Ranking.lt_count_of_mem numbered weightShape) with
      ⟨sets, clustered, separate⟩
  refine ⟨sets, clustered, fun u v => ?_⟩
  rw [separate, SignedGraph.forest_append_of_no_ends Ranking.ends?_of_mem_dropped]

namespace Segmentation

/-- The weights on one scale. -/
def scaled (weights : Tensor Binary32) (stencil : Stencil) (settings : Settings) :
    Tensor Binary32 :=
  weights.mapIdx fun edge weight =>
    if edge < stencil.attractive * weights.channelSize then
      EdgeWeights.attractive settings.bias weight
    else EdgeWeights.repulsive settings.invertRepulsive weight

variable {γ : Type} [RandomSource γ] {weights : Tensor Binary32} {stencil : Stencil}
  {settings : Settings} {region : Option (Tensor Bool)} {layout : Layout}

theorem transform_eq_ok {gridShape : List Nat}
    (shaped : weights.shape = stencil.edgeShape gridShape) :
    EdgeWeights.transform weights stencil.attractive settings.invertRepulsive settings.bias =
      .ok (scaled weights stencil settings) := by
  have enough : stencil.attractive ≤ weights.channelCount :=
    Tensor.channelCount_eq shaped ▸ stencil.attractive_le
  rw [EdgeWeights.transform, if_pos enough]
  rfl

theorem getElem?_scaled (shaped : weights.shape = stencil.edgeShape layout.shape)
    (channel : Nat) {cell : Nat} (inside : cell < layout.size) :
    (scaled weights stencil settings).data[channel * layout.size + cell]? =
      weights.data[channel * layout.size + cell]?.map
        (if channel < stencil.attractive then EdgeWeights.attractive settings.bias
          else EdgeWeights.repulsive settings.invertRepulsive) := by
  have channelSize : weights.channelSize = layout.size := Tensor.channelSize_eq_volume shaped
  rw [scaled, Tensor.getElem?_mapIdx, channelSize]
  by_cases attracts : channel < stencil.attractive <;> simp [mul_add_lt_mul_iff inside, attracts]

theorem mem_ranked_iff {excluded : Option (Tensor Bool)} {kept : Nat → Bool}
    {valid : Tensor Bool} (shaped : weights.shape = stencil.edgeShape layout.shape)
    (describes : EdgeMask.Describes stencil layout excluded kept valid) {edge : Nat} :
    edge ∈ Ranking.ranked (scaled weights stencil settings) valid ↔
      ∃ channel, ∃ cell other : Fin (EdgeIndex.ofLayout stencil layout).nodes,
        edge = (EdgeIndex.ofLayout stencil layout).number channel cell ∧
          EdgeMask.Leads stencil layout valid channel cell other := by
  have sizes : (scaled weights stencil settings).size = valid.size := by
    rw [Tensor.size_eq_volume, Tensor.size_eq_volume, describes.shape, ← shaped]
    rfl
  constructor
  · intro member
    exact describes.exists_leads (Ranking.mem_ranked.1 member).2
  · rintro ⟨channel, cell, other, rfl, leads⟩
    apply Ranking.mem_ranked.2
    rw [sizes]
    exact ⟨(Array.getElem?_eq_some_iff.1 leads.1).1, leads.1⟩

/-- A tensor of links that can be stored lies over a grid in which flat distances are exact. -/
theorem size_le_of_checkStorage (shaped : weights.shape = stencil.edgeShape layout.shape)
    (storable : Storage.check weights.size Storage.halfWordBytes = .ok ()) :
    layout.size ≤ addressLimit / 2 := by
  have size : weights.size = stencil.channelCount * layout.size := by
    rw [weights.size_eq_volume, shaped]
    rfl
  have channels : 0 < stencil.channelCount := List.length_pos_iff.2 stencil.nonempty
  have enough : layout.size ≤ weights.size := by
    rw [size]
    exact Nat.le_mul_of_pos_left _ channels
  unfold Storage.check at storable
  split at storable
  · next below =>
    simp only [Storage.halfWordBytes, Storage.limit] at below
    have half : UInt64.size / 2 = addressLimit / 2 := rfl
    omega
  · exact absurd storable (by simp)

/-- Every algorithm labels the cells by roots that are equal where its chosen set links. -/
theorem cluster_eq_ok {index : EdgeIndex} {gridShape : List Nat} {valid : Tensor Bool}
    (algorithm : Algorithm) (numbered : EdgeIndex.ofGrid stencil gridShape = .ok index)
    (weightShape : weights.shape = stencil.edgeShape gridShape)
    (validShape : valid.shape = stencil.edgeShape gridShape) :
    ∃ sets : DisjointSets index.nodes,
      cluster algorithm weights valid stencil gridShape = .ok (sets.labels.1.map (·.val)) ∧
      ∀ u v, sets.root u = sets.root v ↔
        (index.graph valid.data).Linked
          ((index.graph valid.data).chosen algorithm (Ranking.ranked weights valid)) u v := by
  have ranking := Ranking.ofWeights_eq_ok (weightShape.trans validShape.symm)
  cases algorithm with
  | kruskal =>
      rcases Greedy.cluster_ranking_eq_ok numbered weightShape validShape with
          ⟨sets, clustered, separate⟩
      refine ⟨sets, ?_, separate⟩
      rw [cluster, ranking]
      exact clustered
  | divisive =>
      rcases Divisive.cluster_ranking_eq_ok numbered weightShape validShape with
          ⟨sets, clustered, separate⟩
      refine ⟨sets, ?_, separate⟩
      rw [cluster, ranking]
      exact clustered
  | prim => exact Growth.cluster_eq_ok numbered weightShape validShape

/-- A cell lies in the region, if there is one. -/
def InRegion (region : Option (Tensor Bool)) (cell : Nat) : Prop :=
  ∀ mask, region = some mask → mask.data[cell]? = some true

theorem included_outside_iff {cell : Nat} :
    EdgeMask.Included (region.map outside) cell ↔ InRegion region cell := by
  cases region with
  | none => simp [EdgeMask.Included, InRegion]
  | some mask =>
      simp only [EdgeMask.Included, InRegion, Option.map_some, Option.some.injEq, forall_eq',
        outside, Tensor.getElem?_map]
      cases mask.data[cell]? <;> simp

/-- The layout of the grid, if there can be a mask of valid edges for the request. -/
def gridLayout (weights : Tensor Binary32) (stencil : Stencil) (settings : Settings)
    (region : Option (Tensor Bool)) : Except Error Layout :=
  EdgeMask.gridLayout weights.shape stencil settings.thinning (region.map outside)

/-- A run of a segmentation that succeeds, with what is made on the way. -/
structure Run (weights : Tensor Binary32) (stencil : Stencil) (settings : Settings)
    (region : Option (Tensor Bool)) (layout : Layout) (kept : Nat → Bool) (valid : Tensor Bool)
    (result : Tensor Nat) : Prop where
  weightShape : weights.shape = stencil.edgeShape layout.shape
  masked : ∃ after, EdgeMask.compute weights.shape stencil settings.thinning (region.map outside)
    (Generator.ofSeed settings.seed) = (.ok valid, after)
  describes : EdgeMask.Describes stencil layout (region.map outside) kept valid
  unthinned : settings.strides = none → ∀ edge, kept edge = true
  labelled : seededLabels weights stencil settings region = .ok result
  shape : result.shape = layout.shape
  same_iff : ∀ u v : Fin (EdgeIndex.ofLayout stencil layout).nodes,
    result.data[u.val]? = result.data[v.val]? ↔
      (¬ InRegion region u ∧ ¬ InRegion region v) ∨ (InRegion region u ∧ InRegion region v ∧
        ((EdgeIndex.ofLayout stencil layout).graph valid.data).Linked
          (((EdgeIndex.ofLayout stencil layout).graph valid.data).chosen settings.algorithm
            (Ranking.ranked (scaled weights stencil settings) valid)) u v)
  zero_iff : region.isSome → ∀ u : Fin (EdgeIndex.ofLayout stencil layout).nodes,
    result.data[u.val]? = some 0 ↔ ¬ InRegion region u

/-- A request that cannot be met is refused, and draws no random number. -/
theorem labels_eq_error {error : Error}
    (refused : gridLayout weights stencil settings region = .error error) (generator : γ) :
    labels weights stencil settings region generator = (.error error, generator) := by
  have masked := EdgeMask.compute_eq_error refused generator
  unfold gridLayout EdgeMask.gridLayout at refused
  unfold labels
  cases shaped : stencil.gridShape weights.shape with
  | error other =>
      rw [shaped] at refused
      obtain rfl : other = error := Except.error.inj refused
      rfl
  | ok gridShape =>
      exact (Sampled.run_bind (Sampled.run_lift rfl _)).trans (Sampled.run_bind_of_error masked)

theorem seededLabels_eq_error {error : Error}
    (refused : gridLayout weights stencil settings region = .error error) :
    seededLabels weights stencil settings region = .error error :=
  congrArg Prod.fst (labels_eq_error refused (Generator.ofSeed settings.seed))

/-- The labels, with zero for every cell outside of the region, if there is one. -/
def labelsIn (region : Option (Tensor Bool)) (labels : Tensor Nat) : Tensor Nat :=
  region.elim labels fun mask => labels.mapIdx (regionLabel mask)

theorem labels_of_masked {gridShape : List Nat} {valid : Tensor Bool} {generator after : γ}
    {scaled : Tensor Binary32} {representatives : Array Nat} {tensor : Tensor Nat}
    (shaped : stencil.gridShape weights.shape = .ok gridShape)
    (masked : EdgeMask.compute weights.shape stencil settings.thinning (region.map outside)
      generator = (.ok valid, after))
    (transformed : EdgeWeights.transform weights stencil.attractive settings.invertRepulsive
      settings.bias = .ok scaled)
    (clustered : cluster settings.algorithm scaled valid stencil gridShape = .ok representatives)
    (made : Tensor.ofArray gridShape representatives = .ok tensor) :
    labels weights stencil settings region generator = (.ok (labelsIn region tensor), after) := by
  apply (Sampled.run_bind (Sampled.run_lift shaped _)).trans
  apply (Sampled.run_bind masked).trans
  apply (Sampled.run_bind (Sampled.run_lift transformed _)).trans
  apply (Sampled.run_bind (Sampled.run_lift clustered _)).trans
  apply (Sampled.run_bind (Sampled.run_lift made _)).trans
  cases region <;> rfl

theorem regionLabel_eq_zero_iff {mask : Tensor Bool} {cell label : Nat} :
    regionLabel mask cell label = 0 ↔ mask.data[cell]? ≠ some true := by
  rw [regionLabel]
  cases mask.data[cell]? with
  | none => simp
  | some inside => cases inside <;> simp

theorem regionLabel_eq_iff {mask : Tensor Bool} {cell other label otherLabel : Nat} :
    regionLabel mask cell label = regionLabel mask other otherLabel ↔
      (mask.data[cell]? ≠ some true ∧ mask.data[other]? ≠ some true) ∨
        (mask.data[cell]? = some true ∧ mask.data[other]? = some true ∧
          label = otherLabel) := by
  rw [regionLabel, regionLabel]
  rcases mask.data[cell]? with - | - | - <;> rcases mask.data[other]? with - | - | - <;> simp

theorem shape_labelsIn (labels : Tensor Nat) : (labelsIn region labels).shape = labels.shape := by
  cases region <;> rfl

theorem labelsIn_eq_iff {labels : Tensor Nat} {cell other : Nat} (inside : cell < labels.data.size)
    (otherInside : other < labels.data.size) :
    (labelsIn region labels).data[cell]? = (labelsIn region labels).data[other]? ↔
      (¬ InRegion region cell ∧ ¬ InRegion region other) ∨
        (InRegion region cell ∧ InRegion region other ∧
          labels.data[cell]? = labels.data[other]?) := by
  cases region with
  | none => simp [InRegion, labelsIn]
  | some mask =>
      simp only [labelsIn, Option.elim_some, Tensor.getElem?_mapIdx, Option.map_some, InRegion,
        Array.getElem?_eq_getElem inside, Array.getElem?_eq_getElem otherInside,
        Option.some.injEq, forall_eq']
      exact regionLabel_eq_iff

theorem labelsIn_eq_zero_iff {labels : Tensor Nat} {cell : Nat} (isSome : region.isSome)
    (inside : cell < labels.data.size) :
    (labelsIn region labels).data[cell]? = some 0 ↔ ¬ InRegion region cell := by
  rcases Option.isSome_iff_exists.1 isSome with ⟨mask, rfl⟩
  simp only [labelsIn, Option.elim_some, Tensor.getElem?_mapIdx, Option.map_some, InRegion,
    Array.getElem?_eq_getElem inside, Option.some.injEq, forall_eq']
  exact regionLabel_eq_zero_iff

/--
What a segmentation makes on its way from any state of the generator: the mask of valid edges, and
the representatives of the cells.
-/
structure Steps (weights : Tensor Binary32) (stencil : Stencil) (settings : Settings)
    (region : Option (Tensor Bool)) (layout : Layout) (generator : γ) (valid : Tensor Bool)
    (representatives : Tensor Nat) : Prop where
  weightShape : weights.shape = stencil.edgeShape layout.shape
  numbered : EdgeIndex.ofGrid stencil layout.shape = .ok (EdgeIndex.ofLayout stencil layout)
  masked : EdgeMask.compute weights.shape stencil settings.thinning (region.map outside) generator =
    (.ok valid, (EdgeMask.decisions stencil layout settings.thinning generator).2)
  describes : EdgeMask.Describes stencil layout (region.map outside)
    (EdgeMask.keeps stencil layout settings.thinning generator) valid
  clustered : cluster settings.algorithm (scaled weights stencil settings) valid stencil
    layout.shape = .ok representatives.data
  shape : representatives.shape = layout.shape
  labelled : labels weights stencil settings region generator =
    (.ok (labelsIn region representatives),
      (EdgeMask.decisions stencil layout settings.thinning generator).2)

theorem Steps.shape_scaled {generator : γ} {valid : Tensor Bool}
    {representatives : Tensor Nat}
    (steps : Steps weights stencil settings region layout generator valid representatives) :
    (scaled weights stencil settings).shape = stencil.edgeShape layout.shape :=
  steps.weightShape

/-- The representatives of the cells are roots, equal exactly where the chosen edges link. -/
theorem Steps.exists_roots {generator : γ} {valid : Tensor Bool}
    {representatives : Tensor Nat}
    (steps : Steps weights stencil settings region layout generator valid representatives) :
    ∃ sets : DisjointSets (EdgeIndex.ofLayout stencil layout).nodes,
      representatives.data = sets.labels.1.map (·.val) ∧
      ∀ u v, sets.root u = sets.root v ↔
        ((EdgeIndex.ofLayout stencil layout).graph valid.data).Linked
          (((EdgeIndex.ofLayout stencil layout).graph valid.data).chosen settings.algorithm
            (Ranking.ranked (scaled weights stencil settings) valid)) u v := by
  rcases cluster_eq_ok settings.algorithm steps.numbered steps.shape_scaled steps.describes.shape
      with ⟨sets, clustered, separate⟩
  exact ⟨sets, Except.ok.inj (steps.clustered.symm.trans clustered), separate⟩

theorem Steps.representatives_eq_iff {generator : γ} {valid : Tensor Bool}
    {representatives : Tensor Nat}
    (steps : Steps weights stencil settings region layout generator valid representatives)
    (u v : Fin (EdgeIndex.ofLayout stencil layout).nodes) :
    representatives.data[u.val]? = representatives.data[v.val]? ↔
      ((EdgeIndex.ofLayout stencil layout).graph valid.data).Linked
        (((EdgeIndex.ofLayout stencil layout).graph valid.data).chosen settings.algorithm
          (Ranking.ranked (scaled weights stencil settings) valid)) u v := by
  rcases steps.exists_roots with ⟨sets, roots, separate⟩
  rw [roots, sets.labels_eq_iff, separate]

theorem volume?_shape (shaped : weights.shape = stencil.edgeShape layout.shape) :
    volume? layout.shape = some layout.size := by
  have counted := weights.volume?_eq_some
  rw [shaped, Stencil.edgeShape] at counted
  exact volume?_of_cons (List.length_pos_iff.2 stencil.nonempty) counted

/-- A segmentation succeeds if its request can be met. -/
theorem exists_steps (laid : gridLayout weights stencil settings region = .ok layout)
    (generator : γ) : ∃ valid representatives,
      Steps weights stencil settings region layout generator valid representatives := by
  rcases EdgeMask.gridLayout_eq_ok laid with ⟨shaped, placed, -, -⟩
  rcases Stencil.gridShape_eq_ok shaped with ⟨weightShape, ranks⟩
  rcases EdgeMask.compute_eq_ok laid weights.volume?_eq_some generator with
      ⟨valid, masked, describes⟩
  have numbered := EdgeIndex.ofGrid_eq ranks placed
  have scaledShape : (scaled weights stencil settings).shape = stencil.edgeShape layout.shape :=
    weightShape
  rcases cluster_eq_ok settings.algorithm numbered scaledShape describes.shape with
      ⟨sets, clustered, -⟩
  have counted : volume? layout.shape = some (sets.labels.1.map (·.val)).size := by
    rw [sets.size_labels]
    exact volume?_shape weightShape
  rcases Tensor.ofArray_eq_ok counted with ⟨representatives, made, shape, data⟩
  have transformed := @transform_eq_ok weights stencil settings _ weightShape
  exact ⟨valid, representatives, weightShape, numbered, masked, describes, data ▸ clustered, shape,
    labels_of_masked shaped masked transformed clustered made⟩

/-- A segmentation that succeeds has met its request. -/
theorem exists_steps_of_labels_eq_ok {generator after : γ} {result : Tensor Nat}
    (ran : labels weights stencil settings region generator = (.ok result, after)) :
    ∃ layout valid representatives, gridLayout weights stencil settings region = .ok layout ∧
      Steps weights stencil settings region layout generator valid representatives ∧
      result = labelsIn region representatives ∧
      after = (EdgeMask.decisions stencil layout settings.thinning generator).2 := by
  cases laid : gridLayout weights stencil settings region with
  | error error =>
      rw [labels_eq_error laid] at ran
      exact absurd (congrArg Prod.fst ran) (by simp)
  | ok layout =>
      rcases exists_steps laid generator with ⟨valid, representatives, steps⟩
      rcases Prod.mk.inj (ran.symm.trans steps.labelled) with ⟨answered, drawn⟩
      exact ⟨layout, valid, representatives, rfl, steps, Except.ok.inj answered, drawn⟩

/-- A segmentation with random numbers from the seed succeeds if its request can be met. -/
theorem exists_run
    (laid : gridLayout weights stencil settings region = .ok layout) :
    ∃ kept valid result, Run weights stencil settings region layout kept valid result := by
  rcases exists_steps laid (Generator.ofSeed settings.seed) with ⟨valid, representatives, steps⟩
  have inside : ∀ u : Fin (EdgeIndex.ofLayout stencil layout).nodes,
      u.val < representatives.size := by
    intro u
    rw [representatives.size_eq_volume, steps.shape]
    exact u.isLt
  refine ⟨_, valid, labelsIn region representatives, {
    weightShape := steps.weightShape
    masked := ⟨_, steps.masked⟩
    describes := steps.describes
    unthinned := ?_
    labelled := congrArg Prod.fst steps.labelled
    shape := (shape_labelsIn representatives).trans steps.shape
    same_iff := fun u v => ?_
    zero_iff := fun isSome u => labelsIn_eq_zero_iff isSome (inside u) }⟩
  · intro absent edge
    rw [Settings.thinning, absent]
    exact Bool.or_true _
  · rw [labelsIn_eq_iff (inside u) (inside v), steps.representatives_eq_iff]

end Segmentation

end Watershed
