import Mathlib.Logic.Relation
import Watershed.Proofs.GroundTruth
import Watershed.Proofs.Segmentation

/-!
# Perfect affinities

The affinities of a labelling are ones and zeros. After the repulsive ones have been inverted, a
weight is one exactly when its edge is truthful about the labels, and among the edges of weight one
the attractive ones have the lower numbers. So the ranking of the valid edges is faithful, and the
labels are found in the region exactly when the valid edges connect every label class and guard
every border that an attractive edge crosses.
-/

namespace Watershed.Segmentation

variable {α : Type}

/-- Valid attractive edges between cells of one label connect all its cells in the region. -/
def ClassesConnected (labels : Tensor α) (stencil : Stencil) (layout : Layout)
    (region : Option (Tensor Bool)) (valid : Tensor Bool) : Prop :=
  ∀ u v, u < layout.size → v < layout.size → InRegion region u → InRegion region v →
    labels.data[u]? = labels.data[v]? →
    Relation.EqvGen (fun a b => labels.data[a]? = labels.data[b]? ∧
      ∃ channel < stencil.attractive, EdgeMask.Leads stencil layout valid channel a b) u v

/-- Where a valid attractive edge joins two labels, a valid repulsive edge joins the same two. -/
def BordersGuarded (labels : Tensor α) (stencil : Stencil) (layout : Layout)
    (valid : Tensor Bool) : Prop :=
  ∀ channel < stencil.attractive, ∀ a b, EdgeMask.Leads stencil layout valid channel a b →
    labels.data[a]? ≠ labels.data[b]? →
    ∃ other, stencil.attractive ≤ other ∧ ∃ x y, EdgeMask.Leads stencil layout valid other x y ∧
      ((labels.data[x]? = labels.data[a]? ∧ labels.data[y]? = labels.data[b]?) ∨
        (labels.data[x]? = labels.data[b]? ∧ labels.data[y]? = labels.data[a]?))

/-- Two cells in the region get one label exactly when they had one. -/
def Recovers (labels : Tensor α) (layout : Layout) (region : Option (Tensor Bool))
    (result : Tensor Nat) : Prop :=
  ∀ u v, u < layout.size → v < layout.size → InRegion region u → InRegion region v →
    (result.data[u]? = result.data[v]? ↔ labels.data[u]? = labels.data[v]?)

/-- The label of a cell, given as a node of the grid graph. -/
def labelOf (labels : Tensor α) (stencil : Stencil) (layout : Layout)
    (cell : Fin (EdgeIndex.ofLayout stencil layout).nodes) : Option α :=
  labels.data[cell.val]?

variable [BEq α] [LawfulBEq α] {labels : Tensor α} {stencil : Stencil} {settings : Settings}
  {region excluded : Option (Tensor Bool)} {layout : Layout} {kept : Nat → Bool}
  {valid : Tensor Bool} {weights : Tensor Binary32}

/-- What is used of perfect affinities: they compare the labels at the ends of every edge. -/
structure Perfect (labels : Tensor α) (stencil : Stencil) (settings : Settings) (layout : Layout)
    (weights : Tensor Binary32) : Prop where
  shape : weights.shape = stencil.edgeShape layout.shape
  compares : ∀ channel offset, stencil.offsets[channel]? = some offset → ∀ cell < layout.size,
    weights.data[channel * layout.size + cell]? =
      some (if (layout.shift? cell offset).bind (labels.data[·]?) == labels.data[cell]?
        then .one else .zero)
  inverted : settings.invertRepulsive = true
  unbiased : (settings.bias == .zero) = true

theorem zero_lt_one : Binary32.priority .zero < Binary32.priority .one := by
  decide

open Classical in
theorem Perfect.priority_eq
    (perfect : Perfect labels stencil settings layout weights) {channel cell other : Nat}
    (leads : EdgeMask.Leads stencil layout valid channel cell other) :
    Ranking.priority ((scaled weights stencil settings).data.map Binary32.priority)
        (channel * layout.size + cell) =
      if (channel < stencil.attractive ↔ labels.data[cell]? = labels.data[other]?) then
        Binary32.priority .one
      else Binary32.priority .zero := by
  rcases leads with ⟨-, offset, known, shifted⟩
  have inside : cell < layout.size := (Layout.distance_of_shift?_eq shifted).1
  have weight := perfect.compares channel offset known cell inside
  rw [shifted, Option.bind_some] at weight
  have oneLessOne : (Binary32.one - Binary32.one) = .zero := by decide
  have oneLessZero : (Binary32.one - Binary32.zero) = .one := by decide
  rw [Ranking.priority, Array.getElem?_map, getElem?_scaled perfect.shape channel inside, weight]
  by_cases attracts : channel < stencil.attractive <;>
    by_cases same : labels.data[cell]? = labels.data[other]?
  · simp [attracts, same, EdgeWeights.attractive, perfect.unbiased]
  · have unequal : labels.data[other]? ≠ labels.data[cell]? := Ne.symm same
    simp [attracts, same, unequal, EdgeWeights.attractive, perfect.unbiased]
  · simp [attracts, same, EdgeWeights.repulsive, perfect.inverted, oneLessOne]
  · have unequal : labels.data[other]? ≠ labels.data[cell]? := Ne.symm same
    simp [attracts, same, unequal, EdgeWeights.repulsive, perfect.inverted, oneLessZero]

omit [BEq α] [LawfulBEq α] in
theorem truthful_number_iff (describes : EdgeMask.Describes stencil layout excluded kept valid)
    (small : layout.size ≤ addressLimit / 2) {channel : Nat}
    {cell other : Fin (EdgeIndex.ofLayout stencil layout).nodes}
    (leads : EdgeMask.Leads stencil layout valid channel cell other) :
    ((EdgeIndex.ofLayout stencil layout).graph valid.data).Truthful (labelOf labels stencil layout)
        ((EdgeIndex.ofLayout stencil layout).number channel cell) ↔
      (channel < stencil.attractive ↔ labels.data[cell.val]? = labels.data[other.val]?) := by
  have joins : ((EdgeIndex.ofLayout stencil layout).graph valid.data).Joins
      ((EdgeIndex.ofLayout stencil layout).number channel cell) cell other :=
    .inl ((describes.ends?_eq_some_iff small).2 ⟨channel, rfl, leads⟩)
  rw [SignedGraph.Truthful, SignedGraph.agrees_iff joins, EdgeIndex.repulsive_graph_number,
    decide_eq_false_iff_not, Nat.not_le]
  rfl

/-- The ranking of perfect affinities is faithful to the labels. -/
theorem Perfect.faithful (perfect : Perfect labels stencil settings layout weights)
    (describes : EdgeMask.Describes stencil layout excluded kept valid)
    (small : layout.size ≤ addressLimit / 2) :
    ((EdgeIndex.ofLayout stencil layout).graph valid.data).Faithful
      (labelOf labels stencil layout) (Ranking.ranked (scaled weights stencil settings) valid) := by
  have sorted := @Ranking.pairwise_ranked (scaled weights stencil settings) valid
  have precedes : ∀ edge ∈ Ranking.ranked (scaled weights stencil settings) valid, ∀ other,
      Ranking.Outranks ((scaled weights stencil settings).data.map Binary32.priority) edge other →
        edge ∈ SignedGraph.before (Ranking.ranked (scaled weights stencil settings) valid) other :=
    fun edge member other outranks =>
      ⟨member, Ranking.idxOf_lt_of_outranks sorted member outranks⟩
  refine ⟨Ranking.nodup_ranked, ?_, ?_, ?_⟩
  · intro edge a b joins
    have isValid := (EdgeIndex.joins_graph_iff.1 joins).1
    exact (mem_ranked_iff perfect.shape describes).2 (describes.exists_leads isValid)
  · intro edge member other otherMember truthful untruthful
    rcases (mem_ranked_iff perfect.shape describes).1 member with
        ⟨channel, cell, target, rfl, edgeLeads⟩
    rcases (mem_ranked_iff perfect.shape describes).1 otherMember with
        ⟨otherChannel, otherCell, otherTarget, rfl, otherLeads⟩
    rw [truthful_number_iff describes small edgeLeads] at truthful
    rw [truthful_number_iff describes small otherLeads] at untruthful
    refine precedes _ member _ (.inl ?_)
    rw [EdgeIndex.number_ofLayout, EdgeIndex.number_ofLayout, perfect.priority_eq edgeLeads,
      perfect.priority_eq otherLeads, if_pos truthful, if_neg untruthful]
    exact zero_lt_one
  · intro edge member other otherMember truthful otherTruthful kind otherKind
    have less : edge < other :=
      Nat.lt_of_lt_of_le (Nat.lt_of_not_le (of_decide_eq_false kind)) (of_decide_eq_true otherKind)
    rcases (mem_ranked_iff perfect.shape describes).1 member with
        ⟨channel, cell, target, rfl, edgeLeads⟩
    rcases (mem_ranked_iff perfect.shape describes).1 otherMember with
        ⟨otherChannel, otherCell, otherTarget, rfl, otherLeads⟩
    rw [truthful_number_iff describes small edgeLeads] at truthful
    rw [truthful_number_iff describes small otherLeads] at otherTruthful
    refine precedes _ member _ (.inr ⟨?_, less⟩)
    rw [EdgeIndex.number_ofLayout, EdgeIndex.number_ofLayout, perfect.priority_eq edgeLeads,
      perfect.priority_eq otherLeads, if_pos truthful, if_pos otherTruthful]

section Conditions

omit [BEq α] [LawfulBEq α]

variable (describes : EdgeMask.Describes stencil layout excluded kept valid)
  (small : layout.size ≤ addressLimit / 2)

include describes small

theorem joins_iff_leads {edge : Nat} {a b : Fin (EdgeIndex.ofLayout stencil layout).nodes} :
    ((EdgeIndex.ofLayout stencil layout).graph valid.data).Joins edge a b ↔
      ∃ channel, (edge = (EdgeIndex.ofLayout stencil layout).number channel a ∧
          EdgeMask.Leads stencil layout valid channel a b) ∨
        (edge = (EdgeIndex.ofLayout stencil layout).number channel b ∧
          EdgeMask.Leads stencil layout valid channel b a) := by
  rw [SignedGraph.Joins, describes.ends?_eq_some_iff small, describes.ends?_eq_some_iff small,
    exists_or]

/-- A chain of valid attractive edges within a label is a walk along agreeing edges. -/
theorem linked_of_eqvGen {a b : Nat}
    (chain : Relation.EqvGen (fun a b => labels.data[a]? = labels.data[b]? ∧
      ∃ channel < stencil.attractive, EdgeMask.Leads stencil layout valid channel a b) a b) :
    a = b ∨ ∃ (insideA : a < layout.size) (insideB : b < layout.size),
      ((EdgeIndex.ofLayout stencil layout).graph valid.data).Linked
        {edge | ((EdgeIndex.ofLayout stencil layout).graph valid.data).Agrees
          (labelOf labels stencil layout) edge} ⟨a, insideA⟩ ⟨b, insideB⟩ := by
  induction chain with
  | rel a b step =>
      rcases step with ⟨sameLabel, channel, attracts, leads⟩
      rcases describes.included leads with ⟨insideA, insideB, -⟩
      have joins := (joins_iff_leads (a := ⟨a, insideA⟩) (b := ⟨b, insideB⟩) describes small).2
        ⟨channel, .inl ⟨rfl, leads⟩⟩
      refine .inr ⟨insideA, insideB, .ofAttractive ⟨_, _, joins, sameLabel⟩ ?_ joins⟩
      rw [EdgeIndex.repulsive_graph_number, decide_eq_false_iff_not, Nat.not_le]
      exact attracts
  | refl a => exact .inl rfl
  | symm a b _ ih =>
      rcases ih with rfl | ⟨insideA, insideB, linked⟩
      · exact .inl rfl
      · exact .inr ⟨insideB, insideA, linked.symm⟩
  | trans a b c _ _ first second =>
      rcases first with rfl | ⟨insideA, insideB, linked⟩
      · exact second
      · rcases second with rfl | ⟨_, insideC, further⟩
        · exact .inr ⟨insideA, insideB, linked⟩
        · exact .inr ⟨insideA, insideC, linked.trans further⟩

theorem connects_iff :
    ((EdgeIndex.ofLayout stencil layout).graph valid.data).Connects
        (labelOf labels stencil layout) (fun cell => InRegion region cell) ↔
      ClassesConnected labels stencil layout region valid := by
  constructor
  · intro connects u v insideU insideV regionU regionV same
    have linked := connects ⟨u, insideU⟩ ⟨v, insideV⟩ regionU regionV same
    apply linked.induction (fun cell => Relation.EqvGen _ u cell.val) (.refl u)
    intro x y edge _ toX agrees kind joins
    have sameLabel := (SignedGraph.agrees_iff joins).1 agrees
    rcases (joins_iff_leads describes small).1 joins with ⟨channel, ⟨rfl, leads⟩ | ⟨rfl, leads⟩⟩
    · rw [EdgeIndex.repulsive_graph_number, decide_eq_false_iff_not, Nat.not_le] at kind
      exact .trans _ _ _ toX (.rel _ _ ⟨sameLabel, channel, kind, leads⟩)
    · rw [EdgeIndex.repulsive_graph_number, decide_eq_false_iff_not, Nat.not_le] at kind
      exact .trans _ _ _ toX (.symm _ _ (.rel _ _ ⟨sameLabel.symm, channel, kind, leads⟩))
  · intro connected u v regionU regionV same
    have chain := connected u v u.isLt v.isLt regionU regionV same
    rcases linked_of_eqvGen describes small chain with equal | ⟨_, _, linked⟩
    · rw [Fin.ext equal]
      exact .refl v
    · exact linked

theorem opposes_iff :
    ((EdgeIndex.ofLayout stencil layout).graph valid.data).Opposes
        (labelOf labels stencil layout) ↔ BordersGuarded labels stencil layout valid := by
  have toJoins : ∀ {channel a b} (insideA : a < layout.size) (insideB : b < layout.size),
      EdgeMask.Leads stencil layout valid channel a b →
      ((EdgeIndex.ofLayout stencil layout).graph valid.data).Joins
        ((EdgeIndex.ofLayout stencil layout).number channel a) ⟨a, insideA⟩ ⟨b, insideB⟩ :=
    fun _ _ leads => (joins_iff_leads describes small).2 ⟨_, .inl ⟨rfl, leads⟩⟩
  constructor
  · intro opposes channel attracts a b leads apart
    rcases describes.included leads with ⟨insideA, insideB, -⟩
    have kind : ((EdgeIndex.ofLayout stencil layout).graph valid.data).repulsive
        ((EdgeIndex.ofLayout stencil layout).number channel a) = false := by
      rw [EdgeIndex.repulsive_graph_number valid.data channel ⟨a, insideA⟩]
      exact decide_eq_false (Nat.not_le_of_lt attracts)
    rcases opposes _ ⟨a, insideA⟩ ⟨b, insideB⟩ kind (toJoins insideA insideB leads) apart with
        ⟨other, x, y, otherKind, ends, sameX, sameY⟩
    rcases (joins_iff_leads describes small).1 ends with
        ⟨otherChannel, ⟨rfl, otherLeads⟩ | ⟨rfl, otherLeads⟩⟩
    · rw [EdgeIndex.repulsive_graph_number, decide_eq_true_eq] at otherKind
      exact ⟨otherChannel, otherKind, x, y, otherLeads, .inl ⟨sameX, sameY⟩⟩
    · rw [EdgeIndex.repulsive_graph_number, decide_eq_true_eq] at otherKind
      exact ⟨otherChannel, otherKind, y, x, otherLeads, .inr ⟨sameY, sameX⟩⟩
  · intro guarded edge a b kind joins apart
    -- the condition speaks of one direction of an edge, and the edge may be met in the other one
    have found : ∃ other, stencil.attractive ≤ other ∧ ∃ x y,
        EdgeMask.Leads stencil layout valid other x y ∧
          ((labels.data[x]? = labels.data[a.val]? ∧ labels.data[y]? = labels.data[b.val]?) ∨
            (labels.data[x]? = labels.data[b.val]? ∧ labels.data[y]? = labels.data[a.val]?)) := by
      rcases (joins_iff_leads describes small).1 joins with ⟨channel, ⟨rfl, leads⟩ | ⟨rfl, leads⟩⟩
      · rw [EdgeIndex.repulsive_graph_number, decide_eq_false_iff_not, Nat.not_le] at kind
        exact guarded channel kind a b leads apart
      · rw [EdgeIndex.repulsive_graph_number, decide_eq_false_iff_not, Nat.not_le] at kind
        rcases guarded channel kind b a leads apart.symm with ⟨other, repels, x, y, others, same⟩
        exact ⟨other, repels, x, y, others, same.symm⟩
    rcases found with ⟨other, repels, x, y, leads, same⟩
    rcases describes.included leads with ⟨insideX, insideY, -⟩
    have otherKind : ((EdgeIndex.ofLayout stencil layout).graph valid.data).repulsive
        ((EdgeIndex.ofLayout stencil layout).number other x) = true := by
      rw [EdgeIndex.repulsive_graph_number valid.data other ⟨x, insideX⟩]
      exact decide_eq_true repels
    have ends := toJoins insideX insideY leads
    rcases same with ⟨sameX, sameY⟩ | ⟨sameX, sameY⟩
    · exact ⟨_, ⟨x, insideX⟩, ⟨y, insideY⟩, otherKind, ends, sameX, sameY⟩
    · exact ⟨_, ⟨y, insideY⟩, ⟨x, insideX⟩, otherKind, ends.symm, sameY, sameX⟩

end Conditions

omit [BEq α] [LawfulBEq α] in
theorem inRegion_of_joins
    (describes : EdgeMask.Describes stencil layout (region.map outside) kept valid)
    (small : layout.size ≤ addressLimit / 2) :
    ∀ edge a b, ((EdgeIndex.ofLayout stencil layout).graph valid.data).Joins edge a b →
      InRegion region a.val := by
  intro edge a b joins
  rcases (joins_iff_leads describes small).1 joins with ⟨channel, ⟨-, leads⟩ | ⟨-, leads⟩⟩
  · exact included_outside_iff.1 (describes.included leads).2.2.1
  · exact included_outside_iff.1 (describes.included leads).2.2.2

omit [BEq α] [LawfulBEq α] in
theorem Run.recovers_iff_linked {result : Tensor Nat}
    (run : Run weights stencil settings region layout kept valid result) :
    Recovers labels layout region result ↔
      ∀ u v : Fin (EdgeIndex.ofLayout stencil layout).nodes,
        InRegion region u → InRegion region v →
        (((EdgeIndex.ofLayout stencil layout).graph valid.data).Linked
          (((EdgeIndex.ofLayout stencil layout).graph valid.data).chosen settings.algorithm
            (Ranking.ranked (scaled weights stencil settings) valid)) u v ↔
          labelOf labels stencil layout u = labelOf labels stencil layout v) := by
  have same : ∀ u v : Fin (EdgeIndex.ofLayout stencil layout).nodes,
      InRegion region u → InRegion region v → (result.data[u.val]? = result.data[v.val]? ↔
        ((EdgeIndex.ofLayout stencil layout).graph valid.data).Linked
          (((EdgeIndex.ofLayout stencil layout).graph valid.data).chosen settings.algorithm
            (Ranking.ranked (scaled weights stencil settings) valid)) u v) := by
    intro u v regionU regionV
    rw [run.same_iff u v]
    simp [regionU, regionV]
  constructor
  · intro recovers u v regionU regionV
    rw [← same u v regionU regionV]
    exact recovers u v u.isLt v.isLt regionU regionV
  · intro linked u v insideU insideV regionU regionV
    rw [same ⟨u, insideU⟩ ⟨v, insideV⟩ regionU regionV]
    exact linked ⟨u, insideU⟩ ⟨v, insideV⟩ regionU regionV

/-- The exact conditions under which a run on perfect affinities recovers the labels. -/
theorem Run.recovers_iff_visible {result : Tensor Nat}
    (run : Run weights stencil settings region layout kept valid result)
    (perfect : Perfect labels stencil settings layout weights)
    (small : layout.size ≤ addressLimit / 2) (notDivisive : settings.algorithm ≠ .divisive) :
    Recovers labels layout region result ↔
      ClassesConnected labels stencil layout region valid ∧
        BordersGuarded labels stencil layout valid := by
  have chosen : ∀ order, ((EdgeIndex.ofLayout stencil layout).graph valid.data).chosen
      settings.algorithm order =
        ((EdgeIndex.ofLayout stencil layout).graph valid.data).greedy order := by
    intro order
    cases algorithm : settings.algorithm with
    | kruskal => rfl
    | prim => rfl
    | divisive => exact absurd algorithm notDivisive
  rw [run.recovers_iff_linked, chosen,
    (perfect.faithful run.describes small).greedy_iff (inRegion_of_joins run.describes small),
    connects_iff run.describes small, opposes_iff run.describes small]

/-- Every algorithm recovers labels that are connected and guarded. -/
theorem Run.recovers {result : Tensor Nat}
    (run : Run weights stencil settings region layout kept valid result)
    (perfect : Perfect labels stencil settings layout weights)
    (small : layout.size ≤ addressLimit / 2)
    (connected : ClassesConnected labels stencil layout region valid)
    (guarded : BordersGuarded labels stencil layout valid) :
    Recovers labels layout region result := by
  by_cases divisive : settings.algorithm = .divisive
  · rw [run.recovers_iff_linked, divisive]
    intro u v regionU regionV
    exact (perfect.faithful run.describes small).forest_iff (inRegion_of_joins run.describes small)
      ((connects_iff run.describes small).2 connected)
      ((opposes_iff run.describes small).2 guarded) regionU regionV
  · exact (run.recovers_iff_visible perfect small divisive).2 ⟨connected, guarded⟩

/--
Perfect affinities recover the labels exactly when the graph can see them. Whenever a segmentation
of the affinities of a labelling succeeds, the mask of its valid edges decides: every label class in
the region has to be connected, and every border that an attractive edge crosses has to be guarded.
For the divisive algorithm this is a sufficient condition.
-/
theorem recovers_iff (labels : Tensor α) (stencil : Stencil) (settings : Settings)
    (region : Option (Tensor Bool)) (affinities : Affinities) (result : Tensor Nat)
    (computed : Affinities.ofLabels labels stencil.offsets none = .ok affinities)
    (storable : Storage.check affinities.weights.size Storage.halfWordBytes = .ok ())
    (inverted : settings.invertRepulsive = true) (unbiased : (settings.bias == .zero) = true)
    (labelled : seededLabels affinities.weights stencil settings region = .ok result) :
    ∃ layout valid after, Layout.ofShape labels.shape = .ok layout ∧
      EdgeMask.compute affinities.weights.shape stencil settings.thinning (region.map outside)
        (Generator.ofSeed settings.seed) = (.ok valid, after) ∧
      (settings.algorithm ≠ .divisive → (Recovers labels layout region result ↔
        ClassesConnected labels stencil layout region valid ∧
          BordersGuarded labels stencil layout valid)) ∧
      (ClassesConnected labels stencil layout region valid →
        BordersGuarded labels stencil layout valid → Recovers labels layout region result) := by
  rcases Affinities.of_ofLabels_eq_ok computed with ⟨layout, laid, shape, compares⟩
  cases planned : gridLayout affinities.weights stencil settings region with
  | error error =>
      rw [seededLabels_eq_error planned] at labelled
      exact absurd labelled (by simp)
  | ok found =>
      rcases exists_run planned with ⟨kept, valid, again, run⟩
      rcases Except.ok.inj (run.labelled.symm.trans labelled) with rfl
      have sameLayout : layout = found := by
        have shapes := shape.symm.trans run.weightShape
        have placed := (EdgeMask.gridLayout_eq_ok planned).2.1
        rw [← (List.cons.inj shapes).2] at placed
        exact Except.ok.inj (laid.symm.trans placed)
      subst sameLayout
      rcases run.masked with ⟨after, masked⟩
      have small := size_le_of_checkStorage run.weightShape storable
      have perfect : Perfect labels stencil settings layout affinities.weights :=
        ⟨run.weightShape, compares, inverted, unbiased⟩
      exact ⟨layout, valid, after, laid, masked, run.recovers_iff_visible perfect small,
        run.recovers perfect small⟩

/-- Two pairs of cells in a row and a region without the last cell. -/
theorem recovers_iff_row :
    ∃ (labels : Tensor Nat) (stencil : Stencil) (region : Tensor Bool) (affinities : Affinities)
      (result : Tensor Nat) (layout : Layout) (valid : Tensor Bool),
      labels.data = #[1, 1, 2, 2] ∧ region.data = #[true, true, true, false] ∧
      Affinities.ofLabels labels stencil.offsets none = .ok affinities ∧
      Storage.check affinities.weights.size Storage.halfWordBytes = .ok () ∧
      Settings.standard.invertRepulsive = true ∧ (Settings.standard.bias == .zero) = true ∧
      seededLabels affinities.weights stencil Settings.standard (some region) = .ok result ∧
      (Recovers labels layout (some region) result ↔
        ClassesConnected labels stencil layout (some region) valid ∧
          BordersGuarded labels stencil layout valid) := by
  let labels : Tensor Nat := ⟨[4], #[1, 1, 2, 2], rfl⟩
  let region : Tensor Bool := ⟨[4], #[true, true, true, false], rfl⟩
  let stencil : Stencil := ⟨[[1], [-2]], 1, 1, by decide, by decide, by decide⟩
  obtain ⟨affinities, computed⟩ :
      ∃ affinities, Affinities.ofLabels labels stencil.offsets none = .ok affinities := ⟨_, rfl⟩
  have shape : affinities.weights.shape = [2, 4] := by
    rcases Affinities.of_ofLabels_eq_ok computed with ⟨-, -, shape, -⟩
    exact shape
  have storable : Storage.check affinities.weights.size Storage.halfWordBytes = .ok () := by
    rw [Tensor.size_eq_volume, shape]
    rfl
  have planned : gridLayout affinities.weights stencil Settings.standard (some region) =
      .ok ⟨[4], by decide⟩ := by
    rw [gridLayout, shape]
    rfl
  rcases exists_run planned with ⟨kept, mask, result, run⟩
  rcases recovers_iff labels stencil Settings.standard (some region) affinities result computed
      storable rfl (by decide) run.labelled with ⟨layout, valid, after, -, -, exactly, -⟩
  exact ⟨labels, stencil, region, affinities, result, layout, valid, rfl, rfl, computed, storable,
    rfl, by decide, run.labelled, exactly (by decide)⟩

end Watershed.Segmentation
