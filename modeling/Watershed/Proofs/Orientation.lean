import Watershed.Proofs.Renaming
import Watershed.Proofs.Segmentation

/-!
# The direction of a channel

A channel may as well be read in the other direction: its offset is negated and the weight of a link
is found at the cell that it led to. This moves the numbers of the edges of the channel, all by the
same distance, so that neither their order nor that among the edges of other channels changes.
Otherwise only the ends of the edges change places.
-/

namespace Watershed

/-- The stencil with the flipped channels leading in the other direction. -/
def Stencil.flip (stencil : Stencil) (flipped : Nat → Bool) : Stencil where
  offsets := stencil.offsets.mapIdx fun channel offset =>
    if flipped channel then offset.map (- ·) else offset
  attractive := stencil.attractive
  rank := stencil.rank
  nonempty := by simpa using stencil.nonempty
  uniform := by
    intro offset member
    rcases List.mem_mapIdx.1 member with ⟨channel, inside, rfl⟩
    have length := stencil.uniform _ (List.getElem_mem inside)
    split <;> simp [length]
  attractive_le := by simpa using stencil.attractive_le

namespace Segmentation

/-- The weights of the flipped channels are found at the other end of the link, and no others. -/
structure Flips (stencil : Stencil) (flipped : Nat → Bool) (layout : Layout)
    (weights other : Tensor Binary32) : Prop where
  moved : ∀ channel offset, stencil.offsets[channel]? = some offset → flipped channel = true →
    ∀ cell target, layout.shift? cell offset = some target →
      other.data[channel * layout.size + target]? = weights.data[channel * layout.size + cell]?
  same : ∀ channel < stencil.channelCount, flipped channel = false → ∀ cell < layout.size,
    other.data[channel * layout.size + cell]? = weights.data[channel * layout.size + cell]?

/-- The number of an edge once the flipped channels lead in the other direction. -/
def turn (stencil : Stencil) (flipped : Nat → Bool) (layout : Layout) (edge : Nat) : Nat :=
  if flipped (edge / layout.size) then
    ((EdgeIndex.ofLayout stencil layout).ends? edge).elim edge fun ends =>
      (EdgeIndex.ofLayout stencil layout).number (edge / layout.size) ends.2
  else edge

variable {stencil : Stencil} {flipped : Nat → Bool} {layout : Layout}
  {weights other : Tensor Binary32} {excluded : Option (Tensor Bool)} {kept otherKept : Nat → Bool}
  {valid otherValid : Tensor Bool} {settings : Settings} {channel cell target : Nat}

theorem offsets_flip : (stencil.flip flipped).offsets[channel]? =
    stencil.offsets[channel]?.map fun offset =>
      if flipped channel then offset.map (- ·) else offset := by
  simp [Stencil.flip]

theorem channelCount_flip : (stencil.flip flipped).channelCount = stencil.channelCount := by
  simp [Stencil.channelCount, Stencil.flip]

theorem edgeShape_flip (gridShape : List Nat) :
    (stencil.flip flipped).edgeShape gridShape = stencil.edgeShape gridShape := by
  rw [Stencil.edgeShape, channelCount_flip, Stencil.edgeShape]

theorem leads_iff (describes : EdgeMask.Describes stencil layout excluded kept valid)
    (all : ∀ edge, kept edge = true) :
    EdgeMask.Leads stencil layout valid channel cell target ↔
      EdgeMask.Included excluded cell ∧ EdgeMask.Included excluded target ∧
        ∃ offset, stencil.offsets[channel]? = some offset ∧
          layout.shift? cell offset = some target := by
  constructor
  · intro leads
    rcases describes.included leads with ⟨-, -, included, otherIncluded⟩
    exact ⟨included, otherIncluded, leads.2⟩
  · rintro ⟨included, otherIncluded, offset, known, shifted⟩
    have inside := (Layout.distance_of_shift?_eq shifted).1
    refine ⟨(describes.valid_iff channel offset known cell inside).2 ?_, offset, known, shifted⟩
    exact ⟨all _, target, shifted, included, otherIncluded⟩

/-- An edge of a flipped channel gets the number of the cell that it led to. -/
theorem turn_number (small : layout.size ≤ addressLimit / 2)
    {start finish : Fin (EdgeIndex.ofLayout stencil layout).nodes}
    (leads : EdgeMask.Leads stencil layout valid channel start finish) :
    turn stencil flipped layout ((EdgeIndex.ofLayout stencil layout).number channel start) =
      (EdgeIndex.ofLayout stencil layout).number channel
        (if flipped channel then finish else start).val := by
  rcases leads with ⟨-, offset, known, shifted⟩
  have ends := EdgeIndex.ends?_number_of_shift? small known shifted
  have reads : (EdgeIndex.ofLayout stencil layout).number channel start / layout.size = channel :=
    mul_add_div_of_lt channel start.isLt
  rw [turn, reads, ends]
  cases flipped channel <;> rfl

theorem Flips.weight (flips : Flips stencil flipped layout weights other)
    {start finish : Fin (EdgeIndex.ofLayout stencil layout).nodes}
    (leads : EdgeMask.Leads stencil layout valid channel start finish) :
    other.data[channel * layout.size + (if flipped channel then finish else start).val]? =
      weights.data[channel * layout.size + start]? := by
  rcases leads with ⟨-, offset, known, shifted⟩
  cases direction : flipped channel with
  | false =>
      rcases List.getElem?_eq_some_iff.1 known with ⟨below, -⟩
      exact flips.same channel below direction start start.isLt
  | true => exact flips.moved channel offset known direction start finish shifted

/-- The renaming keeps the order of the edges of one channel, which all move by one distance. -/
theorem turn_lt_turn (small : layout.size ≤ addressLimit / 2)
    (describes : EdgeMask.Describes stencil layout excluded kept valid) {edge later : Nat}
    (isValid : valid.data[edge]? = some true) (laterValid : valid.data[later]? = some true)
    (less : edge < later) :
    turn stencil flipped layout edge < turn stencil flipped layout later := by
  rcases describes.exists_leads isValid with ⟨channel, start, finish, rfl, leads⟩
  rcases describes.exists_leads laterValid with ⟨laterChannel, laterStart, laterFinish, rfl,
    laterLeads⟩
  rw [turn_number small leads, turn_number small laterLeads]
  rw [EdgeIndex.number_lt_number_iff] at less ⊢
  rcases less with below | ⟨rfl, less⟩
  · exact .inl below
  · refine .inr ⟨rfl, ?_⟩
    rcases leads with ⟨-, offset, known, shifted⟩
    rcases laterLeads with ⟨-, laterOffset, laterKnown, laterShifted⟩
    rcases Option.some.inj (known.symm.trans laterKnown) with rfl
    have distance := (Layout.distance_of_shift?_eq shifted).2.2
    have laterDistance := (Layout.distance_of_shift?_eq laterShifted).2.2
    cases flipped channel with
    | false => exact less
    | true =>
        simp only [if_true]
        omega

section Flip

variable (describes : EdgeMask.Describes stencil layout excluded kept valid)
  (all : ∀ edge, kept edge = true)
  (otherDescribes : EdgeMask.Describes (stencil.flip flipped) layout excluded otherKept otherValid)
  (otherAll : ∀ edge, otherKept edge = true)

include describes all otherDescribes otherAll

/-- The edges of flipped channels lead back, and those of the others as before. -/
theorem leads_flip_iff {start finish : Fin (EdgeIndex.ofLayout stencil layout).nodes} :
    EdgeMask.Leads (stencil.flip flipped) layout otherValid channel
        (if flipped channel then finish else start).val
        (if flipped channel then start else finish).val ↔
      EdgeMask.Leads stencil layout valid channel start finish := by
  rw [leads_iff otherDescribes otherAll, leads_iff describes all, offsets_flip]
  cases flipped channel with
  | false => simp
  | true =>
      simp only [if_true, Option.map_eq_some_iff]
      constructor
      · rintro ⟨included, otherIncluded, _, ⟨offset, known, rfl⟩, shifted⟩
        exact ⟨otherIncluded, included, offset, known, Layout.shift?_neg_iff.1 shifted⟩
      · rintro ⟨included, otherIncluded, offset, known, shifted⟩
        exact ⟨otherIncluded, included, _, ⟨offset, known, rfl⟩, Layout.shift?_neg_iff.2 shifted⟩

variable (small : layout.size ≤ addressLimit / 2)

include small

theorem ends?_turn {start finish : Fin (EdgeIndex.ofLayout stencil layout).nodes}
    (leads : EdgeMask.Leads stencil layout valid channel start finish) :
    ((EdgeIndex.ofLayout (stencil.flip flipped) layout).graph otherValid.data).ends?
        (turn stencil flipped layout ((EdgeIndex.ofLayout stencil layout).number channel start)) =
      some (if flipped channel then finish else start,
        if flipped channel then start else finish) := by
  rw [turn_number small leads]
  apply (otherDescribes.ends?_eq_some_iff small).2
  exact ⟨channel, rfl, (leads_flip_iff describes all otherDescribes otherAll).2 leads⟩

theorem renames_turn : SignedGraph.Renames ((EdgeIndex.ofLayout stencil layout).graph valid.data)
    ((EdgeIndex.ofLayout (stencil.flip flipped) layout).graph otherValid.data)
    (turn stencil flipped layout) {edge | valid.data[edge]? = some true} where
  kinds := by
    intro edge isValid
    rcases describes.exists_leads isValid with ⟨channel, start, finish, rfl, leads⟩
    rw [turn_number small leads, EdgeIndex.repulsive_graph_number]
    exact EdgeIndex.repulsive_graph_number _ _ _
  joins := by
    intro edge isValid a b
    rcases describes.exists_leads isValid with ⟨channel, start, finish, rfl, leads⟩
    have ends := (describes.ends?_eq_some_iff small).2 ⟨channel, rfl, leads⟩
    have turned := ends?_turn describes all otherDescribes otherAll small leads
    unfold SignedGraph.Joins
    rw [ends, turned]
    cases flipped channel with
    | false => simp
    | true =>
        simp only [if_true, Option.some.injEq, Prod.mk.injEq]
        rw [or_comm, and_comm, @and_comm (finish = a)]

/-- The ranking of the flipped weights lists the renamed edges in their old order. -/
theorem ranked_turn (weightShape : weights.shape = stencil.edgeShape layout.shape)
    (otherShape : other.shape = weights.shape)
    (flips : Flips stencil flipped layout weights other) :
    Ranking.ranked (scaled other (stencil.flip flipped) settings) otherValid =
      (Ranking.ranked (scaled weights stencil settings) valid).map
        (turn stencil flipped layout) := by
  have flippedShape : other.shape = (stencil.flip flipped).edgeShape layout.shape := by
    rw [edgeShape_flip, otherShape, weightShape]
  apply Ranking.ranked_eq_map
  · intro edge
    rw [mem_ranked_iff flippedShape otherDescribes]
    constructor
    · rintro ⟨channel, start, finish, rfl, leads⟩
      have back : EdgeMask.Leads stencil layout valid channel
          (if flipped channel then finish else start).val
          (if flipped channel then start else finish).val := by
        apply (leads_flip_iff describes all otherDescribes otherAll).1
        cases flipped channel <;> exact leads
      refine ⟨_, (mem_ranked_iff weightShape describes).2 ⟨channel, _, _, rfl, back⟩, ?_⟩
      rw [turn_number small back]
      cases flipped channel <;> rfl
    · rintro ⟨old, member, rfl⟩
      rcases (mem_ranked_iff weightShape describes).1 member with
        ⟨channel, start, finish, rfl, leads⟩
      rw [turn_number small leads]
      exact ⟨channel, _, _, rfl, (leads_flip_iff describes all otherDescribes otherAll).2 leads⟩
  · intro edge member
    rcases (mem_ranked_iff weightShape describes).1 member with ⟨channel, start, finish, rfl, leads⟩
    have inside : (if flipped channel then finish else start).val < layout.size := Fin.isLt _
    rw [turn_number small leads, Ranking.priority, Ranking.priority, Array.getElem?_map,
      Array.getElem?_map, EdgeIndex.number_ofLayout, EdgeIndex.number_ofLayout,
      getElem?_scaled flippedShape channel inside, getElem?_scaled weightShape channel start.isLt,
      flips.weight leads]
    rfl
  · intro edge member later laterMember less
    exact turn_lt_turn small describes (Ranking.mem_ranked.1 member).2
      (Ranking.mem_ranked.1 laterMember).2 less

end Flip

theorem linked_chosen_map_iff {ν : Type} {graph other : SignedGraph ν} {rename : Nat → Nat}
    {order : List Nat} (renames : SignedGraph.Renames graph other rename (SignedGraph.listed order))
    (algorithm : Algorithm) {a b : ν} :
    other.Linked (other.chosen algorithm (order.map rename)) a b ↔
      graph.Linked (graph.chosen algorithm order) a b := by
  have image : other.chosen algorithm (order.map rename) =
      rename '' graph.chosen algorithm order := by
    cases algorithm with
    | kruskal => exact renames.greedy_map order
    | prim => exact renames.greedy_map order
    | divisive => exact renames.forest_map order
  rw [image]
  exact (renames.anti (graph.chosen_subset algorithm order)).linked_iff

/-- Two runs that differ in the direction of some channels link the same cells. -/
theorem Run.linked_flip_iff {region : Option (Tensor Bool)} {result turned : Tensor Nat}
    (run : Run weights stencil settings region layout kept valid result)
    (otherRun : Run other (stencil.flip flipped) settings region layout otherKept otherValid turned)
    (unthinned : settings.strides = none) (small : layout.size ≤ addressLimit / 2)
    (shape : other.shape = weights.shape) (flips : Flips stencil flipped layout weights other)
    (u v : Fin (EdgeIndex.ofLayout stencil layout).nodes) :
    ((EdgeIndex.ofLayout (stencil.flip flipped) layout).graph otherValid.data).Linked
        (((EdgeIndex.ofLayout (stencil.flip flipped) layout).graph otherValid.data).chosen
          settings.algorithm
          (Ranking.ranked (scaled other (stencil.flip flipped) settings) otherValid)) u v ↔
      ((EdgeIndex.ofLayout stencil layout).graph valid.data).Linked
        (((EdgeIndex.ofLayout stencil layout).graph valid.data).chosen settings.algorithm
          (Ranking.ranked (scaled weights stencil settings) valid)) u v := by
  have all := run.unthinned unthinned
  have otherAll := otherRun.unthinned unthinned
  have ranked : Ranking.ranked (scaled other (stencil.flip flipped) settings) otherValid =
      (Ranking.ranked (scaled weights stencil settings) valid).map (turn stencil flipped layout) :=
    ranked_turn run.describes all otherRun.describes otherAll small run.weightShape shape flips
  have renames := renames_turn run.describes all otherRun.describes otherAll small
  rw [ranked]
  apply linked_chosen_map_iff
  apply renames.anti
  intro edge member
  exact (Ranking.mem_ranked.1 member).2

theorem gridLayout_flip (shape : other.shape = weights.shape) (region : Option (Tensor Bool)) :
    gridLayout other (stencil.flip flipped) settings region =
      gridLayout weights stencil settings region := by
  have gridShape : (stencil.flip flipped).gridShape weights.shape =
      stencil.gridShape weights.shape := by
    cases weights.shape with
    | nil => rfl
    | cons channels grid =>
        rw [Stencil.gridShape, channelCount_flip]
        rfl
  rw [gridLayout, gridLayout, EdgeMask.gridLayout, EdgeMask.gridLayout, shape, gridShape]
  rfl

/--
The direction of a channel is invisible. When any channels are flipped and their weights are moved
to the other ends of their links, a segmentation that thins out no edges fails as before or finds
the same clusters, whatever the algorithm; and with a region the same cells get the label zero. All
that is asked of the weights is that they can be stored, since flat distances are exact only then.
-/
theorem seededLabels_flip (weights other : Tensor Binary32) (stencil : Stencil)
    (flipped : Nat → Bool) (settings : Settings) (region : Option (Tensor Bool))
    (storable : Storage.check weights.size Storage.halfWordBytes = .ok ())
    (unthinned : settings.strides = none) (shape : other.shape = weights.shape)
    (flips : ∀ layout, Layout.ofShape weights.shape.tail = .ok layout →
      Flips stencil flipped layout weights other) :
    (∃ error, seededLabels weights stencil settings region = .error error ∧
      seededLabels other (stencil.flip flipped) settings region = .error error) ∨
    ∃ result turned, seededLabels weights stencil settings region = .ok result ∧
      seededLabels other (stencil.flip flipped) settings region = .ok turned ∧
      turned.shape = result.shape ∧
      (∀ u v, u < result.size → v < result.size →
        (turned.data[u]? = turned.data[v]? ↔ result.data[u]? = result.data[v]?)) ∧
      (region.isSome → ∀ u < result.size,
        turned.data[u]? = some 0 ↔ result.data[u]? = some 0) := by
  cases planned : gridLayout weights stencil settings region with
  | error error =>
      have otherPlanned :=
        (@gridLayout_flip stencil flipped _ _ settings shape region).trans planned
      exact .inl ⟨error, seededLabels_eq_error planned, seededLabels_eq_error otherPlanned⟩
  | ok layout =>
      have otherPlanned :=
        (@gridLayout_flip stencil flipped _ _ settings shape region).trans planned
      rcases exists_run planned with ⟨kept, valid, result, run⟩
      rcases exists_run otherPlanned with ⟨otherKept, otherValid, turned, otherRun⟩
      have small := size_le_of_checkStorage run.weightShape storable
      have laid : Layout.ofShape weights.shape.tail = .ok layout := by
        rw [run.weightShape]
        exact (EdgeMask.gridLayout_eq_ok planned).2.1
      have linked := run.linked_flip_iff otherRun unthinned small shape (flips layout laid)
      have size : result.size = layout.size := by
        rw [Tensor.size_eq_volume, run.shape]
        rfl
      refine .inr ⟨result, turned, run.labelled, otherRun.labelled,
        otherRun.shape.trans run.shape.symm, ?_, ?_⟩
      · intro u v insideU insideV
        rw [size] at insideU insideV
        rw [run.same_iff ⟨u, insideU⟩ ⟨v, insideV⟩, ← linked]
        exact otherRun.same_iff ⟨u, insideU⟩ ⟨v, insideV⟩
      · intro restricted u inside
        rw [size] at inside
        rw [run.zero_iff restricted ⟨u, inside⟩]
        exact otherRun.zero_iff restricted ⟨u, inside⟩

/-- Three cells in a row, whose repulsive channel is flipped. -/
theorem seededLabels_flip_row :
    ∃ (weights other : Tensor Binary32) (stencil : Stencil) (result turned : Tensor Nat),
      stencil.offsets = [[1], [2]] ∧
      (stencil.flip (· == 1)).offsets = [[1], [-2]] ∧
      Storage.check weights.size Storage.halfWordBytes = .ok () ∧
      Settings.standard.strides = none ∧ other.shape = weights.shape ∧
      (∀ layout, Layout.ofShape weights.shape.tail = .ok layout →
        Flips stencil (· == 1) layout weights other) ∧
      seededLabels weights stencil Settings.standard none = .ok result ∧
      seededLabels other (stencil.flip (· == 1)) Settings.standard none = .ok turned ∧
      ∀ u v, u < result.size → v < result.size →
        (turned.data[u]? = turned.data[v]? ↔ result.data[u]? = result.data[v]?) := by
  let stencil : Stencil := ⟨[[1], [2]], 1, 1, by decide, by decide, by decide⟩
  let weights : Tensor Binary32 := ⟨[2, 3], #[.one, .one, .zero, .zero, .one, .one], rfl⟩
  let other : Tensor Binary32 := ⟨[2, 3], #[.one, .one, .zero, .one, .one, .zero], rfl⟩
  have flips : ∀ layout, Layout.ofShape weights.shape.tail = .ok layout →
      Flips stencil (· == 1) layout weights other := by
    rintro _ ⟨⟩
    constructor
    · intro channel offset known isFlipped cell target shifted
      obtain rfl : channel = 1 := by simpa using isFlipped
      obtain rfl : [2] = offset := Option.some.inj known
      rcases Layout.distance_of_shift?_eq shifted with ⟨inside, targetInside, -⟩
      have table : ∀ cell < 3, ∀ target < 3,
          Layout.shift? ⟨[3], by decide⟩ cell [2] = some target →
            other.data[1 * 3 + target]? = weights.data[1 * 3 + cell]? := by decide
      exact table cell inside target targetInside shifted
    · intro channel below isKept cell inside
      obtain rfl : channel = 0 := by
        have : channel < 2 := below
        have : channel ≠ 1 := by simpa using isKept
        omega
      have table : ∀ cell < 3, other.data[0 * 3 + cell]? = weights.data[0 * 3 + cell]? := by decide
      exact table cell inside
  have planned : gridLayout weights stencil Settings.standard none = .ok ⟨[3], by decide⟩ := rfl
  rcases exists_run planned with ⟨kept, valid, found, run⟩
  rcases seededLabels_flip weights other stencil (· == 1) Settings.standard none (by decide) rfl rfl
      flips with ⟨error, failed, -⟩ | ⟨result, turned, labelled, turnedLabelled, -, same, -⟩
  · exact absurd (run.labelled.symm.trans failed) (by simp)
  · exact ⟨weights, other, stencil, result, turned, rfl, rfl, by decide, rfl, rfl, flips, labelled,
      turnedLabelled, same⟩

end Segmentation

end Watershed
