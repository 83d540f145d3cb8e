import Watershed.Edge.Weights
import Watershed.Proofs.Coordinates
import Watershed.Proofs.GridEdges

/-!
# Addresses of edges

An edge is addressed in four ways: by its channel and the coordinates of the cell that it starts
from, by its position in the block of its channel, by its number, and by the side of the split on
which its channel lies. Each of them multiplies the lengths of the axes on its own: the layout of
the edges from the last axis to the first, a tensor from the first to the last, the numbering and
the scaling of weights through the number of cells. All of them name the same element.
-/

namespace Watershed

namespace Tensor

variable {α : Type} {tensor other : Tensor α} {grid : Layout} {channels channel : Nat}

theorem channelSize_eq_size (shaped : tensor.shape = channels :: grid.shape) :
    tensor.channelSize = grid.size :=
  channelSize_eq_volume shaped

theorem size_eq_mul (shaped : tensor.shape = channels :: grid.shape) :
    tensor.size = channels * grid.size := by
  rw [size_eq_volume, shaped]
  rfl

theorem channel?_eq (shaped : tensor.shape = channels :: grid.shape) (known : channel < channels) :
    tensor.channel? channel =
      some (tensor.data.extract (channel * grid.size) ((channel + 1) * grid.size)) := by
  have counted : channel < tensor.channelCount := channelCount_eq shaped ▸ known
  rw [tensor.channel?_eq_some counted, channelSize_eq_size shaped]

/-- A channel holds one element per cell. -/
theorem exists_channel? (shaped : tensor.shape = channels :: grid.shape)
    (known : channel < channels) :
    ∃ block, tensor.channel? channel = some block ∧ block.size = grid.size ∧
      ∀ node < grid.size, block[node]? = tensor.data[channel * grid.size + node]? := by
  have last : (channel + 1) * grid.size ≤ tensor.data.size := by
    rw [← Tensor.size, size_eq_mul shaped]
    exact Nat.mul_le_mul_right _ known
  refine ⟨_, channel?_eq shaped known, ?_, fun node inside => ?_⟩
  · rw [Array.size_extract, Nat.min_eq_left last, Nat.succ_mul]
    omega
  · rw [Array.getElem?_extract, if_pos]
    rw [Nat.min_eq_left last, Nat.succ_mul]
    omega

/-- Channels with the same elements are equal. -/
theorem channel?_eq_some_of_getElem? (shaped : tensor.shape = channels :: grid.shape)
    (known : channel < channels) {block : Array α} (sized : block.size = grid.size)
    (same : ∀ node < grid.size, tensor.data[channel * grid.size + node]? = block[node]?) :
    tensor.channel? channel = some block := by
  rcases exists_channel? shaped known with ⟨found, held, foundSize, entries⟩
  rw [held]
  congr 1
  apply Array.ext_getElem?
  intro node
  by_cases inside : node < grid.size
  · rw [entries node inside, same node inside]
  · rw [Array.getElem?_eq_none (by omega), Array.getElem?_eq_none (by omega)]

/-- A change of one channel reaches exactly the elements of its block. -/
theorem getElem?_of_mapChannel?_eq (shaped : tensor.shape = channels :: grid.shape)
    {f : Nat → α → α} (written : tensor.mapChannel? channel f = some other) (place : Nat)
    {node : Nat} (inside : node < grid.size) :
    other.data[place * grid.size + node]? =
      tensor.data[place * grid.size + node]?.map (if place = channel then f node else id) := by
  rw [mapChannel?, channelSize_eq_size shaped] at written
  split at written
  · obtain rfl := Option.some.inj written
    have before : place * grid.size + node < channel * grid.size ↔ place < channel :=
      mul_add_lt_mul_iff inside
    have behind : place * grid.size + node < (channel + 1) * grid.size ↔ place < channel + 1 :=
      mul_add_lt_mul_iff inside
    rw [getElem?_mapIdx]
    congr 1
    funext old
    by_cases same : place = channel
    · subst same
      rw [if_pos rfl, if_pos ⟨Nat.le_add_right _ _, behind.2 (Nat.lt_succ_self _)⟩,
        Nat.add_sub_cancel_left]
    · rw [if_neg same, if_neg fun both => ?_]
      · rfl
      · omega
  · exact absurd written (by simp)

theorem exists_mapChannel?_eq (shaped : tensor.shape = channels :: grid.shape)
    (known : channel < channels) (f : Nat → α → α) :
    ∃ written, tensor.mapChannel? channel f = some written ∧ written.shape = tensor.shape := by
  have counted : channel < tensor.channelCount := channelCount_eq shaped ▸ known
  have last : (channel + 1) * tensor.channelSize ≤ tensor.data.size :=
    Nat.le_trans (Nat.mul_le_mul_right _ counted) tensor.mul_channelSize_le
  exact ⟨_, if_pos ⟨counted, last⟩, rfl⟩

/-- A change of one channel leaves all others as they are. -/
theorem channel?_of_mapChannel?_eq (shaped : tensor.shape = channels :: grid.shape)
    {f : Nat → α → α} (written : tensor.mapChannel? channel f = some other)
    (shape : other.shape = tensor.shape) {place : Nat} (known : place < channels) :
    other.channel? place = (tensor.channel? place).map fun block =>
      if place = channel then block.mapIdx f else block := by
  rcases exists_channel? shaped known with ⟨block, held, sized, entries⟩
  rw [held, Option.map_some]
  apply channel?_eq_some_of_getElem? (shape.trans shaped) known
  · split
    · rw [Array.size_mapIdx, sized]
    · exact sized
  · intro node inside
    rw [getElem?_of_mapChannel?_eq shaped written place inside, ← entries node inside]
    split
    · rw [Array.getElem?_mapIdx]
    · exact Option.map_id_apply

/-- The channels one after another are all elements. -/
theorem flatMap_channel? (shaped : tensor.shape = channels :: grid.shape) :
    ((List.range channels).flatMap fun channel => ((tensor.channel? channel).getD #[]).toList) =
      tensor.data.toList := by
  have blocks : ∀ channel ∈ List.range channels, ((tensor.channel? channel).getD #[]).toList =
      (tensor.data.extract (channel * grid.size) ((channel + 1) * grid.size)).toList := by
    intro channel member
    rw [channel?_eq shaped (List.mem_range.1 member), Option.getD_some]
  rw [List.flatMap_congr blocks, flatMap_extract, ← size_eq_mul shaped, Tensor.size,
    Array.extract_size]

/-- A tensor with a channel leaves no overflow to the product of the axes behind it. -/
theorem volume?_rest_eq (shaped : tensor.shape = channels :: grid.shape) (filled : 0 < channels) :
    volume? grid.shape = some grid.size :=
  volume?_of_cons filled (shaped ▸ tensor.volume?_eq_some)

end Tensor

namespace EdgeIndex

variable {stencil : Stencil} {grid : Layout} {index : EdgeIndex} {edge channel node : Nat}

theorem channels_ofLayout : (ofLayout stencil grid).channels = stencil.channelCount := by
  simp [channels, ofLayout, Stencil.flatOffsets, Stencil.channelCount]

/-- Every edge has one channel and starts from one node. -/
theorem existsUnique_number (known : edge < index.count) :
    ∃! place : Nat × Nat, place.1 < index.channels ∧ place.2 < index.nodes ∧
      index.number place.1 place.2 = edge := by
  have positive : 0 < index.nodes := by
    by_contra empty
    rw [count, Nat.eq_zero_of_not_pos empty, Nat.zero_mul] at known
    exact absurd known (Nat.not_lt_zero _)
  have channelKnown : edge / index.nodes < index.channels :=
    (Nat.div_lt_iff_lt_mul positive).2 (Nat.mul_comm _ _ ▸ known)
  refine ⟨(edge / index.nodes, edge % index.nodes),
    ⟨channelKnown, Nat.mod_lt edge positive, index.number_div_mod edge⟩, ?_⟩
  rintro ⟨channel, node⟩ ⟨-, inside, rfl⟩
  exact Prod.ext (div_number channel ⟨node, inside⟩).symm (mod_number channel ⟨node, inside⟩).symm

end EdgeIndex

theorem Layout.index?_cons_eq_some {edges grid : Layout} {channels channel node : Nat}
    {cell : Coordinates} (shaped : edges.shape = channels :: grid.shape)
    (known : channel < channels) (found : grid.index? cell = some node) :
    edges.index? (channel :: cell) = some (channel * grid.size + node) := by
  rw [Layout.index?, shaped, rowMajorIndex?, if_pos known]
  exact congrArg (Option.map _) found

/-- The weights are scaled on the two sides of the split on which the kinds of the edges lie. -/
theorem EdgeWeights.transform_eq_of_shape {stencil : Stencil} {grid : Layout}
    {weights : Tensor Binary32} (shaped : weights.shape = stencil.edgeShape grid.shape)
    (invert : Bool) (bias : Binary32) :
    ∃ scaled, transform weights stencil.attractive invert bias = .ok scaled ∧
      scaled.shape = weights.shape ∧
      ∀ edge : Nat, scaled.data[edge]? = weights.data[edge]?.map
        (if (EdgeIndex.ofLayout stencil grid).isRepulsive edge then repulsive invert
        else attractive bias) := by
  have enough : stencil.attractive ≤ weights.channelCount :=
    Tensor.channelCount_eq shaped ▸ stencil.attractive_le
  refine ⟨_, if_pos enough, rfl, fun edge => ?_⟩
  have behind : (EdgeIndex.ofLayout stencil grid).isRepulsive edge =
      decide (¬ edge < stencil.attractive * grid.size) := by
    rw [EdgeIndex.isRepulsive, decide_eq_decide, Nat.not_lt, Nat.mul_comm]
    rfl
  rw [Tensor.getElem?_mapIdx, Tensor.channelSize_eq_size shaped, behind]
  by_cases attracts : edge < stencil.attractive * grid.size <;> simp [attracts]

namespace EdgeIndex

/--
A channel of a tensor over the edges of a grid is a block with one element per cell. Coordinates and
edge numbers address the elements of the block, and writing to it leaves the other channels alone.
-/
structure AddressesChannel {α : Type} (index : EdgeIndex) (grid edges : Layout) (tensor : Tensor α)
    (channel : Nat) (block : Array α) : Prop where
  held : tensor.channel? channel = some block
  sized : block.size = grid.size
  numbered : ∀ node < grid.size, block[node]? = tensor.data[index.number channel node]?
  located : ∀ cell, InGrid grid.shape cell → ∃ node entry, grid.index? cell = some node ∧
    index.number channel node = channel * grid.size + node ∧
    edges.index? (channel :: cell) = some (index.number channel node) ∧
    tensor.get? (channel :: cell) = .ok (some entry) ∧ block[node]? = some entry
  written : ∀ f, ∃ changed, tensor.mapChannel? channel f = some changed ∧
    changed.shape = tensor.shape ∧ changed.channel? channel = some (block.mapIdx f) ∧
    ∀ other < tensor.channelCount, other ≠ channel →
      changed.channel? other = tensor.channel? other

variable {α : Type} {stencil : Stencil} {grid edges : Layout} {tensor : Tensor α} {channel : Nat}

theorem exists_addressesChannel (tensorShape : tensor.shape = stencil.edgeShape grid.shape)
    (edgesShape : edges.shape = stencil.edgeShape grid.shape)
    (known : channel < stencil.channelCount) :
    ∃ block, (ofLayout stencil grid).AddressesChannel grid edges tensor channel block := by
  rcases Tensor.exists_channel? tensorShape known with ⟨block, held, sized, entries⟩
  refine ⟨block, held, sized, entries, fun cell inGrid => ?_, fun f => ?_⟩
  · rcases Layout.exists_index_of_inGrid inGrid with ⟨node, found⟩
    rcases Tensor.exists_get?_cons tensorShape known found with ⟨entry, read, present⟩
    have inside : node < grid.size := (rowMajorIndex?_eq_some_iff.1 found).1
    exact ⟨node, entry, found, rfl, Layout.index?_cons_eq_some edgesShape known found, read,
      (entries node inside).trans present⟩
  · rcases Tensor.exists_mapChannel?_eq tensorShape known f with ⟨changed, made, shape⟩
    refine ⟨changed, made, shape, ?_, fun other otherKnown different => ?_⟩
    · rw [Tensor.channel?_of_mapChannel?_eq tensorShape made shape known, held, Option.map_some,
        if_pos rfl]
    · rw [Tensor.channelCount_eq tensorShape] at otherKnown
      rw [Tensor.channel?_of_mapChannel?_eq tensorShape made shape otherKnown]
      simp only [if_neg different, Option.map_id']

/--
All addresses of an edge agree. Let the shape of the edges over a grid be that of a layout and of a
tensor. Then the cells of the grid and the edges are counted without an overflow, in every order of
the axes, and each edge number is that of one channel and one cell. Every channel of the tensor is a
block whose elements are addressed by the coordinates of the cells and by the edge numbers alike,
and that can be written to without a change of any other channel. The channels one after another are
all elements. An edge is repulsive if and only if its channel does not attract, and weights are
scaled as repulsive or as attractive ones accordingly.
-/
theorem addresses_agree {gridShape : List Nat} {data : Array α}
    (ranks : stencil.checkGrid gridShape = .ok ())
    (laid : Layout.ofShape (stencil.edgeShape gridShape) = .ok edges)
    (made : Tensor.ofArray (stencil.edgeShape gridShape) data = .ok tensor) :
    ∃ (grid : Layout) (index : EdgeIndex), Layout.ofShape gridShape = .ok grid ∧
      ofGrid stencil gridShape = .ok index ∧ volume? gridShape = some grid.size ∧
      (index.count = stencil.channelCount * grid.size ∧ edges.size = index.count ∧
        data.size = index.count ∧ index.count < addressLimit) ∧
      (∀ edge < index.count, ∃! place : Nat × Nat, place.1 < stencil.channelCount ∧
        place.2 < grid.size ∧ index.number place.1 place.2 = edge) ∧
      (∀ channel < stencil.channelCount,
        (∃ block, index.AddressesChannel grid edges tensor channel block) ∧
        ∀ node < grid.size, index.number channel node < index.count ∧
          (index.isRepulsive (index.number channel node) = true ↔
            stencil.isAttractive channel = false)) ∧
      ((List.range stencil.channelCount).flatMap fun channel =>
        ((tensor.channel? channel).getD #[]).toList) = data.toList ∧
      ∀ (weights : Tensor Binary32) (invert : Bool) (bias : Binary32),
        weights.shape = stencil.edgeShape gridShape →
        ∃ scaled, EdgeWeights.transform weights stencil.attractive invert bias = .ok scaled ∧
          scaled.shape = weights.shape ∧
          ∀ edge : Nat, scaled.data[edge]? = weights.data[edge]?.map
            (if index.isRepulsive edge then EdgeWeights.repulsive invert
            else EdgeWeights.attractive bias) := by
  rcases Tensor.of_ofArray_eq_ok made with ⟨tensorShape, rfl⟩
  have edgesShape := Layout.ofShape_eq_ok laid
  obtain ⟨grid, gridLaid, rfl⟩ : ∃ grid, Layout.ofShape gridShape = .ok grid ∧
      grid.shape = gridShape := by
    have addressable := edges.addressable
    rw [edgesShape] at addressable
    exact ⟨⟨gridShape, addressable.2⟩, dif_pos addressable.2, rfl⟩
  have indexed := ofGrid_eq (Stencil.checkGrid_eq_ok_iff.1 ranks) gridLaid
  have channelCount := @channels_ofLayout stencil grid
  have counted : (ofLayout stencil grid).count = stencil.channelCount * grid.size := by
    rw [count, channelCount, Nat.mul_comm]
    rfl
  have edgesSize : edges.size = stencil.channelCount * grid.size := by
    rw [Layout.size, edgesShape]
    rfl
  have filled : 0 < stencil.channelCount := List.length_pos_of_ne_nil stencil.nonempty
  refine ⟨grid, ofLayout stencil grid, gridLaid, indexed,
    Tensor.volume?_rest_eq tensorShape filled, ⟨counted, ?_, ?_, ?_⟩, fun edge known => ?_,
    fun channel known => ⟨?_, fun node inside => ?_⟩, Tensor.flatMap_channel? tensorShape,
    fun weights invert bias shaped => EdgeWeights.transform_eq_of_shape shaped invert bias⟩
  · rw [counted, edgesSize]
  · rw [counted]
    exact Tensor.size_eq_mul tensorShape
  · rw [counted, ← edgesSize]
    exact edges.size_lt_addressLimit
  · rw [← channelCount]
    exact existsUnique_number known
  · exact exists_addressesChannel tensorShape edgesShape known
  · refine ⟨number_lt_count (channelCount ▸ known) inside, ?_⟩
    rw [isRepulsive_number channel inside, decide_eq_true_iff, Stencil.isAttractive,
      decide_eq_false_iff_not, Nat.not_lt]

/--
Two rows of three cells with two attractive channels and a repulsive one. The edge of the last
channel from the start of the second row has number fifteen.
-/
theorem addresses_agree_rows :
    ∃ (stencil : Stencil) (edges : Layout) (tensor : Tensor Nat) (index : EdgeIndex),
      stencil.offsets = [[1, 0], [0, 1], [-1, 1]] ∧ stencil.attractive = 2 ∧
      stencil.checkGrid [2, 3] = .ok () ∧
      Layout.ofShape (stencil.edgeShape [2, 3]) = .ok edges ∧
      Tensor.ofArray (stencil.edgeShape [2, 3]) (Array.range 18) = .ok tensor ∧
      ofGrid stencil [2, 3] = .ok index ∧ index.number 2 3 = 15 ∧
      edges.index? [2, 1, 0] = some 15 ∧ tensor.get? [2, 1, 0] = .ok (some 15) ∧
      index.isRepulsive 15 = true := by
  let stencil : Stencil := ⟨[[1, 0], [0, 1], [-1, 1]], 2, 2, by decide, by decide, by decide⟩
  let edges : Layout := ⟨[3, 2, 3], by decide⟩
  let tensor : Tensor Nat := ⟨[3, 2, 3], Array.range 18, by decide⟩
  have ranks : stencil.checkGrid [2, 3] = .ok () := rfl
  have laid : Layout.ofShape (stencil.edgeShape [2, 3]) = .ok edges := rfl
  have made : Tensor.ofArray (stencil.edgeShape [2, 3]) (Array.range 18) = .ok tensor := rfl
  rcases addresses_agree ranks laid made with
    ⟨grid, index, gridLaid, indexed, -, -, -, channels, -, -⟩
  rcases channels 2 (by decide) with ⟨⟨block, addresses⟩, kinds⟩
  obtain rfl : ⟨[2, 3], by decide⟩ = grid := Except.ok.inj gridLaid
  obtain rfl : ⟨6, #[3, 1, -2], 12⟩ = index := Except.ok.inj indexed
  have inGrid : InGrid [2, 3] [1, 0] := isSome_rowMajorIndex?_iff.1 rfl
  rcases addresses.located [1, 0] inGrid with ⟨node, entry, found, -, numbered, read, present⟩
  obtain rfl : 3 = node := Option.some.inj found
  have fifteen : tensor.data[15]? = some 15 := by simp [tensor]
  have element : tensor.data[15]? = some entry :=
    (addresses.numbered 3 (by decide)).symm.trans present
  obtain rfl : 15 = entry := Option.some.inj (fifteen.symm.trans element)
  exact ⟨stencil, edges, tensor, _, rfl, rfl, ranks, laid, made, indexed, rfl, numbered, read,
    (kinds 3 (by decide)).2.2 rfl⟩

end EdgeIndex

end Watershed
