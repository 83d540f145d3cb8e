import Watershed.Proofs.EdgeIndex
import Watershed.Proofs.Layout
import Watershed.Proofs.Mask
import Watershed.Proofs.Tensor

/-!
# The edges of a grid

A valid edge of a channel leads from a cell to its neighbour at the offset of the channel. The
numbering of edges knows flat distances only; as long as these are exact, which they are in every
grid that is not too large, the ends of a number are the two cells between which its edge leads.
-/

namespace Watershed

namespace EdgeIndex

variable {stencil : Stencil} {gridShape : List Nat} {index : EdgeIndex} {layout : Layout}

/-- The numbering of the edges over the cells of a layout. -/
def ofLayout (stencil : Stencil) (layout : Layout) : EdgeIndex where
  nodes := layout.size
  steps := (stencil.flatOffsets layout).toArray
  attractiveCount := layout.size * stencil.attractive

theorem ofGrid_eq_ok (numbered : ofGrid stencil gridShape = .ok index) :
    gridShape.length = stencil.rank ∧ ∃ layout, Layout.ofShape gridShape = .ok layout ∧
      index = ofLayout stencil layout := by
  unfold ofGrid at numbered
  rcases Error.bind_eq_ok_iff.1 numbered with ⟨_, checked, numbered⟩
  rcases Error.bind_eq_ok_iff.1 numbered with ⟨layout, laid, answered⟩
  exact ⟨Stencil.checkGrid_eq_ok_iff.1 checked, layout, laid, (Except.ok.inj answered).symm⟩

theorem ofGrid_eq (ranks : gridShape.length = stencil.rank)
    (laid : Layout.ofShape gridShape = .ok layout) :
    ofGrid stencil gridShape = .ok (ofLayout stencil layout) := by
  rw [ofGrid, Stencil.checkGrid, if_pos ranks, laid]
  rfl

theorem size_eq_count {α : Type} (numbered : ofGrid stencil gridShape = .ok index)
    {tensor : Tensor α} (shaped : tensor.shape = stencil.edgeShape gridShape) :
    tensor.size = index.count := by
  rcases ofGrid_eq_ok numbered with ⟨-, layout, laid, rfl⟩
  rw [tensor.size_eq_volume, shaped, Stencil.edgeShape, volume, count, channels, Nat.mul_comm,
    ofLayout, Layout.size, Layout.ofShape_eq_ok laid]
  simp [Stencil.flatOffsets, Stencil.channelCount]

theorem number_ofLayout (channel cell : Nat) :
    (ofLayout stencil layout).number channel cell = channel * layout.size + cell :=
  rfl

/-- The edge of a channel from a cell ends at the neighbour at the offset of the channel. -/
theorem ends?_number_of_shift? (small : layout.size ≤ addressLimit / 2) {channel : Nat}
    {offset : Offset} (known : stencil.offsets[channel]? = some offset)
    {cell other : Fin (ofLayout stencil layout).nodes}
    (shifted : layout.shift? cell offset = some other.val) :
    (ofLayout stencil layout).ends? ((ofLayout stencil layout).number channel cell) =
      some (cell, other) := by
  have exact := Layout.flatOffset_of_shift?_eq small shifted
  refine ends?_number_eq_some_iff.2 ⟨rfl, layout.flatOffset offset, ?_, ?_⟩
  · simp [ofLayout, Stencil.flatOffsets, known]
  · rw [neighbor?_eq_some_iff, exact]
    omega

/-- The kind of an edge is that of its channel. -/
theorem isRepulsive_number (channel : Nat) {cell : Nat} (inside : cell < layout.size) :
    (ofLayout stencil layout).isRepulsive ((ofLayout stencil layout).number channel cell) =
      decide (stencil.attractive ≤ channel) := by
  rw [isRepulsive, decide_eq_decide]
  change layout.size * stencil.attractive ≤ channel * layout.size + cell ↔
    stencil.attractive ≤ channel
  rw [Nat.mul_comm, ← Nat.not_lt, mul_add_lt_mul_iff inside, Nat.not_lt]

theorem repulsive_graph_number (valid : Array Bool) (channel : Nat)
    (cell : Fin (ofLayout stencil layout).nodes) :
    ((ofLayout stencil layout).graph valid).repulsive
        ((ofLayout stencil layout).number channel cell) =
      decide (stencil.attractive ≤ channel) :=
  isRepulsive_number channel cell.isLt

end EdgeIndex

namespace EdgeMask

/-- A valid edge of a channel leads from one cell to another. -/
def Leads (stencil : Stencil) (layout : Layout) (valid : Tensor Bool) (channel cell other : Nat) :
    Prop :=
  valid.data[channel * layout.size + cell]? = some true ∧
    ∃ offset, stencil.offsets[channel]? = some offset ∧ layout.shift? cell offset = some other

variable {stencil : Stencil} {layout : Layout} {excluded : Option (Tensor Bool)}
  {kept : Nat → Bool} {valid : Tensor Bool}

/-- A valid number with two ends is that of an edge that leads from one of them to the other. -/
theorem Describes.leads_of_ends?_eq (describes : Describes stencil layout excluded kept valid)
    {edge : Nat} {cell other : Fin (EdgeIndex.ofLayout stencil layout).nodes}
    (ends : ((EdgeIndex.ofLayout stencil layout).graph valid.data).ends? edge =
      some (cell, other)) :
    ∃ channel, edge = (EdgeIndex.ofLayout stencil layout).number channel cell ∧
      Leads stencil layout valid channel cell other := by
  rcases EdgeIndex.ends?_graph_eq_some_iff.1 ends with ⟨isValid, ends⟩
  rcases EdgeIndex.ends?_eq_some_iff.1 ends with ⟨start, step, known, reached⟩
  have numbered : edge = edge / layout.size * layout.size + cell := by
    rw [start]
    exact ((EdgeIndex.ofLayout stencil layout).number_div_mod edge).symm
  obtain ⟨offset, offsetKnown, rfl⟩ : ∃ offset,
      stencil.offsets[edge / layout.size]? = some offset ∧ layout.flatOffset offset = step := by
    simpa [EdgeIndex.ofLayout, Stencil.flatOffsets] using known
  refine ⟨edge / layout.size, numbered, numbered ▸ isValid, offset, offsetKnown, ?_⟩
  rw [numbered] at isValid
  rcases (describes.valid_iff _ offset offsetKnown cell cell.isLt).1 isValid with
      ⟨-, neighbour, shifted, -⟩
  rw [Layout.eq_of_flatOffset_of_shift?_eq shifted other.isLt
    (EdgeIndex.neighbor?_eq_some_iff.1 reached)]
  exact shifted

/-- The ends of a valid number are the cells between which its edge leads. -/
theorem Describes.ends?_eq_some_iff (describes : Describes stencil layout excluded kept valid)
    (small : layout.size ≤ addressLimit / 2) {edge : Nat}
    {cell other : Fin (EdgeIndex.ofLayout stencil layout).nodes} :
    ((EdgeIndex.ofLayout stencil layout).graph valid.data).ends? edge = some (cell, other) ↔
      ∃ channel, edge = (EdgeIndex.ofLayout stencil layout).number channel cell ∧
        Leads stencil layout valid channel cell other := by
  constructor
  · exact describes.leads_of_ends?_eq
  · rintro ⟨channel, rfl, isValid, offset, known, shifted⟩
    exact EdgeIndex.ends?_graph_eq_some_iff.2
      ⟨isValid, EdgeIndex.ends?_number_of_shift? small known shifted⟩

theorem Describes.exists_leads (describes : Describes stencil layout excluded kept valid)
    {edge : Nat} (isValid : valid.data[edge]? = some true) :
    ∃ channel, ∃ cell other : Fin (EdgeIndex.ofLayout stencil layout).nodes,
      edge = (EdgeIndex.ofLayout stencil layout).number channel cell ∧
        Leads stencil layout valid channel cell other := by
  have below : edge < stencil.offsets.length * layout.size := by
    have size : valid.data.size = stencil.offsets.length * layout.size := by
      have volumes := valid.size_eq_volume
      rw [describes.shape] at volumes
      exact volumes
    rw [← size]
    exact (Array.getElem?_eq_some_iff.1 isValid).1
  have positive : 0 < layout.size := by
    by_contra empty
    rw [Nat.eq_zero_of_not_pos empty, Nat.mul_zero] at below
    exact absurd below (Nat.not_lt_zero _)
  have inside : edge % layout.size < layout.size := Nat.mod_lt edge positive
  have known := List.getElem?_eq_getElem ((Nat.div_lt_iff_lt_mul positive).2 below)
  have numbered : edge = edge / layout.size * layout.size + edge % layout.size := by
    rw [Nat.mul_comm, Nat.div_add_mod]
  rw [numbered] at isValid
  rcases (describes.valid_iff _ _ known _ inside).1 isValid with ⟨-, other, shifted, -⟩
  exact ⟨edge / layout.size, ⟨edge % layout.size, inside⟩,
    ⟨other, (Layout.distance_of_shift?_eq shifted).2.1⟩, numbered, isValid, _, known, shifted⟩

theorem Describes.included (describes : Describes stencil layout excluded kept valid)
    {channel cell other : Nat} (leads : Leads stencil layout valid channel cell other) :
    cell < layout.size ∧ other < layout.size ∧ Included excluded cell ∧
      Included excluded other := by
  rcases leads with ⟨isValid, offset, known, shifted⟩
  rcases Layout.distance_of_shift?_eq shifted with ⟨inside, otherInside, -⟩
  rcases (describes.valid_iff _ offset known cell inside).1 isValid with
      ⟨-, neighbour, same, included⟩
  rcases Option.some.inj (shifted.symm.trans same) with rfl
  exact ⟨inside, otherInside, included⟩

/-- An edge between two nodes leads from one of them to the other. -/
theorem Describes.leads_of_joins (describes : Describes stencil layout excluded kept valid)
    {edge : Nat} {cell other : Fin (EdgeIndex.ofLayout stencil layout).nodes}
    (joins : ((EdgeIndex.ofLayout stencil layout).graph valid.data).Joins edge cell other) :
    ∃ channel, (edge = (EdgeIndex.ofLayout stencil layout).number channel cell ∧
        Leads stencil layout valid channel cell other) ∨
      (edge = (EdgeIndex.ofLayout stencil layout).number channel other ∧
        Leads stencil layout valid channel other cell) := by
  rcases joins with ends | ends
  · rcases describes.leads_of_ends?_eq ends with ⟨channel, leads⟩
    exact ⟨channel, .inl leads⟩
  · rcases describes.leads_of_ends?_eq ends with ⟨channel, leads⟩
    exact ⟨channel, .inr leads⟩

/-- An edge stays valid if fewer cells are excluded. -/
theorem Describes.valid_of_included (describes : Describes stencil layout excluded kept valid)
    {otherExcluded : Option (Tensor Bool)} {otherValid : Tensor Bool}
    (others : Describes stencil layout otherExcluded kept otherValid)
    (included : ∀ cell < layout.size, Included excluded cell → Included otherExcluded cell)
    {edge : Nat} (isValid : valid.data[edge]? = some true) :
    otherValid.data[edge]? = some true := by
  rcases describes.exists_leads isValid with ⟨channel, cell, other, rfl, leads⟩
  rcases describes.included leads with ⟨inside, otherInside, cellIncluded, otherIncluded⟩
  rcases leads with ⟨isValid, offset, known, shifted⟩
  rcases (describes.valid_iff channel offset known cell inside).1 isValid with ⟨keeps, -⟩
  exact (others.valid_iff channel offset known cell inside).2 ⟨keeps, other, shifted,
    included cell inside cellIncluded, included other otherInside otherIncluded⟩

/-- Masks that keep the same edges and exclude the same cells are equal. -/
theorem Describes.eq_of_included_iff (describes : Describes stencil layout excluded kept valid)
    {otherExcluded : Option (Tensor Bool)} {otherValid : Tensor Bool}
    (others : Describes stencil layout otherExcluded kept otherValid)
    (same : ∀ cell < layout.size, Included excluded cell ↔ Included otherExcluded cell) :
    valid = otherValid := by
  have sizes : valid.size = otherValid.size := by
    rw [Tensor.size_eq_volume, Tensor.size_eq_volume, describes.shape, others.shape]
  have data : valid.data = otherValid.data := by
    apply Array.ext sizes
    intro edge below otherBelow
    have forth := @Describes.valid_of_included _ _ _ _ _ describes _ _ others
      (fun cell inside => (same cell inside).1) edge
    have back := @Describes.valid_of_included _ _ _ _ _ others _ _ describes
      (fun cell inside => (same cell inside).2) edge
    simp only [Array.getElem?_eq_getElem below, Array.getElem?_eq_getElem otherBelow,
      Option.some.injEq] at forth back
    exact Bool.eq_iff_iff.2 ⟨forth, back⟩
  exact Tensor.ext (describes.shape.trans others.shape.symm) data

end EdgeMask

end Watershed
