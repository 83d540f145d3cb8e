import Mathlib.Algebra.Ring.Int.Defs
import Watershed.Generator
import Watershed.Proofs.GridEdges

/-!
# All ways to a neighbour agree

The neighbour of a cell at an offset can be found in three ways: axis by axis, by an interval of
positions for each axis, and by one flat distance. In a grid with less than half as many cells as
there are addresses the three agree, and the flat distance comes out of signed 64-bit arithmetic in
which nothing overflows, whenever there is a neighbour: every step is then shorter than its axis, so
a partial sum of weighted steps stays below the number of cells.

The numbering of edges tests the flat target only, and a target beyond the end of an axis can pass
this test. The mask of valid edges keeps no edge with such a target.
-/

namespace Watershed

/-- The value of a signed 64-bit number. -/
def Fits64 (value : Int) : Prop :=
  -2 ^ 63 ≤ value ∧ value < 2 ^ 63

theorem wrap64_eq_self {value : Int} (fits : Fits64 value) : wrap64 value = value := by
  rcases fits with ⟨low, high⟩
  simp only [wrap64, addressLimit, UInt64.size]
  exact Int.bmod_eq_of_le (by omega) (by omega)

/-- Every step of an offset is shorter than its axis. -/
def StepsWithin (shape : List Nat) (offset : Offset) : Prop :=
  List.Forall₂ (fun (extent : Nat) (step : Int) => step.natAbs < extent) shape offset

/-- The steps of an offset, each weighted with the distance of neighbours along its axis. -/
def weightedSteps (shape : List Nat) (offset : Offset) : List Int :=
  List.zipWith (fun (step : Int) (stride : Nat) => step * stride) offset (axisStrides shape)

variable {shape : List Nat} {index : Nat} {coordinates moved : Coordinates} {offset : Offset}

theorem sum_weightedSteps (shape : List Nat) (offset : Offset) :
    (weightedSteps shape offset).sum = distance shape offset := by
  induction shape generalizing offset with
  | nil => simp [weightedSteps, axisStrides, distance]
  | cons extent shape ih =>
      cases offset with
      | nil => simp [weightedSteps, distance]
      | cons step offset =>
          rw [distance, ← ih]
          rfl

/-- An offset that leads from one cell to another has steps that are shorter than the axes. -/
theorem stepsWithin_of_displace? (known : rowMajorIndex? shape coordinates = some index)
    (displaced : displace? shape coordinates offset = some moved) : StepsWithin shape offset := by
  fun_induction displace? shape coordinates offset generalizing index moved with
  | case1 => exact .nil
  | case2 extent shape coordinate coordinates step offset inside ih =>
      rcases Option.map_eq_some_iff.1 displaced with ⟨rest, displacedRest, -⟩
      rw [rowMajorIndex?] at known
      split at known
      · rcases Option.map_eq_some_iff.1 known with ⟨tail, knownTail, -⟩
        exact .cons (by omega) (ih knownTail displacedRest)
      · exact absurd known (by simp)
  | case3 => exact absurd displaced (by simp)
  | case4 => exact absurd displaced (by simp)

namespace StepsWithin

theorem volume_pos (within : StepsWithin shape offset) : 0 < volume shape := by
  induction within with
  | nil => exact Nat.one_pos
  | cons shorter _ ih => exact Nat.mul_pos (Nat.lt_of_le_of_lt (Nat.zero_le _) shorter) ih

/-- A step that is shorter than its axis moves by less than the axis and those behind it hold. -/
theorem natAbs_step_add_le {extent : Nat} {step : Int} (shorter : step.natAbs < extent)
    (shape : List Nat) :
    (step * (volume shape : Int)).natAbs + volume shape ≤ volume (extent :: shape) := by
  have room := Nat.mul_le_mul_right (volume shape) (Nat.succ_le_of_lt shorter)
  rwa [Nat.succ_mul, ← Int.natAbs_natCast (volume shape), ← Int.natAbs_mul,
    Int.natAbs_natCast] at room

theorem stride_le (within : StepsWithin shape offset) {stride : Nat}
    (member : stride ∈ axisStrides shape) : stride ≤ volume shape := by
  induction within with
  | nil => exact absurd member List.not_mem_nil
  | @cons extent step shape offset shorter rest ih =>
      have room := natAbs_step_add_le shorter shape
      rcases List.mem_cons.1 member with rfl | later
      · omega
      · have := ih later
        omega

theorem natAbs_lt_of_mem (within : StepsWithin shape offset) {term : Int}
    (member : term ∈ weightedSteps shape offset) : term.natAbs < volume shape := by
  induction within with
  | nil => exact absurd member List.not_mem_nil
  | @cons extent step shape offset shorter rest ih =>
      have room := natAbs_step_add_le shorter shape
      have positive := volume_pos rest
      rcases List.mem_cons.1 member with rfl | later
      · change (step * (volume shape : Int)).natAbs < volume (extent :: shape)
        omega
      · have := ih later
        omega

/-- The steps up to any axis move by less than the number of cells. -/
theorem natAbs_sum_take_lt (within : StepsWithin shape offset) (count : Nat) :
    ((weightedSteps shape offset).take count).sum.natAbs < volume shape := by
  induction within generalizing count with
  | nil => simp [weightedSteps, volume]
  | @cons extent step shape offset shorter rest ih =>
      have room := natAbs_step_add_le shorter shape
      cases count with
      | zero => exact volume_pos (.cons shorter rest)
      | succ count =>
          have bounded := ih count
          have sum : ((weightedSteps (extent :: shape) (step :: offset)).take (count + 1)).sum =
              step * volume shape + ((weightedSteps shape offset).take count).sum := rfl
          omega

end StepsWithin

namespace Layout

variable {layout : Layout}

/--
Signed 64-bit arithmetic gives the flat distance of an offset without an overflow: not in a distance
of neighbours, not in a product and not in a partial sum.
-/
structure ComputesExactly (layout : Layout) (offset : Offset) : Prop where
  strides : ∀ stride ∈ layout.strides, Fits64 stride
  products : ∀ term ∈ weightedSteps layout.shape offset, Fits64 term
  sums : ∀ count, Fits64 ((weightedSteps layout.shape offset).take count).sum

theorem stepsWithin_of_shift? {other : Nat} (shifted : layout.shift? index offset = some other) :
    StepsWithin layout.shape offset := by
  rcases shift?_eq_some_iff.1 shifted with ⟨inside, moved, displaced, -⟩
  exact stepsWithin_of_displace? (rowMajorIndex?_rowMajorCoordinates inside) displaced

theorem computesExactly_of_stepsWithin (small : layout.size ≤ 2 ^ 63 - 1)
    (within : StepsWithin layout.shape offset) : layout.ComputesExactly offset := by
  have fits : ∀ value : Int, value.natAbs ≤ volume layout.shape → Fits64 value := by
    intro value bounded
    rw [size] at small
    exact ⟨by omega, by omega⟩
  refine ⟨fun stride member => fits _ ?_, fun term member => fits _ ?_, fun count => fits _ ?_⟩
  · exact within.stride_le member
  · exact Nat.le_of_lt (within.natAbs_lt_of_mem member)
  · exact Nat.le_of_lt (within.natAbs_sum_take_lt count)

/-- The flat distance of an offset is exact where the arithmetic on it does not overflow. -/
theorem ComputesExactly.flatOffset_eq (exact : layout.ComputesExactly offset) :
    layout.flatOffset offset = (weightedSteps layout.shape offset).sum := by
  have whole := exact.sums (weightedSteps layout.shape offset).length
  rw [List.take_length] at whole
  rw [Layout.flatOffset_eq, ← sum_weightedSteps, wrap64_eq_self whole]

end Layout

/--
All ways to a neighbour agree. In a grid of fewer than `2 ^ 63` cells let an offset have one step
per axis. The coordinates of a cell lie in the intervals of the offset if and only if the cell has a
neighbour there; and then the flat distance of the offset is computed without an overflow and leads
from the cell to this neighbour. So every true entry of a mask of valid edges is that of an edge
whose numbered ends are the cell and its neighbour at the offset of the channel, however the mask
was thinned and whatever it excludes.
-/
theorem neighbours_agree (layout : Layout) (small : layout.size ≤ 2 ^ 63 - 1) :
    (∀ cell coordinates offset, layout.coordinates? cell = some coordinates →
      offset.length = layout.rank →
      (Span.containAll (layout.spans offset) coordinates = true ↔
        ∃ other, layout.shift? cell offset = some other) ∧
      ∀ other, layout.shift? cell offset = some other → layout.ComputesExactly offset ∧
        layout.flatOffset offset = (weightedSteps layout.shape offset).sum ∧
        (other : Int) = cell + layout.flatOffset offset) ∧
    ∀ (γ : Type) [RandomSource γ] (stencil : Stencil) thinning excluded (generator after : γ) valid,
      EdgeMask.compute (stencil.edgeShape layout.shape) stencil thinning excluded generator =
        (.ok valid, after) →
      ∃ index, EdgeIndex.ofGrid stencil layout.shape = .ok index ∧
        ∀ channel cell coordinates, layout.coordinates? cell = some coordinates →
          valid.get? (channel :: coordinates) = .ok (some true) →
          ∃ offset other, stencil.offset? channel = some offset ∧
            layout.shift? cell offset = some other ∧
            (index.ends? (index.number channel cell)).map (fun ends => (ends.1.val, ends.2.val)) =
              some (cell, other) := by
  constructor
  · intro cell coordinates offset located ranks
    rcases rowMajorIndex?_eq_some_iff.1 (Layout.coordinates?_eq_some_iff.1 located) with
        ⟨inside, rfl⟩
    refine ⟨?_, fun other shifted => ?_⟩
    · rw [Layout.containAll_spans inside ranks, Option.isSome_iff_exists]
    · have within := Layout.stepsWithin_of_shift? shifted
      have exactly := Layout.computesExactly_of_stepsWithin small within
      have leads := Layout.flatOffset_of_shift?_eq (Nat.le_trans small (by decide)) shifted
      exact ⟨exactly, exactly.flatOffset_eq, by omega⟩
  · intro γ _ stencil thinning excluded generator after valid computed
    rcases EdgeMask.describes_of_compute_eq_ok computed with ⟨found, laid, -, describes⟩
    rcases EdgeMask.gridLayout_eq_ok laid with ⟨shaped, placed, -, -⟩
    rcases Stencil.gridShape_eq_ok shaped with ⟨sameEdges, ranks⟩
    obtain rfl : layout = found := Layout.eq_of_shape_eq (List.cons.inj sameEdges).2
    refine ⟨_, EdgeIndex.ofGrid_eq ranks placed, fun channel cell coordinates located read => ?_⟩
    have known := Tensor.lt_of_get?_cons_eq_ok describes.shape read
    have indexed := Layout.coordinates?_eq_some_iff.1 located
    have inside : cell < layout.size := (rowMajorIndex?_eq_some_iff.1 indexed).1
    have present := List.getElem?_eq_getElem known
    rw [Tensor.get?_cons_eq_ok describes.shape known indexed, Except.ok.injEq] at read
    rcases (describes.valid_iff channel _ present cell inside).1 read with ⟨-, other, shifted, -⟩
    have otherInside := (Layout.distance_of_shift?_eq shifted).2.1
    refine ⟨_, other, present, shifted, ?_⟩
    have ends := @EdgeIndex.ends?_number_of_shift? _ _ (Nat.le_trans small (by decide)) _ _ present
      ⟨cell, inside⟩ ⟨other, otherInside⟩ shifted
    rw [ends]
    rfl

/--
Two rows of three cells with edges one row up and one column on. The edge from the middle of the
second row ends at the last cell of the first row. The one from the last cell of the second row is
not valid, although its number has two ends: its flat target is the first cell of the same row.
-/
theorem neighbours_agree_rows :
    ∃ (layout : Layout) (stencil : Stencil) (generator after : Generator) (valid : Tensor Bool)
        (index : EdgeIndex), layout.shape = [2, 3] ∧ layout.size ≤ 2 ^ 63 - 1 ∧
      stencil.offsets = [[-1, 1]] ∧
      EdgeMask.compute (stencil.edgeShape layout.shape) stencil none none generator =
        (.ok valid, after) ∧
      EdgeIndex.ofGrid stencil layout.shape = .ok index ∧
      layout.shift? 4 [-1, 1] = some 2 ∧ layout.ComputesExactly [-1, 1] ∧
      (2 : Int) = (4 : Nat) + layout.flatOffset [-1, 1] ∧
      valid.get? [0, 1, 1] = .ok (some true) ∧
      (index.ends? (index.number 0 4)).map (fun ends => (ends.1.val, ends.2.val)) = some (4, 2) ∧
      valid.get? [0, 1, 2] = .ok (some false) ∧
      (index.ends? (index.number 0 5)).map (fun ends => (ends.1.val, ends.2.val)) =
        some (5, 3) := by
  let layout : Layout := ⟨[2, 3], by decide⟩
  let stencil : Stencil := ⟨[[-1, 1]], 1, 2, by decide, by decide, by decide⟩
  let generator := Generator.ofSeed 7
  let all : Tensor Bool := ⟨[1, 2, 3], Array.replicate 6 true, rfl⟩
  let valid := EdgeMask.dropOutside stencil layout all
  have laid : EdgeMask.gridLayout [1, 2, 3] stencil none none = .ok layout := rfl
  have made : Tensor.replicate [1, 2, 3] true = .ok all := rfl
  have computed : EdgeMask.compute (stencil.edgeShape layout.shape) stencil none none generator =
      (.ok valid, generator) := EdgeMask.compute_run laid made rfl
  have upwards : layout.shift? 4 [-1, 1] = some 2 := rfl
  have small : layout.size ≤ 2 ^ 63 - 1 := by decide
  rcases neighbours_agree layout small with ⟨cells, masks⟩
  rcases (cells 4 [1, 1] [-1, 1] rfl rfl).2 2 upwards with ⟨exactly, -, leads⟩
  rcases masks Generator stencil none none generator generator valid computed with
      ⟨index, numbered, entries⟩
  have kept : valid.get? [0, 1, 1] = .ok (some true) := by decide +kernel
  have dropped : valid.get? [0, 1, 2] = .ok (some false) := by decide +kernel
  rcases entries 0 4 [1, 1] rfl kept with ⟨offset, other, known, shifted, ends⟩
  obtain rfl : [-1, 1] = offset := Option.some.inj known
  obtain rfl : 2 = other := Option.some.inj (upwards.symm.trans shifted)
  obtain rfl : ⟨6, #[-2], 6⟩ = index := Except.ok.inj numbered
  have across : EdgeIndex.ends? ⟨6, #[-2], 6⟩ 5 = some (5, 3) := by decide
  exact ⟨layout, stencil, generator, generator, valid, _, rfl, small, rfl, computed, numbered,
    upwards, exactly, leads, kept, ends, dropped, congrArg (Option.map _) across⟩

end Watershed
