import Watershed.Generator
import Watershed.Proofs.Mask

/-!
# The mask of valid edges, entry by entry

The stages that make a mask work on flat indices, whole channels and marks of transitions, and take
short cuts for offsets of zero and strides of one. Here their joint result is read at the
coordinates of an edge, in every rank and for offsets and grids of any size: the entry says whether
the edge stays in the grid, survives thinning by a sublattice and has no excluded end.
-/

namespace Watershed

theorem Thinning.length_strides_of_check_eq_ok {thinning : Thinning} {rank : Nat}
    (checked : thinning.check rank = .ok ()) : thinning.strides.length = rank := by
  unfold Thinning.check at checked
  split at checked
  · exact absurd checked (by simp)
  · next same => exact not_not.1 same

namespace EdgeMask

variable {γ : Type} [RandomSource γ] {stencil : Stencil} {layout : Layout} {generator : γ}

/-- Thinning by a sublattice keeps the repulsive edges that start from it. -/
theorem keeps_lattice_iff {strides : Option (List Nat)} {cell : Coordinates} {channel index : Nat}
    (ranks : ∀ spec, strides = some spec → spec.length = layout.rank)
    (found : layout.index? cell = some index) :
    keeps stencil layout (strides.map .lattice) generator (channel * layout.size + index) = true ↔
      channel < stencil.attractive ∨
        ∀ spec, strides = some spec → List.Forall₂ (· % · = 0) cell spec := by
  have inside : index < layout.size := (rowMajorIndex?_eq_some_iff.1 found).1
  have same : rowMajorCoordinates layout.shape index = cell :=
    (rowMajorIndex?_eq_some_iff.1 found).2
  have inGrid := isSome_rowMajorIndex?_iff.1 (Option.isSome_of_eq_some found)
  cases strides with
  | none => simp [keeps]
  | some spec =>
      have lengths : spec.length = cell.length := (ranks spec rfl).trans inGrid.length_eq.symm
      simp only [Option.map_some, Option.some.injEq, forall_eq']
      rw [keeps, Bool.or_eq_true, decide_eq_true_eq, mul_add_lt_mul_iff inside,
        Nat.mul_add_mod_of_lt inside, same, onLattice_iff lengths]

/-- A mask that fits the grid is read at a cell by coordinates or by flat index. -/
theorem included_iff {excluded : Option (Tensor Bool)} {cell : Coordinates} {index : Nat}
    (placed : Layout.ofShape layout.shape = .ok layout)
    (maskShapes : ∀ mask, excluded = some mask → mask.shape = layout.shape)
    (found : layout.index? cell = some index) : Included excluded index ↔
      ∀ mask, excluded = some mask → mask.get? cell = .ok (some false) := by
  refine forall₂_congr fun mask isMask => ?_
  rw [Tensor.get?_eq_ok (maskShapes mask isMask ▸ placed) found, Except.ok.injEq]

/--
The mask of valid edges marks exactly the intended edges. Whenever it is computed, without thinning
or with that by a sublattice, no random number is drawn; and for the edge of any channel from any
cell there is an entry, which is true if and only if the cell with the offset added is in the grid,
a repulsive edge starts from the sublattice, and neither of the two cells is excluded.
-/
theorem compute_entry_iff (edgeShape : List Nat) (stencil : Stencil) (strides : Option (List Nat))
    (excluded : Option (Tensor Bool)) (generator after : γ) (valid : Tensor Bool)
    (computed : compute edgeShape stencil (strides.map .lattice) excluded generator =
      (.ok valid, after)) :
    after = generator ∧ valid.shape = edgeShape ∧ ∃ gridShape,
      edgeShape = stencil.channelCount :: gridShape ∧ gridShape.length = stencil.rank ∧
      ∀ channel offset, stencil.offset? channel = some offset → ∀ cell, InGrid gridShape cell →
        ∃ entry, valid.get? (channel :: cell) = .ok (some entry) ∧
          (entry = true ↔ ∃ other, InGrid gridShape other ∧ Displaced cell offset other ∧
            (channel < stencil.attractive ∨
              ∀ spec, strides = some spec → List.Forall₂ (· % · = 0) cell spec) ∧
            ∀ mask, excluded = some mask →
              mask.get? cell = .ok (some false) ∧ mask.get? other = .ok (some false)) := by
  rcases describes_of_compute_eq_ok computed with ⟨layout, laid, undrawn, describes⟩
  rcases gridLayout_eq_ok laid with ⟨shaped, placed, checks, maskShapes⟩
  rcases Stencil.gridShape_eq_ok shaped with ⟨edgeShape_eq, ranks⟩
  have strideRanks : ∀ spec, strides = some spec → spec.length = layout.rank := by
    rintro spec rfl
    exact (Thinning.length_strides_of_check_eq_ok (checks _ rfl)).trans ranks.symm
  have same : after = generator := by
    rw [undrawn]
    cases strides <;> rfl
  refine ⟨same, describes.shape.trans edgeShape_eq.symm, layout.shape, edgeShape_eq, ranks, ?_⟩
  intro channel offset known cell inGrid
  rcases Layout.exists_index_of_inGrid inGrid with ⟨index, found⟩
  have inside : index < layout.size := (rowMajorIndex?_eq_some_iff.1 found).1
  have channelKnown : channel < stencil.channelCount := (List.getElem?_eq_some_iff.1 known).1
  have offsetRanks : offset.length = layout.rank :=
    (stencil.uniform offset (List.mem_of_getElem? known)).trans ranks.symm
  rcases Tensor.exists_get?_cons describes.shape channelKnown found with ⟨entry, read, present⟩
  refine ⟨entry, read, ?_⟩
  rw [← Option.some.injEq, ← present, describes.valid_iff channel offset known index inside,
    keeps_lattice_iff strideRanks found, included_iff placed maskShapes found]
  constructor
  · rintro ⟨keeps, target, shifted, spared, otherSpared⟩
    rcases Layout.shift?_eq_some_iff.1 shifted with ⟨-, other, displaced, foundOther⟩
    have otherInGrid := isSome_rowMajorIndex?_iff.1 (Option.isSome_of_eq_some foundOther)
    refine ⟨other, otherInGrid, ?_, keeps, fun mask isMask => ⟨spared mask isMask, ?_⟩⟩
    · exact (Layout.shift?_eq_some_iff_displaced offsetRanks found foundOther).1 shifted
    · exact (included_iff placed maskShapes foundOther).1 otherSpared mask isMask
  · rintro ⟨other, otherInGrid, sums, keeps, spared⟩
    rcases Layout.exists_index_of_inGrid otherInGrid with ⟨target, foundOther⟩
    have shifted := (Layout.shift?_eq_some_iff_displaced offsetRanks found foundOther).2 sums
    refine ⟨keeps, target, shifted, fun mask isMask => (spared mask isMask).1, ?_⟩
    exact (included_iff placed maskShapes foundOther).2 fun mask isMask => (spared mask isMask).2

/--
Four cells in a row, the last of which is excluded: thinning by two keeps the repulsive edge from
the third cell, and the attractive edge from there is dropped for the cell where it ends.
-/
theorem compute_entry_iff_row :
    ∃ (stencil : Stencil) (excluded valid : Tensor Bool) (generator after : Generator),
      stencil.offsets = [[1], [-2]] ∧ excluded.data = #[false, false, false, true] ∧
      compute [2, 4] stencil (some (.lattice [2])) (some excluded) generator = (.ok valid, after) ∧
      after = generator ∧ valid.get? [1, 2] = .ok (some true) ∧
      valid.get? [0, 2] = .ok (some false) := by
  let stencil : Stencil := ⟨[[1], [-2]], 1, 1, by decide, by decide, by decide⟩
  let excluded : Tensor Bool := ⟨[4], #[false, false, false, true], rfl⟩
  let generator := Generator.ofSeed 7
  have laid : gridLayout [2, 4] stencil (some (.lattice [2])) (some excluded) =
      .ok ⟨[4], by decide⟩ := rfl
  have counted : volume? [2, 4] = some 8 := rfl
  rcases compute_eq_ok laid counted generator with ⟨valid, computed, -⟩
  rcases compute_entry_iff [2, 4] stencil (some [2]) (some excluded) generator _ valid computed with
      ⟨undrawn, -, gridShape, shape, -, entries⟩
  obtain rfl : gridShape = [4] := (List.cons.inj shape).2.symm
  have third : InGrid [4] [2] := .cons (by decide) .nil
  rcases entries 1 [-2] rfl [2] third with ⟨backward, isBackward, backwardIff⟩
  have backwardKept : backward = true := by
    refine backwardIff.2 ⟨[0], .cons (by decide) .nil, rfl, .inr ?_, ?_⟩
    · rintro spec ⟨⟩
      exact .cons rfl .nil
    · rintro mask ⟨⟩
      exact ⟨rfl, rfl⟩
  rcases entries 0 [1] rfl [2] third with ⟨forward, isForward, forwardIff⟩
  have forwardDropped : forward = false := by
    refine Bool.eq_false_iff.2 fun kept => ?_
    rcases forwardIff.1 kept with ⟨other, -, displaced, -, spared⟩
    have isFourth : other = [3] :=
      List.map_injective_iff.2 (fun _ _ => Int.ofNat.inj) (displaced.trans rfl)
    have excludedFourth : excluded.get? [3] = .ok (some true) := rfl
    rw [isFourth] at spared
    exact absurd ((spared excluded rfl).2.symm.trans excludedFourth) (by decide)
  exact ⟨stencil, excluded, valid, generator, _, rfl, rfl, computed, undrawn,
    backwardKept ▸ isBackward, forwardDropped ▸ isForward⟩

end EdgeMask

end Watershed
