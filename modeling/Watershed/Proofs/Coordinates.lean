import Mathlib.Data.List.Forall2
import Watershed.Proofs.Layout
import Watershed.Proofs.Refusals
import Watershed.Proofs.Tensor

/-!
# Cells by their coordinates

A cell of a grid has one coordinate per axis, each below the length of the axis. These are exactly
the coordinates that have a flat index. Moving a cell by an offset adds the steps of the offset to
the coordinates, as long as the result is a cell again, and a tensor whose leading axis counts
channels is read by coordinates channel by channel.
-/

namespace Watershed

/-- One coordinate per axis, each of them in range. -/
def InGrid (shape : List Nat) (cell : Coordinates) : Prop :=
  List.Forall₂ (· < ·) cell shape

/-- The coordinates of the second cell are those of the first one with the offset added. -/
def Displaced (cell : Coordinates) (offset : Offset) (other : Coordinates) : Prop :=
  other.map (fun coordinate : Nat => (coordinate : Int)) =
    List.zipWith (fun (coordinate : Nat) (step : Int) => coordinate + step) cell offset

variable {shape : List Nat} {cell other : Coordinates} {offset : Offset}

theorem isSome_rowMajorIndex?_iff : (rowMajorIndex? shape cell).isSome ↔ InGrid shape cell := by
  induction shape generalizing cell with
  | nil => cases cell <;> simp [rowMajorIndex?, InGrid]
  | cons extent shape ih =>
      cases cell with
      | nil => simp [rowMajorIndex?, InGrid]
      | cons coordinate cell =>
          rw [rowMajorIndex?, InGrid, List.forall₂_cons]
          by_cases below : coordinate < extent
          · rw [if_pos below, Option.isSome_map, ih, InGrid]
            exact (and_iff_right below).symm
          · rw [if_neg below]
            simp [below]

theorem displaced_cons_iff {coordinate target : Nat} {step : Int} :
    Displaced (coordinate :: cell) (step :: offset) (target :: other) ↔
      (target : Int) = coordinate + step ∧ Displaced cell offset other := by
  rw [Displaced, List.map_cons, List.zipWith_cons_cons, List.cons.injEq]
  rfl

/-- Moving a cell by an offset leads to the cell with the sums of coordinates and steps. -/
theorem displace?_eq_some_iff (inside : InGrid shape cell)
    (ranks : offset.length = shape.length) :
    displace? shape cell offset = some other ↔
      InGrid shape other ∧ Displaced cell offset other := by
  induction inside generalizing offset other with
  | nil =>
      rcases List.eq_nil_of_length_eq_zero ranks with rfl
      cases other <;> simp [displace?, InGrid, Displaced]
  | @cons coordinate extent cell shape below inside ih =>
      rcases List.exists_cons_of_length_eq_add_one ranks with ⟨step, offset, rfl⟩
      have rest : ∀ moved, displace? shape cell offset = some moved ↔
          InGrid shape moved ∧ Displaced cell offset moved := fun _ => ih (Nat.succ.inj ranks)
      rw [displace?]
      constructor
      · intro displaced
        split at displaced
        · rcases Option.map_eq_some_iff.1 displaced with ⟨moved, displacedRest, rfl⟩
          rcases (rest moved).1 displacedRest with ⟨insideRest, sums⟩
          exact ⟨.cons (by omega) insideRest, displaced_cons_iff.2 ⟨by omega, sums⟩⟩
        · exact absurd displaced (by simp)
      · rintro ⟨targetInside, sums⟩
        cases targetInside with
        | @cons target _ other _ targetBelow insideRest =>
            rcases displaced_cons_iff.1 sums with ⟨sum, sumsRest⟩
            rw [if_pos (by omega), (rest other).2 ⟨insideRest, sumsRest⟩, ← sum]
            rfl

namespace Layout

variable {layout : Layout}

theorem exists_index_of_inGrid (inside : InGrid layout.shape cell) :
    ∃ index, layout.index? cell = some index :=
  Option.isSome_iff_exists.1 (isSome_rowMajorIndex?_iff.2 inside)

theorem shift?_eq_some_iff_displaced {index target : Nat} (ranks : offset.length = layout.rank)
    (found : layout.index? cell = some index) (foundOther : layout.index? other = some target) :
    layout.shift? index offset = some target ↔ Displaced cell offset other := by
  rcases rowMajorIndex?_eq_some_iff.1 found with ⟨inside, same⟩
  have inGrid := isSome_rowMajorIndex?_iff.1 (Option.isSome_of_eq_some found)
  have otherInGrid := isSome_rowMajorIndex?_iff.1 (Option.isSome_of_eq_some foundOther)
  rw [shift?_eq_some_iff, same]
  constructor
  · rintro ⟨-, moved, displaced, foundMoved⟩
    rcases rowMajorIndex?_eq_some_iff.1 foundMoved with ⟨-, rfl⟩
    rcases rowMajorIndex?_eq_some_iff.1 foundOther with ⟨-, rfl⟩
    exact ((displace?_eq_some_iff inGrid ranks).1 displaced).2
  · intro sums
    exact ⟨inside, other, (displace?_eq_some_iff inGrid ranks).2 ⟨otherInGrid, sums⟩, foundOther⟩

end Layout

theorem lt_addressLimit_of_volumeFrom?_eq_some {total size : Nat} (below : total < addressLimit)
    (counted : volumeFrom? total shape = some size) : size < addressLimit := by
  induction shape generalizing total with
  | nil => exact Option.some.inj counted ▸ below
  | cons extent rest ih =>
      rw [volumeFrom?] at counted
      split at counted
      · next smaller => exact ih smaller counted
      · exact absurd counted (by simp)

namespace Tensor

variable {α : Type} {tensor : Tensor α} {layout : Layout} {index : Nat}

theorem get?_eq_ok (laid : Layout.ofShape tensor.shape = .ok layout)
    (found : layout.index? cell = some index) :
    tensor.get? cell = .ok tensor.data[index]? := by
  rw [get?, layout_eq_ok_iff.2 laid]
  exact congrArg Except.ok (by rw [found, Option.bind_some])

/-- A tensor with channels over a grid has a layout, and is read one channel after another. -/
theorem get?_cons_eq_ok {channels channel : Nat} (shaped : tensor.shape = channels :: layout.shape)
    (known : channel < channels) (found : layout.index? cell = some index) :
    tensor.get? (channel :: cell) = .ok tensor.data[channel * layout.size + index]? := by
  have counted := tensor.volume?_eq_some
  have total : channels * volume layout.shape < addressLimit := by
    have volumes := eq_of_volumeFrom?_eq_some counted
    rw [shaped, volume, Nat.one_mul] at volumes
    rw [← volumes]
    exact lt_addressLimit_of_volumeFrom?_eq_some (by decide) counted
  have addressable : Addressable (channels :: layout.shape) := ⟨total, layout.addressable⟩
  have laid : Layout.ofShape tensor.shape = .ok ⟨channels :: layout.shape, addressable⟩ := by
    rw [shaped]
    exact dif_pos addressable
  apply get?_eq_ok laid
  rw [Layout.index?, rowMajorIndex?, if_pos known]
  exact congrArg (Option.map _) found

theorem lt_of_get?_cons_eq_ok {channels channel : Nat} {entry : α}
    (shaped : tensor.shape = channels :: shape)
    (read : tensor.get? (channel :: cell) = .ok (some entry)) : channel < channels := by
  rcases Error.bind_eq_ok_iff.1 read with ⟨layout, laid, found⟩
  have same := Layout.ofShape_eq_ok (layout_eq_ok_iff.1 laid)
  rcases Option.bind_eq_some_iff.1 (Except.ok.inj found) with ⟨index, indexed, -⟩
  rw [Layout.index?, same, shaped, rowMajorIndex?] at indexed
  split at indexed
  · next known => exact known
  · exact absurd indexed (by simp)

theorem exists_get?_cons {channels channel : Nat} (shaped : tensor.shape = channels :: layout.shape)
    (known : channel < channels) (found : layout.index? cell = some index) :
    ∃ entry, tensor.get? (channel :: cell) = .ok (some entry) ∧
      tensor.data[channel * layout.size + index]? = some entry := by
  have inside : index < layout.size := (rowMajorIndex?_eq_some_iff.1 found).1
  have bound : channel * layout.size + index < tensor.data.size := by
    have volumes := tensor.size_eq_volume
    rw [shaped] at volumes
    exact lt_of_lt_of_eq (mul_add_lt known inside) volumes.symm
  have present := Array.getElem?_eq_getElem bound
  exact ⟨_, (get?_cons_eq_ok shaped known found).trans (congrArg Except.ok present), present⟩

end Tensor

end Watershed
