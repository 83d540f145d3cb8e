import Mathlib.Algebra.Ring.Nat
import Watershed.Grid.Tensor

/-!
# Tensors as functions

A tensor of a given shape is determined by its elements at the flat indices below the volume of the
shape. The lemmas below say this of every way of making one.
-/

namespace Watershed

theorem eq_of_volumeFrom?_eq_some {shape : List Nat} {total size : Nat}
    (counted : volumeFrom? total shape = some size) : size = total * volume shape := by
  induction shape generalizing total with
  | nil =>
      rw [volumeFrom?, Option.some.injEq] at counted
      rw [volume, Nat.mul_one, counted]
  | cons extent rest ih =>
      rw [volumeFrom?] at counted
      split at counted
      · rw [ih counted, volume, Nat.mul_assoc]
      · exact absurd counted (by simp)

theorem volumeFrom?_of_le {shape : List Nat} {total fewer size : Nat} (le : fewer ≤ total)
    (counted : volumeFrom? total shape = some size) :
    volumeFrom? fewer shape = some (fewer * volume shape) := by
  induction shape generalizing total fewer with
  | nil => rw [volumeFrom?, volume, Nat.mul_one]
  | cons extent rest ih =>
      rw [volumeFrom?] at counted ⊢
      split at counted
      · next below =>
        have smaller := Nat.mul_le_mul_right extent le
        rw [if_pos (Nat.lt_of_le_of_lt smaller below), ih smaller counted, volume, Nat.mul_assoc]
      · exact absurd counted (by simp)

theorem volume?_of_cons {extent size : Nat} {shape : List Nat} (positive : 0 < extent)
    (counted : volume? (extent :: shape) = some size) : volume? shape = some (volume shape) := by
  rw [volume?, volumeFrom?, Nat.one_mul] at counted
  split at counted
  · rw [volume?, volumeFrom?_of_le positive counted, Nat.one_mul]
  · exact absurd counted (by simp)

namespace Tensor

variable {α β : Type} {shape : List Nat} {size : Nat}

theorem ext {tensor other : Tensor α} (shapes : tensor.shape = other.shape)
    (data : tensor.data = other.data) : tensor = other := by
  rcases tensor with ⟨shape, elements, sized⟩
  obtain rfl : shape = other.shape := shapes
  obtain rfl : elements = other.data := data
  rfl

theorem size_eq_volume (tensor : Tensor α) : tensor.size = volume tensor.shape := by
  have counted := eq_of_volumeFrom?_eq_some tensor.sized
  rw [Nat.one_mul] at counted
  exact counted

theorem layout_eq_ok_iff {tensor : Tensor α} {layout : Layout} :
    tensor.layout = .ok layout ↔ Layout.ofShape tensor.shape = .ok layout := by
  rw [Tensor.layout]
  cases Layout.ofShape tensor.shape with
  | error error => exact iff_of_false nofun nofun
  | ok found => rfl

theorem generate_eq_ok (counted : volume? shape = some size) (element : Nat → α) :
    ∃ tensor, generate shape element = .ok tensor ∧ tensor.shape = shape ∧
      ∀ index < size, tensor.data[index]? = some (element index) := by
  unfold generate
  split
  · next missing => exact absurd (missing.symm.trans counted) (by simp)
  · next same found =>
    rcases Option.some.inj (found.symm.trans counted) with rfl
    refine ⟨_, rfl, rfl, fun index below => ?_⟩
    simp [below]

theorem replicate_eq_ok (counted : volume? shape = some size) (value : α) :
    ∃ tensor, replicate shape value = .ok tensor ∧ tensor.shape = shape ∧
      ∀ index < size, tensor.data[index]? = some value := by
  unfold replicate
  split
  · next missing => exact absurd (missing.symm.trans counted) (by simp)
  · next same found =>
    rcases Option.some.inj (found.symm.trans counted) with rfl
    refine ⟨_, rfl, rfl, fun index below => ?_⟩
    simp [below]

theorem generate_eq_error (uncounted : volume? shape = none) (element : Nat → α) :
    generate shape element = .error .capacity := by
  unfold generate
  split
  · rfl
  · next found => exact absurd (found.symm.trans uncounted) (by simp)

theorem replicate_eq_error (uncounted : volume? shape = none) (value : α) :
    replicate shape value = .error .capacity := by
  unfold replicate
  split
  · rfl
  · next found => exact absurd (found.symm.trans uncounted) (by simp)

theorem ofArray_eq_ok {data : Array α} (counted : volume? shape = some data.size) :
    ∃ tensor, ofArray shape data = .ok tensor ∧ tensor.shape = shape ∧ tensor.data = data := by
  unfold ofArray
  split
  · next missing => exact absurd (missing.symm.trans counted) (by simp)
  · next same found =>
    rcases Option.some.inj (found.symm.trans counted) with rfl
    rw [dif_pos rfl]
    exact ⟨_, rfl, rfl, rfl⟩

theorem of_ofArray_eq_ok {data : Array α} {tensor : Tensor α}
    (made : ofArray shape data = .ok tensor) : tensor.shape = shape ∧ tensor.data = data := by
  unfold ofArray at made
  split at made
  · exact absurd made (by simp)
  · split at made
    · obtain rfl := Except.ok.inj made
      exact ⟨rfl, rfl⟩
    · exact absurd made (by simp)

theorem ofArray_data (tensor : Tensor α) : ofArray tensor.shape tensor.data = .ok tensor := by
  rcases ofArray_eq_ok tensor.sized with ⟨found, made, shape, data⟩
  rw [made, ext shape data]

theorem channelCount_eq {tensor : Tensor α} {channels : Nat} {rest : List Nat}
    (shaped : tensor.shape = channels :: rest) : tensor.channelCount = channels := by
  rw [channelCount, shaped, List.headD_cons]

theorem channelSize_eq_volume {tensor : Tensor α} {channels : Nat} {rest : List Nat}
    (shaped : tensor.shape = channels :: rest) : tensor.channelSize = volume rest := by
  rw [channelSize, shaped]

/-- The channels of a tensor are blocks of its elements. -/
theorem mul_channelSize_le (tensor : Tensor α) :
    tensor.channelCount * tensor.channelSize ≤ tensor.size := by
  rw [size_eq_volume, channelCount, channelSize]
  cases tensor.shape with
  | nil => exact Nat.zero_le _
  | cons channels rest => exact Nat.le_refl _

theorem channel?_eq_some (tensor : Tensor α) {channel : Nat}
    (known : channel < tensor.channelCount) : tensor.channel? channel =
      some (tensor.data.extract (channel * tensor.channelSize)
        ((channel + 1) * tensor.channelSize)) := by
  have last : (channel + 1) * tensor.channelSize ≤ tensor.data.size :=
    Nat.le_trans (Nat.mul_le_mul_right _ known) tensor.mul_channelSize_le
  rw [channel?, if_pos ⟨known, last⟩]

theorem isSome_channel? (tensor : Tensor α) {channel : Nat}
    (known : channel < tensor.channelCount) : (tensor.channel? channel).isSome := by
  rw [tensor.channel?_eq_some known, Option.isSome_some]

/-- Adjacent blocks of one width are one block. -/
theorem flatMap_extract (elements : Array α) (width channels : Nat) :
    ((List.range channels).flatMap fun channel =>
      (elements.extract (channel * width) ((channel + 1) * width)).toList) =
        (elements.extract 0 (channels * width)).toList := by
  induction channels with
  | zero => simp
  | succ channels ih =>
      have grows : channels * width ≤ (channels + 1) * width :=
        Nat.mul_le_mul_right _ (Nat.le_succ _)
      rw [List.range_succ, List.flatMap_append, ih, List.flatMap_singleton, ← Array.toList_append,
        Array.extract_append_extract, Nat.zero_min, Nat.max_eq_right grows]

theorem sum_count_extract (marks : Array Bool) (width channels : Nat) :
    ((List.range channels).map fun channel =>
      (marks.extract (channel * width) ((channel + 1) * width)).count true).sum =
        (marks.extract 0 (channels * width)).count true := by
  rw [← Array.count_toList, ← flatMap_extract, List.count_flatMap]
  simp only [Function.comp_def, Array.count_toList]

/-- The marks in the channels of a tensor are all of its marks. -/
theorem sum_count_channel? {marks : Tensor Bool} {channels : Nat} {rest : List Nat}
    (shaped : marks.shape = channels :: rest) :
    ((List.range channels).map fun channel =>
      ((marks.channel? channel).getD #[]).count true).sum = marks.data.count true := by
  have all : channels * marks.channelSize = marks.data.size := by
    rw [← Tensor.size, size_eq_volume, channelSize_eq_volume shaped, shaped, volume]
  have blocks : ∀ channel ∈ List.range channels, ((marks.channel? channel).getD #[]).count true =
      (marks.data.extract (channel * marks.channelSize)
        ((channel + 1) * marks.channelSize)).count true := by
    intro channel below
    rw [marks.channel?_eq_some (channelCount_eq shaped ▸ List.mem_range.1 below), Option.getD_some]
  rw [List.map_congr_left blocks, sum_count_extract, all, Array.extract_size]

theorem volume?_eq_some (tensor : Tensor α) : volume? tensor.shape = some tensor.size :=
  tensor.sized

@[simp]
theorem getElem?_map (tensor : Tensor α) (f : α → β) (index : Nat) :
    (tensor.map f).data[index]? = tensor.data[index]?.map f := by
  simp [map]

@[simp]
theorem getElem?_mapIdx (tensor : Tensor α) (f : Nat → α → β) (index : Nat) :
    (tensor.mapIdx f).data[index]? = tensor.data[index]?.map (f index) := by
  simp [mapIdx]

end Tensor

end Watershed
