import Watershed.Proofs.Coordinates

/-!
# Shapes of tensors and shapes of layouts

A tensor takes the product of its axes from the first to the last, a layout from the last to the
first, and both want every partial product to be addressable. A partial product stays zero from the
first empty axis on. So only the axes before it count, and these are different ones in the two
directions: a shape with an empty axis can be that of a tensor and not of a layout, or the other way
round. Without an empty axis the two agree.
-/

namespace Watershed

/-- The product of the axes before the first empty one. -/
def leadingVolume (shape : List Nat) : Nat :=
  volume (shape.takeWhile (0 < ·))

variable {shape rest : List Nat} {total size : Nat}

theorem leadingVolume_cons_zero (rest : List Nat) : leadingVolume (0 :: rest) = 1 :=
  rfl

theorem leadingVolume_cons_of_pos {extent : Nat} (positive : 0 < extent) (rest : List Nat) :
    leadingVolume (extent :: rest) = extent * leadingVolume rest := by
  rw [leadingVolume, List.takeWhile_cons_of_pos (by simpa using positive), volume, leadingVolume]

theorem leadingVolume_pos (shape : List Nat) : 0 < leadingVolume shape := by
  induction shape with
  | nil => exact Nat.one_pos
  | cons extent rest ih =>
      rcases Nat.eq_zero_or_pos extent with rfl | positive
      · exact Nat.one_pos
      · rw [leadingVolume_cons_of_pos positive]
        exact Nat.mul_pos positive ih

theorem leadingVolume_eq_volume (filled : 0 ∉ shape) : leadingVolume shape = volume shape := by
  induction shape with
  | nil => rfl
  | cons extent rest ih =>
      rw [List.mem_cons, not_or] at filled
      rw [leadingVolume_cons_of_pos (Nat.pos_of_ne_zero (Ne.symm filled.1)), ih filled.2, volume]

/-- Counting from the left, only the axes before the first empty one have to be addressable. -/
theorem volumeFrom?_eq_some_iff (below : total < addressLimit) :
    volumeFrom? total shape = some size ↔
      total * leadingVolume shape < addressLimit ∧ size = total * volume shape := by
  induction shape generalizing total with
  | nil =>
      rw [volumeFrom?, volume, leadingVolume, List.takeWhile_nil, volume, Nat.mul_one,
        Option.some.injEq, and_iff_right below, eq_comm]
  | cons extent rest ih =>
      rw [volumeFrom?, volume]
      rcases Nat.eq_zero_or_pos extent with rfl | positive
      · have none : 0 < addressLimit := Nat.lt_of_le_of_lt (Nat.zero_le _) below
        rw [Nat.mul_zero, if_pos none, ih none, leadingVolume_cons_zero, Nat.mul_one, Nat.zero_mul,
          Nat.zero_mul, Nat.mul_zero, and_iff_right none, and_iff_right below]
      · rw [leadingVolume_cons_of_pos positive, ← Nat.mul_assoc, ← Nat.mul_assoc]
        split
        · next fits => exact ih fits
        · next large =>
          have grows := Nat.le_mul_of_pos_right (total * extent) (leadingVolume_pos rest)
          exact iff_of_false (by simp) fun both => by omega

theorem volume?_eq_some_iff : volume? shape = some size ↔
    leadingVolume shape < addressLimit ∧ size = volume shape := by
  rw [volume?, volumeFrom?_eq_some_iff (by decide), Nat.one_mul, Nat.one_mul]

theorem volumeFrom?_append (total : Nat) (shape rest : List Nat) :
    volumeFrom? total (shape ++ rest) =
      (volumeFrom? total shape).bind (volumeFrom? · rest) := by
  induction shape generalizing total with
  | nil => rfl
  | cons extent shape ih =>
      rw [List.cons_append, volumeFrom?, volumeFrom?]
      split
      · exact ih _
      · rfl

theorem volume?_append (shape rest : List Nat) :
    volume? (shape ++ rest) = (volume? shape).bind (volumeFrom? · rest) :=
  volumeFrom?_append 1 shape rest

theorem volume_append (shape rest : List Nat) :
    volume (shape ++ rest) = volume shape * volume rest := by
  induction shape with
  | nil => rw [List.nil_append, volume, Nat.one_mul]
  | cons extent shape ih => rw [List.cons_append, volume, ih, volume, Nat.mul_assoc]

theorem volume_reverse (shape : List Nat) : volume shape.reverse = volume shape := by
  induction shape with
  | nil => rfl
  | cons extent shape ih =>
      rw [List.reverse_cons, volume_append, ih, volume, volume, volume, Nat.mul_one, Nat.mul_comm]

/-- Without an empty axis all axes count, in either direction. -/
theorem leadingVolume_reverse (filled : 0 ∉ shape) :
    leadingVolume shape.reverse = leadingVolume shape := by
  rw [leadingVolume_eq_volume (by simpa using filled), leadingVolume_eq_volume filled,
    volume_reverse]

theorem volume_eq_zero_of_mem (empty : 0 ∈ shape) : volume shape = 0 := by
  induction shape with
  | nil => exact absurd empty List.not_mem_nil
  | cons extent rest ih =>
      rw [volume]
      rcases List.mem_cons.1 empty with rfl | empty
      · exact Nat.zero_mul _
      · rw [ih empty, Nat.mul_zero]

/-- A layout counts the cells of the reversed shape as a tensor does. -/
theorem addressable_iff_isSome : Addressable shape ↔ (volume? shape.reverse).isSome := by
  induction shape with
  | nil => exact iff_of_true trivial rfl
  | cons extent rest ih =>
      rw [Addressable, ih, List.reverse_cons, volume?_append]
      cases counted : volume? rest.reverse with
      | none => simp
      | some size =>
          have same := (volume?_eq_some_iff.1 counted).2
          rw [volume_reverse] at same
          rw [and_iff_left Option.isSome_some, Option.bind_some, volumeFrom?, volumeFrom?, same,
            Nat.mul_comm extent]
          split
          · next fits => exact iff_of_true fits rfl
          · next large => exact iff_of_false large Bool.false_ne_true

theorem addressable_iff : Addressable shape ↔ leadingVolume shape.reverse < addressLimit := by
  rw [addressable_iff_isSome, Option.isSome_iff_exists]
  constructor
  · rintro ⟨size, counted⟩
    exact (volume?_eq_some_iff.1 counted).1
  · exact fun fits => ⟨_, volume?_eq_some_iff.2 ⟨fits, rfl⟩⟩

/-- A shape has a layout of a size if and only if the shape read backwards can be counted. -/
theorem Layout.exists_ofShape_iff :
    (∃ layout, Layout.ofShape shape = .ok layout ∧ layout.size = size) ↔
      leadingVolume shape.reverse < addressLimit ∧ size = volume shape := by
  constructor
  · rintro ⟨layout, laid, rfl⟩
    obtain rfl := Layout.ofShape_eq_ok laid
    exact ⟨addressable_iff.1 layout.addressable, rfl⟩
  · rintro ⟨fits, rfl⟩
    exact ⟨⟨shape, addressable_iff.2 fits⟩, dif_pos _, rfl⟩

namespace Tensor

variable {α : Type} {tensor : Tensor α} {layout : Layout}

/--
What users of a tensor rely on. It has a layout of its size, reading and writing at coordinates
answer, with an element exactly at those of a cell, and the size of a channel can be counted.
-/
structure Accessible (tensor : Tensor α) : Prop where
  layout : ∃ layout, tensor.layout = .ok layout ∧ layout.size = tensor.size
  read : ∀ coordinates, ∃ found, tensor.get? coordinates = .ok found ∧
    (found.isSome ↔ InGrid tensor.shape coordinates)
  write : ∀ coordinates value, ∃ found, tensor.set? coordinates value = .ok found ∧
    (found.isSome ↔ InGrid tensor.shape coordinates)
  channelSize : ∀ channels rest, tensor.shape = channels :: rest →
    volume? rest = some tensor.channelSize

theorem isSome_bind_index?_iff {β : Type} (laid : tensor.layout = .ok layout)
    {read : Nat → Option β} (reads : ∀ index < tensor.size, (read index).isSome)
    (coordinates : Coordinates) :
    ((layout.index? coordinates).bind read).isSome ↔ InGrid tensor.shape coordinates := by
  have same := Layout.ofShape_eq_ok (layout_eq_ok_iff.1 laid)
  rw [← same, ← isSome_rowMajorIndex?_iff, ← Layout.index?]
  cases found : layout.index? coordinates with
  | none => rfl
  | some index =>
      have inside : index < layout.size := (rowMajorIndex?_eq_some_iff.1 found).1
      rw [Layout.size, same, ← size_eq_volume] at inside
      exact iff_of_true (reads index inside) rfl

theorem exists_get? (laid : tensor.layout = .ok layout) (coordinates : Coordinates) :
    ∃ found, tensor.get? coordinates = .ok found ∧
      (found.isSome ↔ InGrid tensor.shape coordinates) := by
  refine ⟨(layout.index? coordinates).bind (tensor.data[·]?), ?_, ?_⟩
  · rw [get?, laid]
    rfl
  · exact isSome_bind_index?_iff laid (fun index inside => by simpa [Tensor.size] using inside) _

theorem exists_set? (laid : tensor.layout = .ok layout) (coordinates : Coordinates) (value : α) :
    ∃ found, tensor.set? coordinates value = .ok found ∧
      (found.isSome ↔ InGrid tensor.shape coordinates) := by
  refine ⟨(layout.index? coordinates).bind fun index => tensor.data[index]?.map fun old =>
    (old, ⟨tensor.shape, tensor.data.setIfInBounds index value, by simp [tensor.sized]⟩), ?_, ?_⟩
  · rw [set?, laid]
    rfl
  · exact isSome_bind_index?_iff laid (fun index inside => by simpa [Tensor.size] using inside) _

theorem accessible_iff : tensor.Accessible ↔
    leadingVolume tensor.shape.reverse < addressLimit ∧
      ∀ rest, tensor.shape = 0 :: rest → leadingVolume rest < addressLimit := by
  constructor
  · intro accessible
    refine ⟨?_, fun rest shaped => ?_⟩
    · rcases accessible.layout with ⟨layout, laid, -⟩
      exact (Layout.exists_ofShape_iff.1 ⟨layout, layout_eq_ok_iff.1 laid, rfl⟩).1
    · exact (volume?_eq_some_iff.1 (accessible.channelSize 0 rest shaped)).1
  · rintro ⟨fits, fitsRest⟩
    rcases Layout.exists_ofShape_iff.2 ⟨fits, tensor.size_eq_volume⟩ with ⟨layout, laid, sized⟩
    have known := layout_eq_ok_iff.2 laid
    refine ⟨⟨layout, known, sized⟩, exists_get? known, exists_set? known, ?_⟩
    intro channels rest shaped
    rw [channelSize_eq_volume shaped, volume?_eq_some_iff, and_iff_left rfl]
    rcases Nat.eq_zero_or_pos channels with rfl | positive
    · exact fitsRest rest shaped
    · have counted := shaped ▸ tensor.volume?_eq_some
      exact (volume?_eq_some_iff.1 (volume?_of_cons positive counted)).1

theorem layout_eq_capacity (large : addressLimit ≤ leadingVolume tensor.shape.reverse) :
    tensor.layout = .error .capacity := by
  have unaddressable : ¬ Addressable tensor.shape := fun addressable =>
    Nat.not_lt_of_le large (addressable_iff.1 addressable)
  rw [Tensor.layout, Layout.ofShape, dif_neg unaddressable]
  rfl

/-- Without a layout there is no reading and no writing. -/
theorem get?_set?_eq_capacity (large : addressLimit ≤ leadingVolume tensor.shape.reverse)
    (coordinates : Coordinates) (value : α) :
    tensor.get? coordinates = .error .capacity ∧
      tensor.set? coordinates value = .error .capacity := by
  have missing := layout_eq_capacity large
  constructor
  · rw [get?, missing]
    rfl
  · rw [set?, missing]
    rfl

theorem exists_ofArray_iff {data : Array α} :
    (∃ tensor, ofArray shape data = .ok tensor) ↔ volume? shape = some data.size := by
  constructor
  · rintro ⟨tensor, made⟩
    rcases of_ofArray_eq_ok made with ⟨rfl, rfl⟩
    exact tensor.sized
  · intro counted
    rcases ofArray_eq_ok counted with ⟨tensor, made, -⟩
    exact ⟨tensor, made⟩

theorem accessible_of_filled (filled : 0 ∉ tensor.shape) : tensor.Accessible := by
  refine accessible_iff.2 ⟨?_, fun rest shaped => absurd (shaped ▸ List.mem_cons_self) filled⟩
  rw [leadingVolume_reverse filled]
  exact (volume?_eq_some_iff.1 tensor.volume?_eq_some).1

/--
When construction and layout agree on a shape. A tensor takes elements if and only if there are as
many as cells and the product of the axes before the first empty one is addressable; a layout exists
if and only if the product of the axes behind the last empty one is. So the two agree if and only if
these conditions do, and they do for every shape without an empty axis. A tensor is accessible if
and only if its shape has a layout and, where the leading axis is empty, the axes behind it can be
counted. This is so for every tensor that has elements. Without a layout every access fails.
-/
theorem construction_agrees_iff (α : Type) (shape : List Nat) :
    (∀ data : Array α, (∃ tensor, ofArray shape data = .ok tensor) ↔
      leadingVolume shape < addressLimit ∧ data.size = volume shape) ∧
    (∀ size, (∃ layout, Layout.ofShape shape = .ok layout ∧ layout.size = size) ↔
      leadingVolume shape.reverse < addressLimit ∧ size = volume shape) ∧
    ((∀ size, volume? shape = some size ↔
      ∃ layout, Layout.ofShape shape = .ok layout ∧ layout.size = size) ↔
        (leadingVolume shape < addressLimit ↔ leadingVolume shape.reverse < addressLimit)) ∧
    (0 ∉ shape → ∀ size, volume? shape = some size ↔
      ∃ layout, Layout.ofShape shape = .ok layout ∧ layout.size = size) ∧
    ∀ (data : Array α) tensor, ofArray shape data = .ok tensor →
      (tensor.Accessible ↔ leadingVolume shape.reverse < addressLimit ∧
        ∀ rest, shape = 0 :: rest → leadingVolume rest < addressLimit) ∧
      (0 < data.size → tensor.Accessible) ∧
      (addressLimit ≤ leadingVolume shape.reverse → tensor.layout = .error .capacity ∧
        ∀ coordinates value, tensor.get? coordinates = .error .capacity ∧
          tensor.set? coordinates value = .error .capacity) := by
  refine ⟨fun data => ?_, fun size => Layout.exists_ofShape_iff, ?_, fun filled size => ?_,
    fun data tensor made => ?_⟩
  · rw [exists_ofArray_iff, volume?_eq_some_iff]
  · simp only [volume?_eq_some_iff, Layout.exists_ofShape_iff]
    constructor
    · intro agree
      simpa using agree (volume shape)
    · intro agree size
      rw [agree]
  · rw [volume?_eq_some_iff, Layout.exists_ofShape_iff, leadingVolume_reverse filled]
  · rcases of_ofArray_eq_ok made with ⟨rfl, rfl⟩
    refine ⟨accessible_iff, fun occupied => accessible_of_filled fun empty => ?_,
      fun large => ⟨layout_eq_capacity large, get?_set?_eq_capacity large⟩⟩
    have none := tensor.size_eq_volume.trans (volume_eq_zero_of_mem empty)
    exact Nat.ne_of_gt occupied none

/--
An empty leading axis hides the overflow behind it from the construction of a tensor, and an empty
last axis hides the one before it from the layout.
-/
theorem not_accessible_of_hidden_overflow :
    (∃ tensor : Tensor Int, ofArray [0, 2 ^ 40, 2 ^ 40] #[] = .ok tensor ∧
      Layout.ofShape [0, 2 ^ 40, 2 ^ 40] = .error .outOfBounds ∧
      tensor.layout = .error .capacity ∧ tensor.get? [0, 0, 0] = .error .capacity ∧
      ¬ tensor.Accessible) ∧
    volume? [2 ^ 40, 2 ^ 40, 0] = none ∧
      ∃ layout, Layout.ofShape [2 ^ 40, 2 ^ 40, 0] = .ok layout ∧ layout.size = 0 := by
  have large : addressLimit ≤ leadingVolume [0, 2 ^ 40, 2 ^ 40].reverse := by decide
  refine ⟨?_, by decide, ⟨[2 ^ 40, 2 ^ 40, 0], by decide⟩, by rfl, by decide⟩
  refine ⟨⟨[0, 2 ^ 40, 2 ^ 40], #[], by decide⟩, by rfl, by rfl, layout_eq_capacity large,
    (get?_set?_eq_capacity large _ 0).1, fun accessible => ?_⟩
  exact Nat.not_lt_of_le large (accessible_iff.1 accessible).1

end Tensor

end Watershed
