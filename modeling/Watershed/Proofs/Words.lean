import Watershed.Proofs.Coordinates

/-!
# Cells in 64-bit arithmetic

The numbering of cells is defined over unbounded numbers. Here it is computed once more in 64-bit
words, by loops over the axes, where every sum and product is checked for an overflow and every
division for a zero. No check ever fails for a shape with a layout, and the results are the same.
An index is added up before all coordinates are known to be in range, but what has been added so
far never exceeds the size of the grid. A cell exists only if no axis is empty, so that no stride
is zero where an index is divided by it.
-/

namespace Watershed

namespace Word

/-- A value that a 64-bit word can hold. -/
def check? (value : Nat) : Option Nat :=
  if value < addressLimit then some value else none

/-- A sum that does not overflow. -/
def add? (x y : Nat) : Option Nat :=
  check? (x + y)

/-- A product that does not overflow. -/
def mul? (x y : Nat) : Option Nat :=
  check? (x * y)

/-- A quotient, unless the divisor is zero. -/
def div? (x y : Nat) : Option Nat :=
  if y = 0 then none else some (x / y)

/-- A remainder, unless the divisor is zero. -/
def mod? (x y : Nat) : Option Nat :=
  if y = 0 then none else some (x % y)

/-- The strides and the size of a shape, from the last axis to the first. -/
def strides? : List Nat → Option (List Nat × Nat)
  | [] => some ([], 1)
  | extent :: shape => do
      let (strides, size) ← strides? shape
      let total ← mul? size extent
      return (size :: strides, total)

/-- Adds coordinates, each times its stride, to a total, until one of them is out of range. -/
def addUp? : (shape strides : List Nat) → Coordinates → (total : Nat) → Option (Option Nat)
  | extent :: shape, stride :: strides, coordinate :: coordinates, total =>
      if extent ≤ coordinate then
        some none
      else do
        let moved ← mul? coordinate stride
        let total ← add? total moved
        addUp? shape strides coordinates total
  | _, _, _, total => some (some total)

/-- The flat index of coordinates. -/
def index? (layout : Layout) (coordinates : Coordinates) : Option (Option Nat) :=
  if coordinates.length = layout.rank then
    addUp? layout.shape layout.strides coordinates 0
  else
    some none

/-- Divides by one stride after another and goes on with the remainder. -/
def divide? : (strides : List Nat) → (left : Nat) → Option Coordinates
  | [], _ => some []
  | stride :: strides, left => do
      let coordinate ← div? left stride
      let rest ← mod? left stride
      let coordinates ← divide? strides rest
      return coordinate :: coordinates

/-- The coordinates of a flat index. -/
def coordinates? (layout : Layout) (index : Nat) : Option (Option Coordinates) :=
  if index < layout.size then (divide? layout.strides index).map some else some none

/--
Turns the odometer at the last of the given number of axes, and goes on with the axis before it as
long as an axis wraps around. Tells whether all of them have.
-/
def turn? (shape : List Nat) : (axes : Nat) → Coordinates → Option (Coordinates × Bool)
  | 0, coordinates => some (coordinates, true)
  | axis + 1, coordinates => do
      let coordinate ← coordinates[axis]?
      let extent ← shape[axis]?
      let next ← add? coordinate 1
      if next < extent then
        return (coordinates.set axis next, false)
      else
        turn? shape axis (coordinates.set axis 0)

/-- The next `count` cells of the odometer, appended to those already seen. -/
def walk? (shape : List Nat) : (count index : Nat) → Coordinates → Array (Nat × Coordinates) →
    Option (Array (Nat × Coordinates))
  | 0, _, _, seen => some seen
  | count + 1, index, coordinates, seen => do
      let (turned, _) ← turn? shape shape.length coordinates
      let next ← add? index 1
      walk? shape count next turned (seen.push (index, coordinates))

/-- Every cell in row-major order, with its flat index and its coordinates. -/
def visits? (layout : Layout) : Option (Array (Nat × Coordinates)) :=
  if layout.size = 0 then
    some #[]
  else
    walk? layout.shape layout.size 0 (List.replicate layout.rank 0) #[]

variable {shape : List Nat} {coordinates : Coordinates} {index total : Nat}

theorem check?_eq {value : Nat} (fits : value < addressLimit) : check? value = some value :=
  if_pos fits

theorem div?_eq {x y : Nat} (positive : 0 < y) : div? x y = some (x / y) :=
  if_neg (Nat.ne_of_gt positive)

theorem mod?_eq {x y : Nat} (positive : 0 < y) : mod? x y = some (x % y) :=
  if_neg (Nat.ne_of_gt positive)

theorem strides?_eq (addressable : Addressable shape) :
    strides? shape = some (axisStrides shape, volume shape) := by
  induction shape with
  | nil => rfl
  | cons extent shape ih =>
      have product : mul? (volume shape) extent = some (volume (extent :: shape)) := by
        rw [mul?, Nat.mul_comm]
        exact check?_eq addressable.1
      rw [strides?, ih addressable.2, axisStrides]
      simp [product]

/-- What has been added up and what can still be added fit into a word. -/
theorem addUp?_eq (below : total < addressLimit) (room : total + volume shape ≤ addressLimit)
    (ranks : coordinates.length = shape.length) :
    addUp? shape (axisStrides shape) coordinates total =
      some ((rowMajorIndex? shape coordinates).map (total + ·)) := by
  induction shape generalizing coordinates total with
  | nil =>
      rcases List.eq_nil_of_length_eq_zero ranks with rfl
      rfl
  | cons extent shape ih =>
      rcases List.exists_cons_of_length_eq_add_one ranks with ⟨coordinate, coordinates, rfl⟩
      rw [axisStrides, addUp?, rowMajorIndex?]
      by_cases inside : coordinate < extent
      · have step := Nat.mul_le_mul_right (volume shape) (Nat.succ_le_of_lt inside)
        rw [Nat.succ_mul] at step
        rw [volume] at room
        have fits : total + coordinate * volume shape < addressLimit := by
          -- in front of an empty axis the stride is zero and nothing is added
          rcases Nat.eq_zero_or_pos (volume shape) with empty | positive
          · rwa [empty, Nat.mul_zero, Nat.add_zero]
          · omega
        have product : coordinate * volume shape < addressLimit := by omega
        rw [if_neg (Nat.not_le_of_lt inside), if_pos inside]
        simp only [mul?, add?, check?_eq product, check?_eq fits, Option.bind_eq_bind,
          Option.bind_some, ih fits (by omega) (Nat.succ.inj ranks), Option.map_map]
        congr 2
        funext rest
        exact Nat.add_assoc _ _ _
      · rw [if_pos (Nat.le_of_not_lt inside), if_neg inside, Option.map_none]

theorem divide?_eq (inside : index < volume shape) :
    divide? (axisStrides shape) index = some (rowMajorCoordinates shape index) := by
  induction shape generalizing index with
  | nil => rfl
  | cons extent shape ih =>
      have positive := volume_pos_of_lt inside
      rw [axisStrides, divide?, rowMajorCoordinates]
      simp [div?_eq positive, mod?_eq positive, ih (Nat.mod_lt index positive)]

theorem turn?_succ (shape : List Nat) (axis : Nat) (coordinates : Coordinates) :
    turn? shape (axis + 1) coordinates =
      coordinates[axis]?.bind fun coordinate => shape[axis]?.bind fun extent =>
        (add? coordinate 1).bind fun next =>
          if next < extent then some (coordinates.set axis next, false)
          else turn? shape axis (coordinates.set axis 0) :=
  rfl

/-- The inner axes turn first, and the leading axis turns after all of them have wrapped around. -/
theorem turn?_cons (extent coordinate axes : Nat) (shape : List Nat) (coordinates : Coordinates) :
    turn? (extent :: shape) (axes + 1) (coordinate :: coordinates) =
      (turn? shape axes coordinates).bind fun (rest, wrapped) =>
        if wrapped then turn? (extent :: shape) 1 (coordinate :: rest)
        else some (coordinate :: rest, false) := by
  induction axes generalizing coordinates with
  | zero => rfl
  | succ axis ih =>
      -- both sides turn the same axis first, and the rest of the loop is the induction hypothesis
      rw [turn?_succ (extent :: shape), turn?_succ shape, List.getElem?_cons_succ,
        List.getElem?_cons_succ]
      cases coordinates[axis]? with
      | none => rfl
      | some inner =>
          cases shape[axis]? with
          | none => rfl
          | some innerExtent =>
              simp only [Option.bind_some, List.set_cons_succ, ih]
              cases add? inner 1 with
              | none => rfl
              | some next =>
                  simp only [Option.bind_some]
                  split <;> rfl

theorem volume_pos_of_inGrid (inside : InGrid shape coordinates) : 0 < volume shape := by
  rcases Option.isSome_iff_exists.1 (isSome_rowMajorIndex?_iff.2 inside) with ⟨index, found⟩
  exact Nat.lt_of_le_of_lt (Nat.zero_le index) (rowMajorIndex?_eq_some_iff.1 found).1

/-- A coordinate that is in range can be increased. -/
theorem turn?_eq (inside : InGrid shape coordinates) (fits : volume shape < addressLimit) :
    turn? shape shape.length coordinates = some (advance shape coordinates) := by
  induction inside with
  | nil => rfl
  | @cons coordinate extent coordinates shape below inside ih =>
      have positive := volume_pos_of_inGrid inside
      rw [volume] at fits
      have occupied : 0 < extent := Nat.lt_of_le_of_lt (Nat.zero_le _) below
      have restFits := Nat.le_mul_of_pos_left (volume shape) occupied
      have extentFits := Nat.le_mul_of_pos_right extent positive
      have increased : add? coordinate 1 = some (coordinate + 1) := check?_eq (by omega)
      rw [List.length_cons, turn?_cons, ih (by omega), Option.bind_some, advance]
      rcases advance shape coordinates with ⟨rest, wrapped⟩
      cases wrapped with
      | false => rfl
      | true =>
          dsimp only
          rw [if_pos rfl, turn?_succ, List.getElem?_cons_zero, List.getElem?_cons_zero,
            Option.bind_some, Option.bind_some, increased, Option.bind_some]
          split <;> rfl

/-- The odometer turns at every cell. -/
theorem walk?_eq (fits : volume shape < addressLimit) (count : Nat)
    (seen : Array (Nat × Coordinates)) (inside : index + count ≤ volume shape) :
    walk? shape count index (rowMajorCoordinates shape (index % volume shape)) seen =
      some (walk shape count index (rowMajorCoordinates shape (index % volume shape)) seen) := by
  induction count generalizing index seen with
  | zero => rfl
  | succ count ih =>
      have below : index < volume shape := by omega
      have inGrid := isSome_rowMajorIndex?_iff.1
        (Option.isSome_of_eq_some (rowMajorIndex?_rowMajorCoordinates below))
      have next : add? index 1 = some (index + 1) := check?_eq (by omega)
      rw [Nat.mod_eq_of_lt below, walk?, walk, turn?_eq inGrid fits, next,
        advance_rowMajorCoordinates below]
      exact ih _ (by omega)

theorem index?_eq (layout : Layout) (coordinates : Coordinates) :
    index? layout coordinates = some (layout.index? coordinates) := by
  rw [index?, Layout.index?]
  by_cases ranks : coordinates.length = layout.rank
  · have room : 0 + volume layout.shape ≤ addressLimit := by
      rw [Nat.zero_add]
      exact Nat.le_of_lt layout.size_lt_addressLimit
    rw [if_pos ranks, Layout.strides, addUp?_eq (by decide) room ranks]
    simp only [Nat.zero_add, Option.map_id']
  · -- without the comparison of ranks the sum would stop at the end of the shorter list
    rw [if_neg ranks]
    cases found : rowMajorIndex? layout.shape coordinates with
    | none => rfl
    | some index =>
        have inside := isSome_rowMajorIndex?_iff.1 (Option.isSome_of_eq_some found)
        exact absurd inside.length_eq ranks

theorem coordinates?_eq (layout : Layout) (index : Nat) :
    coordinates? layout index = some (layout.coordinates? index) := by
  rw [coordinates?, Layout.coordinates?]
  by_cases inside : index < layout.size
  · rw [if_pos inside, if_pos inside, Layout.strides, divide?_eq inside, Option.map_some]
  · rw [if_neg inside, if_neg inside]

theorem visits?_eq (layout : Layout) : visits? layout = some layout.visits := by
  rw [visits?, Layout.visits]
  by_cases empty : layout.size = 0
  · rw [if_pos empty, empty, walk]
  · have walked := walk?_eq layout.size_lt_addressLimit layout.size #[]
      (Nat.le_of_eq (Nat.zero_add _))
    rw [Nat.zero_mod, rowMajorCoordinates_zero] at walked
    rw [if_neg empty, Layout.rank, ← List.map_const', walked]

/-- What the loops compute without any overflow and any division by zero. -/
structure Exact (layout : Layout) : Prop where
  strides : strides? layout.shape = some (layout.strides, layout.size)
  index : ∀ coordinates, index? layout coordinates = some (layout.index? coordinates)
  coordinates : ∀ index, coordinates? layout index = some (layout.coordinates? index)
  visits : visits? layout = some layout.visits

theorem exact_layout (layout : Layout) : Exact layout where
  strides := strides?_eq layout.addressable
  index := index?_eq layout
  coordinates := coordinates?_eq layout
  visits := visits?_eq layout

end Word

namespace Layout

variable {shape : List Nat} {layout : Layout}

theorem isSome_coordinates?_iff {index : Nat} :
    (layout.coordinates? index).isSome ↔ index < layout.size := by
  rw [coordinates?]
  split
  · next inside => exact iff_of_true rfl inside
  · next outside => exact iff_of_false Bool.false_ne_true outside

theorem getElem?_visits (layout : Layout) (index : Nat) :
    layout.visits[index]? =
      (layout.coordinates? index).map fun coordinates => (index, coordinates) := by
  rw [visits_eq, coordinates?]
  by_cases inside : index < layout.size
  · rw [if_pos inside]
    simp [inside]
  · rw [if_neg inside]
    simp [Nat.le_of_not_lt inside]

/--
The cells of a layout are numbered one to one. The coordinates with a flat index are exactly those
with one component per axis, each in range; the index is below the size and leads back to them. The
flat indices with coordinates are exactly those below the size, and the coordinates lead back to
them. The odometer visits the cells by ascending index, each one with its coordinates. All of this
can be computed in 64-bit arithmetic.
-/
theorem cells_numbered (laid : ofShape shape = .ok layout) :
    layout.shape = shape ∧
    (∀ coordinates, (layout.index? coordinates).isSome ↔ InGrid shape coordinates) ∧
    (∀ coordinates index, layout.index? coordinates = some index →
      index < layout.size ∧ layout.coordinates? index = some coordinates) ∧
    (∀ index, (layout.coordinates? index).isSome ↔ index < layout.size) ∧
    (∀ index coordinates, layout.coordinates? index = some coordinates →
      layout.index? coordinates = some index) ∧
    Word.Exact layout ∧
    layout.visits.size = layout.size ∧
    ∀ index, layout.visits[index]? =
      (layout.coordinates? index).map fun coordinates => (index, coordinates) := by
  obtain rfl := ofShape_eq_ok laid
  refine ⟨rfl, fun coordinates => isSome_rowMajorIndex?_iff, fun coordinates index found => ?_,
    fun index => isSome_coordinates?_iff, fun index coordinates => coordinates?_eq_some_iff.1,
    Word.exact_layout layout, ?_, getElem?_visits layout⟩
  · exact ⟨(rowMajorIndex?_eq_some_iff.1 found).1, coordinates?_eq_some_iff.2 found⟩
  · rw [visits_eq, List.size_toArray, List.length_map, List.length_range]

/-- A grid of rank zero, one with an empty axis and one on which an axis wraps around. -/
theorem cells_numbered_three :
    (∃ layout, ofShape [] = .ok layout ∧ Word.visits? layout = some #[(0, [])]) ∧
    (∃ layout, ofShape [2, 0, 3] = .ok layout ∧ layout.strides = [0, 3, 1] ∧
      layout.visits.size = 0 ∧ ∀ index, layout.coordinates? index = none) ∧
    ∃ layout, ofShape [2, 3] = .ok layout ∧ layout.index? [1, 0] = some 3 ∧
      layout.visits[3]? = some (3, [1, 0]) ∧ Word.coordinates? layout 3 = some (some [1, 0]) := by
  refine ⟨⟨⟨[], by decide⟩, rfl, ?_⟩, ⟨⟨[2, 0, 3], by decide⟩, rfl, rfl, ?_⟩,
    ⟨[2, 3], by decide⟩, rfl, rfl, ?_⟩
  · rcases @cells_numbered [] ⟨[], by decide⟩ rfl with ⟨-, -, -, -, -, words, -⟩
    exact words.visits
  · rcases @cells_numbered [2, 0, 3] ⟨[2, 0, 3], by decide⟩ rfl with
      ⟨-, -, -, known, -, -, count, -⟩
    refine ⟨count, fun index => ?_⟩
    exact Option.not_isSome_iff_eq_none.1 fun found => Nat.not_lt_zero index ((known index).1 found)
  · rcases @cells_numbered [2, 3] ⟨[2, 3], by decide⟩ rfl with
      ⟨-, -, back, -, -, words, -, visited⟩
    rcases back [1, 0] 3 rfl with ⟨-, found⟩
    rw [visited, words.coordinates, found]
    exact ⟨rfl, rfl⟩

end Layout

end Watershed
