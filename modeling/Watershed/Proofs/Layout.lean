import Watershed.Grid.Layout

/-!
# Coordinates, neighbours and distances

The four views of a cell agree: flat indices and coordinates are in bijection, the odometer passes
through the coordinates in the order of the flat indices, the intervals of an offset mark the cells
that have a neighbour there, and this neighbour is at the flat distance of the offset.

The flat distance is computed modulo a power of two. It is the true distance as long as the grid
has at most half as many cells as there are addresses, and this is so for every grid over which a
tensor can be stored.
-/

namespace Watershed

theorem mul_add_div_of_lt {size cell : Nat} (channel : Nat) (inside : cell < size) :
    (channel * size + cell) / size = channel := by
  rw [Nat.mul_comm, Nat.mul_add_div (Nat.lt_of_le_of_lt (Nat.zero_le _) inside),
    Nat.div_eq_of_lt inside, Nat.add_zero]

theorem mul_add_lt {channels size channel cell : Nat} (known : channel < channels)
    (inside : cell < size) : channel * size + cell < channels * size := by
  have room := Nat.mul_le_mul_right size (Nat.succ_le_of_lt known)
  rw [Nat.succ_mul] at room
  omega

theorem mul_add_lt_mul_iff {channels size channel cell : Nat} (inside : cell < size) :
    channel * size + cell < channels * size ↔ channel < channels := by
  constructor
  · intro below
    refine Nat.lt_of_not_le fun beyond => ?_
    have room := Nat.mul_le_mul_right size beyond
    omega
  · exact fun below => mul_add_lt below inside

variable {shape : List Nat} {index other : Nat} {coordinates moved : Coordinates} {offset : Offset}

theorem volume_pos_of_lt {extent : Nat} (inside : index < volume (extent :: shape)) :
    0 < volume shape := by
  rcases Nat.eq_zero_or_pos (volume shape) with empty | positive
  · rw [volume, empty, Nat.mul_zero] at inside
    exact absurd inside (Nat.not_lt_zero _)
  · exact positive

/-- Flat indices and coordinates are in bijection. -/
theorem rowMajorIndex?_eq_some_iff : rowMajorIndex? shape coordinates = some index ↔
    index < volume shape ∧ rowMajorCoordinates shape index = coordinates := by
  induction shape generalizing index coordinates with
  | nil =>
      cases coordinates with
      | nil =>
          rw [rowMajorIndex?, volume, rowMajorCoordinates, Option.some.injEq, and_iff_left rfl]
          omega
      | cons _ _ => simp [rowMajorIndex?, rowMajorCoordinates]
  | cons extent shape ih =>
      cases coordinates with
      | nil => simp [rowMajorIndex?, rowMajorCoordinates]
      | cons coordinate coordinates =>
          rw [rowMajorIndex?, rowMajorCoordinates, List.cons.injEq]
          constructor
          · intro found
            split at found
            · next below =>
              rcases Option.map_eq_some_iff.1 found with ⟨rest, foundRest, rfl⟩
              rcases ih.1 foundRest with ⟨inside, same⟩
              have positive : 0 < volume shape := Nat.lt_of_le_of_lt (Nat.zero_le _) inside
              have room := Nat.mul_le_mul_right (volume shape) (Nat.succ_le_of_lt below)
              rw [Nat.mul_comm coordinate, Nat.mul_add_div positive, Nat.div_eq_of_lt inside,
                Nat.mul_add_mod, Nat.mod_eq_of_lt inside]
              refine ⟨?_, Nat.add_zero _, same⟩
              rw [Nat.succ_mul, Nat.mul_comm coordinate] at room
              rw [volume]
              omega
            · exact absurd found (by simp)
          · rintro ⟨inside, rfl, same⟩
            have positive := volume_pos_of_lt inside
            have below : index / volume shape < extent :=
              (Nat.div_lt_iff_lt_mul positive).2 inside
            rw [if_pos below, ih.2 ⟨Nat.mod_lt index positive, same⟩, Option.map_some, Nat.mul_comm,
              Nat.div_add_mod]

theorem rowMajorIndex?_rowMajorCoordinates (inside : index < volume shape) :
    rowMajorIndex? shape (rowMajorCoordinates shape index) = some index :=
  rowMajorIndex?_eq_some_iff.2 ⟨inside, rfl⟩

theorem rowMajorCoordinates_zero (shape : List Nat) :
    rowMajorCoordinates shape 0 = shape.map fun _ => 0 := by
  induction shape with
  | nil => rfl
  | cons extent shape ih => rw [rowMajorCoordinates, Nat.zero_div, Nat.zero_mod, ih, List.map_cons]

/-- The odometer goes to the cell with the next flat index, and from the last cell to the first. -/
theorem advance_rowMajorCoordinates (inside : index < volume shape) :
    advance shape (rowMajorCoordinates shape index) =
      (rowMajorCoordinates shape ((index + 1) % volume shape),
        decide (index + 1 = volume shape)) := by
  induction shape generalizing index with
  | nil =>
      obtain rfl : index = 0 := Nat.lt_one_iff.1 inside
      rfl
  | cons extent shape ih =>
      have positive := volume_pos_of_lt inside
      have below : index / volume shape < extent := (Nat.div_lt_iff_lt_mul positive).2 inside
      have parts : volume shape * (index / volume shape) + index % volume shape = index :=
        Nat.div_add_mod index (volume shape)
      rw [rowMajorCoordinates, advance, ih (Nat.mod_lt index positive)]
      by_cases carry : index % volume shape + 1 = volume shape
      · -- the inner axes start again, and the leading one advances or starts again, too
        have next : index + 1 = volume shape * (index / volume shape + 1) := by
          rw [Nat.mul_succ]
          omega
        rw [carry, Nat.mod_self, decide_eq_true rfl]
        dsimp only
        split
        · next room =>
          have notLast : index + 1 < volume (extent :: shape) := by
            rw [volume, next, Nat.mul_comm]
            exact Nat.mul_lt_mul_of_pos_right room positive
          rw [Nat.mod_eq_of_lt notLast, rowMajorCoordinates, next,
            Nat.mul_div_cancel_left _ positive, Nat.mul_mod_right, ← next,
            decide_eq_false (Nat.ne_of_lt notLast)]
        · next full =>
          have last : index + 1 = volume (extent :: shape) := by
            rw [volume, next, Nat.mul_comm, show index / volume shape + 1 = extent by omega]
          rw [last, Nat.mod_self, decide_eq_true rfl, rowMajorCoordinates, Nat.zero_div,
            Nat.zero_mod]
      · -- only the inner axes advance
        have less : index % volume shape + 1 < volume shape := by
          have := Nat.mod_lt index positive
          omega
        have next : index + 1 = volume shape * (index / volume shape) +
            (index % volume shape + 1) := by omega
        have notLast : index + 1 < volume (extent :: shape) := by
          have room := Nat.mul_le_mul_left (volume shape) (Nat.succ_le_of_lt below)
          rw [Nat.mul_succ] at room
          rw [volume, Nat.mul_comm]
          omega
        rw [decide_eq_false carry, Nat.mod_eq_of_lt less, Nat.mod_eq_of_lt notLast,
          decide_eq_false (Nat.ne_of_lt notLast), rowMajorCoordinates, next,
          Nat.mul_add_div positive, Nat.div_eq_of_lt less, Nat.mul_add_mod, Nat.mod_eq_of_lt less]
        rfl

/-- The odometer visits the cells in the order of their flat indices. -/
theorem walk_rowMajorCoordinates (count : Nat) (seen : Array (Nat × Coordinates))
    (inside : index + count ≤ volume shape) :
    walk shape count index (rowMajorCoordinates shape (index % volume shape)) seen =
      seen ++ ((List.range' index count).map fun cell =>
        (cell, rowMajorCoordinates shape cell)).toArray := by
  induction count generalizing index seen with
  | zero => simp [walk]
  | succ count ih =>
      have below : index < volume shape := by omega
      rw [walk, Nat.mod_eq_of_lt below, advance_rowMajorCoordinates below, ih _ (by omega),
        List.range'_succ]
      simp

/-- The sum of the steps, each weighted with the distance of neighbours along its axis. -/
def distance : List Nat → Offset → Int
  | _ :: shape, step :: offset => step * volume shape + distance shape offset
  | _, _ => 0

/-- The neighbour at an offset lies at the distance of the offset. -/
theorem rowMajorIndex?_of_displace? (known : rowMajorIndex? shape coordinates = some index)
    (displaced : displace? shape coordinates offset = some moved) :
    ∃ other, rowMajorIndex? shape moved = some other ∧
      (other : Int) = index + distance shape offset := by
  fun_induction displace? shape coordinates offset generalizing index moved with
  | case1 =>
      rcases Option.some.inj displaced with rfl
      exact ⟨index, known, by simp [distance]⟩
  | case2 extent shape coordinate coordinates step offset inside ih =>
      rcases Option.map_eq_some_iff.1 displaced with ⟨rest, displacedRest, rfl⟩
      rw [rowMajorIndex?] at known
      split at known
      · rcases Option.map_eq_some_iff.1 known with ⟨tail, knownTail, rfl⟩
        rcases ih knownTail displacedRest with ⟨otherTail, found, apart⟩
        have below : (coordinate + step).toNat < extent := by omega
        refine ⟨(coordinate + step).toNat * volume shape + otherTail, ?_, ?_⟩
        · rw [rowMajorIndex?, if_pos below, found, Option.map_some]
        · rw [distance, Int.natCast_add, Int.natCast_mul, Int.toNat_of_nonneg inside.1, apart,
            Int.natCast_add, Int.natCast_mul, Int.add_mul]
          omega
      · exact absurd known (by simp)
  | case3 => exact absurd displaced (by simp)
  | case4 => exact absurd displaced (by simp)

theorem displace?_neg (known : rowMajorIndex? shape coordinates = some index)
    (displaced : displace? shape coordinates offset = some moved) :
    displace? shape moved (offset.map (- ·)) = some coordinates := by
  fun_induction displace? shape coordinates offset generalizing index moved with
  | case1 =>
      rcases Option.some.inj displaced with rfl
      rfl
  | case2 extent shape coordinate coordinates step offset inside ih =>
      rcases Option.map_eq_some_iff.1 displaced with ⟨rest, displacedRest, rfl⟩
      rw [rowMajorIndex?] at known
      split at known
      · rcases Option.map_eq_some_iff.1 known with ⟨tail, knownTail, -⟩
        have back : ((coordinate + step).toNat : Int) + -step = coordinate := by omega
        rw [List.map_cons, displace?, back, if_pos (by omega), ih knownTail displacedRest]
        rfl
      · exact absurd known (by simp)
  | case3 => exact absurd displaced (by simp)
  | case4 => exact absurd displaced (by simp)

theorem displace?_of_all_zero (known : rowMajorIndex? shape coordinates = some index)
    (ranks : offset.length = shape.length) (still : ∀ step ∈ offset, step = 0) :
    displace? shape coordinates offset = some coordinates := by
  induction shape generalizing coordinates offset index with
  | nil =>
      rcases List.eq_nil_of_length_eq_zero ranks with rfl
      rcases rowMajorIndex?_eq_some_iff.1 known with ⟨-, rfl⟩
      rfl
  | cons extent shape ih =>
      rcases List.exists_cons_of_length_eq_add_one ranks with ⟨step, offset, rfl⟩
      obtain rfl : step = 0 := still step List.mem_cons_self
      cases coordinates with
      | nil => exact absurd known (by simp [rowMajorIndex?])
      | cons coordinate coordinates =>
          rw [rowMajorIndex?] at known
          split at known
          · rcases Option.map_eq_some_iff.1 known with ⟨tail, knownTail, -⟩
            rw [displace?, Int.add_zero, if_pos (by omega), ih knownTail (Nat.succ.inj ranks)
              fun other member => still other (List.mem_cons_of_mem _ member)]
            rfl
          · exact absurd known (by simp)

theorem Span.contains_ofStep {extent position : Nat} (step : Int) (below : position < extent) :
    (Span.ofStep extent step).contains position =
      decide (0 ≤ (position : Int) + step ∧ (position : Int) + step < extent) := by
  rw [Bool.eq_iff_iff, decide_eq_true_eq, Span.ofStep]
  by_cases far : extent ≤ step.natAbs
  · rw [if_pos far]
    simp only [Span.contains, Bool.and_eq_true, decide_eq_true_eq]
    omega
  · rw [if_neg far]
    by_cases back : step < 0
    · rw [if_pos back]
      simp only [Span.contains, Bool.and_eq_true, decide_eq_true_eq]
      omega
    · rw [if_neg back]
      simp only [Span.contains, Bool.and_eq_true, decide_eq_true_eq]
      omega

/-- The intervals of an offset contain the cells that have a neighbour there. -/
theorem containAll_zipWith_ofStep (known : rowMajorIndex? shape coordinates = some index)
    (ranks : offset.length = shape.length) :
    Span.containAll (shape.zipWith Span.ofStep offset) coordinates =
      (displace? shape coordinates offset).isSome := by
  induction shape generalizing coordinates offset index with
  | nil =>
      rcases List.eq_nil_of_length_eq_zero ranks with rfl
      rcases rowMajorIndex?_eq_some_iff.1 known with ⟨-, rfl⟩
      rfl
  | cons extent shape ih =>
      rcases List.exists_cons_of_length_eq_add_one ranks with ⟨step, offset, rfl⟩
      cases coordinates with
      | nil => exact absurd known (by simp [rowMajorIndex?])
      | cons coordinate coordinates =>
          rw [rowMajorIndex?] at known
          split at known
          · next below =>
            rcases Option.map_eq_some_iff.1 known with ⟨tail, knownTail, -⟩
            rw [List.zipWith_cons_cons, Span.containAll, Span.contains_ofStep step below,
              ih knownTail (Nat.succ.inj ranks), displace?]
            split
            · next inside => rw [decide_eq_true inside, Bool.true_and, Option.isSome_map]
            · next outside => rw [decide_eq_false outside, Bool.false_and, Option.isSome_none]
          · exact absurd known (by simp)

namespace Layout

variable {layout : Layout}

theorem ofShape_eq_ok {shape : List Nat} {layout : Layout}
    (laid : ofShape shape = .ok layout) : layout.shape = shape := by
  unfold ofShape at laid
  split at laid
  · exact (Except.ok.inj laid) ▸ rfl
  · exact absurd laid (by simp)

theorem eq_of_shape_eq {other : Layout} (same : layout.shape = other.shape) : layout = other := by
  rcases layout with ⟨shape, addressable⟩
  rcases other with ⟨otherShape, otherAddressable⟩
  obtain rfl : shape = otherShape := same
  rfl

theorem size_lt_addressLimit (layout : Layout) : layout.size < addressLimit := by
  rcases layout with ⟨shape, addressable⟩
  cases shape with
  | nil => exact (by decide : 1 < addressLimit)
  | cons extent shape => exact addressable.1

theorem visits_eq : layout.visits =
    ((List.range layout.size).map fun cell =>
      (cell, rowMajorCoordinates layout.shape cell)).toArray := by
  have walked := @walk_rowMajorCoordinates layout.shape 0 layout.size #[]
    (Nat.le_of_eq (Nat.zero_add _))
  rw [Nat.zero_mod, rowMajorCoordinates_zero] at walked
  rw [visits, walked, List.range_eq_range']
  simp

theorem getElem?_sweep {holds : Coordinates → Bool} (inside : index < layout.size) :
    (layout.sweep holds)[index]? = some (holds (rowMajorCoordinates layout.shape index)) := by
  rw [sweep, visits_eq]
  simp [inside]

theorem coordinates?_eq_some_iff :
    layout.coordinates? index = some coordinates ↔ layout.index? coordinates = some index := by
  rw [index?, rowMajorIndex?_eq_some_iff, coordinates?]
  split
  · next inside => rw [Option.some.injEq, ← size, and_iff_right inside]
  · next outside => exact iff_of_false nofun fun both => outside both.1

theorem shift?_eq_some_iff : layout.shift? index offset = some other ↔
    index < layout.size ∧ ∃ moved,
      displace? layout.shape (rowMajorCoordinates layout.shape index) offset = some moved ∧
        rowMajorIndex? layout.shape moved = some other := by
  unfold shift? coordinates? index?
  by_cases inside : index < layout.size
  · simp [inside, Option.bind_eq_some_iff]
  · simp [inside]

theorem distance_of_shift?_eq (shifted : layout.shift? index offset = some other) :
    index < layout.size ∧ other < layout.size ∧
      (other : Int) = index + distance layout.shape offset := by
  rcases shift?_eq_some_iff.1 shifted with ⟨inside, moved, displaced, found⟩
  rcases rowMajorIndex?_of_displace? (rowMajorIndex?_rowMajorCoordinates inside) displaced with
      ⟨same, foundSame, apart⟩
  rcases Option.some.inj (found.symm.trans foundSame) with rfl
  exact ⟨inside, (rowMajorIndex?_eq_some_iff.1 found).1, apart⟩

/-- The neighbour at the opposite offset of a neighbour is the cell itself. -/
theorem shift?_neg (shifted : layout.shift? index offset = some other) :
    layout.shift? other (offset.map (- ·)) = some index := by
  rcases shift?_eq_some_iff.1 shifted with ⟨inside, moved, displaced, found⟩
  have known := rowMajorIndex?_rowMajorCoordinates inside
  rcases rowMajorIndex?_eq_some_iff.1 found with ⟨otherInside, same⟩
  refine shift?_eq_some_iff.2 ⟨otherInside, _, ?_, known⟩
  rw [same]
  exact displace?_neg known displaced

theorem shift?_neg_iff :
    layout.shift? index (offset.map (- ·)) = some other ↔
      layout.shift? other offset = some index := by
  constructor
  · intro shifted
    simpa [Function.comp_def] using shift?_neg shifted
  · exact shift?_neg

/-- The intervals of an offset contain the coordinates of the cells that have a neighbour there. -/
theorem containAll_spans (inside : index < layout.size) (ranks : offset.length = layout.rank) :
    Span.containAll (layout.spans offset) (rowMajorCoordinates layout.shape index) =
      (layout.shift? index offset).isSome := by
  have known := rowMajorIndex?_rowMajorCoordinates inside
  rw [spans, containAll_zipWith_ofStep known ranks, Bool.eq_iff_iff, Option.isSome_iff_exists,
    Option.isSome_iff_exists]
  constructor
  · rintro ⟨moved, displaced⟩
    rcases rowMajorIndex?_of_displace? known displaced with ⟨other, found, -⟩
    exact ⟨other, shift?_eq_some_iff.2 ⟨inside, moved, displaced, found⟩⟩
  · rintro ⟨other, shifted⟩
    rcases shift?_eq_some_iff.1 shifted with ⟨-, moved, displaced, -⟩
    exact ⟨moved, displaced⟩

/-- The marks of an offset are at the cells that have a neighbour there. -/
theorem getElem?_insideMask (inside : index < layout.size) (ranks : offset.length = layout.rank) :
    (layout.insideMask offset)[index]? = some (layout.shift? index offset).isSome := by
  rw [insideMask, getElem?_sweep inside, containAll_spans inside ranks]

theorem shift?_of_all_zero (inside : index < layout.size) (ranks : offset.length = layout.rank)
    (still : ∀ step ∈ offset, step = 0) : layout.shift? index offset = some index := by
  have known := rowMajorIndex?_rowMajorCoordinates inside
  exact shift?_eq_some_iff.2 ⟨inside, _, displace?_of_all_zero known ranks still, known⟩

theorem foldl_wrap64 (pairs : List (Int × Nat)) (total : Int) :
    pairs.foldl (fun total (step, stride) => wrap64 (total + wrap64 (step * wrap64 stride)))
        (wrap64 total) =
      wrap64 (pairs.foldl (fun total (step, stride) => total + step * stride) total) := by
  induction pairs generalizing total with
  | nil => simp
  | cons pair pairs ih =>
      rcases pair with ⟨step, stride⟩
      have once : wrap64 (wrap64 total + wrap64 (step * wrap64 stride)) =
          wrap64 (total + step * stride) := by
        simp only [wrap64, Int.bmod_add_bmod, Int.add_bmod_bmod, Int.mul_bmod_bmod]
      rw [List.foldl_cons]
      dsimp only
      rw [once, ih, List.foldl_cons]

theorem flatOffset_eq (layout : Layout) (offset : Offset) :
    layout.flatOffset offset = wrap64 (distance layout.shape offset) := by
  have total : ∀ (shape : List Nat) (offset : Offset) (start : Int),
      (offset.zip (axisStrides shape)).foldl (fun total (step, stride) => total + step * stride)
          start = start + distance shape offset := by
    intro shape offset start
    induction shape generalizing offset start with
    | nil => simp [axisStrides, distance]
    | cons extent shape ih =>
        cases offset with
        | nil => simp [distance]
        | cons step offset => simp [axisStrides, distance, ih, Int.add_assoc]
  have wrapped := foldl_wrap64 (offset.zip layout.strides) 0
  rw [strides, total, Int.zero_add] at wrapped
  exact wrapped

/-- In a grid that is not too large the flat distance leads to the neighbour. -/
theorem flatOffset_of_shift?_eq (small : layout.size ≤ addressLimit / 2)
    (shifted : layout.shift? index offset = some other) :
    layout.flatOffset offset = other - index := by
  rcases distance_of_shift?_eq shifted with ⟨inside, otherInside, apart⟩
  have exact : distance layout.shape offset = other - index := by omega
  rw [flatOffset_eq, exact, wrap64]
  simp only [addressLimit, UInt64.size] at small ⊢
  exact Int.bmod_eq_of_le (by omega) (by omega)

/-- The flat distance of an offset leads to no cell but the neighbour, however large the grid is. -/
theorem eq_of_flatOffset_of_shift?_eq (shifted : layout.shift? index offset = some other)
    {target : Nat} (inside : target < layout.size)
    (reached : (target : Int) = index + layout.flatOffset offset) : target = other := by
  rcases distance_of_shift?_eq shifted with ⟨-, otherInside, apart⟩
  have below := layout.size_lt_addressLimit
  have wrapped : (target : Int) % addressLimit = (other : Int) % addressLimit := by
    rw [reached, flatOffset_eq, wrap64, apart, Int.add_emod, Int.bmod_emod, ← Int.add_emod]
  rw [Int.emod_eq_of_lt (Int.natCast_nonneg target) (by omega),
    Int.emod_eq_of_lt (Int.natCast_nonneg other) (by omega)] at wrapped
  exact Int.ofNat.inj wrapped

end Layout

end Watershed
