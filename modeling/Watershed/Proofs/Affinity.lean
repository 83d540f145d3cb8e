import Watershed.Proofs.Layout
import Watershed.Proofs.Refusals
import Watershed.Proofs.Tensor

/-!
# Affinities compare a cell with its neighbour

The affinity of a cell at an offset is one exactly when the cell has a neighbour there and both have
the same label. The flat distance of the offset is taken modulo the address range, and so is the sum
by which the neighbour is found, so this holds in every grid.
-/

namespace Watershed

namespace Affinities

variable {layout : Layout} {offset : Offset}

theorem target_flatOffset {cell other : Nat} (shifted : layout.shift? cell offset = some other) :
    target cell (layout.flatOffset offset) = other := by
  rcases Layout.distance_of_shift?_eq shifted with ⟨-, otherInside, apart⟩
  have below := layout.size_lt_addressLimit
  have wrapped : ((cell : Int) + wrap64 (distance layout.shape offset)) % addressLimit =
      ((cell : Int) + distance layout.shape offset) % addressLimit := by
    rw [wrap64, Int.add_emod, Int.bmod_emod, ← Int.add_emod]
  rw [target, Layout.flatOffset_eq, wrapped, ← apart,
    Int.emod_eq_of_lt (Int.natCast_nonneg other) (by omega), Int.toNat_natCast]

/-- From where an offset stays in the grid, its flat distance leads to a cell. -/
theorem target_lt_size {cell : Nat} (ranks : offset.length = layout.rank)
    (inside : cell < layout.size) (stays : (layout.insideMask offset)[cell]? = some true) :
    target cell (layout.flatOffset offset) < layout.size := by
  rw [Layout.getElem?_insideMask inside ranks, Option.some.injEq] at stays
  rcases Option.isSome_iff_exists.1 stays with ⟨other, shifted⟩
  rw [target_flatOffset shifted]
  exact (Layout.distance_of_shift?_eq shifted).2.1

variable {α : Type} [BEq α] {labels : Tensor α} {offsets : List Offset} {ignored : Option α}

/-- Whether the labels of two cells agree, or nothing if one of them is missing or ignored. -/
def compare? (labels : Array α) (ignored : Option α) (cell other : Nat) : Option Bool :=
  match labels[cell]?, labels[other]? with
  | some here, some there =>
      if isIgnored ignored here || isIgnored ignored there then none else some (here == there)
  | _, _ => none

/-- The flat distance of an offset leads every cell to its neighbour, and marks tell who has one. -/
theorem agreement?_eq (labels : Array α) (ignored : Option α) (ranks : offset.length = layout.rank)
    {cell : Nat} (inside : cell < layout.size) :
    agreement? labels ignored (layout.insideMask offset) (layout.flatOffset offset) cell =
      (layout.shift? cell offset).bind (compare? labels ignored cell) := by
  rw [agreement?, Layout.getElem?_insideMask inside ranks]
  cases shifted : layout.shift? cell offset with
  | none => rfl
  | some other =>
      rw [target_flatOffset shifted]
      rfl

/-- Affinities compare every cell with its neighbours at the given offsets. -/
structure Compares (affinities : Affinities) (labels : Tensor α) (layout : Layout)
    (offsets : List Offset) (ignored : Option α) : Prop where
  shape : affinities.weights.shape = offsets.length :: labels.shape
  validShape : affinities.valid.shape = offsets.length :: labels.shape
  weight : ∀ channel offset, offsets[channel]? = some offset → ∀ cell < layout.size,
    affinities.weights.data[channel * layout.size + cell]? =
      some (weight ((layout.shift? cell offset).bind (compare? labels.data ignored cell)))
  valid : ∀ channel offset, offsets[channel]? = some offset → ∀ cell < layout.size,
    affinities.valid.data[channel * layout.size + cell]? =
      some ((layout.shift? cell offset).bind (compare? labels.data ignored cell)).isSome

theorem ofLabels_eq (laid : Layout.ofShape labels.shape = .ok layout)
    (ranks : ∀ offset ∈ offsets, offset.length = labels.rank) (ignored : Option α) :
    ofLabels labels offsets ignored = (Tensor.generate (offsets.length :: labels.shape) fun edge =>
        ((offsets.toArray.map (channel layout labels.data ignored))[edge / layout.size]?.bind
          (·[edge % layout.size]?)).getD none) >>= fun agreements =>
      .ok ⟨agreements.map weight, agreements.map Option.isSome⟩ := by
  have regular : offsets.find? (·.length != labels.rank) = none := by
    rw [List.find?_eq_none]
    intro offset member
    simpa using ranks offset member
  rw [ofLabels, regular]
  simp only [Tensor.layout_eq_ok_iff.2 laid, bind, Except.bind]
  rfl

/-- Affinities that cannot be counted are refused. -/
theorem ofLabels_eq_capacity (laid : Layout.ofShape labels.shape = .ok layout)
    (ranks : ∀ offset ∈ offsets, offset.length = labels.rank)
    (uncounted : volume? (offsets.length :: labels.shape) = none) :
    ofLabels labels offsets ignored = .error .capacity := by
  rw [ofLabels_eq laid ranks, Tensor.generate_eq_error uncounted]
  rfl

/--
Affinities can be computed if every offset has one component per axis and they can be counted.
-/
theorem exists_compares {size : Nat} (laid : Layout.ofShape labels.shape = .ok layout)
    (ranks : ∀ offset ∈ offsets, offset.length = labels.rank)
    (counted : volume? (offsets.length :: labels.shape) = some size) (ignored : Option α) :
    ∃ affinities, ofLabels labels offsets ignored = .ok affinities ∧
      affinities.Compares labels layout offsets ignored := by
  have volumes : size = offsets.length * layout.size := by
    rw [eq_of_volumeFrom?_eq_some counted, Nat.one_mul, volume, Layout.size,
      Layout.ofShape_eq_ok laid]
  obtain ⟨agreements, generated, shape, elements⟩ := Tensor.generate_eq_ok counted fun edge =>
    (((offsets.toArray.map (channel layout labels.data ignored))[edge / layout.size]?.bind
      (·[edge % layout.size]?)).getD none)
  have agree : ∀ channel offset, offsets[channel]? = some offset → ∀ cell < layout.size,
      agreements.data[channel * layout.size + cell]? =
        some ((layout.shift? cell offset).bind (compare? labels.data ignored cell)) := by
    intro number offset known cell inside
    have below : number < offsets.length := (List.getElem?_eq_some_iff.1 known).1
    have member : offset ∈ offsets := List.mem_of_getElem? known
    have ranked : offset.length = layout.rank := by
      rw [ranks offset member, Tensor.rank, Layout.rank, Layout.ofShape_eq_ok laid]
    rw [elements _ (volumes ▸ mul_add_lt below inside), mul_add_div_of_lt number inside,
      Nat.mul_add_mod_of_lt inside, ← agreement?_eq labels.data ignored ranked inside]
    simp only [Array.getElem?_map, List.getElem?_toArray, known, Option.map_some, Option.bind_some,
      channel, Array.getElem?_range, inside, if_true, Option.getD_some]
  refine ⟨⟨agreements.map weight, agreements.map Option.isSome⟩, ?_, shape, shape, ?_, ?_⟩
  · rw [ofLabels_eq laid ranks, generated]
    rfl
  · intro number offset known cell inside
    rw [Tensor.getElem?_map, agree number offset known cell inside, Option.map_some]
  · intro number offset known cell inside
    rw [Tensor.getElem?_map, agree number offset known cell inside, Option.map_some]

/-- What affinities say, once they have been computed. -/
theorem compares_of_ofLabels_eq_ok {affinities : Affinities}
    (computed : ofLabels labels offsets ignored = .ok affinities) :
    ∃ layout, Layout.ofShape labels.shape = .ok layout ∧
      affinities.Compares labels layout offsets ignored := by
  have opened := computed
  unfold ofLabels at opened
  split at opened
  · exact absurd opened (by simp)
  · next regular =>
    have ranks : ∀ offset ∈ offsets, offset.length = labels.rank := by
      intro offset member
      simpa using List.find?_eq_none.1 regular offset member
    rcases Error.bind_eq_ok_iff.1 opened with ⟨layout, shaped, -⟩
    have laid := Tensor.layout_eq_ok_iff.1 shaped
    cases counted : volume? (offsets.length :: labels.shape) with
    | none =>
        rw [ofLabels_eq_capacity laid ranks counted] at computed
        exact absurd computed (by simp)
    | some size =>
        rcases exists_compares laid ranks counted ignored with ⟨found, again, compares⟩
        rcases Except.ok.inj (again.symm.trans computed) with rfl
        exact ⟨layout, laid, compares⟩

section Lawful

variable [LawfulBEq α]

/-- Without an ignored label, the weight says whether the neighbour has the label of the cell. -/
theorem Compares.weight_eq {affinities : Affinities}
    (compares : affinities.Compares labels layout offsets none)
    (laid : Layout.ofShape labels.shape = .ok layout) :
    ∀ channel offset, offsets[channel]? = some offset → ∀ cell < layout.size,
      affinities.weights.data[channel * layout.size + cell]? =
        some (if (layout.shift? cell offset).bind (labels.data[·]?) == labels.data[cell]?
          then .one else .zero) := by
  intro channel offset known cell inside
  have sized : labels.data.size = layout.size := by
    rw [Layout.size, Layout.ofShape_eq_ok laid]
    exact labels.size_eq_volume
  have here := Array.getElem?_eq_getElem (lt_of_lt_of_eq inside sized.symm)
  rw [compares.weight channel offset known cell inside, here]
  cases shifted : layout.shift? cell offset with
  | none => rfl
  | some other =>
      have otherInside := (Layout.distance_of_shift?_eq shifted).2.1
      have there := Array.getElem?_eq_getElem (lt_of_lt_of_eq otherInside sized.symm)
      by_cases same : labels.data[cell] = labels.data[other]
      · simp [compare?, here, there, isIgnored, same, Affinities.weight]
      · have unequal : labels.data[other] ≠ labels.data[cell] := Ne.symm same
        simp [compare?, here, there, isIgnored, same, unequal, Affinities.weight]

theorem ofLabels_eq_ok {size : Nat} (laid : Layout.ofShape labels.shape = .ok layout)
    (ranks : ∀ offset ∈ offsets, offset.length = labels.rank)
    (counted : volume? (offsets.length :: labels.shape) = some size) :
    ∃ affinities, ofLabels labels offsets none = .ok affinities ∧
      affinities.weights.shape = offsets.length :: labels.shape ∧
      ∀ channel offset, offsets[channel]? = some offset → ∀ cell < layout.size,
        affinities.weights.data[channel * layout.size + cell]? =
          some (if (layout.shift? cell offset).bind (labels.data[·]?) == labels.data[cell]?
            then .one else .zero) := by
  rcases exists_compares laid ranks counted none with ⟨affinities, computed, compares⟩
  exact ⟨affinities, computed, compares.shape, compares.weight_eq laid⟩

theorem of_ofLabels_eq_ok {affinities : Affinities}
    (computed : ofLabels labels offsets none = .ok affinities) :
    ∃ layout, Layout.ofShape labels.shape = .ok layout ∧
      affinities.weights.shape = offsets.length :: labels.shape ∧
      ∀ channel offset, offsets[channel]? = some offset → ∀ cell < layout.size,
        affinities.weights.data[channel * layout.size + cell]? =
          some (if (layout.shift? cell offset).bind (labels.data[·]?) == labels.data[cell]?
            then .one else .zero) := by
  rcases compares_of_ofLabels_eq_ok computed with ⟨layout, laid, compares⟩
  exact ⟨layout, laid, compares.shape, compares.weight_eq laid⟩

end Lawful

end Affinities

end Watershed
