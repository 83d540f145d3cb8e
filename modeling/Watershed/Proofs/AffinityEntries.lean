import Watershed.Proofs.Affinity
import Watershed.Proofs.Coordinates

/-!
# Affinities, entry by entry

Affinities are found with flat distances inside of marked cells, one channel after another. Here
they are read at the coordinates of a cell: an entry is valid when the cell with the offset added is
in the grid and neither of the two labels is ignored, and its weight is one when moreover both
labels are equal. Equality is that of the labels and need not be lawful; labels that differ from
themselves never agree.

Seen from the other end, at the opposite offset, an entry is the same, provided that equality does
not depend on the order of its sides.
-/

namespace Watershed

theorem Binary32.beq_comm (x y : Binary32) : (x == y) = (y == x) := by
  change sameValue x y = sameValue y x
  rw [sameValue, sameValue, Bool.and_comm (!x.isNaN), BEq.comm (a := x.bits),
    Bool.and_comm (x.abs.bits == 0)]

/-- A value that is no number equals nothing. -/
theorem Binary32.beq_eq_false_of_isNaN {x : Binary32} (none : x.isNaN = true) (y : Binary32) :
    (x == y) = false := by
  change sameValue x y = false
  rw [sameValue, none]
  rfl

namespace Affinities

variable {α : Type} [BEq α] {labels : Tensor α} {layout : Layout} {ignored : Option α}
  {offset : Offset} {cell other : Coordinates} {index target : Nat}

/-- A cell and the one that an offset leads to, with their labels, neither of which is ignored. -/
structure Comparable (labels : Tensor α) (ignored : Option α) (offset : Offset)
    (cell other : Coordinates) (here there : α) : Prop where
  inGrid : InGrid labels.shape other
  displaced : Displaced cell offset other
  own : labels.get? cell = .ok (some here)
  opposite : labels.get? other = .ok (some there)
  kept : ∀ mark, ignored = some mark → (mark == here) = false ∧ (mark == there) = false

theorem isIgnored_eq_false_iff {label : α} :
    isIgnored ignored label = false ↔ ∀ mark, ignored = some mark → (mark == label) = false := by
  cases ignored <;> simp [isIgnored]

theorem compare?_eq_some_iff {agree : Bool} {data : Array α} :
    compare? data ignored index target = some agree ↔ ∃ here there, data[index]? = some here ∧
      data[target]? = some there ∧
      (∀ mark, ignored = some mark → (mark == here) = false ∧ (mark == there) = false) ∧
      (here == there) = agree := by
  have kept : ∀ here there : α,
      (∀ mark, ignored = some mark → (mark == here) = false ∧ (mark == there) = false) ↔
        (isIgnored ignored here || isIgnored ignored there) = false := by
    intro here there
    rw [Bool.or_eq_false_iff, isIgnored_eq_false_iff, isIgnored_eq_false_iff]
    exact forall₂_and
  simp only [kept, compare?]
  cases data[index]? <;> cases data[target]? <;> simp

/-- Comparing two cells does not depend on their order if equality does not. -/
theorem compare?_comm (symmetric : ∀ a b : α, (a == b) = (b == a)) (data : Array α) :
    compare? data ignored index target = compare? data ignored target index := by
  rw [Option.ext_iff]
  intro agree
  simp only [compare?_eq_some_iff]
  constructor <;>
  · rintro ⟨here, there, own, opposite, kept, same⟩
    exact ⟨there, here, opposite, own, fun mark isMark => (kept mark isMark).symm,
      (symmetric there here).trans same⟩

theorem weight_eq_one_iff {agreement : Option Bool} :
    weight agreement = .one ↔ agreement = some true := by
  have different : Binary32.zero ≠ Binary32.one := by decide
  rcases agreement with _ | _ | _ <;> simp [weight, different]

/-- Comparing a cell with its neighbour at an offset, read at the coordinates of the cell. -/
theorem bind_compare?_eq_some_iff (laid : Layout.ofShape labels.shape = .ok layout)
    (ranks : offset.length = layout.rank) (found : layout.index? cell = some index) {agree : Bool} :
    (layout.shift? index offset).bind (compare? labels.data ignored index) = some agree ↔
      ∃ other here there, Comparable labels ignored offset cell other here there ∧
        (here == there) = agree := by
  have shape := Layout.ofShape_eq_ok laid
  rw [Option.bind_eq_some_iff]
  constructor
  · rintro ⟨target, shifted, compared⟩
    rcases compare?_eq_some_iff.1 compared with ⟨here, there, own, opposite, kept, same⟩
    rcases Layout.shift?_eq_some_iff.1 shifted with ⟨-, other, -, foundOther⟩
    have inGrid := isSome_rowMajorIndex?_iff.1 (Option.isSome_of_eq_some foundOther)
    refine ⟨other, here, there, ⟨shape ▸ inGrid, ?_, ?_, ?_, kept⟩, same⟩
    · exact (Layout.shift?_eq_some_iff_displaced ranks found foundOther).1 shifted
    · rw [Tensor.get?_eq_ok laid found, own]
    · rw [Tensor.get?_eq_ok laid foundOther, opposite]
  · rintro ⟨other, here, there, comparable, same⟩
    rcases Layout.exists_index_of_inGrid (shape ▸ comparable.inGrid) with ⟨target, foundOther⟩
    have own := comparable.own
    have opposite := comparable.opposite
    rw [Tensor.get?_eq_ok laid found, Except.ok.injEq] at own
    rw [Tensor.get?_eq_ok laid foundOther, Except.ok.injEq] at opposite
    exact ⟨target,
      (Layout.shift?_eq_some_iff_displaced ranks found foundOther).2 comparable.displaced,
      compare?_eq_some_iff.2 ⟨here, there, own, opposite, comparable.kept, same⟩⟩

/-- What the two entries of a channel at a cell say. -/
theorem Compares.entries {affinities : Affinities} {offsets : List Offset}
    (compares : affinities.Compares labels layout offsets ignored)
    (laid : Layout.ofShape labels.shape = .ok layout) {channel : Nat}
    (known : offsets[channel]? = some offset) (ranks : offset.length = layout.rank)
    (inGrid : InGrid labels.shape cell) :
    ∃ weight valid, affinities.weights.get? (channel :: cell) = .ok (some weight) ∧
      affinities.valid.get? (channel :: cell) = .ok (some valid) ∧
      (valid = true ↔ ∃ other here there, Comparable labels ignored offset cell other here there) ∧
      (weight = .one ↔ ∃ other here there,
        Comparable labels ignored offset cell other here there ∧ (here == there) = true) ∧
      (weight = .one ∨ weight = .zero) := by
  have shape := Layout.ofShape_eq_ok laid
  have below : channel < offsets.length := (List.getElem?_eq_some_iff.1 known).1
  rcases Layout.exists_index_of_inGrid (shape ▸ inGrid) with ⟨index, found⟩
  have inside : index < layout.size := (rowMajorIndex?_eq_some_iff.1 found).1
  rw [Tensor.get?_cons_eq_ok (compares.shape.trans (congrArg _ shape.symm)) below found,
    Tensor.get?_cons_eq_ok (compares.validShape.trans (congrArg _ shape.symm)) below found,
    compares.weight channel offset known index inside,
    compares.valid channel offset known index inside]
  refine ⟨_, _, rfl, rfl, ?_, ?_, ?_⟩
  · rw [Option.isSome_iff_exists]
    simp only [bind_compare?_eq_some_iff laid ranks found]
    grind
  · rw [weight_eq_one_iff, bind_compare?_eq_some_iff laid ranks found]
  · unfold Affinities.weight
    split
    · exact .inl rfl
    · exact .inr rfl

/-- The entries at the two ends of an offset and its opposite are the same. -/
theorem Compares.entries_opposite {affinities : Affinities} {offsets : List Offset}
    (compares : affinities.Compares labels layout offsets ignored)
    (laid : Layout.ofShape labels.shape = .ok layout)
    (symmetric : ∀ a b : α, (a == b) = (b == a)) {channel back : Nat}
    (known : offsets[channel]? = some offset)
    (knownBack : offsets[back]? = some (offset.map (- ·))) (ranks : offset.length = layout.rank)
    (inGrid : InGrid labels.shape cell) (otherInGrid : InGrid labels.shape other)
    (displaced : Displaced cell offset other) :
    affinities.weights.get? (channel :: cell) = affinities.weights.get? (back :: other) ∧
      affinities.valid.get? (channel :: cell) = affinities.valid.get? (back :: other) := by
  have shape := Layout.ofShape_eq_ok laid
  have below : channel < offsets.length := (List.getElem?_eq_some_iff.1 known).1
  have backBelow : back < offsets.length := (List.getElem?_eq_some_iff.1 knownBack).1
  have weights := compares.shape.trans (congrArg _ shape.symm)
  have valid := compares.validShape.trans (congrArg _ shape.symm)
  rcases Layout.exists_index_of_inGrid (shape ▸ inGrid) with ⟨index, found⟩
  rcases Layout.exists_index_of_inGrid (shape ▸ otherInGrid) with ⟨target, foundOther⟩
  have shifted := (Layout.shift?_eq_some_iff_displaced ranks found foundOther).2 displaced
  rcases Layout.distance_of_shift?_eq shifted with ⟨inside, otherInside, -⟩
  have same : (layout.shift? index offset).bind (compare? labels.data ignored index) =
      (layout.shift? target (offset.map (- ·))).bind (compare? labels.data ignored target) := by
    rw [shifted, Layout.shift?_neg shifted]
    exact compare?_comm symmetric labels.data
  rw [Tensor.get?_cons_eq_ok weights below found, Tensor.get?_cons_eq_ok valid below found,
    Tensor.get?_cons_eq_ok weights backBelow foundOther,
    Tensor.get?_cons_eq_ok valid backBelow foundOther,
    compares.weight channel _ known index inside, compares.valid channel _ known index inside,
    compares.weight back _ knownBack target otherInside,
    compares.valid back _ knownBack target otherInside, same]
  exact ⟨rfl, rfl⟩

/--
Affinities mean what they say, entry by entry. Let a tensor of labels have a layout, and let every
offset have one step per axis. Unless the entries are too many to be counted, affinities are
computed. At every cell the entry of a channel is valid if and only if the cell with the offset
added is in the grid and neither of the two labels is ignored; its weight is one if and only if
moreover the labels are equal, and zero otherwise. If equality does not depend on the order of its
sides, the entry at a cell equals that of the opposite offset at the neighbour.
-/
theorem ofLabels_entry_iff (labels : Tensor α) (offsets : List Offset) (ignored : Option α)
    (laid : Layout.ofShape labels.shape = .ok layout)
    (ranks : ∀ offset ∈ offsets, offset.length = labels.rank) :
    (volume? (offsets.length :: labels.shape) = none ∧
      ofLabels labels offsets ignored = .error .capacity) ∨
    ∃ affinities, ofLabels labels offsets ignored = .ok affinities ∧
      affinities.weights.shape = offsets.length :: labels.shape ∧
      affinities.valid.shape = offsets.length :: labels.shape ∧
      (∀ channel offset, offsets[channel]? = some offset → ∀ cell, InGrid labels.shape cell →
        ∃ weight valid, affinities.weights.get? (channel :: cell) = .ok (some weight) ∧
          affinities.valid.get? (channel :: cell) = .ok (some valid) ∧
          (valid = true ↔
            ∃ other here there, Comparable labels ignored offset cell other here there) ∧
          (weight = .one ↔ ∃ other here there,
            Comparable labels ignored offset cell other here there ∧ (here == there) = true) ∧
          (weight = .one ∨ weight = .zero)) ∧
      ((∀ a b : α, (a == b) = (b == a)) → ∀ channel back offset, offsets[channel]? = some offset →
        offsets[back]? = some (offset.map (- ·)) → ∀ cell other, InGrid labels.shape cell →
        InGrid labels.shape other → Displaced cell offset other →
        affinities.weights.get? (channel :: cell) = affinities.weights.get? (back :: other) ∧
          affinities.valid.get? (channel :: cell) = affinities.valid.get? (back :: other)) := by
  have rank : labels.rank = layout.rank := by
    rw [Tensor.rank, Layout.rank, Layout.ofShape_eq_ok laid]
  have ranked : ∀ {channel : Nat} {offset : Offset}, offsets[channel]? = some offset →
      offset.length = layout.rank :=
    fun known => (ranks _ (List.mem_of_getElem? known)).trans rank
  cases counted : volume? (offsets.length :: labels.shape) with
  | none => exact .inl ⟨rfl, ofLabels_eq_capacity laid ranks counted⟩
  | some size =>
      rcases exists_compares laid ranks counted ignored with ⟨affinities, computed, compares⟩
      refine .inr ⟨affinities, computed, compares.shape, compares.validShape, ?_, ?_⟩
      · intro channel offset known cell inGrid
        exact compares.entries laid known (ranked known) inGrid
      · intro symmetric channel back offset known knownBack cell other inGrid otherInGrid displaced
        exact compares.entries_opposite laid symmetric known knownBack (ranked known) inGrid
          otherInGrid displaced

/--
Single-precision labels on five cells, with neighbours ahead and behind and the negative zero
ignored. The first two agree, seen from either of them. The two that are no numbers can be compared
and do not agree. The last one is a zero, so it is ignored.
-/
theorem ofLabels_entry_iff_row :
    ∃ (labels : Tensor Binary32) (layout : Layout) (offsets : List Offset)
      (affinities : Affinities),
      labels.data = #[.one, .one, .quietNaN, .quietNaN, .zero] ∧ offsets = [[1], [-1]] ∧
      Layout.ofShape labels.shape = .ok layout ∧
      (∀ offset ∈ offsets, offset.length = labels.rank) ∧
      ofLabels labels offsets (some Binary32.zero.setSign) = .ok affinities ∧
      affinities.weights.get? [0, 0] = .ok (some .one) ∧
      affinities.weights.get? [1, 1] = .ok (some .one) ∧
      affinities.valid.get? [0, 2] = .ok (some true) ∧
      affinities.weights.get? [0, 2] = .ok (some .zero) ∧
      affinities.valid.get? [0, 3] = .ok (some false) := by
  let labels : Tensor Binary32 := ⟨[5], #[.one, .one, .quietNaN, .quietNaN, .zero], rfl⟩
  let offsets : List Offset := [[1], [-1]]
  have laid : Layout.ofShape labels.shape = .ok ⟨[5], by decide⟩ := rfl
  have ranks : ∀ offset ∈ offsets, offset.length = labels.rank := by decide
  rcases ofLabels_entry_iff labels offsets (some Binary32.zero.setSign) laid ranks with
      ⟨uncounted, -⟩ | ⟨affinities, computed, -, -, entries, opposite⟩
  · exact absurd uncounted (by decide)
  · have inGrid : ∀ position < 5, InGrid labels.shape [position] := fun _ below => .cons below .nil
    have next : ∀ {cell : Nat} {other}, Displaced [cell] [1] other → other = [cell + 1] :=
      fun displaced => List.map_injective_iff.2 (fun _ _ => Int.ofNat.inj) displaced
    rcases entries 0 [1] rfl [0] (inGrid 0 (by decide)) with ⟨first, -, readFirst, -, -, oneIff, -⟩
    rcases entries 0 [1] rfl [2] (inGrid 2 (by decide)) with
      ⟨third, compared, readThird, readCompared, comparedIff, thirdIff, isBinary⟩
    rcases entries 0 [1] rfl [3] (inGrid 3 (by decide)) with
      ⟨-, fourth, -, readFourth, fourthIff, -⟩
    have seenBack := (opposite Binary32.beq_comm 0 1 [1] rfl rfl [0] [1] (inGrid 0 (by decide))
      (inGrid 1 (by decide)) rfl).1
    obtain rfl : first = .one := by
      refine oneIff.2 ⟨[1], .one, .one, ⟨inGrid 1 (by decide), rfl, rfl, rfl, ?_⟩, by decide⟩
      rintro mark ⟨⟩
      decide
    obtain rfl : compared = true := by
      refine comparedIff.2
        ⟨[3], .quietNaN, .quietNaN, ⟨inGrid 3 (by decide), rfl, rfl, rfl, ?_⟩⟩
      rintro mark ⟨⟩
      decide
    obtain rfl : third = .zero := by
      refine isBinary.resolve_left fun isOne => ?_
      rcases thirdIff.1 isOne with ⟨other, here, there, comparable, same⟩
      obtain rfl : .quietNaN = here := Option.some.inj (Except.ok.inj comparable.own)
      rw [Binary32.beq_eq_false_of_isNaN (by decide)] at same
      exact absurd same Bool.false_ne_true
    obtain rfl : fourth = false := by
      refine Bool.eq_false_iff.2 fun kept => ?_
      rcases fourthIff.1 kept with ⟨other, here, there, comparable⟩
      obtain rfl := next comparable.displaced
      obtain rfl : .zero = there := Option.some.inj (Except.ok.inj comparable.opposite)
      exact absurd (comparable.kept _ rfl).2 (by decide)
    exact ⟨labels, _, offsets, affinities, rfl, rfl, laid, ranks, computed, readFirst,
      seenBack.symm.trans readFirst, readCompared, readThird, readFourth⟩

end Affinities

end Watershed
