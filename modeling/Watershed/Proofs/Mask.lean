import Watershed.Proofs.Affinity
import Watershed.Proofs.Coordinates
import Watershed.Proofs.Refusals

/-!
# Which edges are valid

An edge is valid exactly when the cell that it starts from has a neighbour at the offset of its
channel, neither of the two cells is excluded, and the edge is not thinned out. Which repulsive
edges are thinned out may depend on random numbers; attractive edges never are.
-/

namespace Watershed

namespace Stencil

variable {stencil : Stencil} {edgeShape gridShape : List Nat}

theorem checkGrid_eq_ok_iff :
    stencil.checkGrid gridShape = .ok () ↔ gridShape.length = stencil.rank :=
  Error.check_eq_ok_iff

theorem gridShape_eq_ok (shaped : stencil.gridShape edgeShape = .ok gridShape) :
    edgeShape = stencil.edgeShape gridShape ∧ gridShape.length = stencil.rank := by
  unfold Stencil.gridShape checkGrid at shaped
  cases edgeShape with
  | nil => exact absurd shaped (by simp)
  | cons channels grid =>
      dsimp only at shaped
      split at shaped
      · next channelCount =>
        rcases Error.bind_eq_ok_iff.1 shaped with ⟨_, checked, answered⟩
        obtain rfl : grid = gridShape := Except.ok.inj answered
        exact ⟨by rw [Stencil.edgeShape, channelCount], checkGrid_eq_ok_iff.1 checked⟩
      · exact absurd shaped (by simp)

end Stencil

namespace EdgeMask

variable {γ : Type} [RandomSource γ] {stencil : Stencil} {layout : Layout} {edgeShape : List Nat}
  {thinning : Option Thinning} {excluded : Option (Tensor Bool)}

/-- A cell is not excluded. -/
def Included (excluded : Option (Tensor Bool)) (cell : Nat) : Prop :=
  ∀ mask, excluded = some mask → mask.data[cell]? = some false

/-- A request that can be met has passed all of its checks. -/
theorem gridLayout_eq_ok (laid : gridLayout edgeShape stencil thinning excluded = .ok layout) :
    stencil.gridShape edgeShape = .ok layout.shape ∧ Layout.ofShape layout.shape = .ok layout ∧
      (∀ spec, thinning = some spec → spec.check stencil.rank = .ok ()) ∧
      ∀ mask, excluded = some mask → mask.shape = layout.shape := by
  unfold gridLayout at laid
  rcases Error.bind_eq_ok_iff.1 laid with ⟨grid, shaped, laid⟩
  rcases Error.bind_eq_ok_iff.1 laid with ⟨found, placed, laid⟩
  have thinned : (∀ spec, thinning = some spec → spec.check stencil.rank = .ok ()) ∧
      (checkExcluded grid excluded >>= fun _ => .ok found) = .ok layout := by
    cases thinning with
    | none => exact ⟨fun _ impossible => absurd impossible (by simp), laid⟩
    | some spec =>
        rcases Error.bind_eq_ok_iff.1 laid with ⟨_, checked, laid⟩
        refine ⟨?_, laid⟩
        rintro _ ⟨⟩
        exact checked
  rcases thinned with ⟨strides, laid⟩
  rcases Error.bind_eq_ok_iff.1 laid with ⟨_, checked, answered⟩
  obtain rfl : found = layout := Except.ok.inj answered
  obtain rfl : grid = found.shape := (Layout.ofShape_eq_ok placed).symm
  refine ⟨shaped, placed, strides, ?_⟩
  rintro mask rfl
  exact Error.check_eq_ok_iff.1 checked

/-- A request that passes all of its checks can be met. -/
theorem gridLayout_eq (shaped : stencil.gridShape edgeShape = .ok layout.shape)
    (placed : Layout.ofShape layout.shape = .ok layout)
    (thinned : ∀ spec, thinning = some spec → spec.check stencil.rank = .ok ())
    (maskShapes : ∀ mask, excluded = some mask → mask.shape = layout.shape) :
    gridLayout edgeShape stencil thinning excluded = .ok layout := by
  have checked : checkExcluded layout.shape excluded = .ok () := by
    cases excluded with
    | none => rfl
    | some mask => exact Error.check_eq_ok_iff.2 (maskShapes mask rfl)
  apply Error.bind_eq_ok_iff.2 ⟨_, shaped, _⟩
  apply Error.bind_eq_ok_iff.2 ⟨_, placed, _⟩
  have answered : (checkExcluded layout.shape excluded >>= fun _ => .ok layout) = .ok layout :=
    Error.bind_eq_ok_iff.2 ⟨_, checked, rfl⟩
  cases thinning with
  | none => exact answered
  | some spec => exact Error.bind_eq_ok_iff.2 ⟨_, thinned spec rfl, answered⟩

/-- The first stage takes away the edges from cells without a neighbour. -/
theorem getElem?_dropOutside (valid : Tensor Bool) {channel : Nat} {offset : Offset}
    (known : stencil.offsets[channel]? = some offset) (ranks : offset.length = layout.rank)
    {cell : Nat} (inside : cell < layout.size) :
    (dropOutside stencil layout valid).data[channel * layout.size + cell]? =
      valid.data[channel * layout.size + cell]?.map
        (· && (layout.shift? cell offset).isSome) := by
  rw [dropOutside, Tensor.getElem?_mapIdx, mul_add_div_of_lt channel inside,
    Nat.mul_add_mod_of_lt inside]
  congr 1
  funext keep
  simp only [Array.getElem?_map, List.getElem?_toArray, known, Option.map_some]
  by_cases still : offset.all (· == 0) = true
  · have zero : ∀ step ∈ offset, step = 0 := by simpa using still
    simp [still, Layout.shift?_of_all_zero inside ranks zero]
  · simp [still, Layout.getElem?_insideMask inside ranks]

theorem getElem?_mapIdx_of_lt (valid : Tensor Bool) (first : Nat) (holds : Nat → Bool)
    (edge : Nat) :
    (valid.mapIdx fun edge keep => if edge < first then keep else keep && holds edge).data[edge]? =
      valid.data[edge]?.map (· && (decide (edge < first) || holds edge)) := by
  rw [Tensor.getElem?_mapIdx]
  congr 1
  funext keep
  by_cases before : edge < first <;> simp [before]

/--
The decisions on the repulsive edges, if these are thinned at random, and the state after them.
-/
def decisions (stencil : Stencil) (layout : Layout) (thinning : Option Thinning)
    (generator : γ) : Array Bool × γ :=
  match thinning with
  | some (.random strides) =>
      RandomSource.nextDecisions (Thinning.clampUnit (Thinning.keepProbability strides).toFloat)
        (stencil.repulsive * layout.size) #[] generator
  | _ => (#[], generator)

/-- Thinning keeps an edge: any attractive one, and a repulsive one by its start or by decision. -/
def keeps (stencil : Stencil) (layout : Layout) (thinning : Option Thinning)
    (generator : γ) (edge : Nat) : Bool :=
  decide (edge < stencil.attractive * layout.size) ||
    match thinning with
    | none => true
    | some (.lattice strides) =>
        onLattice strides (rowMajorCoordinates layout.shape (edge % layout.size))
    | some (.random strides) =>
        (decisions stencil layout (some (.random strides)) generator).1[
          edge - stencil.attractive * layout.size]?.getD false

theorem onLattice_iff {strides : List Nat} {cell : Coordinates}
    (ranks : strides.length = cell.length) :
    onLattice strides cell = true ↔ List.Forall₂ (· % · = 0) cell strides := by
  rw [onLattice, List.forall₂_iff_zip, and_iff_right ranks.symm, List.all_eq_true, Prod.forall]
  simp only [beq_iff_eq]

theorem onLattice_of_all_one {strides : List Nat} (dense : strides.all (· == 1) = true)
    (cell : Coordinates) : onLattice strides cell = true := by
  rw [onLattice, List.all_eq_true]
  rintro ⟨coordinate, stride⟩ member
  have one : stride = 1 := by
    simpa using List.all_eq_true.1 dense stride (List.of_mem_zip member).2
  simp [one, Nat.mod_one]

/-- The second stage keeps the edges that thinning keeps, and draws no more than its decisions. -/
theorem thin_eq (stencil : Stencil) (layout : Layout) (thinning : Option Thinning)
    (valid : Tensor Bool) (generator : γ) :
    ∃ thinned, thin stencil layout thinning valid generator =
        (thinned, (decisions stencil layout thinning generator).2) ∧
      thinned.shape = valid.shape ∧ ∀ channel, ∀ cell < layout.size,
        thinned.data[channel * layout.size + cell]? = valid.data[channel * layout.size + cell]?.map
          (· && keeps stencil layout thinning generator (channel * layout.size + cell)) := by
  match thinning with
  | none =>
      refine ⟨valid, rfl, rfl, fun channel cell _ => ?_⟩
      simp [keeps]
  | some (.lattice strides) =>
      refine ⟨thinByLattice stencil layout strides valid, rfl, ?_, fun channel cell inside => ?_⟩
      · unfold thinByLattice
        split <;> rfl
      · rw [keeps, Nat.mul_add_mod_of_lt inside]
        by_cases dense : strides.all (· == 1) = true
        · rw [thinByLattice, if_pos dense]
          simp [onLattice_of_all_one dense]
        · rw [thinByLattice, if_neg dense, getElem?_mapIdx_of_lt, Nat.mul_add_mod_of_lt inside,
            Layout.getElem?_sweep inside]
          rfl
  | some (.random strides) =>
      exact ⟨_, rfl, rfl, fun channel cell _ => getElem?_mapIdx_of_lt valid _ _ _⟩

/-- A mask of cells that fits the grid has affinities, one for every edge. -/
theorem affinities_eq_ok {mask : Tensor Bool} {size : Nat}
    (laid : Layout.ofShape layout.shape = .ok layout) (maskShape : mask.shape = layout.shape)
    (counted : volume? (stencil.edgeShape layout.shape) = some size)
    (ranks : layout.rank = stencil.rank) :
    ∃ affinities, Affinities.ofLabels mask stencil.offsets none = .ok affinities ∧
      affinities.weights.shape = stencil.edgeShape layout.shape ∧
      ∀ channel offset, stencil.offsets[channel]? = some offset → ∀ cell < layout.size,
        affinities.weights.data[channel * layout.size + cell]? =
          some (if (layout.shift? cell offset).bind (mask.data[·]?) == mask.data[cell]?
            then .one else .zero) := by
  rw [← maskShape] at counted ⊢
  apply Affinities.ofLabels_eq_ok (maskShape ▸ laid) _ counted
  intro offset member
  rw [stencil.uniform offset member, Tensor.rank, maskShape]
  exact ranks.symm

/-- The third stage takes away the edges with an excluded end. -/
theorem dropExcluded_eq_ok {mask valid : Tensor Bool}
    (laid : Layout.ofShape layout.shape = .ok layout) (maskShape : mask.shape = layout.shape)
    (validShape : valid.shape = stencil.edgeShape layout.shape)
    (ranks : layout.rank = stencil.rank) :
    ∃ after, dropExcluded stencil mask valid = .ok after ∧ after.shape = valid.shape ∧
      ∀ channel offset, stencil.offsets[channel]? = some offset → ∀ cell < layout.size,
        (after.data[channel * layout.size + cell]? = some true ↔
          valid.data[channel * layout.size + cell]? = some true ∧
            ∃ other, layout.shift? cell offset = some other ∧ mask.data[cell]? = some false ∧
              mask.data[other]? = some false) := by
  have maskSize : mask.size = layout.size := by
    rw [mask.size_eq_volume, maskShape, Layout.size]
  have counted : volume? (stencil.edgeShape layout.shape) = some valid.size :=
    validShape ▸ valid.volume?_eq_some
  rcases affinities_eq_ok laid maskShape counted ranks with ⟨affinities, computed, -, agree⟩
  refine ⟨valid.mapIdx fun edge keep =>
    keep && !(affinities.weights.data[edge]?.getD .zero == Binary32.zero)
      && !mask.data[edge % mask.size]?.getD false, ?_, rfl, ?_⟩
  · rw [dropExcluded, computed]
    rfl
  · intro channel offset known cell inside
    have present : ∀ cell < layout.size, ∃ mark, mask.data[cell]? = some mark := by
      intro cell inside
      exact ⟨_, Array.getElem?_eq_getElem (lt_of_lt_of_eq inside maskSize.symm)⟩
    rcases present cell inside with ⟨here, ownMark⟩
    have oneIsNotZero : (Binary32.one == Binary32.zero) = false := by decide
    have zeroIsZero : (Binary32.zero == Binary32.zero) = true := by decide
    rw [Tensor.getElem?_mapIdx, maskSize, Nat.mul_add_mod_of_lt inside,
      agree channel offset known cell inside]
    cases shifted : layout.shift? cell offset with
    | none => simp [ownMark, zeroIsZero]
    | some other =>
        rcases present other (Layout.distance_of_shift?_eq shifted).2.1 with ⟨there, otherMark⟩
        cases here <;> cases there <;> simp [ownMark, otherMark, zeroIsZero, oneIsNotZero]

/-- What a mask of valid edges says, given which edges are not thinned out. -/
structure Describes (stencil : Stencil) (layout : Layout) (excluded : Option (Tensor Bool))
    (kept : Nat → Bool) (valid : Tensor Bool) : Prop where
  shape : valid.shape = stencil.edgeShape layout.shape
  spared : ∀ edge < stencil.attractive * layout.size, kept edge = true
  valid_iff : ∀ channel offset, stencil.offsets[channel]? = some offset → ∀ cell < layout.size,
    (valid.data[channel * layout.size + cell]? = some true ↔
      kept (channel * layout.size + cell) = true ∧ ∃ other, layout.shift? cell offset = some other ∧
        Included excluded cell ∧ Included excluded other)

theorem compute_run {all thinned : Tensor Bool} {generator after : γ}
    (laid : gridLayout edgeShape stencil thinning excluded = .ok layout)
    (made : Tensor.replicate edgeShape true = .ok all)
    (thins : thin stencil layout thinning (dropOutside stencil layout all) generator =
      (thinned, after)) :
    compute edgeShape stencil thinning excluded generator =
      (excluded.elim (.ok thinned) fun mask => dropExcluded stencil mask thinned, after) := by
  have ran : compute edgeShape stencil thinning excluded generator =
      let thinned := thin stencil layout thinning (dropOutside stencil layout all) generator
      (excluded.elim (.ok thinned.1) fun mask => dropExcluded stencil mask thinned.1,
        thinned.2) := by
    unfold compute
    rw [laid, made]
    cases excluded <;> rfl
  rw [ran, thins]

/-- A request that cannot be met is refused before any random number is drawn. -/
theorem compute_eq_error {error : Error}
    (refused : gridLayout edgeShape stencil thinning excluded = .error error)
    (generator : γ) :
    compute edgeShape stencil thinning excluded generator = (.error error, generator) := by
  unfold compute
  rw [refused]
  rfl

theorem compute_eq_capacity (laid : gridLayout edgeShape stencil thinning excluded = .ok layout)
    (uncounted : volume? edgeShape = none) (generator : γ) :
    compute edgeShape stencil thinning excluded generator = (.error .capacity, generator) := by
  unfold compute
  rw [laid, Tensor.replicate_eq_error uncounted]
  rfl

/-- The first two stages make the mask for a grid without excluded cells. -/
theorem exists_thinned {size : Nat} (shaped : edgeShape = stencil.edgeShape layout.shape)
    (ranks : layout.rank = stencil.rank) (counted : volume? edgeShape = some size)
    (thinning : Option Thinning) (generator : γ) :
    ∃ all thinned, Tensor.replicate edgeShape true = .ok all ∧
      thin stencil layout thinning (dropOutside stencil layout all) generator =
        (thinned, (decisions stencil layout thinning generator).2) ∧
      Describes stencil layout none (keeps stencil layout thinning generator) thinned := by
  rcases Tensor.replicate_eq_ok counted true with ⟨all, made, allShape, everywhere⟩
  rcases thin_eq stencil layout thinning (dropOutside stencil layout all) generator with
      ⟨thinned, thins, thinnedShape, thinnedData⟩
  have volumes : size = stencil.offsets.length * layout.size := by
    rw [eq_of_volumeFrom?_eq_some counted, Nat.one_mul, shaped]
    rfl
  refine ⟨all, thinned, made, thins, thinnedShape.trans (allShape.trans shaped), ?_, ?_⟩
  · intro edge attractive
    simp [keeps, attractive]
  · intro channel offset known cell inside
    have ranked : offset.length = layout.rank :=
      (stencil.uniform offset (List.mem_of_getElem? known)).trans ranks.symm
    have below : channel < stencil.offsets.length := (List.getElem?_eq_some_iff.1 known).1
    rw [thinnedData channel cell inside, getElem?_dropOutside all known ranked inside,
      everywhere _ (volumes ▸ mul_add_lt below inside)]
    simp [Included, Option.isSome_iff_exists, and_comm]

/-- A request that can be met is met with a mask that drops what it has to drop. -/
theorem compute_eq_ok {size : Nat}
    (laid : gridLayout edgeShape stencil thinning excluded = .ok layout)
    (counted : volume? edgeShape = some size) (generator : γ) :
    ∃ valid, compute edgeShape stencil thinning excluded generator =
        (.ok valid, (decisions stencil layout thinning generator).2) ∧
      Describes stencil layout excluded (keeps stencil layout thinning generator) valid := by
  rcases gridLayout_eq_ok laid with ⟨shaped, placed, -, maskShapes⟩
  rcases Stencil.gridShape_eq_ok shaped with ⟨edgeShape_eq, ranks⟩
  rcases exists_thinned edgeShape_eq ranks counted thinning generator with
      ⟨all, thinned, made, thins, describes⟩
  cases excluded with
  | none => exact ⟨thinned, compute_run laid made thins, describes⟩
  | some mask =>
      rcases dropExcluded_eq_ok placed (maskShapes mask rfl) describes.shape ranks with
          ⟨valid, dropped, validShape, dropped_iff⟩
      refine ⟨valid, (compute_run laid made thins).trans (congrArg (·, _) dropped),
        validShape.trans describes.shape, describes.spared, ?_⟩
      intro channel offset known cell inside
      rw [dropped_iff channel offset known cell inside,
        describes.valid_iff channel offset known cell inside]
      simp only [Included, Option.some.injEq, forall_eq']
      constructor
      · rintro ⟨⟨keeps, -⟩, other, rest⟩
        exact ⟨keeps, other, rest⟩
      · rintro ⟨keeps, other, shifted, rest⟩
        refine ⟨⟨keeps, other, shifted, ?_⟩, other, shifted, rest⟩
        simp

/-- What a mask says, once it has been computed. -/
theorem describes_of_compute_eq_ok {valid : Tensor Bool} {generator after : γ}
    (computed : compute edgeShape stencil thinning excluded generator = (.ok valid, after)) :
    ∃ layout, gridLayout edgeShape stencil thinning excluded = .ok layout ∧
      after = (decisions stencil layout thinning generator).2 ∧
      Describes stencil layout excluded (keeps stencil layout thinning generator) valid := by
  cases laid : gridLayout edgeShape stencil thinning excluded with
  | error error =>
      rw [compute_eq_error laid] at computed
      exact absurd (congrArg Prod.fst computed) (by simp)
  | ok layout =>
      cases counted : volume? edgeShape with
      | none =>
          rw [compute_eq_capacity laid counted] at computed
          exact absurd (congrArg Prod.fst computed) (by simp)
      | some size =>
          rcases compute_eq_ok laid counted generator with ⟨found, again, describes⟩
          rcases Prod.mk.inj (again.symm.trans computed) with ⟨same, rfl⟩
          rcases Except.ok.inj same with rfl
          exact ⟨layout, rfl, rfl, describes⟩

end EdgeMask

end Watershed
