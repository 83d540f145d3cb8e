import Watershed.Proofs.Draws
import Watershed.Proofs.Segmentation

/-!
# Which requests for a segmentation are refused

A request passes seven checks, in a fixed order, before anything is computed from it. The first one
that fails decides the error, and no random number has been drawn by then. Once all of them have
passed, nothing can go wrong any more: the sizes that the later stages compute on their own agree,
none of them overflows, and every edge that is looked up exists.

Each operation that checks something is described by the list of its checks, so that the list of a
sequence of operations is put together from theirs.
-/

namespace Watershed

/-- A check: whether it passes, and the cause of the refusal if it does not. -/
structure Check where
  passes : Bool
  error : Error

namespace Check

/-- The cause given by the first check that fails. -/
def refusal? (checks : List Check) : Option Error :=
  (checks.find? (!·.passes)).map (·.error)

/-- An operation fails exactly as the first of some checks that fails. -/
def Govern {α : Type} (checks : List Check) (outcome : Except Error α) : Prop :=
  ∀ error, outcome = .error error ↔ refusal? checks = some error

variable {α β : Type} {checks later : List Check} {outcome : Except Error α}

theorem refusal?_append : refusal? (checks ++ later) = (refusal? checks).or (refusal? later) := by
  rw [refusal?, List.find?_append]
  cases failed : checks.find? (!·.passes) <;> simp [refusal?, failed]

theorem Govern.none (value : α) : Govern [] (Except.ok value : Except Error α) := by
  intro error
  simp [refusal?]

theorem Govern.single {holds : Prop} [Decidable holds] (value : α) (error : Error) :
    Govern [⟨holds, error⟩] (if holds then .ok value else .error error : Except Error α) := by
  intro other
  by_cases known : holds <;> simp [refusal?, known]

/-- A sequence of two operations makes the checks of the first one, then those of the second one. -/
theorem Govern.bind {next : α → Except Error β} (first : Govern checks outcome)
    (second : ∀ value, outcome = .ok value → Govern later (next value)) :
    Govern (checks ++ later) (outcome >>= next) := by
  intro error
  rw [refusal?_append]
  cases outcome with
  | error found =>
      rw [(first found).1 rfl]
      have failed : (Except.error found >>= next) = .error found := rfl
      rw [failed]
      simp
  | ok value =>
      have passed : refusal? checks = Option.none := by
        rw [Option.eq_none_iff_forall_ne_some]
        intro found failed
        exact absurd ((first found).2 failed) (by simp)
      rw [passed]
      exact second value rfl error

/-- An answer that is read off the value of an operation needs no further check. -/
theorem Govern.answer (govern : Govern checks outcome) (answer : α → β) :
    Govern checks (outcome >>= fun value => .ok (answer value)) := by
  have last := govern.bind fun value _ => Govern.none (answer value)
  rwa [List.append_nil] at last

/-- An operation without a failed check succeeds. -/
theorem Govern.exists_ok (govern : Govern checks outcome) (passed : refusal? checks = Option.none) :
    ∃ value, outcome = .ok value := by
  cases outcome with
  | ok value => exact ⟨value, rfl⟩
  | error error =>
      rw [(govern error).1 rfl] at passed
      exact absurd passed (by simp)

end Check

variable {stencil : Stencil} {layout : Layout} {edgeShape : List Nat}

/-- The shape of the links is checked from its number of axes to its channels and its grid. -/
theorem Stencil.govern_gridShape :
    Check.Govern [⟨edgeShape ≠ [], .rankMismatch (stencil.rank + 1) 0⟩,
      ⟨edgeShape.headD 0 = stencil.channelCount,
        .rankMismatch stencil.channelCount (edgeShape.headD 0)⟩,
      ⟨edgeShape.tail.length = stencil.rank, .rankMismatch stencil.rank edgeShape.tail.length⟩]
      (stencil.gridShape edgeShape) := by
  cases edgeShape with
  | nil =>
      intro error
      simp [Stencil.gridShape, Check.refusal?]
  | cons channels grid =>
      by_cases known : channels = stencil.channelCount
      · have ranked := (@Check.Govern.single Unit (grid.length = stencil.rank) _ ()
          (.rankMismatch stencil.rank grid.length)).answer fun _ => grid
        have shaped : stencil.gridShape (channels :: grid) =
            (stencil.checkGrid grid >>= fun _ => .ok grid) := if_pos known
        intro error
        rw [shaped, Stencil.checkGrid, ranked error]
        simp [Check.refusal?, known]
      · intro error
        simp [Stencil.gridShape, Check.refusal?, known]

theorem Layout.govern_ofShape {shape : List Nat} :
    Check.Govern [⟨Addressable shape, .outOfBounds⟩] (Layout.ofShape shape) := by
  intro error
  by_cases addressable : Addressable shape <;>
    simp [Layout.ofShape, Check.refusal?, addressable]

theorem Thinning.govern_check {thinning : Thinning} {rank : Nat} :
    Check.Govern [⟨thinning.strides.length = rank, .rankMismatch rank thinning.strides.length⟩,
      ⟨0 ∉ thinning.strides, .zeroStride⟩] (thinning.check rank) := by
  intro error
  by_cases ranks : thinning.strides.length = rank
  · by_cases zero : 0 ∈ thinning.strides <;>
      simp [Thinning.check, Check.refusal?, ranks, zero]
  · simp [Thinning.check, Check.refusal?, ranks]

namespace EdgeMask

/--
All checks of a request for a mask of valid edges: those of the shape of the links, of the strides,
and of the shape of a mask of cells.
-/
def checks (edgeShape : List Nat) (stencil : Stencil) (strides maskShape : Option (List Nat)) :
    List Check :=
  [⟨edgeShape ≠ [], .rankMismatch (stencil.rank + 1) 0⟩,
    ⟨edgeShape.headD 0 = stencil.channelCount,
      .rankMismatch stencil.channelCount (edgeShape.headD 0)⟩,
    ⟨edgeShape.tail.length = stencil.rank, .rankMismatch stencil.rank edgeShape.tail.length⟩,
    ⟨Addressable edgeShape.tail, .outOfBounds⟩] ++
  (strides.elim [] (fun strides =>
    [⟨strides.length = stencil.rank, .rankMismatch stencil.rank strides.length⟩,
      ⟨0 ∉ strides, .zeroStride⟩]) ++
  maskShape.elim [] fun shape =>
    [⟨shape = edgeShape.tail, .shapeMismatch edgeShape.tail shape⟩])

theorem govern_checkExcluded {gridShape : List Nat} {excluded : Option (Tensor Bool)} :
    Check.Govern ((excluded.map (·.shape)).elim [] fun shape =>
      [⟨shape = gridShape, .shapeMismatch gridShape shape⟩])
      (checkExcluded gridShape excluded) := by
  cases excluded with
  | none => exact .none ()
  | some mask => exact .single () _

theorem govern_gridLayout {thinning : Option Thinning} {excluded : Option (Tensor Bool)} :
    Check.Govern (checks edgeShape stencil (thinning.map (·.strides)) (excluded.map (·.shape)))
      (gridLayout edgeShape stencil thinning excluded) := by
  -- the list unfolds to the checks of the operations, one after another
  refine Stencil.govern_gridShape.bind fun gridShape shaped => ?_
  obtain rfl : edgeShape.tail = gridShape := by
    rw [(Stencil.gridShape_eq_ok shaped).1]
    rfl
  refine Layout.govern_ofShape.bind fun layout _ => ?_
  have answered := (@govern_checkExcluded edgeShape.tail excluded).answer fun _ => layout
  cases thinning with
  | none => exact answered
  | some thinning => exact Thinning.govern_check.bind fun _ _ => answered

end EdgeMask

namespace Segmentation

/-- The checks of a request for a segmentation. -/
def checks (weights : Tensor Binary32) (stencil : Stencil) (settings : Settings)
    (region : Option (Tensor Bool)) : List Check :=
  EdgeMask.checks weights.shape stencil settings.strides (region.map (·.shape))

variable {γ : Type} [RandomSource γ] {weights : Tensor Binary32} {settings : Settings}
  {region : Option (Tensor Bool)}

theorem govern_gridLayout : Check.Govern (checks weights stencil settings region)
    (gridLayout weights stencil settings region) := by
  have strides : settings.thinning.map (·.strides) = settings.strides := by
    rcases settings with ⟨strides, random, _, _, _, _⟩
    cases strides <;> cases random <;> rfl
  have shapes : (region.map outside).map (·.shape) = region.map (·.shape) := by
    cases region <;> rfl
  have govern := @EdgeMask.govern_gridLayout stencil weights.shape settings.thinning
    (region.map outside)
  rwa [strides, shapes] at govern

/--
The stages after the checks, all of which succeed. Sizes that are computed on the way agree and can
be addressed, and what is looked up exists.
-/
structure Stages (weights : Tensor Binary32) (stencil : Stencil) (settings : Settings)
    (region : Option (Tensor Bool)) (generator : γ) (layout : Layout) (index : EdgeIndex)
    (valid : Tensor Bool) (scaled : Tensor Binary32) (ranking : Ranking)
    (representatives : Tensor Nat) (after : γ) : Prop where
  /-- The mask of edges is stored under the shape of the weights. -/
  filled : ∃ all, Tensor.replicate weights.shape true = .ok all
  /-- Every tensor over the edges has the channels of the stencil. -/
  channels : ∀ (α : Type) (tensor : Tensor α), tensor.shape = weights.shape →
    ∀ channel < stencil.channelCount, (tensor.channel? channel).isSome
  /-- Strides are 64-bit numbers, so that a random decision is taken with a probability. -/
  probability : ∀ strides, settings.thinning = some (.random strides) →
    (∀ stride ∈ strides, stride < addressLimit) →
      0.0 ≤ Thinning.share strides ∧ Thinning.share strides ≤ 1.0
  /-- A region has affinities, one for each edge. -/
  compared : ∀ mask, region = some mask → ∃ affinities,
    Affinities.ofLabels (outside mask) stencil.offsets none = .ok affinities ∧
      affinities.weights.shape = weights.shape
  /-- The cell that a flat distance leads to is a cell of the grid. -/
  targets : ∀ offset ∈ stencil.offsets, ∀ cell < layout.size,
    (layout.insideMask offset)[cell]? = some true →
      Affinities.target cell (layout.flatOffset offset) < layout.size
  masked : EdgeMask.compute weights.shape stencil settings.thinning (region.map outside) generator =
    (.ok valid, after)
  /-- The attractive edges are the first part of all edges. -/
  split : stencil.attractive * weights.channelSize ≤ weights.size
  transformed : EdgeWeights.transform weights stencil.attractive settings.invertRepulsive
    settings.bias = .ok scaled
  ranked : Ranking.ofWeights scaled valid = .ok ranking
  numbered : EdgeIndex.ofGrid stencil layout.shape = .ok index
  addressable : index.count < addressLimit
  weightCount : index.checkCount scaled.size = .ok ()
  validCount : index.checkCount valid.size = .ok ()
  /-- Edges are looked up by their place in the ranking, or by their channel and their start. -/
  lookups : (∀ edge ∈ ranking.order, edge < valid.size) ∧
    ∀ channel < index.channels, ∀ node < index.nodes, index.number channel node < valid.size
  clustered : cluster settings.algorithm scaled valid stencil layout.shape =
    .ok representatives.data
  reshaped : Tensor.ofArray layout.shape representatives.data = .ok representatives

/-- A request that passes its checks goes through all later stages. -/
theorem Steps.exists_stages {generator : γ} {valid : Tensor Bool}
    {representatives : Tensor Nat}
    (laid : gridLayout weights stencil settings region = .ok layout)
    (steps : Steps weights stencil settings region layout generator valid representatives) :
    ∃ ranking, Stages weights stencil settings region generator layout
      (EdgeIndex.ofLayout stencil layout) valid (scaled weights stencil settings) ranking
      representatives (EdgeMask.decisions stencil layout settings.thinning generator).2 := by
  rcases EdgeMask.gridLayout_eq_ok laid with ⟨shaped, placed, strides, maskShapes⟩
  have ranks := (Stencil.gridShape_eq_ok shaped).2
  have counted := weights.volume?_eq_some
  have channelCount : weights.channelCount = stencil.channelCount := by
    rw [Tensor.channelCount, steps.weightShape]
    rfl
  have weightCount := EdgeIndex.size_eq_count steps.numbered steps.shape_scaled
  have validCount := EdgeIndex.size_eq_count steps.numbered steps.describes.shape
  refine ⟨_, {
    filled := (Tensor.replicate_eq_ok counted true).imp fun _ made => made.1
    channels := ?_
    probability := ?_
    compared := ?_
    targets := ?_
    masked := steps.masked
    split := ?_
    transformed := transform_eq_ok steps.weightShape
    ranked := Ranking.ofWeights_eq_ok (steps.shape_scaled.trans steps.describes.shape.symm)
    numbered := steps.numbered
    addressable := ?_
    weightCount := Error.check_eq_ok_iff.2 weightCount
    validCount := Error.check_eq_ok_iff.2 validCount
    lookups := ⟨?_, ?_⟩
    clustered := steps.clustered
    reshaped := steps.shape ▸ representatives.ofArray_data }⟩
  · intro α tensor shape channel known
    apply tensor.isSome_channel?
    rw [Tensor.channelCount, shape]
    exact lt_of_lt_of_eq known channelCount.symm
  · intro spec random addressed
    have positive := Thinning.zero_not_mem_of_check_eq_ok (strides _ random)
    exact (Thinning.share_eq positive addressed).2
  · rintro mask rfl
    rw [steps.weightShape] at counted ⊢
    rcases EdgeMask.affinities_eq_ok placed (maskShapes _ rfl) counted ranks with
        ⟨affinities, computed, shape, -⟩
    exact ⟨affinities, computed, shape⟩
  · intro offset member cell inside stays
    exact Affinities.target_lt_size ((stencil.uniform offset member).trans ranks.symm) inside stays
  · apply Nat.le_trans _ weights.mul_channelSize_le
    rw [channelCount]
    exact Nat.mul_le_mul_right _ stencil.attractive_le
  · rw [← weightCount]
    exact lt_addressLimit_of_volumeFrom?_eq_some (by decide)
      (scaled weights stencil settings).volume?_eq_some
  · intro edge member
    rw [validCount]
    exact Ranking.lt_count_of_mem steps.numbered steps.shape_scaled edge member
  · intro channel known node inside
    rw [validCount]
    exact EdgeIndex.number_lt_count known inside

/--
A segmentation is refused by its checks alone. It fails exactly if one of them does, with the error
of the first that fails, and leaves the generator as it was. Otherwise all later stages succeed, and
the labels have the shape of the grid.
-/
theorem labels_refused_iff (weights : Tensor Binary32) (stencil : Stencil) (settings : Settings)
    (region : Option (Tensor Bool)) (generator : γ) :
    (∀ error after, labels weights stencil settings region generator = (.error error, after) ↔
      Check.refusal? (checks weights stencil settings region) = some error ∧ after = generator) ∧
    (Check.refusal? (checks weights stencil settings region) = none →
      ∃ layout index valid scaled ranking representatives result after,
        layout.shape = weights.shape.tail ∧
        Stages weights stencil settings region generator layout index valid scaled ranking
          representatives after ∧
        labels weights stencil settings region generator = (.ok result, after) ∧
        result.shape = weights.shape.tail) := by
  have govern := @govern_gridLayout stencil weights settings region
  cases refused : Check.refusal? (checks weights stencil settings region) with
  | some found =>
      have failed := labels_eq_error ((govern found).2 refused) generator
      refine ⟨fun error after => ?_, fun impossible => absurd impossible (by simp)⟩
      rw [failed, Prod.mk.injEq, Except.error.injEq, Option.some.injEq, @eq_comm _ generator]
  | none =>
      rcases govern.exists_ok refused with ⟨layout, laid⟩
      rcases exists_steps laid generator with ⟨valid, representatives, steps⟩
      rcases steps.exists_stages laid with ⟨ranking, stages⟩
      have shape : layout.shape = weights.shape.tail := by
        rw [steps.weightShape]
        rfl
      refine ⟨fun error after => ?_, fun _ => ⟨layout, _, valid, _, ranking, representatives, _, _,
        shape, stages, steps.labelled,
        (shape_labelsIn representatives).trans (steps.shape.trans shape)⟩⟩
      rw [steps.labelled]
      exact iff_of_false (fun answered => absurd (congrArg Prod.fst answered) (by simp))
        fun impossible => absurd impossible.1 (by simp)

/-- A stride of zero is found before a region of the wrong shape, and a stride of two is used. -/
theorem labels_refused_iff_row :
    ∃ (weights : Tensor Binary32) (stencil : Stencil) (settings : Settings) (region : Tensor Bool)
      (generator : Generator), weights.shape = [2, 4] ∧ region.shape = [3] ∧
      settings.randomizeStrides = true ∧
      labels weights stencil { settings with strides := some [0] } (some region) generator =
        (.error .zeroStride, generator) ∧
      ∃ result after, labels weights stencil { settings with strides := some [2] } none generator =
        (.ok result, after) ∧ result.shape = [4] := by
  let weights : Tensor Binary32 := ⟨[2, 4], Array.replicate 8 .one, rfl⟩
  let stencil : Stencil := ⟨[[1], [-2]], 1, 1, by decide, by decide, by decide⟩
  let settings : Settings := { Settings.standard with randomizeStrides := true }
  let region : Tensor Bool := ⟨[3], Array.replicate 3 true, rfl⟩
  let generator := Generator.ofSeed 7
  have refused := ((labels_refused_iff weights stencil { settings with strides := some [0] }
    (some region) generator).1 .zeroStride generator).2 ⟨rfl, rfl⟩
  rcases (labels_refused_iff weights stencil { settings with strides := some [2] } none
    generator).2 rfl with ⟨_, _, _, _, _, _, result, after, -, -, answered, shape⟩
  exact ⟨weights, stencil, settings, region, generator, rfl, rfl, rfl, refused, result, after,
    answered, shape⟩

end Segmentation

end Watershed
