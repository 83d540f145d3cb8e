import Mathlib.Logic.Function.Iterate
import Watershed.Generator
import Watershed.Proofs.GridEdges
import Watershed.Proofs.Share

/-!
# The random decisions behind a mask

Thinning at random draws from a generator that other runs use before and after it, so it matters how
many decisions are taken and which edge gets which. There is one decision for every repulsive edge
of the shape, in the order of edge numbers, whether or not the edge leaves the grid or touches an
excluded cell. The result is the mask without thinning, intersected with a sequence of decisions
that depends on nothing but the strides and the state at the start.
-/

namespace Watershed

namespace RandomSource

variable {γ : Type} [RandomSource γ]

/-- The state after a number of decisions of one probability. -/
def afterDecisions (generator : γ) (probability : Float) (count : Nat) : γ :=
  (fun state => (nextDecision probability state).2)^[count] generator

/-- The decision at a position of a sequence of decisions of one probability. -/
def decision (generator : γ) (probability : Float) (position : Nat) : Bool :=
  (nextDecision probability (afterDecisions generator probability position)).1

theorem nextDecisions_eq (probability : Float) (count : Nat) (taken : Array Bool) (generator : γ) :
    nextDecisions probability count taken generator =
      (taken ++ ((List.range count).map (decision generator probability)).toArray,
        afterDecisions generator probability count) := by
  induction count generalizing taken generator with
  | zero => simp [nextDecisions, afterDecisions]
  | succ count ih =>
      have first : decision generator probability 0 = (nextDecision probability generator).1 := rfl
      have later : ∀ position, decision generator probability (position + 1) =
          decision (nextDecision probability generator).2 probability position := fun _ => rfl
      have last : afterDecisions generator probability (count + 1) =
          afterDecisions (nextDecision probability generator).2 probability count := rfl
      simp [nextDecisions, ih, List.range_succ_eq_map, Function.comp_def, first, later, last]

end RandomSource

/-- No stride is zero once the strides have passed their check. -/
theorem Thinning.zero_not_mem_of_check_eq_ok {thinning : Thinning} {rank : Nat}
    (checked : thinning.check rank = .ok ()) : 0 ∉ thinning.strides := by
  intro member
  unfold Thinning.check at checked
  split at checked
  · exact absurd checked (by simp)
  · rw [if_pos (by simpa using member)] at checked
    exact absurd checked (by simp)

namespace EdgeMask

open RandomSource (decision afterDecisions)

variable {γ : Type} [RandomSource γ] {stencil : Stencil} {layout : Layout} {strides : List Nat}
  {generator : γ} {edgeShape : List Nat} {thinning : Option Thinning}
  {excluded : Option (Tensor Bool)} {kept : Nat → Bool} {valid plain : Tensor Bool}

theorem decisions_random : decisions stencil layout (some (.random strides)) generator =
    (((List.range (stencil.repulsive * layout.size)).map
        (decision generator (Thinning.share strides))).toArray,
      afterDecisions generator (Thinning.share strides) (stencil.repulsive * layout.size)) := by
  rw [decisions, RandomSource.nextDecisions_eq, Array.empty_append]
  rfl

/-- A repulsive edge is kept by the decision at its place among the repulsive edges. -/
theorem keeps_random {channel index : Nat} (known : channel < stencil.channelCount)
    (inside : index < layout.size) :
    keeps stencil layout (some (.random strides)) generator (channel * layout.size + index) =
      (decide (channel < stencil.attractive) || decision generator (Thinning.share strides)
        ((channel - stencil.attractive) * layout.size + index)) := by
  rw [keeps]
  by_cases attracts : channel < stencil.attractive
  · simp [mul_add_lt_mul_iff inside, attracts]
  · have repels : stencil.attractive ≤ channel := Nat.le_of_not_lt attracts
    have position : channel * layout.size + index - stencil.attractive * layout.size =
        (channel - stencil.attractive) * layout.size + index := by
      rw [Nat.sub_mul, Nat.sub_add_comm (Nat.mul_le_mul_right _ repels)]
    have below : (channel - stencil.attractive) * layout.size + index <
        stencil.repulsive * layout.size :=
      mul_add_lt (Nat.sub_lt_sub_right repels known) inside
    simp [mul_add_lt_mul_iff inside, attracts, decisions_random, position,
      List.getElem?_range below]

/-- Thinning out edges is an intersection with those that are kept. -/
theorem Describes.entry_eq (describes : Describes stencil layout excluded kept valid)
    {all : Nat → Bool} (plainDescribes : Describes stencil layout excluded all plain)
    (unthinned : ∀ edge, all edge = true) {channel index : Nat} {entry whole : Bool}
    (known : channel < stencil.channelCount) (inside : index < layout.size)
    (isEntry : valid.data[channel * layout.size + index]? = some entry)
    (isWhole : plain.data[channel * layout.size + index]? = some whole) :
    entry = (whole && kept (channel * layout.size + index)) := by
  have offsetKnown := List.getElem?_eq_getElem known
  have thinned := describes.valid_iff channel _ offsetKnown index inside
  have full := plainDescribes.valid_iff channel _ offsetKnown index inside
  rw [isEntry, Option.some.injEq] at thinned
  rw [isWhole, Option.some.injEq, unthinned, eq_self, true_and] at full
  rw [Bool.eq_iff_iff, Bool.and_eq_true, thinned, full, and_comm]

theorem gridLayout_none (laid : gridLayout edgeShape stencil thinning excluded = .ok layout) :
    gridLayout edgeShape stencil none excluded = .ok layout := by
  rcases gridLayout_eq_ok laid with ⟨shaped, placed, -, maskShapes⟩
  exact gridLayout_eq shaped placed (fun _ impossible => absurd impossible (by simp)) maskShapes

/-- Without thinning the mask depends on no source of random numbers, and leaves each as it is. -/
theorem exists_plain {size : Nat} (laid : gridLayout edgeShape stencil none excluded = .ok layout)
    (counted : volume? edgeShape = some size) :
    ∃ plain, (∀ (γ : Type) [RandomSource γ] (generator : γ),
        compute edgeShape stencil none excluded generator = (.ok plain, generator)) ∧
      Describes stencil layout excluded (fun _ => true) plain := by
  have computes : ∀ (γ : Type) [RandomSource γ] (generator : γ), ∃ plain,
      compute edgeShape stencil none excluded generator = (.ok plain, generator) ∧
        Describes stencil layout excluded (fun _ => true) plain := by
    intro γ _ generator
    have everything : keeps stencil layout none generator = fun _ => true :=
      funext fun edge => Bool.or_true _
    exact everything ▸ compute_eq_ok laid counted generator
  rcases computes Generator (.ofSeed 0) with ⟨plain, -, describes⟩
  refine ⟨plain, fun γ _ generator => ?_, describes⟩
  rcases computes γ generator with ⟨again, computed, againDescribes⟩
  rw [computed, againDescribes.eq_of_included_iff describes fun _ _ => Iff.rfl]

/--
Random thinning is an intersection with a fixed sequence of decisions. An entry of an attractive
channel is that of the mask without thinning; and the entry of a repulsive channel is that and the
decision at its place among all repulsive edges, valid or not. There are as many decisions as
repulsive edges. The probability is one over the product of the strides; and another mask or other
offsets, with the same numbers of channels, lead to the same state afterwards.
-/
theorem compute_random (edgeShape : List Nat) (stencil : Stencil) (strides : List Nat)
    (excluded : Option (Tensor Bool)) (generator after : γ) (valid : Tensor Bool)
    (computed : compute edgeShape stencil (some (.random strides)) excluded generator =
      (.ok valid, after)) :
    ∃ (layout : Layout) (plain : Tensor Bool), edgeShape = stencil.edgeShape layout.shape ∧
      (∀ state : γ, compute edgeShape stencil none excluded state = (.ok plain, state)) ∧
      (∀ channel < stencil.channelCount, ∀ cell index, layout.index? cell = some index →
        ∃ whole, plain.get? (channel :: cell) = .ok (some whole) ∧
          valid.get? (channel :: cell) = .ok (some (if channel < stencil.attractive then whole
            else whole && decision generator (Thinning.share strides)
              ((channel - stencil.attractive) * layout.size + index)))) ∧
      after = afterDecisions generator (Thinning.share strides)
        (stencil.repulsive * layout.size) ∧
      ((∀ stride ∈ strides, stride < addressLimit) →
        Thinning.share strides = (Thinning.keepProbability strides).toFloat ∧
        0.0 ≤ Thinning.share strides ∧ Thinning.share strides ≤ 1.0) ∧
      ∀ (other : Stencil) otherExcluded otherValid otherAfter,
        other.channelCount = stencil.channelCount → other.attractive = stencil.attractive →
        compute edgeShape other (some (.random strides)) otherExcluded generator =
          (.ok otherValid, otherAfter) → otherAfter = after := by
  rcases describes_of_compute_eq_ok computed with ⟨layout, laid, rfl, describes⟩
  rcases gridLayout_eq_ok laid with ⟨shaped, placed, checks, -⟩
  rcases Stencil.gridShape_eq_ok shaped with ⟨rfl, ranks⟩
  have counted := describes.shape ▸ valid.volume?_eq_some
  rcases exists_plain (gridLayout_none laid) counted with ⟨plain, unthinned, plainDescribes⟩
  refine ⟨layout, plain, rfl, unthinned γ, ?_, congrArg Prod.snd decisions_random, ?_, ?_⟩
  · intro channel known cell index found
    have inside : index < layout.size := (rowMajorIndex?_eq_some_iff.1 found).1
    rcases Tensor.exists_get?_cons describes.shape known found with ⟨entry, read, isEntry⟩
    rcases Tensor.exists_get?_cons plainDescribes.shape known found with ⟨whole, readWhole, isWhole⟩
    have kept := describes.entry_eq plainDescribes (fun _ => rfl) known inside isEntry isWhole
    refine ⟨whole, readWhole, ?_⟩
    rw [read, kept, keeps_random known inside]
    by_cases attracts : channel < stencil.attractive <;> simp [attracts]
  · intro addressed
    have positive : 0 ∉ strides := Thinning.zero_not_mem_of_check_eq_ok (checks _ rfl)
    exact Thinning.share_eq positive addressed
  · intro other otherExcluded otherValid otherAfter channels attractive otherComputed
    rcases describes_of_compute_eq_ok otherComputed with ⟨otherLayout, otherLaid, rfl, -⟩
    rcases Stencil.gridShape_eq_ok (gridLayout_eq_ok otherLaid).1 with ⟨shapes, -⟩
    have sameSize : otherLayout.size = layout.size :=
      congrArg volume (List.cons.inj shapes).2.symm
    have sameRepulsive : other.repulsive = stencil.repulsive := by
      rw [Stencil.repulsive, Stencil.repulsive, attractive]
      exact congrArg (· - stencil.attractive) channels
    rw [decisions_random, decisions_random, sameSize, sameRepulsive]

/-- Four cells in a row, two repulsive channels, and a mask that excludes the first cell. -/
theorem compute_random_row :
    ∃ (stencil other : Stencil) (excluded valid otherValid : Tensor Bool)
      (generator after : Generator),
      stencil.offsets = [[1], [2], [-3]] ∧ other.offsets = [[-1], [3], [3]] ∧
      compute [3, 4] stencil (some (.random [3])) (some excluded) generator = (.ok valid, after) ∧
      compute [3, 4] other (some (.random [3])) none generator = (.ok otherValid, after) ∧
      after = afterDecisions generator (Thinning.keepProbability [3]).toFloat 8 ∧
      ∃ whole, valid.get? [2, 1] = .ok (some
        (whole && decision generator (Thinning.keepProbability [3]).toFloat 5)) := by
  let stencil : Stencil := ⟨[[1], [2], [-3]], 1, 1, by decide, by decide, by decide⟩
  let other : Stencil := ⟨[[-1], [3], [3]], 1, 1, by decide, by decide, by decide⟩
  let excluded : Tensor Bool := ⟨[4], #[true, false, false, false], rfl⟩
  let generator := Generator.ofSeed 7
  have counted : volume? [3, 4] = some 12 := rfl
  have laid : gridLayout [3, 4] stencil (some (.random [3])) (some excluded) =
      .ok ⟨[4], by decide⟩ := rfl
  have otherLaid : gridLayout [3, 4] other (some (.random [3])) none = .ok ⟨[4], by decide⟩ := rfl
  rcases compute_eq_ok laid counted generator with ⟨valid, computed, -⟩
  rcases compute_eq_ok otherLaid counted generator with ⟨otherValid, otherComputed, -⟩
  rcases compute_random [3, 4] stencil [3] (some excluded) generator _ valid computed with
      ⟨layout, plain, shape, -, entries, drawn, probability, independent⟩
  obtain rfl : layout = ⟨[4], by decide⟩ := by
    rcases layout with ⟨gridShape, addressable⟩
    obtain rfl : gridShape = [4] := (List.cons.inj shape).2.symm
    rfl
  have same := independent other none otherValid _ rfl rfl otherComputed
  rw [(probability (by decide)).1] at entries drawn
  rcases entries 2 (by decide) [1] 1 rfl with ⟨whole, -, entry⟩
  exact ⟨stencil, other, excluded, valid, otherValid, generator, _, rfl, rfl, computed,
    same ▸ otherComputed, drawn, whole, entry⟩

end EdgeMask

end Watershed
