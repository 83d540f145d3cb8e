import Mathlib.Logic.Relation
import Watershed.Proofs.Segmentation

/-!
# Segmentation of a region

With a region, the label zero marks the cells outside of it, and every other label is one more than
the number of a cell that stands for its cluster. A cell that stands for a cluster is a root of
disjoint sets, chosen by rank, so nothing in the choice respects the region. It lies in the region
all the same: it is linked to the cells of its cluster, and edges that touch a cell outside of the
region are not valid.
-/

namespace Watershed.Segmentation

variable {γ : Type} [RandomSource γ] {weights : Tensor Binary32} {stencil : Stencil}
  {settings : Settings} {layout : Layout} {region valid : Tensor Bool} {generator : γ}
  {representatives : Tensor Nat}

/-- A valid attractive edge inside of the region has these two ends. -/
def Attracts (stencil : Stencil) (layout : Layout) (valid region : Tensor Bool) (cell other : Nat) :
    Prop :=
  region.data[cell]? = some true ∧ region.data[other]? = some true ∧
    ∃ channel < stencil.attractive, EdgeMask.Leads stencil layout valid channel cell other ∨
      EdgeMask.Leads stencil layout valid channel other cell

theorem included_outside_some_iff {cell : Nat} :
    EdgeMask.Included (some (outside region)) cell ↔ region.data[cell]? = some true := by
  apply (@included_outside_iff (some region) cell).trans
  simp [InRegion]

/-- Linked cells are joined by a path inside of the region. -/
theorem reflTransGen_of_linked {edges : Set Nat} {kept : Nat → Bool}
    (describes : EdgeMask.Describes stencil layout (some (outside region)) kept valid)
    {cell other : Fin (EdgeIndex.ofLayout stencil layout).nodes}
    (linked : ((EdgeIndex.ofLayout stencil layout).graph valid.data).Linked edges cell other) :
    Relation.ReflTransGen (Attracts stencil layout valid region) cell.val other.val := by
  apply linked.induction (fun reached => Relation.ReflTransGen _ cell.val reached.val) .refl
  intro x y edge _ toX _ kind joins
  apply toX.tail
  rcases describes.leads_of_joins joins with ⟨channel, ⟨rfl, leads⟩ | ⟨rfl, leads⟩⟩
  · rcases describes.included leads with ⟨-, -, xIncluded, yIncluded⟩
    rw [EdgeIndex.repulsive_graph_number, decide_eq_false_iff_not, Nat.not_le] at kind
    exact ⟨included_outside_some_iff.1 xIncluded, included_outside_some_iff.1 yIncluded, channel,
      kind, .inl leads⟩
  · rcases describes.included leads with ⟨-, -, yIncluded, xIncluded⟩
    rw [EdgeIndex.repulsive_graph_number, decide_eq_false_iff_not, Nat.not_le] at kind
    exact ⟨included_outside_some_iff.1 xIncluded, included_outside_some_iff.1 yIncluded, channel,
      kind, .inr leads⟩

theorem inRegion_of_reflTransGen {cell other : Nat}
    (path : Relation.ReflTransGen (Attracts stencil layout valid region) cell other)
    (inside : region.data[cell]? = some true) : region.data[other]? = some true := by
  rcases path.cases_tail with rfl | ⟨_, _, last⟩
  · exact inside
  · exact last.2.1

/-- Every cell is linked to the cell that stands for its cluster, and that one stands for itself. -/
theorem Steps.exists_root {region : Option (Tensor Bool)}
    (steps : Steps weights stencil settings region layout generator valid representatives)
    (cell : Fin (EdgeIndex.ofLayout stencil layout).nodes) :
    ∃ root : Fin (EdgeIndex.ofLayout stencil layout).nodes,
      representatives.data[cell.val]? = some root.val ∧
      representatives.data[root.val]? = some root.val ∧
      ((EdgeIndex.ofLayout stencil layout).graph valid.data).Linked
        (((EdgeIndex.ofLayout stencil layout).graph valid.data).chosen settings.algorithm
          (Ranking.ranked (scaled weights stencil settings) valid)) cell root := by
  rcases steps.exists_roots with ⟨sets, roots, separate⟩
  refine ⟨sets.root cell, ?_, ?_, (separate cell _).1 (sets.root_root cell).symm⟩
  · rw [roots]
    exact sets.getElem?_labels cell
  · rw [roots, sets.getElem?_labels, sets.root_root]

/-- A region that holds every cell changes nothing but the labels, which are one more. -/
theorem Steps.labels_none
    (steps : Steps weights stencil settings (some region) layout generator valid representatives)
    (laid : gridLayout weights stencil settings (some region) = .ok layout)
    (everywhere : ∀ cell < layout.size, region.data[cell]? = some true) :
    labels weights stencil settings none generator =
      (.ok representatives, (EdgeMask.decisions stencil layout settings.thinning generator).2) := by
  rcases EdgeMask.gridLayout_eq_ok laid with ⟨shaped, placed, thinned, -⟩
  have free : gridLayout weights stencil settings none = .ok layout :=
    EdgeMask.gridLayout_eq shaped placed thinned fun _ impossible => absurd impossible (by simp)
  rcases exists_steps free generator with ⟨plainValid, plain, plainSteps⟩
  have same : valid = plainValid := by
    apply steps.describes.eq_of_included_iff plainSteps.describes
    intro cell inside
    apply included_outside_some_iff.trans
    simp [EdgeMask.Included, everywhere cell inside]
  have clustered := steps.clustered
  rw [same, plainSteps.clustered] at clustered
  have equal : plain = representatives :=
    Tensor.ext (plainSteps.shape.trans steps.shape.symm) (Except.ok.inj clustered)
  rw [plainSteps.labelled, equal]
  rfl

theorem getElem?_labelsIn {labels : Tensor Nat} (cell : Nat) :
    (labelsIn (some region) labels).data[cell]? =
      labels.data[cell]?.map (regionLabel region cell) :=
  Tensor.getElem?_mapIdx labels _ cell

theorem labelsIn_eq_zero_iff_of_shape {labels : Tensor Nat} (shapes : region.shape = labels.shape)
    (cell : Nat) :
    (labelsIn (some region) labels).data[cell]? = some 0 ↔ region.data[cell]? = some false := by
  have sizes : region.size = labels.size := by
    rw [Tensor.size_eq_volume, Tensor.size_eq_volume, shapes]
  rw [getElem?_labelsIn]
  by_cases inside : cell < labels.size
  · have here := Array.getElem?_eq_getElem inside
    have mark := Array.getElem?_eq_getElem (lt_of_lt_of_eq inside sizes.symm)
    rw [here, Option.map_some, Option.some.injEq, regionLabel_eq_zero_iff, mark]
    simp
  · have beyond : labels.data[cell]? = none := Array.getElem?_eq_none (Nat.le_of_not_lt inside)
    rw [← sizes] at inside
    have unmarked : region.data[cell]? = none := Array.getElem?_eq_none (Nat.le_of_not_lt inside)
    simp [beyond, unmarked]

theorem getElem?_labelsIn_of_inRegion {labels : Tensor Nat} {cell label : Nat}
    (known : labels.data[cell]? = some label) (inRegion : region.data[cell]? = some true) :
    (labelsIn (some region) labels).data[cell]? = some (label + 1) := by
  rw [getElem?_labelsIn, known, Option.map_some, regionLabel, inRegion]
  rfl

theorem labelsIn_eq_map {labels : Tensor Nat}
    (everywhere : ∀ cell < labels.size, region.data[cell]? = some true) :
    labelsIn (some region) labels = labels.map (· + 1) := by
  have data : (labelsIn (some region) labels).data = (labels.map (· + 1)).data := by
    apply Array.ext_getElem?
    intro cell
    rw [getElem?_labelsIn, Tensor.getElem?_map]
    by_cases inside : cell < labels.size
    · congr 1
      funext label
      simp [regionLabel, everywhere cell inside]
    · have beyond : labels.data[cell]? = none :=
        Array.getElem?_eq_none (Nat.le_of_not_lt inside)
      simp [beyond]
  exact Tensor.ext rfl data

/--
A segmentation of a region is sound. The label zero marks exactly the cells outside of it. The label
of a cell inside is one more than the number of a cell with the same label, to which a path along
valid attractive edges leads without leaving the region. And a region that holds every cell makes no
difference: the labels are one more than without it, and the same random numbers are drawn.
-/
theorem labels_sound (weights : Tensor Binary32) (stencil : Stencil) (settings : Settings)
    (region : Tensor Bool) (generator after : γ) (result : Tensor Nat)
    (ran : labels weights stencil settings (some region) generator = (.ok result, after)) :
    ∃ layout valid, weights.shape = stencil.edgeShape layout.shape ∧
      region.shape = layout.shape ∧ result.shape = layout.shape ∧
      EdgeMask.compute weights.shape stencil settings.thinning (some (outside region)) generator =
        (.ok valid, after) ∧
      (∀ cell : Nat, result.data[cell]? = some 0 ↔ region.data[cell]? = some false) ∧
      (∀ cell : Nat, region.data[cell]? = some true → ∃ root,
        result.data[cell]? = some (root + 1) ∧ result.data[root]? = some (root + 1) ∧
        region.data[root]? = some true ∧
        Relation.ReflTransGen (Attracts stencil layout valid region) cell root) ∧
      ((∀ cell < layout.size, region.data[cell]? = some true) → ∃ plain,
        labels weights stencil settings none generator = (.ok plain, after) ∧
        result = plain.map (· + 1)) := by
  rcases exists_steps_of_labels_eq_ok ran with
      ⟨layout, valid, representatives, laid, steps, rfl, rfl⟩
  have regionShape : region.shape = layout.shape :=
    (EdgeMask.gridLayout_eq_ok laid).2.2.2 (outside region) rfl
  have sizes : region.size = layout.size ∧ representatives.size = layout.size := by
    rw [Tensor.size_eq_volume, Tensor.size_eq_volume, regionShape, steps.shape]
    exact ⟨rfl, rfl⟩
  refine ⟨layout, valid, steps.weightShape, regionShape, steps.shape, steps.masked, ?_, ?_, ?_⟩
  · exact labelsIn_eq_zero_iff_of_shape (regionShape.trans steps.shape.symm)
  · intro cell inRegion
    have inside : cell < layout.size := sizes.1 ▸ (Array.getElem?_eq_some_iff.1 inRegion).1
    rcases steps.exists_root ⟨cell, inside⟩ with ⟨root, ofCell, ofRoot, linked⟩
    have path := reflTransGen_of_linked steps.describes linked
    have rootInRegion := inRegion_of_reflTransGen path inRegion
    exact ⟨root, getElem?_labelsIn_of_inRegion ofCell inRegion,
      getElem?_labelsIn_of_inRegion ofRoot rootInRegion, rootInRegion, path⟩
  · intro everywhere
    exact ⟨representatives, steps.labels_none laid everywhere,
      labelsIn_eq_map fun cell inside => everywhere cell (sizes.2 ▸ inside)⟩

/--
Five cells in a row, a region without the middle one, and repulsive edges thinned out at random.
-/
theorem labels_sound_row :
    ∃ (weights : Tensor Binary32) (stencil : Stencil) (settings : Settings) (region : Tensor Bool)
      (result : Tensor Nat) (after : Generator) (layout : Layout) (valid : Tensor Bool),
      stencil.offsets = [[1], [-3]] ∧ settings.thinning = some (.random [2]) ∧
      region.data = #[true, true, false, true, true] ∧
      labels weights stencil settings (some region) (Generator.ofSeed 7) = (.ok result, after) ∧
      EdgeMask.compute weights.shape stencil settings.thinning (some (outside region))
        (Generator.ofSeed 7) = (.ok valid, after) ∧
      result.data[2]? = some 0 ∧
      ∃ root, result.data[4]? = some (root + 1) ∧ result.data[root]? = some (root + 1) ∧
        region.data[root]? = some true ∧
        Relation.ReflTransGen (Attracts stencil layout valid region) 4 root := by
  let weights : Tensor Binary32 := ⟨[2, 5], Array.replicate 10 .one, rfl⟩
  let stencil : Stencil := ⟨[[1], [-3]], 1, 1, by decide, by decide, by decide⟩
  let settings : Settings :=
    { Settings.standard with strides := some [2], randomizeStrides := true, algorithm := .prim }
  let region : Tensor Bool := ⟨[5], #[true, true, false, true, true], rfl⟩
  have laid : gridLayout weights stencil settings (some region) = .ok ⟨[5], by decide⟩ := rfl
  rcases exists_steps laid (Generator.ofSeed 7) with ⟨_, _, steps⟩
  rcases labels_sound weights stencil settings region _ _ _ steps.labelled with
      ⟨layout, valid, -, -, -, masked, zero, rooted, -⟩
  exact ⟨weights, stencil, settings, region, _, _, layout, valid, rfl, rfl, rfl, steps.labelled,
    masked, (zero 2).2 rfl, rooted 4 rfl⟩

end Watershed.Segmentation
