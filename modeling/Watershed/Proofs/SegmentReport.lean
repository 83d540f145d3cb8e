import Watershed.Proofs.FirstAppearance
import Watershed.Proofs.Problem
import Watershed.Proofs.Regions
import Watershed.Tool.Report

/-!
# The labels of a report are canonical

A segmentation labels cells by representatives, which depend on the ranks that came about on the way
and so on the algorithm. The report renumbers them, with zero kept as the mark of cells outside of
the region if and only if there is a region. What it writes depends on the partition alone: the
classes are numbered in the order of their first appearance. In particular greedy clustering and
growth, which find the same partition, lead to the same report.
-/

namespace Watershed

namespace Segmentation

variable {γ : Type} [RandomSource γ] {weights : Tensor Binary32} {stencil : Stencil}
  {settings : Settings} {region : Option (Tensor Bool)} {layout : Layout} {generator : γ}

theorem size_labelsIn (labels : Tensor Nat) : (labelsIn region labels).size = labels.size := by
  rw [Tensor.size_eq_volume, Tensor.size_eq_volume, shape_labelsIn]

/-- Renumbering forgets everything about labels but the partition that they induce. -/
theorem ofLabels_labelsIn_eq {labels others : Tensor Nat} (shapes : labels.shape = others.shape)
    (pattern : ∀ u v : Nat, u < labels.size → v < labels.size →
      (labels.data[u]? = labels.data[v]? ↔ others.data[u]? = others.data[v]?)) :
    Numbering.ofLabels region.isSome (labelsIn region labels).data =
      Numbering.ofLabels region.isSome (labelsIn region others).data := by
  have sizes : labels.size = others.size := by
    rw [Tensor.size_eq_volume, Tensor.size_eq_volume, shapes]
  have sizesIn : (labelsIn region labels).size = (labelsIn region others).size := by
    rw [size_labelsIn, size_labelsIn, sizes]
  apply Numbering.ofLabels_eq_of_same_pattern sizesIn
  · intro u v uInside vInside
    rw [← Tensor.size, size_labelsIn] at uInside vInside
    rw [labelsIn_eq_iff uInside vInside, labelsIn_eq_iff (lt_of_lt_of_eq uInside sizes)
      (lt_of_lt_of_eq vInside sizes), pattern u v uInside vInside]
  · intro isSome cell
    by_cases inside : cell < labels.size
    · rw [labelsIn_eq_zero_iff isSome inside,
        labelsIn_eq_zero_iff isSome (lt_of_lt_of_eq inside sizes)]
    · rw [← @size_labelsIn region labels] at inside
      have beyond := Array.getElem?_eq_none (Nat.le_of_not_lt inside)
      rw [sizesIn] at inside
      have otherBeyond := Array.getElem?_eq_none (Nat.le_of_not_lt inside)
      rw [beyond, otherBeyond]

/-- Greedy clustering and growth find the same partition. -/
theorem Steps.pattern_eq {valid otherValid : Tensor Bool} {kept grown : Tensor Nat}
    (greedy : Steps weights stencil { settings with algorithm := .kruskal } region layout generator
      valid kept)
    (growth : Steps weights stencil { settings with algorithm := .prim } region layout generator
      otherValid grown)
    (u v : Nat) (uInside : u < kept.size) (vInside : v < kept.size) :
    kept.data[u]? = kept.data[v]? ↔ grown.data[u]? = grown.data[v]? := by
  -- both runs draw from the same state, so they see the same valid edges
  have masks : valid = otherValid :=
    Except.ok.inj (congrArg Prod.fst (greedy.masked.symm.trans growth.masked))
  subst masks
  rw [Tensor.size_eq_volume, greedy.shape] at uInside vInside
  have ofKept := greedy.representatives_eq_iff ⟨u, uInside⟩ ⟨v, vInside⟩
  have ofGrown := growth.representatives_eq_iff ⟨u, uInside⟩ ⟨v, vInside⟩
  exact ofKept.trans ofGrown.symm

end Segmentation

namespace Tool.SegmentReport

variable {problem : Problem} {parts : Problem.Parts} {settings : Settings} {report : SegmentReport}

theorem ofProblem_eq_ok_iff : ofProblem problem parts settings = .ok report ↔
    ∃ labels, Segmentation.seededLabels parts.weights parts.stencil settings parts.region =
        .ok labels ∧
      ⟨problem, settings, Numbering.ofLabels parts.region.isSome labels.data⟩ = report := by
  rw [ofProblem, Error.bind_eq_ok_iff]
  simp only [Error.mapError_eq_ok_iff]
  exact exists_congr fun labels => and_congr_right fun _ => ⟨Except.ok.inj, congrArg Except.ok⟩

/-- A report on one label per cell can be shown, with a picture of the labels if there is one. -/
theorem files_eq_ok (sized : report.numbering.labels.size = volume report.problem.shape) :
    ∃ pictures, report.pictures = .ok pictures ∧ report.files = .ok (pictures ++ [
      ("labels.json", .document (.labels report.problem.shape report.numbering.labels)),
      ("meta.json", .document report.summary)]) := by
  have pictured : ∃ pictures, report.pictures = .ok pictures := by
    unfold pictures
    split
    · next height width planar =>
      rw [planar, volume, volume, volume, Nat.mul_one, Nat.mul_comm] at sized
      rw [Picture.ofLabels, if_pos sized]
      exact ⟨_, rfl⟩
    · exact ⟨_, rfl⟩
  rcases pictured with ⟨pictures, shown⟩
  exact ⟨pictures, shown, Error.bind_eq_ok_iff.2 ⟨pictures, shown, rfl⟩⟩

/-- Greedy clustering and growth lead to the same numbers, whenever there is a report at all. -/
theorem numbering_kruskal_eq_prim {layout : Layout}
    (laid : Segmentation.gridLayout parts.weights parts.stencil settings parts.region =
      .ok layout) :
    ∃ kept grown, ofProblem problem parts { settings with algorithm := .kruskal } = .ok kept ∧
      ofProblem problem parts { settings with algorithm := .prim } = .ok grown ∧
      kept.numbering = grown.numbering := by
  let generator := Generator.ofSeed settings.seed
  -- the algorithm has no part in the layout
  have laidFor : ∀ algorithm, Segmentation.gridLayout parts.weights parts.stencil
      { settings with algorithm := algorithm } parts.region = .ok layout := fun _ => laid
  rcases Segmentation.exists_steps (laidFor .kruskal) generator with ⟨_, keptLabels, greedy⟩
  rcases Segmentation.exists_steps (laidFor .prim) generator with ⟨_, grownLabels, growth⟩
  refine ⟨_, _, ofProblem_eq_ok_iff.2 ⟨_, congrArg Prod.fst greedy.labelled, rfl⟩,
    ofProblem_eq_ok_iff.2 ⟨_, congrArg Prod.fst growth.labelled, rfl⟩, ?_⟩
  exact Segmentation.ofLabels_labelsIn_eq (greedy.shape.trans growth.shape.symm)
    (greedy.pattern_eq growth)

/--
The labels of a report are canonical. They are written out whenever there is a report, and repeat
themselves exactly where the labels of the segmentation do. Without a region they are the numbers
below the number of segments; with a region zero marks the cells outside of it, and the labels
inside are the numbers from one to the number of segments. Each number appears after all smaller
ones. Greedy clustering and growth lead to the same labels and to the same number of segments.
-/
theorem labels_canonical (problem : Problem) (parts : Problem.Parts) (settings : Settings)
    (report : SegmentReport) (made : problem.parts = .ok parts)
    (reported : ofProblem problem parts settings = .ok report) :
    (∃ labels, Segmentation.seededLabels parts.weights parts.stencil settings parts.region =
        .ok labels ∧
      labels.shape = problem.shape ∧ report.numbering.labels.size = labels.size ∧
      ∀ u v : Nat, u < labels.size → v < labels.size →
        (report.numbering.labels[u]? = report.numbering.labels[v]? ↔
          labels.data[u]? = labels.data[v]?)) ∧
    (problem.region = none →
      Numbering.NumberedFrom 0 report.numbering.count report.numbering.labels) ∧
    (∀ inside, problem.region = some inside →
      (∀ cell : Nat, report.numbering.labels[cell]? = some 0 ↔ inside[cell]? = some false) ∧
      Numbering.NumberedFrom 1 report.numbering.count report.numbering.labels) ∧
    (∃ pictures, report.pictures = .ok pictures ∧ report.files = .ok (pictures ++ [
      ("labels.json", .document (.labels problem.shape report.numbering.labels)),
      ("meta.json", .document report.summary)])) ∧
    ∃ kept grown, ofProblem problem parts { settings with algorithm := .kruskal } = .ok kept ∧
      ofProblem problem parts { settings with algorithm := .prim } = .ok grown ∧
      kept.numbering = grown.numbering := by
  rcases ofProblem_eq_ok_iff.1 reported with ⟨labels, labelled, rfl⟩
  rcases Segmentation.exists_steps_of_labels_eq_ok (Prod.ext labelled rfl) with
      ⟨layout, valid, representatives, laid, steps, rfl, -⟩
  rcases Problem.parts_eq_ok made with ⟨weightShape, -, region, regionShape⟩
  have shape : layout.shape = problem.shape :=
    (List.cons.inj (steps.weightShape.symm.trans weightShape)).2
  have labelsShape :
      (Segmentation.labelsIn parts.region representatives).shape = problem.shape := by
    rw [Segmentation.shape_labelsIn, steps.shape, shape]
  refine ⟨⟨_, labelled, labelsShape, ?_, ?_⟩, ?_, ?_, ?_, numbering_kruskal_eq_prim laid⟩
  · exact Numbering.size_labels_ofLabels
  · exact fun u v uInside vInside => Numbering.labels_ofLabels_eq_iff uInside vInside
  · intro isNone
    have free : parts.region = none := Option.map_eq_none_iff.1 (region.trans isNone)
    rw [free]
    exact Numbering.numberedFrom_ofLabels false _
  · intro inside isSome
    rcases Option.map_eq_some_iff.1 (region.trans isSome) with ⟨mask, isMask, rfl⟩
    rw [isMask]
    refine ⟨fun cell => ?_, Numbering.numberedFrom_ofLabels true _⟩
    apply (Numbering.labels_ofLabels_eq_zero_iff cell).trans
    exact Segmentation.labelsIn_eq_zero_iff_of_shape
      ((regionShape mask isMask).trans (steps.shape.trans shape).symm) cell
  · apply files_eq_ok
    rw [Numbering.size_labels_ofLabels, ← Tensor.size, Tensor.size_eq_volume, labelsShape]

/-- Five cells in a row, with a region without the middle one. -/
theorem labels_canonical_row :
    ∃ (problem : Problem) (parts : Problem.Parts) (report kept grown : SegmentReport),
      problem.shape = [5] ∧ problem.region = some #[true, true, false, true, true] ∧
      problem.parts = .ok parts ∧ ofProblem problem parts Settings.standard = .ok report ∧
      report.numbering.labels[2]? = some 0 ∧ report.numbering.labels[3]? ≠ some 0 ∧
      Numbering.NumberedFrom 1 report.numbering.count report.numbering.labels ∧
      ofProblem problem parts { Settings.standard with algorithm := .kruskal } = .ok kept ∧
      ofProblem problem parts { Settings.standard with algorithm := .prim } = .ok grown ∧
      kept.numbering = grown.numbering := by
  let region : Array Bool := #[true, true, false, true, true]
  let problem : Problem :=
    ⟨"row", [5], [[1], [-3]], 1, Array.replicate 10 .one, some region⟩
  let parts : Problem.Parts :=
    ⟨⟨[[1], [-3]], 1, 1, by decide, by decide, by decide⟩,
      ⟨[2, 5], Array.replicate 10 .one, rfl⟩, some ⟨[5], region, rfl⟩⟩
  have made : problem.parts = .ok parts := rfl
  have laid : Segmentation.gridLayout parts.weights parts.stencil Settings.standard parts.region =
    .ok ⟨[5], by decide⟩ := rfl
  rcases Segmentation.exists_steps laid (Generator.ofSeed 0) with ⟨_, _, steps⟩
  have reported := (@ofProblem_eq_ok_iff problem _ _ _).2
    ⟨_, congrArg Prod.fst steps.labelled, rfl⟩
  rcases labels_canonical problem parts Settings.standard _ made reported with
      ⟨-, -, regional, -, kept, grown, ofKept, ofGrown, same⟩
  rcases regional region rfl with ⟨zero, numbered⟩
  exact ⟨problem, parts, _, kept, grown, rfl, rfl, made, reported, (zero 2).2 rfl,
    fun isZero => absurd ((zero 3).1 isZero) (by decide), numbered, ofKept, ofGrown, same⟩

end Tool.SegmentReport

end Watershed
