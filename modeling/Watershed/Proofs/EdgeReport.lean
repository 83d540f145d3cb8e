import Watershed.Proofs.Segmentation
import Watershed.Tool.Report

/-!
# Whether a report on valid edges agrees with itself

A report on the valid edges of a problem counts them channel by channel, tells how many there are,
and lists the first ones in order of priority. The counts leave out the edges that touch a cell
outside of the region. The number and the list come from a ranking that knows of no region. So the
parts of a report fit together if and only if no valid edge of the whole grid has an end outside of
the region. Without a region they always do.
-/

namespace Watershed

/-- The ranking for a report is made if the mask of the whole grid is. -/
theorem Segmentation.ranking_of_masked {γ : Type} [RandomSource γ] {weights : Tensor Binary32}
    {stencil : Stencil} {settings : Settings} {layout : Layout} {valid : Tensor Bool}
    {generator after : γ}
    (shaped : stencil.gridShape weights.shape = .ok layout.shape)
    (masked : EdgeMask.compute weights.shape stencil settings.thinning none generator =
      (.ok valid, after))
    (validShape : valid.shape = stencil.edgeShape layout.shape) :
    ranking weights stencil settings.thinning settings.invertRepulsive settings.bias generator =
      (.ok ⟨valid.data, Ranking.ranked (scaled weights stencil settings) valid ++
          Ranking.dropped (scaled weights stencil settings) valid,
        (Ranking.ranked (scaled weights stencil settings) valid).length⟩, after) := by
  have weightShape := (Stencil.gridShape_eq_ok shaped).1
  have scaledShape : (scaled weights stencil settings).shape = valid.shape :=
    weightShape.trans validShape.symm
  apply (Sampled.run_bind (Sampled.run_lift shaped _)).trans
  apply (Sampled.run_bind masked).trans
  apply (Sampled.run_bind (Sampled.run_lift (transform_eq_ok weightShape) _)).trans
  exact Sampled.run_lift (Ranking.ofWeights_eq_ok scaledShape) _

namespace Tool.EdgeReport

/-- The priorities of the edges, from their weights on one scale. -/
def priorities (parts : Problem.Parts) (settings : Settings) : Array Nat :=
  (Segmentation.scaled parts.weights parts.stencil settings).data.map Binary32.priority

/-- The first edges of a report are the first marked ones in the order of their ranks. -/
def Lists (report : EdgeReport) (priorities : Array Nat) (marked : Tensor Bool) : Prop :=
  ∃ order : List Nat, order.Pairwise (Ranking.Outranks priorities) ∧
    (∀ edge, edge ∈ order ↔ marked.data[edge]? = some true) ∧
    report.topEdges = order.take (min listed report.validCount)

/--
The number of valid edges is the sum over the channels, and the first edges are taken from those
that are counted in the channels.
-/
structure SelfConsistent (report : EdgeReport) (priorities : Array Nat) (counted : Tensor Bool) :
    Prop where
  sum : report.validCount = (report.channels.map (·.valid)).sum
  lists : report.Lists priorities counted

/-- A report from the mask under which it counts, and from the mask of the whole grid. -/
def ofMasks (problem : Problem) (parts : Problem.Parts) (settings : Settings)
    (counted whole : Tensor Bool) : EdgeReport :=
  let ranked := Ranking.ranked (Segmentation.scaled parts.weights parts.stencil settings) whole
  ⟨problem, settings,
    parts.stencil.offsets.zipIdx.map fun (offset, channel) =>
      channelCount parts.stencil counted offset channel,
    ranked.length, ranked.take listed⟩

/-- The two masks behind a report: valid edges inside of the region, and those of the whole grid. -/
structure Masks (parts : Problem.Parts) (settings : Settings) (layout : Layout)
    (counted whole : Tensor Bool) : Prop where
  shaped : parts.stencil.gridShape parts.weights.shape = .ok layout.shape
  ofRegion : (EdgeMask.compute parts.weights.shape parts.stencil settings.thinning
    (parts.region.map Segmentation.outside) (Generator.ofSeed settings.seed)).1 = .ok counted
  ofGrid : (EdgeMask.compute parts.weights.shape parts.stencil settings.thinning none
    (Generator.ofSeed settings.seed)).1 = .ok whole
  describesRegion : EdgeMask.Describes parts.stencil layout (parts.region.map Segmentation.outside)
    (EdgeMask.keeps parts.stencil layout settings.thinning (Generator.ofSeed settings.seed)) counted
  describesGrid : EdgeMask.Describes parts.stencil layout none
    (EdgeMask.keeps parts.stencil layout settings.thinning (Generator.ofSeed settings.seed)) whole

variable {problem : Problem} {parts : Problem.Parts} {settings : Settings} {report : EdgeReport}
  {layout : Layout} {counted whole : Tensor Bool}

/-- A report needs the mask of the region; with it there is the other mask, and the report. -/
theorem exists_masks (laid : Segmentation.gridLayout parts.weights parts.stencil settings
      parts.region = .ok layout) (problem : Problem) :
    ∃ counted whole, Masks parts settings layout counted whole ∧
      ofProblem problem parts settings = .ok (ofMasks problem parts settings counted whole) := by
  rcases EdgeMask.gridLayout_eq_ok laid with ⟨shaped, placed, thinned, -⟩
  -- the request for the mask of the whole grid has one check less to pass
  have free : EdgeMask.gridLayout parts.weights.shape parts.stencil settings.thinning none =
      .ok layout := EdgeMask.gridLayout_eq shaped placed thinned nofun
  have counts := parts.weights.volume?_eq_some
  rcases EdgeMask.compute_eq_ok laid counts (Generator.ofSeed settings.seed) with
      ⟨counted, maskedRegion, describesRegion⟩
  rcases EdgeMask.compute_eq_ok free counts (Generator.ofSeed settings.seed) with
      ⟨whole, maskedGrid, describesGrid⟩
  have ofRegion := congrArg Prod.fst maskedRegion
  have ranked := congrArg Prod.fst
    (Segmentation.ranking_of_masked shaped maskedGrid describesGrid.shape)
  refine ⟨counted, whole, ⟨shaped, ofRegion, congrArg Prod.fst maskedGrid, describesRegion,
    describesGrid⟩, ?_⟩
  apply Error.bind_eq_ok_iff.2 ⟨counted, Error.mapError_eq_ok_iff.2 ofRegion, _⟩
  apply Error.bind_eq_ok_iff.2 ⟨_, Error.mapError_eq_ok_iff.2 ranked, _⟩
  rw [Ranking.validOrder, List.take_left]
  rfl

theorem exists_masks_of_ofProblem_eq_ok (reported : ofProblem problem parts settings = .ok report) :
    ∃ layout counted whole, Masks parts settings layout counted whole ∧
      report = ofMasks problem parts settings counted whole := by
  rcases Error.bind_eq_ok_iff.1 reported with ⟨valid, masked, -⟩
  have computed := Error.mapError_eq_ok_iff.1 masked
  rcases EdgeMask.describes_of_compute_eq_ok (Prod.ext computed rfl) with ⟨layout, laid, -, -⟩
  rcases exists_masks laid problem with ⟨counted, whole, masks, again⟩
  exact ⟨layout, counted, whole, masks, Except.ok.inj (reported.symm.trans again)⟩

namespace Masks

theorem sizes (masks : Masks parts settings layout counted whole) :
    (Segmentation.scaled parts.weights parts.stencil settings).size = counted.size ∧
      (Segmentation.scaled parts.weights parts.stencil settings).size = whole.size := by
  have weightShape := (Stencil.gridShape_eq_ok masks.shaped).1
  simp only [Tensor.size_eq_volume, masks.describesRegion.shape, masks.describesGrid.shape,
    ← weightShape]
  exact ⟨rfl, rfl⟩

/-- An edge that is counted in its channel is valid on the whole grid. -/
theorem valid_of_counted (masks : Masks parts settings layout counted whole) {edge : Nat}
    (isCounted : counted.data[edge]? = some true) : whole.data[edge]? = some true :=
  masks.describesRegion.valid_of_included masks.describesGrid (fun _ _ _ => nofun) isCounted

/-- All valid edges are counted if and only if all of their ends lie in the region. -/
theorem all_counted_iff (masks : Masks parts settings layout counted whole) :
    (∀ edge : Nat, whole.data[edge]? = some true → counted.data[edge]? = some true) ↔
      ∀ channel cell other, EdgeMask.Leads parts.stencil layout whole channel cell other →
        Segmentation.InRegion parts.region cell ∧ Segmentation.InRegion parts.region other := by
  constructor
  · rintro all channel cell other ⟨isValid, leads⟩
    rcases masks.describesRegion.included ⟨all _ isValid, leads⟩ with ⟨-, -, included⟩
    rwa [Segmentation.included_outside_iff, Segmentation.included_outside_iff] at included
  · intro within edge isValid
    rcases masks.describesGrid.exists_leads isValid with ⟨channel, cell, other, rfl, leads⟩
    have included := within channel cell other leads
    rw [← Segmentation.included_outside_iff, ← Segmentation.included_outside_iff] at included
    rcases leads with ⟨isValid, offset, known, shifted⟩
    rcases (masks.describesGrid.valid_iff channel offset known cell cell.isLt).1 isValid with
        ⟨keeps, -⟩
    exact (masks.describesRegion.valid_iff channel offset known cell cell.isLt).2
      ⟨keeps, other, shifted, included⟩

/-- The channels of a report count the marks of one mask, each of them once. -/
theorem sum_channels (masks : Masks parts settings layout counted whole) :
    ((ofMasks problem parts settings counted whole).channels.map (·.valid)).sum =
      counted.data.count true := by
  rw [← Tensor.sum_count_channel? masks.describesRegion.shape, Stencil.channelCount,
    List.range_eq_range', ← List.zipIdx_map_snd, ofMasks, List.map_map, List.map_map]
  rfl

theorem validCount_eq (masks : Masks parts settings layout counted whole) :
    (ofMasks problem parts settings counted whole).validCount = whole.data.count true :=
  Ranking.length_ranked masks.sizes.2

theorem lists_whole (masks : Masks parts settings layout counted whole) :
    (ofMasks problem parts settings counted whole).Lists (priorities parts settings) whole :=
  ⟨_, Ranking.pairwise_ranked, fun _ => Ranking.mem_ranked_of_size masks.sizes.2,
    List.take_eq_take_iff.2 (by simp [ofMasks])⟩

/-- The two masks have equally many marks if and only if every valid edge is counted. -/
theorem count_eq_iff (masks : Masks parts settings layout counted whole) :
    whole.data.count true = counted.data.count true ↔
      ∀ edge : Nat, whole.data[edge]? = some true → counted.data[edge]? = some true := by
  rcases masks.sizes with ⟨countedSize, wholeSize⟩
  have memCounted := @Ranking.mem_ranked_of_size _ _ countedSize
  have memWhole := @Ranking.mem_ranked_of_size _ _ wholeSize
  rw [← Ranking.length_ranked countedSize, ← Ranking.length_ranked wholeSize]
  constructor
  · intro counts edge isValid
    have subset := fun edge member =>
      memWhole.2 (masks.valid_of_counted ((@memCounted edge).1 member))
    -- a list without repetitions inside of another one of the same length has the same members
    have same := (Ranking.nodup_ranked.subperm subset).perm_of_length_le (Nat.le_of_eq counts)
    exact memCounted.1 (same.mem_iff.2 (memWhole.2 isValid))
  · intro all
    apply List.Perm.length_eq
    rw [List.perm_ext_iff_of_nodup Ranking.nodup_ranked Ranking.nodup_ranked]
    exact fun edge => ⟨fun member => memCounted.2 (all edge (memWhole.1 member)),
      fun member => memWhole.2 (masks.valid_of_counted (memCounted.1 member))⟩

end Masks

/--
A report counts the edges that are valid inside of the region, channel by channel. The number of
valid edges and the first ones in order of priority are those of the whole grid. So a report agrees
with itself if and only if both ends of every valid edge of the whole grid lie in the region.
-/
theorem selfConsistent_iff (problem : Problem) (parts : Problem.Parts) (settings : Settings)
    (report : EdgeReport) (reported : ofProblem problem parts settings = .ok report) :
    ∃ (layout : Layout) (counted whole : Tensor Bool),
      parts.weights.shape = parts.stencil.edgeShape layout.shape ∧
      (EdgeMask.compute parts.weights.shape parts.stencil settings.thinning
        (parts.region.map Segmentation.outside) (Generator.ofSeed settings.seed)).1 =
          .ok counted ∧
      (EdgeMask.compute parts.weights.shape parts.stencil settings.thinning none
        (Generator.ofSeed settings.seed)).1 = .ok whole ∧
      (report.channels.map (·.valid)).sum = counted.data.count true ∧
      report.validCount = whole.data.count true ∧
      report.Lists (priorities parts settings) whole ∧
      (report.SelfConsistent (priorities parts settings) counted ↔
        ∀ channel cell other, EdgeMask.Leads parts.stencil layout whole channel cell other →
          Segmentation.InRegion parts.region cell ∧
            Segmentation.InRegion parts.region other) := by
  rcases exists_masks_of_ofProblem_eq_ok reported with ⟨layout, counted, whole, masks, rfl⟩
  refine ⟨layout, counted, whole, (Stencil.gridShape_eq_ok masks.shaped).1, masks.ofRegion,
    masks.ofGrid, masks.sum_channels, masks.validCount_eq, masks.lists_whole, ?_⟩
  rw [← masks.all_counted_iff]
  constructor
  · intro consistent
    have counts := consistent.sum
    rw [masks.sum_channels, masks.validCount_eq] at counts
    exact masks.count_eq_iff.1 counts
  · intro all
    rcases @Masks.lists_whole problem _ _ _ _ _ masks with ⟨order, sorted, members, taken⟩
    have same := fun edge => Iff.intro (all edge) masks.valid_of_counted
    refine ⟨?_, order, sorted, fun edge => (members edge).trans (same edge), taken⟩
    rw [masks.sum_channels, masks.validCount_eq, masks.count_eq_iff.2 all]

/-- The marks of a mask that is computed are those that the computation gives. -/
theorem data_eq_of_eq_ok {outcome : Except Error (Tensor Bool)} {mask : Tensor Bool}
    {marks : Array Bool} (computed : outcome = .ok mask)
    (known : outcome.toOption.map (·.data) = some marks) : mask.data = marks := by
  subst computed
  exact Option.some.inj known

/--
Three cells in a row: the report agrees with itself without a region, and with a region from which
the middle cell is missing, if the only edge leads past this cell.
-/
theorem selfConsistent_line :
    (∃ (problem : Problem) (parts : Problem.Parts) (counted : Tensor Bool) (report : EdgeReport),
      problem.shape = [3] ∧ problem.region = none ∧ problem.parts = .ok parts ∧
      ofProblem problem parts Settings.standard = .ok report ∧
      (EdgeMask.compute parts.weights.shape parts.stencil none none (Generator.ofSeed 0)).1 =
        .ok counted ∧
      report.SelfConsistent (priorities parts Settings.standard) counted) ∧
    ∃ (problem : Problem) (parts : Problem.Parts) (counted : Tensor Bool) (report : EdgeReport),
      problem.shape = [3] ∧ problem.region = some #[true, false, true] ∧
      problem.parts = .ok parts ∧ ofProblem problem parts Settings.standard = .ok report ∧
      (EdgeMask.compute parts.weights.shape parts.stencil none
        (parts.region.map Segmentation.outside) (Generator.ofSeed 0)).1 = .ok counted ∧
      report.validCount = 1 ∧
      report.SelfConsistent (priorities parts Settings.standard) counted := by
  constructor
  · let problem : Problem := ⟨"line", [3], [[1]], 1, #[.one, .one, .one], none⟩
    let parts : Problem.Parts :=
      ⟨⟨[[1]], 1, 1, by decide, by decide, by decide⟩, ⟨[1, 3], #[.one, .one, .one], rfl⟩, none⟩
    have laid : Segmentation.gridLayout parts.weights parts.stencil Settings.standard
      parts.region = .ok ⟨[3], by decide⟩ := rfl
    rcases exists_masks laid problem with ⟨_, _, -, reported⟩
    rcases selfConsistent_iff problem parts Settings.standard _ reported with
        ⟨_, counted, _, -, computed, -, -, -, -, consistent⟩
    exact ⟨problem, parts, counted, _, rfl, rfl, rfl, reported, computed,
      consistent.2 fun _ _ _ _ => ⟨nofun, nofun⟩⟩
  · let region : Array Bool := #[true, false, true]
    let problem : Problem := ⟨"line", [3], [[2]], 1, #[.one, .one, .one], some region⟩
    let parts : Problem.Parts :=
      ⟨⟨[[2]], 1, 1, by decide, by decide, by decide⟩, ⟨[1, 3], #[.one, .one, .one], rfl⟩,
        some ⟨[3], region, rfl⟩⟩
    have laid : Segmentation.gridLayout parts.weights parts.stencil Settings.standard
      parts.region = .ok ⟨[3], by decide⟩ := rfl
    rcases exists_masks laid problem with ⟨_, _, -, reported⟩
    rcases selfConsistent_iff problem parts Settings.standard _ reported with
        ⟨⟨gridShape, _⟩, counted, whole, shape, computed, ofGrid, -, validCount, -, consistent⟩
    obtain rfl : gridShape = [3] := (List.cons.inj shape).2.symm
    have marks : whole.data = #[true, false, false] := data_eq_of_eq_ok ofGrid (by decide +kernel)
    rw [marks] at validCount
    refine ⟨problem, parts, counted, _, rfl, rfl, rfl, reported, computed, validCount,
      consistent.2 ?_⟩
    rintro channel cell other ⟨isValid, offset, known, shifted⟩
    -- the one valid edge leads from the first cell to the last
    have first : channel * 3 + cell = 0 := by
      rw [marks] at isValid
      rcases Array.getElem?_eq_some_iff.1 isValid with ⟨below, isValid⟩
      grind
    obtain ⟨rfl, rfl⟩ : channel = 0 ∧ cell = 0 := by omega
    obtain rfl : [2] = offset := Option.some.inj known
    obtain rfl : 2 = other := Option.some.inj shifted
    constructor <;> rintro mask ⟨⟩ <;> rfl

/--
The same cells with a region that ends after the second one: one edge is counted, the number of
valid edges is two, and the second edge is listed although it is not counted.
-/
theorem not_selfConsistent_cut_line :
    ∃ (problem : Problem) (parts : Problem.Parts) (counted : Tensor Bool) (report : EdgeReport),
      problem.shape = [3] ∧ problem.region = some #[true, true, false] ∧
      problem.parts = .ok parts ∧ ofProblem problem parts Settings.standard = .ok report ∧
      (EdgeMask.compute parts.weights.shape parts.stencil none
        (parts.region.map Segmentation.outside) (Generator.ofSeed 0)).1 = .ok counted ∧
      (report.channels.map (·.valid)).sum = 1 ∧ report.validCount = 2 ∧
      1 ∈ report.topEdges ∧ counted.data[1]? = some false ∧
      ¬ report.SelfConsistent (priorities parts Settings.standard) counted := by
  let region : Array Bool := #[true, true, false]
  let problem : Problem := ⟨"line", [3], [[1]], 1, #[.one, .one, .one], some region⟩
  let parts : Problem.Parts :=
    ⟨⟨[[1]], 1, 1, by decide, by decide, by decide⟩, ⟨[1, 3], #[.one, .one, .one], rfl⟩,
      some ⟨[3], region, rfl⟩⟩
  have laid : Segmentation.gridLayout parts.weights parts.stencil Settings.standard parts.region =
    .ok ⟨[3], by decide⟩ := rfl
  rcases exists_masks laid problem with ⟨counted, whole, masks, reported⟩
  have countedMarks : counted.data = #[true, false, false] :=
    data_eq_of_eq_ok masks.ofRegion (by decide +kernel)
  have wholeMarks : whole.data = #[true, true, false] :=
    data_eq_of_eq_ok masks.ofGrid (by decide +kernel)
  have sum := @Masks.sum_channels problem _ _ _ _ _ masks
  have validCount := @Masks.validCount_eq problem _ _ _ _ _ masks
  rw [countedMarks] at sum
  rw [wholeMarks] at validCount
  refine ⟨problem, parts, counted, _, rfl, rfl, rfl, reported, masks.ofRegion, sum, validCount, ?_,
    by simp [countedMarks], fun consistent => ?_⟩
  · have all : (ofMasks problem parts Settings.standard counted whole).topEdges =
        Ranking.ranked (Segmentation.scaled parts.weights parts.stencil Settings.standard) whole :=
      List.take_of_length_le (validCount.trans_le (by decide))
    rw [all, Ranking.mem_ranked_of_size masks.sizes.2, wholeMarks]
    rfl
  · have equal := consistent.sum
    rw [sum, validCount] at equal
    exact absurd equal (by decide)

end Tool.EdgeReport

end Watershed
