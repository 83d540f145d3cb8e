import Mathlib.Data.Fintype.Card
import Watershed.Clustering.Divisive
import Watershed.Proofs.EdgeIndex
import Watershed.Proofs.Forest
import Watershed.Proofs.Realization

/-!
# Divisive clustering computes the forest of its order

In the first pass the partition realizes all edges taken so far, since no attractive edge is turned
away; the marks are those of the forest, and the count is that of the classes. Because the count is
exact, the pass may end when it comes down to one: all nodes are linked then, and nothing more would
be marked. The second pass links exactly what the marked edges link.
-/

namespace Watershed.Divisive

variable {index : EdgeIndex} {valid : Array Bool}

/-- The number of classes of a partition. -/
def classCount {n : Nat} (partition : Partition n) : Nat :=
  (Finset.univ.image partition.root).card

theorem classCount_congr {n : Nat} {partition other : Partition n}
    (roots : ∀ x, other.root x = partition.root x) : classCount other = classCount partition := by
  rw [classCount, classCount, funext roots]

theorem classCount_discrete (n : Nat) : classCount (Partition.discrete n) = n := by
  have identity : (Partition.discrete n).root = id := funext Partition.root_discrete
  rw [classCount, identity, Finset.image_id, Finset.card_univ, Fintype.card_fin]

/-- Joining two classes leaves one class less. -/
theorem classCount_join {n : Nat} (partition : Partition n) {a b : Fin n}
    (topA : partition.root a = a) (topB : partition.root b = b) (different : a ≠ b) :
    classCount (partition.join a b) = classCount partition - 1 := by
  rcases partition.exclusions_join topA topB different with ⟨gone, kept, ends, -, moved⟩
  have apart : kept ≠ gone := by
    rcases ends with ⟨rfl, rfl⟩ | ⟨rfl, rfl⟩
    · exact different.symm
    · exact different
  have tops : partition.root gone = gone ∧ partition.root kept = kept := by
    rcases ends with ⟨rfl, rfl⟩ | ⟨rfl, rfl⟩
    · exact ⟨topA, topB⟩
    · exact ⟨topB, topA⟩
  have image : Finset.univ.image (partition.join a b).root =
      (Finset.univ.image partition.root).erase gone := by
    ext top
    simp only [Finset.mem_image, Finset.mem_univ, true_and, Finset.mem_erase, moved]
    constructor
    · rintro ⟨x, rfl⟩
      split
      · exact ⟨apart, kept, tops.2⟩
      · next stays => exact ⟨stays, x, rfl⟩
    · rintro ⟨stays, x, rfl⟩
      exact ⟨x, if_neg stays⟩
  rw [classCount, image, Finset.card_erase_of_mem]
  · rfl
  · exact Finset.mem_image.2 ⟨gone, Finset.mem_univ _, tops.1⟩

theorem root_eq_of_classCount_le_one {n : Nat} {partition : Partition n}
    (few : classCount partition ≤ 1) (a b : Fin n) : partition.root a = partition.root b :=
  Finset.card_le_one.1 few _ (Finset.mem_image_of_mem _ (Finset.mem_univ a)) _
    (Finset.mem_image_of_mem _ (Finset.mem_univ b))

/-- Taking an edge into account, in terms of the roots of its ends. -/
theorem Progress.addEdge_eq {n : Nat} (progress : Progress n) (edge : Nat) (a b : Fin n)
    (repulsive : Bool) : progress.addEdge edge a b repulsive =
      let located := progress.partition.located a b
      let rootA := progress.partition.root a
      let rootB := progress.partition.root b
      if rootA = rootB then ⟨located, progress.forest, progress.classes⟩
      else if repulsive then
        ⟨if progress.partition.excludes rootA rootB then located else located.separate rootA rootB,
          progress.forest, progress.classes⟩
      else
        ⟨located.join rootA rootB,
          if progress.partition.excludes rootA rootB then progress.forest
          else progress.forest.setIfInBounds edge true, progress.classes - 1⟩ := by
  have rootA : (progress.partition.find a).1 = progress.partition.root a :=
    progress.partition.find_fst a
  have rootB : ((progress.partition.find a).2.find b).1 = progress.partition.root b := by simp
  have excludes : ((progress.partition.find a).2.find b).2.excludes (progress.partition.root a)
      (progress.partition.root b) =
        progress.partition.excludes (progress.partition.root a) (progress.partition.root b) := rfl
  unfold addEdge Partition.located
  simp only [rootA, rootB, excludes]

/-- The state of the first pass after the edges of a list. -/
structure Divided (graph : SignedGraph (Fin index.nodes)) (progress : Progress index.nodes)
    (done : List Nat) : Prop where
  realizes : progress.partition.Realizes graph (SignedGraph.listed done)
  sized : progress.forest.size = index.attractiveCount
  marks : ∀ edge, progress.forest[edge]? = some true ↔ edge ∈ graph.forest done
  classes : progress.classes = classCount progress.partition

namespace Divided

variable {graph : SignedGraph (Fin index.nodes)} {progress : Progress index.nodes}
  {done : List Nat} {edge : Nat} {a b : Fin index.nodes}

theorem start (index : EdgeIndex) (graph : SignedGraph (Fin index.nodes)) :
    Divided graph (start index) [] where
  realizes := by
    have empty : SignedGraph.listed [] = ∅ := by
      ext edge
      simp [SignedGraph.listed]
    rw [empty]
    exact .discrete
  sized := Array.size_replicate
  marks edge := by
    rw [SignedGraph.forest_nil]
    simp [Divisive.start, Array.getElem?_replicate]
  classes := (classCount_discrete index.nodes).symm

theorem unmarked (divided : Divided graph progress done)
    (bare : ¬ graph.Plants (SignedGraph.listed done) edge) (other : Nat) :
    progress.forest[other]? = some true ↔ other ∈ graph.forest (done ++ [edge]) := by
  rw [SignedGraph.forest_append_singleton_of_not_plants bare]
  exact divided.marks other

theorem marked (divided : Divided graph progress done)
    (plants : graph.Plants (SignedGraph.listed done) edge) (inRange : edge < index.attractiveCount)
    (other : Nat) : (progress.forest.setIfInBounds edge true)[other]? = some true ↔
      other ∈ graph.forest (done ++ [edge]) := by
  rw [← divided.sized] at inRange
  rw [SignedGraph.forest_append_singleton_of_plants plants, Set.mem_insert_iff, ← divided.marks,
    Array.getElem?_setIfInBounds, if_pos inRange]
  by_cases same : edge = other
  · simp [same]
  · simp [same, Ne.symm same]

theorem classes_located (divided : Divided graph progress done) (a b : Fin index.nodes) :
    progress.classes = classCount (progress.partition.located a b) := by
  rw [classCount_congr (progress.partition.root_located a b)]
  exact divided.classes

theorem pass (divided : Divided graph progress done) (missing : graph.ends? edge = none) :
    Divided graph progress (done ++ [edge]) where
  realizes := by
    rw [SignedGraph.listed_append_singleton]
    exact divided.realizes.insert_of_no_ends missing
  sized := divided.sized
  marks := by
    apply divided.unmarked
    intro plants
    rcases plants.ends with ⟨a, b, ends⟩
    exact absurd (missing.symm.trans ends) (by simp)
  classes := divided.classes

/-- An attractive edge between two classes joins them, and is marked unless it is a cut. -/
theorem join (divided : Divided graph progress done) (ends : graph.ends? edge = some (a, b))
    (kind : graph.repulsive edge = false) (inRange : edge < index.attractiveCount)
    (different : progress.partition.root a ≠ progress.partition.root b) :
    Divided graph
      ⟨(progress.partition.located a b).join
          (progress.partition.root a) (progress.partition.root b),
        if progress.partition.excludes (progress.partition.root a) (progress.partition.root b) then
          progress.forest
        else progress.forest.setIfInBounds edge true, progress.classes - 1⟩ (done ++ [edge]) := by
  have unlinked : ¬ graph.Linked (SignedGraph.listed done) a b := fun linked =>
    different ((divided.realizes.linked a b).2 linked)
  have opposed := divided.realizes.excludes_iff unlinked
  have plants : graph.Plants (SignedGraph.listed done) edge ↔ _ :=
    SignedGraph.plants_iff_of_ends ends
  have joined : (progress.partition.located a b).Realizes graph (SignedGraph.listed done) :=
    divided.realizes.located
  refine ⟨?_, ?_, ?_, ?_⟩
  · rw [SignedGraph.listed_append_singleton]
    simpa using joined.join kind (.inl ends) unlinked
  · dsimp only
    split
    · exact divided.sized
    · exact Array.size_setIfInBounds.trans divided.sized
  · dsimp only
    split
    · next excludes =>
      apply divided.unmarked
      intro planted
      exact (plants.1 planted).2.2 (opposed.1 excludes)
    · next free =>
      apply divided.marked _ inRange
      exact plants.2 ⟨kind, unlinked, fun facing => free (opposed.2 facing)⟩
  · rw [divided.classes_located a b, classCount_join] <;> simp [different]

theorem addEdge (divided : Divided graph progress done) (ends : graph.ends? edge = some (a, b))
    (attractive : graph.repulsive edge = false → edge < index.attractiveCount) :
    Divided graph (progress.addEdge edge a b (graph.repulsive edge)) (done ++ [edge]) := by
  have joins : graph.Joins edge a b := .inl ends
  have located : (progress.partition.located a b).Realizes graph (SignedGraph.listed done) :=
    divided.realizes.located
  have plants : graph.Plants (SignedGraph.listed done) edge ↔ _ :=
    SignedGraph.plants_iff_of_ends ends
  have classes := divided.classes_located a b
  rw [Progress.addEdge_eq]
  dsimp only
  split
  · next same =>
    have linked := (divided.realizes.linked a b).1 same
    refine ⟨?_, divided.sized, ?_, classes⟩
    · rw [SignedGraph.listed_append_singleton]
      exact located.insert_of_linked joins linked
    · exact divided.unmarked fun planted => (plants.1 planted).2.1 linked
  · next different =>
    have unlinked : ¬ graph.Linked (SignedGraph.listed done) a b := fun linked =>
      different ((divided.realizes.linked a b).2 linked)
    split
    · next kind =>
      have bare : ¬ graph.Plants (SignedGraph.listed done) edge := fun planted =>
        absurd (planted.1.symm.trans kind) (by decide)
      refine ⟨?_, divided.sized, divided.unmarked bare, ?_⟩
      · rw [SignedGraph.listed_append_singleton]
        dsimp only
        split
        · next excludes =>
          apply located.insert_of_excludes kind joins
          rw [Partition.root_located, Partition.root_located]
          exact excludes
        · simpa using located.separate kind joins unlinked
      · dsimp only
        split
        · exact classes
        · exact classes
    · next kind =>
      rw [Bool.not_eq_true] at kind
      exact divided.join ends kind (attractive kind) different

end Divided

theorem step_eq {edge : Nat} (inRange : edge < valid.size) (progress : Progress index.nodes) :
    step index valid progress edge =
      .ok (((index.graph valid).ends? edge).elim progress fun ends =>
        progress.addEdge edge ends.1 ends.2 (index.isRepulsive edge)) := by
  simp only [step, EdgeIndex.graph, Array.getElem?_eq_getElem inRange]
  cases valid[edge] with
  | false => rfl
  | true => cases index.ends? edge <;> rfl

theorem step_divided {progress : Progress index.nodes} {done : List Nat} {edge : Nat}
    (divided : Divided (index.graph valid) progress done) (inRange : edge < valid.size) :
    ∃ after, step index valid progress edge = .ok after ∧
      Divided (index.graph valid) after (done ++ [edge]) := by
  refine ⟨_, step_eq inRange progress, ?_⟩
  cases ends : (index.graph valid).ends? edge with
  | none => exact divided.pass ends
  | some pair =>
      apply divided.addEdge ends
      intro attractive
      exact Nat.lt_of_not_le (of_decide_eq_false attractive)

/-- The first pass marks the forest of the whole order, even if it ends before the order does. -/
theorem run_marks {progress : Progress index.nodes} {done order : List Nat}
    (divided : Divided (index.graph valid) progress done)
    (inRange : ∀ edge ∈ order, edge < valid.size) :
    ∃ after, run index valid order progress = .ok after ∧
      after.forest.size = index.attractiveCount ∧
      ∀ edge, after.forest[edge]? = some true ↔
        edge ∈ (index.graph valid).forest (done ++ order) := by
  induction order generalizing progress done with
  | nil =>
      rw [List.append_nil]
      exact ⟨progress, rfl, divided.sized, divided.marks⟩
  | cons edge order ih =>
      by_cases few : progress.classes ≤ 1
      · -- the pass ends here, where everything is linked and no later edge can enter the forest
        refine ⟨progress, by rw [run, if_pos few], divided.sized, ?_⟩
        rw [SignedGraph.forest_append_of_linked]
        · exact divided.marks
        · intro a b
          rw [divided.classes] at few
          exact (divided.realizes.linked a b).1 (root_eq_of_classCount_le_one few a b)
      · rcases step_divided divided (inRange edge List.mem_cons_self) with
            ⟨middle, stepped, middleDivided⟩
        rcases ih middleDivided fun other member => inRange other
            (List.mem_cons_of_mem edge member) with ⟨after, ran, sized, marks⟩
        refine ⟨after, ?_, sized, by simpa using marks⟩
        rw [run, if_neg few, stepped]
        exact ran

/-- The marks of a forest are a mask of edges, and those are joined that the graph of it has. -/
theorem joinTree_eq {forest : Array Bool} {classes : DisjointSets index.nodes} {edge : Nat} :
    joinTree index forest classes edge = ((index.graph forest).ends? edge).elim classes
      fun ends => (classes.union ends.1 ends.2).2 := by
  simp only [joinTree, EdgeIndex.graph]
  cases forest[edge]? with
  | none => rfl
  | some marked =>
      cases marked with
      | false => rfl
      | true => cases index.ends? edge <;> rfl

/-- The marked edges of a list. -/
def markedIn (forest : Array Bool) (order : List Nat) : Set Nat :=
  {edge | edge ∈ order ∧ forest[edge]? = some true}

theorem markedIn_append_of_marked {forest : Array Bool} {order : List Nat} {edge : Nat}
    (marked : forest[edge]? = some true) :
    markedIn forest (order ++ [edge]) = insert edge (markedIn forest order) := by
  ext other
  simp only [markedIn, List.mem_append, List.mem_singleton, Set.mem_ofPred_eq, Set.mem_insert_iff]
  constructor
  · rintro ⟨old | rfl, isMarked⟩
    · exact .inr ⟨old, isMarked⟩
    · exact .inl rfl
  · rintro (rfl | ⟨old, isMarked⟩)
    · exact ⟨.inr rfl, marked⟩
    · exact ⟨.inl old, isMarked⟩

theorem markedIn_append_of_not_marked {forest : Array Bool} {order : List Nat} {edge : Nat}
    (unmarked : forest[edge]? ≠ some true) :
    markedIn forest (order ++ [edge]) = markedIn forest order := by
  ext other
  simp only [markedIn, List.mem_append, List.mem_singleton, Set.mem_ofPred_eq]
  constructor
  · rintro ⟨old | rfl, isMarked⟩
    · exact ⟨old, isMarked⟩
    · exact absurd isMarked unmarked
  · exact fun both => ⟨.inl both.1, both.2⟩

/-- Joining the ends of the marked edges of a list links what these edges link. -/
theorem root_foldl_joinTree {graph : SignedGraph (Fin index.nodes)} {forest : Array Bool}
    (attractive : ∀ edge, forest[edge]? = some true → graph.repulsive edge = false ∧
      ∃ ends, index.ends? edge = some ends ∧ graph.ends? edge = some ends)
    (order : List Nat) (u v : Fin index.nodes) :
    (order.foldl (joinTree index forest) (.discrete index.nodes)).root u =
        (order.foldl (joinTree index forest) (.discrete index.nodes)).root v ↔
      graph.Linked (markedIn forest order) u v := by
  induction order using List.reverseRecOn generalizing u v with
  | nil =>
      rw [List.foldl_nil, DisjointSets.root_discrete, DisjointSets.root_discrete]
      constructor
      · rintro rfl
        exact .refl u
      · intro linked
        exact linked.induction (u = ·) rfl fun _ _ _ _ _ member => absurd member.1 List.not_mem_nil
  | append_singleton order edge ih =>
      rw [List.foldl_append, List.foldl_cons, List.foldl_nil, joinTree_eq]
      by_cases marked : forest[edge]? = some true
      · rcases attractive edge marked with ⟨kind, ⟨a, b⟩, known, ends⟩
        rw [markedIn_append_of_marked marked,
          SignedGraph.linked_insert_of_attractive kind (.inl ends),
          EdgeIndex.ends?_graph_eq_some_iff.2 ⟨marked, known⟩]
        simp only [Option.elim_some]
        rw [DisjointSets.root_union_eq_iff, ih, ih, ih, ih, ih]
      · rw [markedIn_append_of_not_marked marked, EdgeIndex.ends?_graph_of_not_valid marked]
        exact ih u v

/-- The labels of a divisive clustering are those of the trees of the forest. -/
theorem cluster_eq_trees {stencil : Stencil} {gridShape : List Nat} {order : List Nat}
    (numbered : EdgeIndex.ofGrid stencil gridShape = .ok index)
    (sized : valid.size = index.count) (inRange : ∀ edge ∈ order, edge < index.count) :
    ∃ forest, cluster order valid stencil gridShape =
        .ok ((trees index forest).labels.1.map (·.val)) ∧
      forest.size = index.attractiveCount ∧
      ∀ edge, forest[edge]? = some true ↔ edge ∈ (index.graph valid).forest order := by
  rcases run_marks (Divided.start index (index.graph valid)) (sized ▸ inRange) with
      ⟨progress, ran, forestSize, marks⟩
  refine ⟨progress.forest, ?_, forestSize, marks⟩
  unfold cluster
  rw [numbered]
  simp only [EdgeIndex.checkCount, if_pos sized, bind, Except.bind, ran]
  rfl

/-- The labels of a divisive clustering are roots, equal exactly where the forest links. -/
theorem cluster_eq_ok {stencil : Stencil} {gridShape : List Nat} {order : List Nat}
    (numbered : EdgeIndex.ofGrid stencil gridShape = .ok index)
    (sized : valid.size = index.count) (inRange : ∀ edge ∈ order, edge < index.count) :
    ∃ sets : DisjointSets index.nodes,
      cluster order valid stencil gridShape = .ok (sets.labels.1.map (·.val)) ∧
      ∀ u v, sets.root u = sets.root v ↔
        (index.graph valid).Linked ((index.graph valid).forest order) u v := by
  rcases cluster_eq_trees numbered sized inRange with ⟨forest, clustered, -, marks⟩
  have attractive : ∀ edge, forest[edge]? = some true →
      (index.graph valid).repulsive edge = false ∧
        ∃ ends, index.ends? edge = some ends ∧ (index.graph valid).ends? edge = some ends := by
    intro edge marked
    rcases (marks edge).1 marked with ⟨_, _, -, kind, a, b, ends, -⟩
    exact ⟨kind, (a, b), (EdgeIndex.ends?_graph_eq_some_iff.1 ends).2, ends⟩
  have all : markedIn forest (List.range forest.size) = (index.graph valid).forest order := by
    ext edge
    rw [markedIn, Set.mem_ofPred_eq, marks, List.mem_range, and_iff_right_iff_imp, ← marks]
    intro marked
    exact (Array.getElem?_eq_some_iff.1 marked).1
  refine ⟨trees index forest, clustered, fun u v => ?_⟩
  rw [← all]
  exact root_foldl_joinTree attractive (List.range forest.size) u v

/--
Divisive clustering without its state. Two labels are equal where kept edges link the cells, and an
edge is kept if at one of its positions in the order it is attractive, the edges before it do not
link its ends, and no repulsive edge before it leads from the class of one end to that of the other.
That the first pass may end early, and what it does with cuts, has no part in this.
-/
theorem cluster_linked_iff (stencil : Stencil) (gridShape : List Nat) (index : EdgeIndex)
    (valid : Array Bool) (order : List Nat)
    (numbered : EdgeIndex.ofGrid stencil gridShape = .ok index)
    (sized : valid.size = index.count) (inRange : ∀ edge ∈ order, edge < index.count) :
    ∃ labels, cluster order valid stencil gridShape = .ok labels ∧ labels.size = index.nodes ∧
      (∀ x y : Fin index.nodes, labels[x.val]? = labels[y.val]? ↔
        (index.graph valid).Linked ((index.graph valid).forest order) x y) ∧
      ∀ edge, edge ∈ (index.graph valid).forest order ↔
        ∃ (position : Nat) (u v : Fin index.nodes), order[position]? = some edge ∧
          valid[edge]? = some true ∧ index.ends? edge = some (u, v) ∧
          index.isRepulsive edge = false ∧
          ¬ (index.graph valid).Linked (SignedGraph.listed (order.take position)) u v ∧
          ¬ ∃ other ∈ order.take position, index.isRepulsive other = true ∧
            ∃ c d, (index.graph valid).Joins other c d ∧
              (index.graph valid).Linked (SignedGraph.listed (order.take position)) u c ∧
              (index.graph valid).Linked (SignedGraph.listed (order.take position)) d v := by
  rcases cluster_eq_ok numbered sized inRange with ⟨sets, clustered, separate⟩
  refine ⟨_, clustered, sets.size_labels, fun x y => (sets.labels_eq_iff x y).trans (separate x y),
    fun edge => ?_⟩
  rw [SignedGraph.mem_forest_iff_getElem?]
  constructor
  · rintro ⟨position, found, kind, u, v, ends, unlinked, unopposed⟩
    rcases EdgeIndex.ends?_graph_eq_some_iff.1 ends with ⟨isValid, known⟩
    refine ⟨position, u, v, found, isValid, known, kind, unlinked, fun crossed => ?_⟩
    exact unopposed (SignedGraph.opposed_iff.2 crossed)
  · rintro ⟨position, u, v, found, isValid, known, kind, unlinked, uncrossed⟩
    have ends := EdgeIndex.ends?_graph_eq_some_iff.2 ⟨isValid, known⟩
    refine ⟨position, found, kind, u, v, ends, unlinked, fun opposed => ?_⟩
    exact uncrossed (SignedGraph.opposed_iff.1 opposed)

/--
Four cells in a row; the cut in the middle joins the last two classes, and the pass ends there.
-/
theorem cluster_linked_iff_row :
    ∃ stencil index, EdgeIndex.ofGrid stencil [4] = .ok index ∧
      #[true, true, true, false, true, true, false, false].size = index.count ∧
      (∀ edge ∈ [0, 4, 2, 1, 5], edge < index.count) ∧
      ∃ labels, cluster [0, 4, 2, 1, 5] #[true, true, true, false, true, true, false, false]
          stencil [4] = .ok labels ∧ labels = #[0, 0, 2, 2] ∧
        ∀ x y : Fin index.nodes, labels[x.val]? = labels[y.val]? ↔
          (index.graph #[true, true, true, false, true, true, false, false]).Linked
            ((index.graph #[true, true, true, false, true, true, false, false]).forest
              [0, 4, 2, 1, 5]) x y := by
  let stencil : Stencil := ⟨[[1], [2]], 1, 1, by decide, by decide, by decide⟩
  let index : EdgeIndex := ⟨4, #[1, 2], 4⟩
  have numbered : EdgeIndex.ofGrid stencil [4] = .ok index := rfl
  have sized : #[true, true, true, false, true, true, false, false].size = index.count := rfl
  have inRange : ∀ edge ∈ [0, 4, 2, 1, 5], edge < index.count := by decide
  rcases cluster_linked_iff stencil [4] index _ _ numbered sized inRange with
      ⟨labels, clustered, size, separate, -⟩
  refine ⟨stencil, index, numbered, sized, inRange, labels, clustered, ?_, separate⟩
  have computed : cluster [0, 4, 2, 1, 5] #[true, true, true, false, true, true, false, false]
      stencil [4] = .ok #[0, 0, 2, 2] := by decide +kernel
  exact Except.ok.inj (clustered.symm.trans computed)

end Watershed.Divisive
