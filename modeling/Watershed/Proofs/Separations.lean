import Watershed.Proofs.Partition

/-!
# No exclusion is lost, invented or left behind

Exclusions move each time that two classes are joined, and a join of classes that exclude each other
drops the exclusion between them. Over any history of calls the exclusions are nevertheless those
that can be read off the pairs separated so far: two roots exclude each other exactly when the two
nodes of some separated pair have come to lie in their two classes. The sets of both roots say so,
which is why it does not matter that the question is put to the smaller of them.
-/

namespace Watershed.Partition

/-- A call on a partition. -/
inductive Call (n : Nat) where
  | find (x : Fin n)
  | addEdge (a b : Fin n) (repulsive : Bool)
  | separate (a b : Fin n)
  | join (a b : Fin n)

namespace Call

variable {n : Nat}

/-- Classes are separated and joined by their roots; the other calls are free. -/
def Allowed (partition : Partition n) : Call n → Prop
  | separate a b => partition.classes.IsRoot a ∧ partition.classes.IsRoot b ∧ a ≠ b
  | join a b => partition.classes.IsRoot a ∧ partition.classes.IsRoot b ∧ a ≠ b
  | find _ => True
  | addEdge _ _ _ => True

instance (partition : Partition n) : DecidablePred (Allowed partition)
  | find _ => inferInstanceAs (Decidable True)
  | addEdge _ _ _ => inferInstanceAs (Decidable True)
  | separate a b | join a b =>
      inferInstanceAs (Decidable (partition.classes.IsRoot a ∧ partition.classes.IsRoot b ∧ a ≠ b))

/-- The partition that a call leaves behind. -/
def perform (partition : Partition n) : Call n → Partition n
  | find x => (partition.find x).2
  | addEdge a b repulsive => (partition.addEdge a b repulsive).2
  | separate a b => partition.separate a b
  | join a b => partition.join a b

/-- The pair of nodes that a call separates, if it separates any. -/
def separated (partition : Partition n) : Call n → Set (Fin n × Fin n)
  | addEdge a b repulsive =>
      {pair | (partition.addEdge a b repulsive).1 = .separated ∧ pair = (a, b)}
  | separate a b => {(a, b)}
  | find _ => ∅
  | join _ _ => ∅

end Call

variable {n : Nat}

/-- Allowed calls have led to a partition, and have separated the given pairs. -/
inductive Reached : Partition n → Set (Fin n × Fin n) → Prop where
  | start : Reached (discrete n) ∅
  | call {partition : Partition n} {pairs : Set (Fin n × Fin n)} (reached : Reached partition pairs)
      (call : Call n) (allowed : call.Allowed partition) :
      Reached (call.perform partition) (pairs ∪ call.separated partition)

variable {partition : Partition n} {pairs : Set (Fin n × Fin n)}

theorem Records.addEdge (records : partition.Records pairs) (a b : Fin n) (repulsive : Bool) :
    (partition.addEdge a b repulsive).2.Records
      (pairs ∪ Call.separated partition (.addEdge a b repulsive)) := by
  have located : (partition.located a b).Records pairs :=
    records.congr (root_located partition a b) (exclusions_located partition a b)
  simp only [Call.separated, addEdge_eq]
  split
  · simpa using located
  · next different =>
    split
    · simpa using located
    · split
      · simpa using located.separate (by simpa using different)
      · simpa using located.join (by simp) (by simp) different

/-- A call keeps the record of what was separated, and adds to it what it separates. -/
theorem Records.perform (records : partition.Records pairs) (call : Call n)
    (allowed : call.Allowed partition) :
    (call.perform partition).Records (pairs ∪ call.separated partition) := by
  cases call with
  | find x =>
      rw [Call.separated, Set.union_empty]
      exact records.congr (root_find partition x) rfl
  | addEdge a b repulsive => exact records.addEdge a b repulsive
  | separate a b =>
      rcases allowed with ⟨topA, topB, different⟩
      have rootA : partition.root a = a := DisjointSets.root_of_isRoot _ topA
      have rootB : partition.root b = b := DisjointSets.root_of_isRoot _ topB
      have separated := @Records.separate n partition pairs records a b (by rwa [rootA, rootB])
      rw [rootA, rootB] at separated
      rwa [Call.separated, Set.union_singleton]
  | join a b =>
      rcases allowed with ⟨topA, topB, different⟩
      rw [Call.separated, Set.union_empty]
      exact records.join (DisjointSets.root_of_isRoot _ topA) (DisjointSets.root_of_isRoot _ topB)
        different

theorem Reached.records (reached : Reached partition pairs) : partition.Records pairs := by
  induction reached with
  | start => exact Records.discrete
  | call _ call allowed ih => exact ih.perform call allowed

theorem Meets.roots {pair : Fin n × Fin n} {a b : Fin n} (meets : partition.Meets pair a b) :
    partition.classes.IsRoot a ∧ partition.classes.IsRoot b := by
  have top : ∀ x, partition.classes.IsRoot (partition.root x) := partition.classes.isRoot_root
  rcases meets with ⟨rfl, rfl⟩ | ⟨rfl, rfl⟩
  · exact ⟨top pair.1, top pair.2⟩
  · exact ⟨top pair.2, top pair.1⟩

/--
Over any history of calls, exclusions are mutual, no node excludes itself, and only roots exclude or
are excluded. Two different roots exclude each other if and only if the searches for the two nodes
of some separated pair find these two roots. So the answer does not depend on the order of the two,
whichever of their sets is smaller.
-/
theorem excludes_iff_separated (reached : Reached partition pairs) :
    (∀ a b, partition.exclusions.Lists a b → partition.exclusions.Lists b a) ∧
    (∀ a, ¬ partition.exclusions.Lists a a) ∧
    (∀ a b, partition.exclusions.Lists a b →
      partition.classes.IsRoot a ∧ partition.classes.IsRoot b) ∧
    (∀ a b, partition.classes.IsRoot a → partition.classes.IsRoot b → a ≠ b →
      (partition.excludes a b = true ↔ ∃ pair ∈ pairs,
        ({(partition.find pair.1).1, (partition.find pair.2).1} : Set (Fin n)) = {a, b})) ∧
    ∀ a b, partition.excludes a b = partition.excludes b a := by
  have records := reached.records
  have consistent := records.mutual_exclusions
  refine ⟨fun a b => consistent.symm, consistent.irrefl, fun a b listed => ?_,
    fun a b _ _ different => ?_, fun a b => ?_⟩
  · rcases (records a b).1 listed with ⟨-, pair, -, meets⟩
    exact meets.roots
  · rw [records.excludes_iff, and_iff_right different]
    simp only [find_fst, Set.pair_eq_pair_iff, Meets]
  · rw [Bool.eq_iff_iff, records.excludes_iff, records.excludes_iff]
    simp only [ne_comm, meets_comm]

/--
Four nodes, of which the first two are joined although they exclude each other. The exclusion of the
third node by the second one has moved to the first one, the root of both.
-/
theorem excludes_iff_separated_four :
    ∃ (partition : Partition 4) (pairs : Set (Fin 4 × Fin 4)), Reached partition pairs ∧
      pairs = {(1, 2), (0, 1)} ∧ partition.classes.IsRoot 0 ∧ partition.classes.IsRoot 2 ∧
      partition.excludes 0 2 = true ∧ partition.excludes 2 0 = true ∧
      ¬ partition.exclusions.Lists 1 2 := by
  have apart := Reached.start.call (.separate (0 : Fin 4) 1) (by decide)
  have opposed := apart.call (.addEdge 1 2 true) (by decide)
  have joined := opposed.call (.join 0 1) (by decide +kernel)
  have pairs : (∅ ∪ Call.separated (discrete 4) (.separate 0 1)) ∪
      Call.separated (Call.perform (discrete 4) (.separate 0 1)) (.addEdge 1 2 true) ∪ ∅ =
        {(1, 2), (0, 1)} := by
    have outcome :
        ((Call.perform (discrete 4) (.separate 0 1)).addEdge 1 2 true).1 = .separated := by
      decide +kernel
    simp [Call.separated, outcome]
  rcases excludes_iff_separated joined with ⟨-, -, onlyRoots, iffSeparated, swap⟩
  have excluded := (iffSeparated 0 2 (by decide +kernel) (by decide +kernel) (by decide)).2
    ⟨(1, 2), pairs ▸ Set.mem_insert (1, 2) {(0, 1)},
      congrArg₂ (fun x y => ({x, y} : Set (Fin 4))) (by decide +kernel) (by decide +kernel)⟩
  refine ⟨_, _, joined, pairs, by decide +kernel, by decide +kernel, excluded, ?_, ?_⟩
  · rw [swap, excluded]
  · intro listed
    exact absurd (onlyRoots 1 2 listed).1 (by decide +kernel)

end Watershed.Partition
