import Watershed.Proofs.Partition
import Watershed.Proofs.SignedGraph

/-!
# Partitions that realize a set of edges

A partition realizes a set of edges of a signed graph when its classes are the classes of linked
nodes and its exclusions are those that the repulsive edges of the set ask for. The lemmas below say
what has to be done to the partition when one more edge enters the set; greedy and divisive
clustering differ only in the edges that they let in.
-/

namespace Watershed.Partition

variable {n : Nat}

/-- The pairs of ends of the repulsive edges of a set. -/
def separatedPairs (graph : SignedGraph (Fin n)) (edges : Set Nat) : Set (Fin n × Fin n) :=
  {pair | ∃ edge ∈ edges, graph.repulsive edge = true ∧ graph.ends? edge = some pair}

/--
The classes of a partition are those of linked nodes, and its exclusions are those between them.
-/
structure Realizes (partition : Partition n) (graph : SignedGraph (Fin n)) (edges : Set Nat) :
    Prop where
  linked : ∀ a b, partition.root a = partition.root b ↔ graph.Linked edges a b
  records : partition.Records (separatedPairs graph edges)

variable {partition : Partition n} {graph : SignedGraph (Fin n)} {edges : Set Nat}
  {edge : Nat} {a b : Fin n}

theorem separatedPairs_insert_of_attractive (kind : graph.repulsive edge = false) :
    separatedPairs graph (insert edge edges) = separatedPairs graph edges := by
  ext pair
  simp only [separatedPairs, Set.mem_ofPred_eq, Set.mem_insert_iff]
  constructor
  · rintro ⟨other, rfl | member, otherKind, ends⟩
    · exact absurd (kind.symm.trans otherKind) (by decide)
    · exact ⟨other, member, otherKind, ends⟩
  · rintro ⟨other, member, otherKind, ends⟩
    exact ⟨other, .inr member, otherKind, ends⟩

theorem separatedPairs_insert_of_repulsive (kind : graph.repulsive edge = true)
    {pair : Fin n × Fin n} (ends : graph.ends? edge = some pair) :
    separatedPairs graph (insert edge edges) = insert pair (separatedPairs graph edges) := by
  ext other
  simp only [separatedPairs, Set.mem_ofPred_eq, Set.mem_insert_iff]
  constructor
  · rintro ⟨number, rfl | member, numberKind, numberEnds⟩
    · exact .inl (Option.some.inj (numberEnds.symm.trans ends))
    · exact .inr ⟨number, member, numberKind, numberEnds⟩
  · rintro (rfl | ⟨number, member, numberKind, numberEnds⟩)
    · exact ⟨edge, .inl rfl, kind, ends⟩
    · exact ⟨number, .inr member, numberKind, numberEnds⟩

namespace Realizes

theorem discrete : (Partition.discrete n).Realizes graph ∅ where
  linked := by
    intro a b
    rw [root_discrete, root_discrete]
    constructor
    · rintro rfl
      exact .refl a
    · intro linked
      apply SignedGraph.Linked.induction (a = ·) linked rfl
      intro _ _ _ _ _ member
      exact absurd member (Set.notMem_empty _)
  records := by
    have none : separatedPairs graph ∅ = ∅ := by
      ext pair
      simp [separatedPairs]
    rw [none]
    exact Records.discrete

theorem congr {other : Partition n} (realizes : partition.Realizes graph edges)
    (roots : ∀ x, other.root x = partition.root x)
    (exclusions : other.exclusions = partition.exclusions) : other.Realizes graph edges where
  linked a b := by
    rw [roots, roots, realizes.linked]
  records := realizes.records.congr roots exclusions

theorem located (realizes : partition.Realizes graph edges) :
    (partition.located a b).Realizes graph edges :=
  realizes.congr (root_located partition a b) (exclusions_located partition a b)

/-- The classes of two unlinked nodes exclude each other if and only if the nodes are opposed. -/
theorem excludes_iff (realizes : partition.Realizes graph edges)
    (unlinked : ¬ graph.Linked edges a b) :
    partition.excludes (partition.root a) (partition.root b) = true ↔ graph.Opposed edges a b := by
  have different : partition.root a ≠ partition.root b := fun same =>
    unlinked ((realizes.linked a b).1 same)
  rw [realizes.records.excludes_iff, SignedGraph.opposed_iff]
  constructor
  · rintro ⟨-, ⟨c, d⟩, ⟨edge, member, kind, ends⟩, ⟨atA, atB⟩ | ⟨atB, atA⟩⟩
    · exact ⟨edge, member, kind, c, d, .inl ends, (realizes.linked a c).1 atA.symm,
        (realizes.linked d b).1 atB⟩
    · exact ⟨edge, member, kind, d, c, .inr ends, (realizes.linked a d).1 atA.symm,
        (realizes.linked c b).1 atB⟩
  · rintro ⟨edge, member, kind, c, d, ends | ends, before, after⟩
    · exact ⟨different, (c, d), ⟨edge, member, kind, ends⟩,
        .inl ⟨((realizes.linked a c).2 before).symm, (realizes.linked d b).2 after⟩⟩
    · exact ⟨different, (d, c), ⟨edge, member, kind, ends⟩,
        .inr ⟨(realizes.linked d b).2 after, ((realizes.linked a c).2 before).symm⟩⟩

theorem insert_of_no_ends (realizes : partition.Realizes graph edges)
    (missing : graph.ends? edge = none) : partition.Realizes graph (insert edge edges) where
  linked a b := by
    rw [realizes.linked]
    constructor
    · intro linked
      exact linked.mono (Set.subset_insert _ _)
    · intro linked
      apply SignedGraph.Linked.induction (graph.Linked edges a) linked (.refl a)
      intro x y other _ before member kind joins
      rcases Set.mem_insert_iff.1 member with rfl | old
      · rcases joins with ends | ends <;> exact absurd (missing.symm.trans ends) (by simp)
      · exact .attract before old kind joins
  records := by
    have same : separatedPairs graph (insert edge edges) = separatedPairs graph edges := by
      ext pair
      simp only [separatedPairs, Set.mem_ofPred_eq, Set.mem_insert_iff]
      constructor
      · rintro ⟨other, rfl | member, kind, ends⟩
        · exact absurd (missing.symm.trans ends) (by simp)
        · exact ⟨other, member, kind, ends⟩
      · rintro ⟨other, member, kind, ends⟩
        exact ⟨other, .inr member, kind, ends⟩
    rw [same]
    exact realizes.records

theorem records_insert (kind : graph.repulsive edge = true) (joins : graph.Joins edge a b)
    (records : partition.Records (insert (a, b) (separatedPairs graph edges))) :
    partition.Records (separatedPairs graph (insert edge edges)) := by
  rcases joins with ends | ends
  · rw [separatedPairs_insert_of_repulsive kind ends]
    exact records
  · rw [separatedPairs_insert_of_repulsive kind ends]
    exact records.insert_swap

theorem insert_of_linked (realizes : partition.Realizes graph edges)
    (joins : graph.Joins edge a b) (linked : graph.Linked edges a b) :
    partition.Realizes graph (insert edge edges) := by
  have same : partition.root a = partition.root b := (realizes.linked a b).2 linked
  by_cases kind : graph.repulsive edge = true
  · refine ⟨fun x y => ?_, records_insert kind joins (realizes.records.insert_of_covered ?_)⟩
    · rw [SignedGraph.linked_insert_of_repulsive kind, realizes.linked]
    · rintro x y different (⟨rfl, rfl⟩ | ⟨rfl, rfl⟩)
      · exact absurd same different
      · exact absurd same.symm different
  · rw [Bool.not_eq_true] at kind
    refine ⟨fun x y => ?_, ?_⟩
    · rw [SignedGraph.linked_insert_of_attractive kind joins, realizes.linked]
      constructor
      · exact .inl
      · rintro (old | ⟨before, after⟩ | ⟨before, after⟩)
        · exact old
        · exact before.trans (linked.trans after)
        · exact before.trans (linked.symm.trans after)
    · rw [separatedPairs_insert_of_attractive kind]
      exact realizes.records

theorem insert_of_excludes (realizes : partition.Realizes graph edges)
    (kind : graph.repulsive edge = true) (joins : graph.Joins edge a b)
    (excludes : partition.excludes (partition.root a) (partition.root b) = true) :
    partition.Realizes graph (insert edge edges) := by
  refine ⟨fun x y => ?_, records_insert kind joins (realizes.records.insert_of_covered ?_)⟩
  · rw [SignedGraph.linked_insert_of_repulsive kind, realizes.linked]
  · have covered := ((realizes.records.excludes_iff _ _).1 excludes).2
    rintro x y - (⟨rfl, rfl⟩ | ⟨rfl, rfl⟩)
    · exact covered
    · rcases covered with ⟨pair, member, meets⟩
      exact ⟨pair, member, meets_comm.1 meets⟩

theorem separate (realizes : partition.Realizes graph edges)
    (kind : graph.repulsive edge = true) (joins : graph.Joins edge a b)
    (unlinked : ¬ graph.Linked edges a b) :
    (partition.separate (partition.root a) (partition.root b)).Realizes graph
      (insert edge edges) := by
  have different : partition.root a ≠ partition.root b := fun same =>
    unlinked ((realizes.linked a b).1 same)
  refine ⟨fun x y => ?_, records_insert kind joins (realizes.records.separate different)⟩
  rw [SignedGraph.linked_insert_of_repulsive kind, ← realizes.linked]
  rfl

theorem join (realizes : partition.Realizes graph edges)
    (kind : graph.repulsive edge = false) (joins : graph.Joins edge a b)
    (unlinked : ¬ graph.Linked edges a b) :
    (partition.join (partition.root a) (partition.root b)).Realizes graph
      (insert edge edges) := by
  have different : partition.root a ≠ partition.root b := fun same =>
    unlinked ((realizes.linked a b).1 same)
  have topA := partition.root_root a
  have topB := partition.root_root b
  refine ⟨fun x y => ?_, ?_⟩
  · rw [partition.root_join_eq_iff topA topB, SignedGraph.linked_insert_of_attractive kind joins,
      realizes.linked, realizes.linked, realizes.linked, realizes.linked, realizes.linked]
    have turn : ∀ {c d}, graph.Linked edges c d ↔ graph.Linked edges d c :=
      ⟨SignedGraph.Linked.symm, SignedGraph.Linked.symm⟩
    rw [turn (c := y) (d := b), turn (c := y) (d := a)]
  · rw [separatedPairs_insert_of_attractive kind]
    exact realizes.records.join topA topB different

/-- An edge joins two classes if it is attractive and its ends are neither linked nor opposed. -/
theorem addEdge_fst_eq_joined_iff (realizes : partition.Realizes graph edges) (a b : Fin n)
    (repulsive : Bool) : (partition.addEdge a b repulsive).1 = .joined ↔
      repulsive = false ∧ ¬ graph.Linked edges a b ∧ ¬ graph.Opposed edges a b := by
  rw [addEdge_eq, ← realizes.linked]
  by_cases same : partition.root a = partition.root b
  · simp [same]
  · have unlinked : ¬ graph.Linked edges a b := fun linked => same ((realizes.linked a b).2 linked)
    rw [← realizes.excludes_iff unlinked, if_neg same]
    cases partition.excludes (partition.root a) (partition.root b) <;> cases repulsive <;>
      simp [same]

/--
Taking an edge into account, greedily: what the partition realizes afterwards is the set with the
edge in it if the set stays consistent, and the old set otherwise.
-/
theorem addEdge (realizes : partition.Realizes graph edges) (consistent : graph.Consistent edges)
    (joins : graph.Joins edge a b) :
    (partition.addEdge a b (graph.repulsive edge)).2.Realizes graph (graph.retain edges edge) := by
  have located : (partition.located a b).Realizes graph edges := realizes.located
  rw [addEdge_eq]
  split
  · next same =>
    have linked : graph.Linked edges a b := (realizes.linked a b).1 same
    by_cases kind : graph.repulsive edge = true
    · rw [SignedGraph.retain_of_not_consistent]
      · exact located
      · rw [SignedGraph.consistent_insert_of_repulsive consistent kind joins]
        exact not_not_intro linked
    · rw [Bool.not_eq_true] at kind
      rw [SignedGraph.retain_of_consistent joins]
      · exact located.insert_of_linked joins linked
      · rw [SignedGraph.consistent_insert_of_attractive consistent kind joins]
        exact fun opposed => consistent.not_linked_of_opposed opposed linked
  · next different =>
    have unlinked : ¬ graph.Linked edges a b := fun linked =>
      different ((realizes.linked a b).2 linked)
    have opposed := realizes.excludes_iff unlinked
    by_cases kind : graph.repulsive edge = true
    · have stays : graph.Consistent (insert edge edges) :=
        (SignedGraph.consistent_insert_of_repulsive consistent kind joins).2 unlinked
      rw [SignedGraph.retain_of_consistent joins stays, kind]
      split
      · next excludes =>
        apply located.insert_of_excludes kind joins
        rw [root_located, root_located]
        exact excludes
      · simpa using located.separate kind joins unlinked
    · rw [Bool.not_eq_true] at kind
      -- between two classes an exclusion stands for an opposition of the ends
      have stays := SignedGraph.consistent_insert_of_attractive consistent kind joins
      split
      · next excludes =>
        rw [SignedGraph.retain_of_not_consistent]
        · exact located
        · rw [stays]
          exact not_not_intro (opposed.1 excludes)
      · next free =>
        rw [SignedGraph.retain_of_consistent joins (stays.2 fun facing => free (opposed.2 facing)),
          kind]
        simpa using located.join kind joins unlinked

end Realizes

end Watershed.Partition
