import Mathlib.Data.Set.Insert
import Watershed.Partition.Basic
import Watershed.Proofs.DisjointSets
import Watershed.Proofs.Exclusions

/-!
# What a partition under exclusion records

A partition is read through the root of each node. Its exclusions are determined by the pairs of
nodes that were separated so far: two different roots exclude each other exactly when some separated
pair lies in their two classes. `Partition.Records` states this for all pairs of nodes at once, so
that it also says that only roots are listed, and it survives every join, whichever of the two roots
remains and whether or not the two classes exclude each other.
-/

namespace Watershed.Partition

variable {n : Nat}

/-- The root of the class of a node. -/
def root (partition : Partition n) (x : Fin n) : Fin n :=
  partition.classes.root x

/-- Two nodes lie, in either order, in the classes of a pair. -/
def Meets (partition : Partition n) (pair : Fin n × Fin n) (a b : Fin n) : Prop :=
  (partition.root pair.1 = a ∧ partition.root pair.2 = b) ∨
    (partition.root pair.1 = b ∧ partition.root pair.2 = a)

/-- The exclusions are those between the classes of the given pairs. -/
def Records (partition : Partition n) (pairs : Set (Fin n × Fin n)) : Prop :=
  ∀ a b, partition.exclusions.Lists a b ↔ a ≠ b ∧ ∃ pair ∈ pairs, partition.Meets pair a b

@[simp]
theorem root_root (partition : Partition n) (x : Fin n) :
    partition.root (partition.root x) = partition.root x :=
  partition.classes.root_root x

@[simp]
theorem root_discrete (x : Fin n) : (discrete n).root x = x :=
  DisjointSets.root_discrete x

theorem meets_comm {partition : Partition n} {pair : Fin n × Fin n} {a b : Fin n} :
    partition.Meets pair a b ↔ partition.Meets pair b a :=
  or_comm

namespace Records

theorem discrete : (discrete n).Records ∅ := by
  intro a b
  simp [Partition.discrete]

variable {partition : Partition n} {pairs : Set (Fin n × Fin n)}

theorem mutual_exclusions (records : partition.Records pairs) : partition.exclusions.Mutual where
  symm := by
    intro a b listed
    rcases (records a b).1 listed with ⟨different, pair, member, meets⟩
    exact (records b a).2 ⟨different.symm, pair, member, meets_comm.1 meets⟩
  irrefl := by
    intro a listed
    exact ((records a a).1 listed).1 rfl

theorem excludes_iff (records : partition.Records pairs) (a b : Fin n) :
    partition.excludes a b = true ↔ a ≠ b ∧ ∃ pair ∈ pairs, partition.Meets pair a b := by
  rw [excludes, Exclusions.excludes_iff_lists records.mutual_exclusions]
  exact records a b

theorem congr {other : Partition n} (records : partition.Records pairs)
    (roots : ∀ x, other.root x = partition.root x)
    (exclusions : other.exclusions = partition.exclusions) : other.Records pairs := by
  intro a b
  rw [exclusions, records a b]
  simp only [Meets, roots]

/-- Separating the classes of two nodes adds the pair of the two to the record. -/
theorem separate (records : partition.Records pairs) {a b : Fin n}
    (different : partition.root a ≠ partition.root b) :
    (partition.separate (partition.root a) (partition.root b)).Records (insert (a, b) pairs) := by
  intro x y
  have listed : (partition.separate (partition.root a) (partition.root b)).exclusions.Lists x y ↔
      partition.exclusions.Lists x y ∨ (x = partition.root a ∧ y = partition.root b) ∨
        (x = partition.root b ∧ y = partition.root a) :=
    Exclusions.lists_insert_iff ..
  have roots : ∀ z, (partition.separate (partition.root a) (partition.root b)).root z =
      partition.root z := fun _ => rfl
  rw [listed, records x y]
  simp only [Set.mem_insert_iff, Meets, roots]
  constructor
  · rintro (⟨apart, pair, member, meets⟩ | ⟨rfl, rfl⟩ | ⟨rfl, rfl⟩)
    · exact ⟨apart, pair, .inr member, meets⟩
    · exact ⟨different, (a, b), .inl rfl, .inl ⟨rfl, rfl⟩⟩
    · exact ⟨different.symm, (a, b), .inl rfl, .inr ⟨rfl, rfl⟩⟩
  · rintro ⟨apart, pair, rfl | member, meets⟩
    · rcases meets with ⟨rfl, rfl⟩ | ⟨rfl, rfl⟩
      · exact .inr (.inl ⟨rfl, rfl⟩)
      · exact .inr (.inr ⟨rfl, rfl⟩)
    · exact .inl ⟨apart, pair, member, meets⟩

/-- A pair between classes that exclude each other already, or within one class, adds nothing. -/
theorem insert_of_covered (records : partition.Records pairs) {pair : Fin n × Fin n}
    (covered : ∀ a b, a ≠ b → partition.Meets pair a b →
      ∃ other ∈ pairs, partition.Meets other a b) : partition.Records (insert pair pairs) := by
  intro a b
  rw [records a b]
  constructor
  · rintro ⟨different, other, member, meets⟩
    exact ⟨different, other, .inr member, meets⟩
  · rintro ⟨different, other, rfl | member, meets⟩
    · exact ⟨different, covered a b different meets⟩
    · exact ⟨different, other, member, meets⟩

theorem insert_swap {a b : Fin n} (records : partition.Records (insert (a, b) pairs)) :
    partition.Records (insert (b, a) pairs) := by
  have turned : ∀ x y, partition.Meets (b, a) x y ↔ partition.Meets (a, b) x y := by
    intro x y
    simp only [Meets]
    grind
  intro x y
  rw [records x y]
  simp only [Set.mem_insert_iff, exists_eq_or_imp, turned]

end Records

/-- Joining two roots keeps one of them and moves the class of the other one to it. -/
theorem root_join (partition : Partition n) {a b : Fin n} (topA : partition.root a = a)
    (topB : partition.root b = b) :
    ∃ kept, (kept = a ∨ kept = b) ∧ ∀ x, (partition.join a b).root x =
      if partition.root x = a ∨ partition.root x = b then kept else partition.root x := by
  rcases partition.classes.root_union a b with ⟨kept, moved⟩
  simp only [root] at topA topB
  rw [topA, topB] at kept moved
  exact ⟨_, kept, moved⟩

theorem root_join_eq_iff (partition : Partition n) {a b : Fin n} (topA : partition.root a = a)
    (topB : partition.root b = b) (x y : Fin n) :
    (partition.join a b).root x = (partition.join a b).root y ↔
      partition.root x = partition.root y ∨
        (partition.root x = a ∧ partition.root y = b) ∨
        (partition.root x = b ∧ partition.root y = a) := by
  rcases partition.root_join topA topB with ⟨kept, isEnd, moved⟩
  rw [moved x, moved y]
  grind

/--
The exclusions after a join: those of the root that goes are now those of the root that stays.
-/
theorem exclusions_join (partition : Partition n) {a b : Fin n} (topA : partition.root a = a)
    (topB : partition.root b = b) (different : a ≠ b) :
    ∃ gone kept, ((gone = a ∧ kept = b) ∨ (gone = b ∧ kept = a)) ∧
      (partition.join a b).exclusions = partition.exclusions.move gone kept ∧
      ∀ x, (partition.join a b).root x =
        if partition.root x = gone then kept else partition.root x := by
  rcases partition.classes.root_union a b with ⟨isEnd, moved⟩
  simp only [root] at topA topB
  rw [topA, topB] at isEnd moved
  have exclusions : (partition.join a b).exclusions = partition.exclusions.move
      (if (partition.classes.union a b).1 = a then b else a) (partition.classes.union a b).1 := rfl
  rcases isEnd with kept | kept
  · refine ⟨b, a, .inr ⟨rfl, rfl⟩, by rw [exclusions, kept, if_pos rfl], fun x => ?_⟩
    rw [root, root, join, moved x, kept]
    grind
  · refine ⟨a, b, .inl ⟨rfl, rfl⟩, by rw [exclusions, kept, if_neg different.symm], fun x => ?_⟩
    rw [root, root, join, moved x, kept]
    grind

/-- A join loses no exclusion but the one between the two joined classes, and adds none. -/
theorem Records.join {partition : Partition n} {pairs : Set (Fin n × Fin n)}
    (records : partition.Records pairs) {a b : Fin n} (topA : partition.root a = a)
    (topB : partition.root b = b) (different : a ≠ b) : (partition.join a b).Records pairs := by
  rcases partition.exclusions_join topA topB different with ⟨gone, kept, ends, exclusions, moved⟩
  have apart : gone ≠ kept := by
    rcases ends with ⟨rfl, rfl⟩ | ⟨rfl, rfl⟩
    · exact different
    · exact different.symm
  intro x y
  rw [exclusions, Exclusions.lists_move_iff records.mutual_exclusions apart]
  have meets : ∀ pair, x ≠ y → ((partition.join a b).Meets pair x y ↔ x ≠ gone ∧ y ≠ gone ∧
      (partition.Meets pair x y ∨ (x = kept ∧ partition.Meets pair gone y) ∨
        (y = kept ∧ partition.Meets pair x gone))) := by
    intro pair unequal
    simp only [Meets, moved]
    grind
  simp only [records _ _]
  constructor
  · rintro ⟨unequal, xStays, yStays, listed⟩
    refine ⟨unequal, ?_⟩
    rcases listed with ⟨-, pair, member, old⟩ | ⟨atKept, -, pair, member, old⟩ |
      ⟨atKept, -, pair, member, old⟩
    · exact ⟨pair, member, (meets pair unequal).2 ⟨xStays, yStays, .inl old⟩⟩
    · exact ⟨pair, member, (meets pair unequal).2 ⟨xStays, yStays, .inr (.inl ⟨atKept, old⟩)⟩⟩
    · exact ⟨pair, member, (meets pair unequal).2 ⟨xStays, yStays, .inr (.inr ⟨atKept, old⟩)⟩⟩
  · rintro ⟨unequal, pair, member, new⟩
    rcases (meets pair unequal).1 new with ⟨xStays, yStays, old⟩
    refine ⟨unequal, xStays, yStays, ?_⟩
    rcases old with old | ⟨atKept, old⟩ | ⟨atKept, old⟩
    · exact .inl ⟨unequal, pair, member, old⟩
    · exact .inr (.inl ⟨atKept, yStays.symm, pair, member, old⟩)
    · exact .inr (.inr ⟨atKept, xStays, pair, member, old⟩)

/-- The partition after searching for both ends of an edge. -/
def located (partition : Partition n) (a b : Fin n) : Partition n :=
  ((partition.find a).2.find b).2

@[simp]
theorem find_fst (partition : Partition n) (x : Fin n) :
    (partition.find x).1 = partition.root x :=
  partition.classes.find_fst x

@[simp]
theorem root_find (partition : Partition n) (x y : Fin n) :
    (partition.find x).2.root y = partition.root y :=
  partition.classes.root_find x y

@[simp]
theorem root_located (partition : Partition n) (a b x : Fin n) :
    (partition.located a b).root x = partition.root x := by
  simp [located]

theorem exclusions_located (partition : Partition n) (a b : Fin n) :
    (partition.located a b).exclusions = partition.exclusions :=
  rfl

/-- Taking an edge into account, in terms of the roots of its ends. -/
theorem addEdge_eq (partition : Partition n) (a b : Fin n) (repulsive : Bool) :
    partition.addEdge a b repulsive =
      if partition.root a = partition.root b then (.connected, partition.located a b)
      else if partition.excludes (partition.root a) (partition.root b) then
        (.excluded, partition.located a b)
      else if repulsive then
        (.separated, (partition.located a b).separate (partition.root a) (partition.root b))
      else (.joined, (partition.located a b).join (partition.root a) (partition.root b)) := by
  have rootA : (partition.find a).1 = partition.root a := partition.find_fst a
  have rootB : ((partition.find a).2.find b).1 = partition.root b := by simp
  have excludes : ((partition.find a).2.find b).2.excludes (partition.root a) (partition.root b) =
      partition.excludes (partition.root a) (partition.root b) := rfl
  unfold addEdge located
  simp only [rootA, rootB, excludes]

end Watershed.Partition
