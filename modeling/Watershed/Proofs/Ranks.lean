import Mathlib.Algebra.Ring.Nat
import Mathlib.Data.Fintype.Card
import Mathlib.Data.Nat.Log
import Watershed.Proofs.Closure

/-!
# Ranks are logarithmic

A root of rank `k` has at least `2 ^ k` nodes in its tree: a rank rises only when two trees with
roots of the same rank are joined, and searches move no node to another tree. So no rank exceeds the
logarithm of the number of nodes.
-/

namespace Watershed.DisjointSets

variable {n : Nat} {sets : DisjointSets n}

/-- The nodes whose root is the given node. -/
def treeOf (sets : DisjointSets n) (r : Fin n) : Finset (Fin n) :=
  Finset.univ.filter fun x => sets.root x = r

/-- The tree of a root is as large as the rank of the root demands. -/
def Populous (sets : DisjointSets n) : Prop :=
  ∀ r, sets.IsRoot r → 2 ^ sets.rank.get r ≤ (sets.treeOf r).card

theorem mem_treeOf {r x : Fin n} : x ∈ sets.treeOf r ↔ sets.root x = r := by
  rw [treeOf, Finset.mem_filter, and_iff_right (Finset.mem_univ x)]

theorem disjoint_treeOf {r s : Fin n} (different : r ≠ s) :
    Disjoint (sets.treeOf r) (sets.treeOf s) := by
  rw [Finset.disjoint_left]
  intro x inFirst inSecond
  exact different ((mem_treeOf.1 inFirst).symm.trans (mem_treeOf.1 inSecond))

theorem Populous.discrete : (discrete n).Populous := by
  intro r top
  have member : r ∈ (DisjointSets.discrete n).treeOf r := mem_treeOf.2 (root_discrete r)
  have alone : (DisjointSets.discrete n).rank.get r = 0 := Entries.get_replicate 0 r
  rw [alone, Nat.pow_zero]
  exact Finset.card_pos.2 ⟨r, member⟩

theorem Populous.congr {after : DisjointSets n} (populous : sets.Populous)
    (roots : ∀ x, after.root x = sets.root x) (ranks : after.rank = sets.rank) :
    after.Populous := by
  intro r top
  have same : after.treeOf r = sets.treeOf r := by
    ext x
    rw [mem_treeOf, mem_treeOf, roots]
  rw [isRoot_iff_root_eq, roots, ← isRoot_iff_root_eq] at top
  rw [same, ranks]
  exact populous r top

/-- The root that a union keeps has the nodes of both trees below it. -/
theorem treeOf_union_fst (sets : DisjointSets n) (a b : Fin n) :
    (sets.union a b).2.treeOf (sets.union a b).1 =
      sets.treeOf (sets.root a) ∪ sets.treeOf (sets.root b) := by
  rcases sets.root_union a b with ⟨kept, moved⟩
  ext x
  rw [Finset.mem_union, mem_treeOf, mem_treeOf, mem_treeOf, moved]
  split
  · next joined => exact iff_of_true rfl joined
  · next apart =>
    refine iff_of_false (fun same => apart ?_) apart
    rwa [← same] at kept

theorem treeOf_union_of_ne {a b r : Fin n} (notA : r ≠ sets.root a) (notB : r ≠ sets.root b) :
    (sets.union a b).2.treeOf r = sets.treeOf r := by
  rcases sets.root_union a b with ⟨kept, moved⟩
  ext x
  rw [mem_treeOf, mem_treeOf, moved]
  split
  · next joined => grind
  · rfl

/-- A union raises a rank only if both roots have it, and then it joins two trees that large. -/
theorem two_pow_rank_union_fst_le (sets : DisjointSets n) (a b : Fin n) :
    2 ^ (sets.union a b).2.rank.get (sets.union a b).1 ≤
      if sets.root a = sets.root b then 2 ^ sets.rank.get (sets.root a)
      else 2 ^ sets.rank.get (sets.root a) + 2 ^ sets.rank.get (sets.root b) := by
  rw [rank_union, union_fst]
  grind

theorem Populous.union (populous : sets.Populous) (a b : Fin n) :
    (sets.union a b).2.Populous := by
  have ofA := populous _ (sets.isRoot_root a)
  have ofB := populous _ (sets.isRoot_root b)
  rcases sets.root_union a b with ⟨kept, moved⟩
  intro r top
  rw [isRoot_iff_root_eq, moved] at top
  split at top
  · next joined =>
    rw [← top, treeOf_union_fst]
    refine Nat.le_trans (sets.two_pow_rank_union_fst_le a b) ?_
    split
    · next same => rwa [← same, Finset.union_self]
    · next different =>
      rw [Finset.card_union_of_disjoint (disjoint_treeOf different)]
      exact Nat.add_le_add ofA ofB
  · next apart =>
    rw [top, not_or] at apart
    rw [treeOf_union_of_ne apart.1 apart.2, rank_union, if_neg fun raised => apart.1 raised.2.2]
    exact populous r (isRoot_iff_root_eq.2 top)

theorem Populous.perform (populous : sets.Populous) (call : Call n) :
    (call.perform sets).Populous := by
  cases call with
  | find x => exact populous.congr (sets.root_find x) (sets.rank_find x)
  | union a b => exact populous.union a b
  | labels => exact populous.congr sets.root_labels sets.rank_labels

theorem populous_afterCalls (calls : List (Call n)) : (afterCalls calls).Populous :=
  afterCalls_induction (fun _ sets => sets.Populous) Populous.discrete
    (fun _ _ populous => populous.perform) calls

theorem rank_le_rank_root (sets : DisjointSets n) (x : Fin n) :
    sets.rank.get x ≤ sets.rank.get (sets.root x) := by
  fun_induction root sets x with
  | case1 => exact Nat.le_refl _
  | case2 x inner ih => exact Nat.le_trans (Nat.le_of_lt (sets.rank_lt x inner)) ih

theorem Populous.rank_le_log (populous : sets.Populous) (x : Fin n) :
    sets.rank.get x ≤ Nat.log 2 n := by
  have occupied : n ≠ 0 := Nat.ne_of_gt (Nat.lt_of_le_of_lt (Nat.zero_le _) x.isLt)
  have fits : (sets.treeOf (sets.root x)).card ≤ n := by
    simpa using Finset.card_le_univ (sets.treeOf (sets.root x))
  refine Nat.le_trans (sets.rank_le_rank_root x) ?_
  apply Nat.le_log_of_pow_le Nat.one_lt_two
  exact Nat.le_trans (populous _ (sets.isRoot_root x)) fits

theorem log_le_of_lt_size (fits : n < UInt64.size) : Nat.log 2 n ≤ 63 :=
  Nat.le_of_lt_succ (Nat.log_lt_of_lt_pow' (by decide) fits)

end Watershed.DisjointSets
