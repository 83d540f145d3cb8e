import Watershed.Partition.Entries
import Watershed.Storage

/-!
# Disjoint sets

A forest over the nodes `0, …, n - 1` that represents a partition: two nodes belong together when
their trees have the same root. Each node has a rank, and ranks grow strictly along every link from
a node to its parent; this is a field of the type, so that the search for a root ends.

Searching re-points every other node on its way to its grandparent. Roots and ranks are not affected
by this, which `DisjointSets.isRoot_find_iff` and `DisjointSets.rank_find` state. Unions link the
root of lower rank below the other one; of two roots of equal rank the first stays a root.
-/

namespace Watershed

/-- Every member of a list of natural numbers is at most the sum of the list. -/
theorem le_foldr_add_of_mem {value : Nat} {values : List Nat} (member : value ∈ values) :
    value ≤ values.foldr (· + ·) 0 := by
  induction values with
  | nil => simp at member
  | cons head tail ih =>
      rcases List.mem_cons.1 member with rfl | member
      · simp
      · have := ih member
        simp only [List.foldr_cons]
        omega

/-- A forest over `n` nodes in which ranks grow strictly from a node to its parent. -/
structure DisjointSets (n : Nat) where
  parent : Vector (Fin n) n
  rank : Vector Nat n
  rank_lt : ∀ x : Fin n, parent.get x ≠ x → rank.get x < rank.get (parent.get x)

namespace DisjointSets

variable {n : Nat}

/-- Every node is its own root, of rank zero. -/
def discrete (n : Nat) : DisjointSets n where
  parent := Vector.ofFn id
  rank := Vector.replicate n 0
  rank_lt x different := absurd (Entries.get_ofFn id x) different

/-- Every node is alone in its class, if there can be that many nodes. -/
def allocate (n : Nat) : Except Error (DisjointSets n) := do
  Storage.check n Storage.wordBytes
  return discrete n

/-- A number that no rank exceeds. -/
def rankBound (sets : DisjointSets n) : Nat :=
  sets.rank.toList.foldr (· + ·) 0

theorem rank_le_rankBound (sets : DisjointSets n) (x : Fin n) :
    sets.rank.get x ≤ sets.rankBound :=
  le_foldr_add_of_mem (Vector.mem_toList_iff.2 (Entries.get_mem sets.rank x))

/-- A root is its own parent. -/
def IsRoot (sets : DisjointSets n) (x : Fin n) : Prop :=
  sets.parent.get x = x

instance (sets : DisjointSets n) (x : Fin n) : Decidable (sets.IsRoot x) :=
  inferInstanceAs (Decidable (sets.parent.get x = x))

theorem rank_lt_grandparent (sets : DisjointSets n) {x : Fin n} (inner : ¬ sets.IsRoot x) :
    sets.rank.get x < sets.rank.get (sets.parent.get (sets.parent.get x)) := by
  have step := sets.rank_lt x inner
  by_cases top : sets.parent.get (sets.parent.get x) = sets.parent.get x
  · simpa only [top] using step
  · exact Nat.lt_trans step (sets.rank_lt _ top)

/-- A node is linked below a node of higher rank. -/
def attach (sets : DisjointSets n) (lower upper : Fin n)
    (below : sets.rank.get lower < sets.rank.get upper) : DisjointSets n where
  parent := sets.parent.set lower upper lower.isLt
  rank := sets.rank
  rank_lt y different := by
    by_cases same : y = lower
    · subst same
      simpa [Entries.get_set] using below
    · simp only [Entries.get_set, if_neg same] at different ⊢
      exact sets.rank_lt y different

/-- The root of a node's tree, with the links on the way to it shortened. -/
def find (sets : DisjointSets n) (x : Fin n) : Fin n × DisjointSets n :=
  if root : sets.IsRoot x then
    (x, sets)
  else
    let grandparent := sets.parent.get (sets.parent.get x)
    (sets.attach x grandparent (sets.rank_lt_grandparent root)).find grandparent
termination_by sets.rankBound - sets.rank.get x
decreasing_by
  have rises := sets.rank_lt_grandparent root
  have bounded := sets.rank_le_rankBound (sets.parent.get (sets.parent.get x))
  simp only [attach, rankBound] at bounded ⊢
  omega

/-- A new link from a node that is not a root keeps every root and adds none. -/
theorem isRoot_attach_iff (sets : DisjointSets n) {lower upper : Fin n}
    (below : sets.rank.get lower < sets.rank.get upper) (inner : ¬ sets.IsRoot lower)
    (y : Fin n) : (sets.attach lower upper below).IsRoot y ↔ sets.IsRoot y := by
  by_cases same : y = lower
  · subst same
    constructor
    · intro root
      simp only [IsRoot, attach, Entries.get_set, if_true] at root
      subst root
      exact absurd below (Nat.lt_irrefl _)
    · intro root
      exact absurd root inner
  · simp only [IsRoot, attach, Entries.get_set, if_neg same]

/-- A search changes no rank. -/
theorem rank_find (sets : DisjointSets n) (x : Fin n) : (sets.find x).2.rank = sets.rank := by
  fun_induction find sets x with
  | case1 => rfl
  | case2 sets x inner grandparent ih => simpa [attach] using ih

/-- A search keeps every root and adds none. -/
theorem isRoot_find_iff (sets : DisjointSets n) (x y : Fin n) :
    (sets.find x).2.IsRoot y ↔ sets.IsRoot y := by
  fun_induction find sets x with
  | case1 => rfl
  | case2 sets x inner grandparent ih => rw [ih, isRoot_attach_iff _ _ inner]

/-- A search ends at a root. -/
theorem isRoot_find (sets : DisjointSets n) (x : Fin n) : sets.IsRoot (sets.find x).1 := by
  fun_induction find sets x with
  | case1 sets x root => exact root
  | case2 sets x inner grandparent ih => exact (isRoot_attach_iff sets _ inner _).1 ih

/-- The rank of a root is raised by one. -/
def promote (sets : DisjointSets n) (upper : Fin n) (root : sets.IsRoot upper) :
    DisjointSets n where
  parent := sets.parent
  rank := sets.rank.set upper (sets.rank.get upper + 1) upper.isLt
  rank_lt y different := by
    have step := sets.rank_lt y different
    have other : y ≠ upper := by
      rintro rfl
      exact different root
    simp only [Entries.get_set, if_neg other]
    by_cases target : sets.parent.get y = upper
    · simp only [target, if_true] at step ⊢
      exact Nat.lt_succ_of_lt step
    · simp only [if_neg target]
      exact step

/--
Joins the trees of two different roots and gives the remaining root: the one of higher rank, or the
first of two roots of equal rank.
-/
def link (sets : DisjointSets n) (first second : Fin n) (root : sets.IsRoot first)
    (different : first ≠ second) : Fin n × DisjointSets n :=
  if less : sets.rank.get first < sets.rank.get second then
    (second, sets.attach first second less)
  else if greater : sets.rank.get second < sets.rank.get first then
    (first, sets.attach second first greater)
  else
    (first, (sets.promote first root).attach second first (by
      simp only [promote, Entries.get_set, if_neg different.symm, if_true]
      omega))

/-- Joins the classes of two nodes and gives the root of the joint class. -/
def union (sets : DisjointSets n) (a b : Fin n) : Fin n × DisjointSets n :=
  match foundA : sets.find a with
  | (rootA, afterA) =>
      match foundB : afterA.find b with
      | (rootB, afterB) =>
          if same : rootA = rootB then
            (rootA, afterB)
          else
            afterB.link rootA rootB
              (by
                have root := sets.isRoot_find a
                rw [← isRoot_find_iff sets a, foundA] at root
                rw [← isRoot_find_iff afterA b, foundB] at root
                exact root)
              same

/-- The roots of all nodes in ascending order of these, each found by a search. -/
def labels (sets : DisjointSets n) : Array (Fin n) × DisjointSets n :=
  Fin.foldl n (fun (found, sets) x =>
    match sets.find x with
    | (root, sets) => (found.push root, sets)) (#[], sets)

end DisjointSets

end Watershed
