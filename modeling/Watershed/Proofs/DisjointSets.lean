import Watershed.Partition.DisjointSets

/-!
# Roots of a forest

What a forest means is its function from nodes to roots. `DisjointSets.root` follows the parents
without touching them, and this file shows that every operation is a statement about this function
alone: a search returns the root and changes no root, however it shortens the links on its way, and
a union moves the classes of two nodes to one of their two roots.

The function is determined by two equations, that a parent has the root of its child and that a root
is its own root. All proofs about an operation guess the new function and check these two equations,
so no proof follows a path.
-/

namespace Watershed.DisjointSets

variable {n : Nat}

/-- The root of a node's tree, found without changing the forest. -/
def root (sets : DisjointSets n) (x : Fin n) : Fin n :=
  if sets.IsRoot x then x else sets.root (sets.parent.get x)
termination_by sets.rankBound - sets.rank.get x
decreasing_by
  have rises := sets.rank_lt x ‹_›
  have bounded := sets.rank_le_rankBound (sets.parent.get x)
  omega

theorem root_of_isRoot (sets : DisjointSets n) {x : Fin n} (top : sets.IsRoot x) :
    sets.root x = x := by
  rw [root, if_pos top]

theorem root_parent (sets : DisjointSets n) (x : Fin n) :
    sets.root (sets.parent.get x) = sets.root x := by
  by_cases top : sets.IsRoot x
  · rw [show sets.parent.get x = x from top]
  · have unfolded := root.eq_1 sets x
    rw [if_neg top] at unfolded
    exact unfolded.symm

theorem isRoot_root (sets : DisjointSets n) (x : Fin n) : sets.IsRoot (sets.root x) := by
  fun_induction root sets x with
  | case1 x top => exact top
  | case2 x inner ih => exact ih

@[simp]
theorem root_root (sets : DisjointSets n) (x : Fin n) : sets.root (sets.root x) = sets.root x :=
  sets.root_of_isRoot (sets.isRoot_root x)

theorem isRoot_iff_root_eq {sets : DisjointSets n} {x : Fin n} :
    sets.IsRoot x ↔ sets.root x = x := by
  constructor
  · exact sets.root_of_isRoot
  · intro fixed
    rw [← fixed]
    exact sets.isRoot_root x

theorem root_eq_of_step {sets : DisjointSets n} (top : Fin n → Fin n)
    (step : ∀ x, top (sets.parent.get x) = top x) (fixed : ∀ x, sets.IsRoot x → top x = x)
    (x : Fin n) : sets.root x = top x := by
  fun_induction root sets x with
  | case1 x isTop => exact (fixed x isTop).symm
  | case2 x inner ih => rw [ih, step]

theorem parent_attach (sets : DisjointSets n) {lower upper : Fin n}
    (below : sets.rank.get lower < sets.rank.get upper) (x : Fin n) :
    (sets.attach lower upper below).parent.get x =
      if x = lower then upper else sets.parent.get x :=
  Entries.get_set sets.parent lower x upper

theorem root_attach_of_root_eq (sets : DisjointSets n) {lower upper : Fin n}
    (below : sets.rank.get lower < sets.rank.get upper) (inner : ¬ sets.IsRoot lower)
    (same : sets.root upper = sets.root lower) (x : Fin n) :
    (sets.attach lower upper below).root x = sets.root x := by
  apply root_eq_of_step
  · intro y
    rw [parent_attach]
    split
    · next equal => rw [equal, same]
    · exact sets.root_parent y
  · intro y top
    exact sets.root_of_isRoot ((isRoot_attach_iff sets below inner y).1 top)

/-- Linking one root below another one moves exactly the nodes of the lower tree. -/
theorem root_attach_of_isRoot (sets : DisjointSets n) {lower upper : Fin n}
    (below : sets.rank.get lower < sets.rank.get upper) (lowerTop : sets.IsRoot lower)
    (upperTop : sets.IsRoot upper) (x : Fin n) :
    (sets.attach lower upper below).root x =
      if sets.root x = lower then upper else sets.root x := by
  have different : upper ≠ lower := by
    rintro rfl
    exact Nat.lt_irrefl _ below
  apply root_eq_of_step fun y => if sets.root y = lower then upper else sets.root y
  · intro y
    simp only [parent_attach]
    by_cases same : y = lower
    · subst same
      simp [sets.root_of_isRoot lowerTop, sets.root_of_isRoot upperTop, different]
    · simp only [if_neg same, root_parent]
  · intro y top
    have kept : y ≠ lower := by
      rintro rfl
      rw [IsRoot, parent_attach, if_pos rfl] at top
      exact different top
    rw [IsRoot, parent_attach, if_neg kept] at top
    simp only [sets.root_of_isRoot top, if_neg kept]

theorem root_promote (sets : DisjointSets n) (upper : Fin n) (top : sets.IsRoot upper)
    (x : Fin n) : (sets.promote upper top).root x = sets.root x := by
  apply root_eq_of_step
  · exact sets.root_parent
  · intro y yTop
    exact sets.root_of_isRoot yTop

@[simp]
theorem find_fst (sets : DisjointSets n) (x : Fin n) : (sets.find x).1 = sets.root x := by
  fun_induction find sets x with
  | case1 sets x top => exact (sets.root_of_isRoot top).symm
  | case2 sets x inner grandparent ih =>
      have same : sets.root grandparent = sets.root x := by
        rw [sets.root_parent, sets.root_parent]
      rw [ih, root_attach_of_root_eq sets _ inner same, same]

@[simp]
theorem root_find (sets : DisjointSets n) (x y : Fin n) :
    (sets.find x).2.root y = sets.root y := by
  fun_induction find sets x with
  | case1 => rfl
  | case2 sets x inner grandparent ih =>
      have same : sets.root grandparent = sets.root x := by
        rw [sets.root_parent, sets.root_parent]
      rw [ih, root_attach_of_root_eq sets _ inner same]

/-- A link keeps one of its two roots and moves the tree of the other one to it. -/
theorem root_link (sets : DisjointSets n) {first second : Fin n} (firstTop : sets.IsRoot first)
    (secondTop : sets.IsRoot second) (different : first ≠ second) :
    ((sets.link first second firstTop different).1 = first ∨
        (sets.link first second firstTop different).1 = second) ∧
      ∀ x, (sets.link first second firstTop different).2.root x =
        if sets.root x = first ∨ sets.root x = second then
          (sets.link first second firstTop different).1
        else sets.root x := by
  unfold link
  split
  · next less =>
    refine ⟨.inr rfl, fun x => ?_⟩
    rw [root_attach_of_isRoot sets less firstTop secondTop]
    by_cases inFirst : sets.root x = first
    · simp [inFirst]
    · by_cases inSecond : sets.root x = second <;> simp [inFirst, inSecond]
  · split
    · next greater =>
      refine ⟨.inl rfl, fun x => ?_⟩
      rw [root_attach_of_isRoot sets greater secondTop firstTop]
      by_cases inSecond : sets.root x = second
      · simp [inSecond]
      · by_cases inFirst : sets.root x = first <;> simp [inFirst, inSecond]
    · refine ⟨.inl rfl, fun x => ?_⟩
      rw [root_attach_of_isRoot (sets.promote first firstTop) _ secondTop firstTop]
      simp only [root_promote]
      by_cases inSecond : sets.root x = second
      · simp [inSecond]
      · by_cases inFirst : sets.root x = first <;> simp [inFirst, inSecond]

/-- A union gives one of the two roots, and moves exactly the two classes to it. -/
theorem root_union (sets : DisjointSets n) (a b : Fin n) :
    ((sets.union a b).1 = sets.root a ∨ (sets.union a b).1 = sets.root b) ∧
      ∀ x, (sets.union a b).2.root x =
        if sets.root x = sets.root a ∨ sets.root x = sets.root b then (sets.union a b).1
        else sets.root x := by
  have rootA : (sets.find a).1 = sets.root a := sets.find_fst a
  have rootB : ((sets.find a).2.find b).1 = sets.root b := by simp
  have unchanged : ∀ x, ((sets.find a).2.find b).2.root x = sets.root x := by simp
  unfold union
  simp only
  split
  · next same =>
    rw [rootA, rootB] at same
    refine ⟨.inl rootA, fun x => ?_⟩
    by_cases inClass : sets.root x = sets.root b <;> simp [same, inClass]
  · next different =>
    have topA : ((sets.find a).2.find b).2.IsRoot (sets.find a).1 := by
      rw [isRoot_iff_root_eq, unchanged, rootA, root_root]
    have topB : ((sets.find a).2.find b).2.IsRoot ((sets.find a).2.find b).1 := by
      rw [isRoot_iff_root_eq, unchanged, rootB, root_root]
    have linked := root_link _ topA topB different
    simpa only [rootA, rootB, unchanged] using linked

theorem root_union_eq_iff (sets : DisjointSets n) (a b x y : Fin n) :
    (sets.union a b).2.root x = (sets.union a b).2.root y ↔
      sets.root x = sets.root y ∨ (sets.root x = sets.root a ∧ sets.root b = sets.root y) ∨
        (sets.root x = sets.root b ∧ sets.root a = sets.root y) := by
  rcases sets.root_union a b with ⟨kept, moved⟩
  rw [moved x, moved y]
  grind

/-- Of the roots of two nodes, the one that a union keeps: the first unless its rank is lower. -/
theorem union_fst (sets : DisjointSets n) (a b : Fin n) : (sets.union a b).1 =
    if sets.rank.get (sets.root a) < sets.rank.get (sets.root b) then sets.root b
    else sets.root a := by
  have rootA : (sets.find a).1 = sets.root a := sets.find_fst a
  have rootB : ((sets.find a).2.find b).1 = sets.root b := by simp
  have ranks : ((sets.find a).2.find b).2.rank = sets.rank := by rw [rank_find, rank_find]
  unfold union link
  simp only [rootA, rootB, ranks]
  split
  · next same => simp [same]
  · split
    · rfl
    · split <;> rfl

/-- A link raises no rank but that of the first root, if the two are equal. -/
theorem rank_link (sets : DisjointSets n) {first second : Fin n} (firstTop : sets.IsRoot first)
    (different : first ≠ second) (x : Fin n) :
    (sets.link first second firstTop different).2.rank.get x =
      if sets.rank.get first = sets.rank.get second ∧ x = first then sets.rank.get x + 1
      else sets.rank.get x := by
  unfold link
  split
  · next less =>
    rw [if_neg fun both => Nat.ne_of_lt less both.1]
    rfl
  · split
    · next greater =>
      rw [if_neg fun both => Nat.ne_of_gt greater both.1]
      rfl
    · next notLess notGreater =>
      have equal : sets.rank.get first = sets.rank.get second :=
        Nat.le_antisymm (Nat.le_of_not_lt notGreater) (Nat.le_of_not_lt notLess)
      simp only [attach, promote, Entries.get_set, equal, true_and]
      by_cases same : x = first
      · rw [if_pos same, if_pos same, same, equal]
      · rw [if_neg same, if_neg same]

/--
A union raises no rank but that of the first root, if the two roots differ and are equal in rank.
-/
theorem rank_union (sets : DisjointSets n) (a b x : Fin n) : (sets.union a b).2.rank.get x =
    if sets.root a ≠ sets.root b ∧
        sets.rank.get (sets.root a) = sets.rank.get (sets.root b) ∧ x = sets.root a then
      sets.rank.get x + 1
    else sets.rank.get x := by
  have rootA : (sets.find a).1 = sets.root a := sets.find_fst a
  have rootB : ((sets.find a).2.find b).1 = sets.root b := by simp
  have ranks : ((sets.find a).2.find b).2.rank = sets.rank := by rw [rank_find, rank_find]
  unfold union
  simp only [rootA, rootB]
  split
  · next same => simp only [same, ne_eq, not_true_eq_false, false_and, if_false, ranks]
  · next different => simp only [rank_link, ranks, ne_eq, different, not_false_eq_true, true_and]

@[simp]
theorem root_discrete (x : Fin n) : (discrete n).root x = x :=
  root_of_isRoot _ (by simp [IsRoot, discrete])

theorem foldl_find_push (nodes : List (Fin n)) (found : Array (Fin n)) (sets : DisjointSets n) :
    (nodes.foldl (fun (state : Array (Fin n) × DisjointSets n) x =>
      (state.1.push (state.2.find x).1, (state.2.find x).2)) (found, sets)).1 =
      found ++ (nodes.map sets.root).toArray := by
  induction nodes generalizing found sets with
  | nil => simp
  | cons x nodes ih =>
      have kept : (sets.find x).2.root = sets.root := funext (sets.root_find x)
      rw [List.foldl_cons, ih, kept]
      simp

theorem labels_fst (sets : DisjointSets n) : sets.labels.1 = Array.ofFn sets.root := by
  have collected := foldl_find_push (List.finRange n) #[] sets
  rw [← Fin.foldl_eq_finRange_foldl] at collected
  rw [labels]
  simp only [collected]
  simp [List.finRange, List.map_ofFn, Function.comp_def]

theorem getElem?_labels (sets : DisjointSets n) (x : Fin n) :
    (sets.labels.1.map (·.val))[x.val]? = some (sets.root x).val := by
  simp [labels_fst]

theorem size_labels (sets : DisjointSets n) : (sets.labels.1.map (·.val)).size = n := by
  rw [labels_fst, Array.size_map, Array.size_ofFn]

theorem labels_eq_iff (sets : DisjointSets n) (u v : Fin n) :
    (sets.labels.1.map (·.val))[u.val]? = (sets.labels.1.map (·.val))[v.val]? ↔
      sets.root u = sets.root v := by
  rw [getElem?_labels, getElem?_labels, Option.some.injEq, Fin.val_inj]

/-- What every search keeps, reading off all labels keeps. -/
theorem labels_snd_induction (holds : DisjointSets n → Prop)
    (step : ∀ sets x, holds sets → holds (sets.find x).2) {sets : DisjointSets n}
    (base : holds sets) : holds sets.labels.2 := by
  have kept : ∀ (nodes : List (Fin n)) (found : Array (Fin n)) (sets : DisjointSets n), holds sets →
      holds (nodes.foldl (fun (state : Array (Fin n) × DisjointSets n) x =>
        (state.1.push (state.2.find x).1, (state.2.find x).2)) (found, sets)).2 := by
    intro nodes
    induction nodes with
    | nil => exact fun _ _ known => known
    | cons x nodes ih => exact fun _ sets known => ih _ _ (step sets x known)
  have all := kept (List.finRange n) #[] sets base
  rw [← Fin.foldl_eq_finRange_foldl] at all
  exact all

/-- Reading off all labels changes no root. -/
@[simp]
theorem root_labels (sets : DisjointSets n) (y : Fin n) : sets.labels.2.root y = sets.root y :=
  labels_snd_induction (fun after => after.root y = sets.root y)
    (fun after x same => (after.root_find x y).trans same) rfl

theorem rank_labels (sets : DisjointSets n) : sets.labels.2.rank = sets.rank :=
  labels_snd_induction (fun after => after.rank = sets.rank)
    (fun after x same => (after.rank_find x).trans same) rfl

end Watershed.DisjointSets
