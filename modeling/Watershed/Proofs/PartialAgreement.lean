import Mathlib.Data.Set.Insert
import Watershed.Proofs.Partition

/-!
# Partitions that agree on a part of the nodes

Whatever an edge does to a partition, it does to the classes of its two ends. As long as no class
reaches across the border of a part, an edge outside of the part leaves everything in it as it was,
and an edge inside of it does the same to all partitions that agree there. Agreement is about ranks
as well as roots and exclusions, since the ranks decide which of two roots remains; what agrees on a
part therefore gives its nodes the same roots, and not only the same classes.
-/

namespace Watershed

namespace DisjointSets

variable {n : Nat} {part : Set (Fin n)} {sets left right : DisjointSets n} {a b : Fin n}

/-- No class has nodes both in a part and outside of it. -/
def Respects (sets : DisjointSets n) (part : Set (Fin n)) : Prop :=
  ∀ x, sets.root x ∈ part ↔ x ∈ part

theorem respects_discrete : (discrete n).Respects part := by
  intro x
  rw [root_discrete]

/-- A union of two classes on the same side of the border does not cross it. -/
theorem Respects.union (respects : sets.Respects part) (sameSide : a ∈ part ↔ b ∈ part) :
    (sets.union a b).2.Respects part := by
  rcases sets.root_union a b with ⟨kept, moved⟩
  have keptSide : (sets.union a b).1 ∈ part ↔ a ∈ part := by
    rcases kept with kept | kept
    · rw [kept, respects a]
    · rw [kept, respects b, sameSide]
  intro x
  rw [moved]
  split
  · next met =>
    rw [keptSide, ← respects x]
    rcases met with met | met
    · rw [met, respects a]
    · rw [met, respects b, sameSide]
  · exact respects x

/-- The nodes of a part have the same roots and ranks. -/
structure AgreeOn (part : Set (Fin n)) (left right : DisjointSets n) : Prop where
  root : ∀ x ∈ part, right.root x = left.root x
  rank : ∀ x ∈ part, right.rank.get x = left.rank.get x

namespace AgreeOn

theorem refl (sets : DisjointSets n) : AgreeOn part sets sets :=
  ⟨fun _ _ => rfl, fun _ _ => rfl⟩

theorem symm (agree : AgreeOn part left right) : AgreeOn part right left :=
  ⟨fun x inside => (agree.root x inside).symm, fun x inside => (agree.rank x inside).symm⟩

theorem trans {middle : DisjointSets n} (first : AgreeOn part left middle)
    (second : AgreeOn part middle right) : AgreeOn part left right where
  root x inside := (second.root x inside).trans (first.root x inside)
  rank x inside := (second.rank x inside).trans (first.rank x inside)

theorem of_find (sets : DisjointSets n) (x : Fin n) : AgreeOn part sets (sets.find x).2 where
  root y _ := sets.root_find x y
  rank y _ := by rw [rank_find]

/-- A union outside of a part leaves the part as it was. -/
theorem of_union (respects : sets.Respects part) (outsideA : a ∉ part) (outsideB : b ∉ part) :
    AgreeOn part sets (sets.union a b).2 := by
  have rootA : sets.root a ∉ part := mt (respects a).1 outsideA
  have rootB : sets.root b ∉ part := mt (respects b).1 outsideB
  refine ⟨fun x inside => ?_, fun x inside => ?_⟩
  · have rootX : sets.root x ∈ part := (respects x).2 inside
    rw [(sets.root_union a b).2, if_neg]
    rintro (same | same)
    · exact rootA (same ▸ rootX)
    · exact rootB (same ▸ rootX)
  · rw [rank_union, if_neg]
    rintro ⟨-, -, rfl⟩
    exact rootA inside

theorem union_fst (agree : AgreeOn part left right) (respects : left.Respects part)
    (insideA : a ∈ part) (insideB : b ∈ part) : (right.union a b).1 = (left.union a b).1 := by
  simp only [DisjointSets.union_fst, agree.root a insideA, agree.root b insideB,
    agree.rank _ ((respects a).2 insideA), agree.rank _ ((respects b).2 insideB)]

/-- A union inside of a part does the same on both sides. -/
theorem union (agree : AgreeOn part left right) (respects : left.Respects part)
    (insideA : a ∈ part) (insideB : b ∈ part) :
    AgreeOn part (left.union a b).2 (right.union a b).2 := by
  refine ⟨fun x inside => ?_, fun x inside => ?_⟩
  · rw [(right.root_union a b).2, (left.root_union a b).2, agree.root x inside,
      agree.root a insideA, agree.root b insideB, agree.union_fst respects insideA insideB]
  · simp only [rank_union, agree.root a insideA, agree.root b insideB, agree.rank x inside,
      agree.rank _ ((respects a).2 insideA), agree.rank _ ((respects b).2 insideB)]

/-- The labels of the part are the same on both sides. -/
theorem exists_label (agree : AgreeOn part left right) : ∀ x ∈ part,
    ∃ label, (left.labels.1.map (·.val))[x.val]? = some label ∧
      (right.labels.1.map (·.val))[x.val]? = some label := by
  intro x inside
  refine ⟨_, left.getElem?_labels x, ?_⟩
  rw [right.getElem?_labels, agree.root x inside]

end AgreeOn

end DisjointSets

namespace Partition

variable {n : Nat} {part : Set (Fin n)} {partition left right : Partition n} {a b : Fin n}

/-- No class reaches across the border of a part, and exclusions are mutual. -/
structure Respects (partition : Partition n) (part : Set (Fin n)) : Prop where
  classes : partition.classes.Respects part
  exclusions : partition.exclusions.Mutual

/-- The nodes of a part have the same roots, ranks and exclusions among each other. -/
structure AgreeOn (part : Set (Fin n)) (left right : Partition n) : Prop where
  classes : left.classes.AgreeOn part right.classes
  lists : ∀ x ∈ part, ∀ y ∈ part, right.exclusions.Lists x y ↔ left.exclusions.Lists x y

theorem Respects.root_mem (respects : partition.Respects part) (inside : a ∈ part) :
    partition.root a ∈ part :=
  (respects.classes a).2 inside

theorem Respects.root_not_mem (respects : partition.Respects part) (outside : a ∉ part) :
    partition.root a ∉ part :=
  mt (respects.classes a).1 outside

theorem Respects.located (respects : partition.Respects part) (a b : Fin n) :
    (partition.located a b).Respects part where
  classes x := by
    rw [show (partition.located a b).classes.root x = partition.classes.root x from
      partition.root_located a b x]
    exact respects.classes x
  exclusions := respects.exclusions

namespace AgreeOn

theorem root (agree : AgreeOn part left right) (inside : a ∈ part) : right.root a = left.root a :=
  agree.classes.root a inside

theorem refl (partition : Partition n) : AgreeOn part partition partition :=
  ⟨.refl _, fun _ _ _ _ => Iff.rfl⟩

theorem symm (agree : AgreeOn part left right) : AgreeOn part right left :=
  ⟨agree.classes.symm, fun x insideX y insideY => (agree.lists x insideX y insideY).symm⟩

theorem trans {middle : Partition n} (first : AgreeOn part left middle)
    (second : AgreeOn part middle right) : AgreeOn part left right where
  classes := first.classes.trans second.classes
  lists x insideX y insideY :=
    (second.lists x insideX y insideY).trans (first.lists x insideX y insideY)

theorem of_located (partition : Partition n) (a b : Fin n) :
    AgreeOn part partition (partition.located a b) where
  classes := (DisjointSets.AgreeOn.of_find _ a).trans (.of_find _ b)
  lists _ _ _ _ := Iff.rfl

theorem excludes (agree : AgreeOn part left right) (leftRespects : left.Respects part)
    (rightRespects : right.Respects part) (insideA : a ∈ part) (insideB : b ∈ part) :
    right.excludes a b = left.excludes a b := by
  rw [Bool.eq_iff_iff, Partition.excludes, Partition.excludes,
    Exclusions.excludes_iff_lists rightRespects.exclusions,
    Exclusions.excludes_iff_lists leftRespects.exclusions]
  exact agree.lists a insideA b insideB

theorem of_separate (outsideA : a ∉ part) :
    AgreeOn part partition (partition.separate a b) where
  classes := .refl _
  lists x insideX y insideY := by
    refine (Exclusions.lists_insert_iff partition.exclusions a b x y).trans (or_iff_left ?_)
    rintro (⟨rfl, -⟩ | ⟨-, rfl⟩)
    · exact outsideA insideX
    · exact outsideA insideY

theorem separate (agree : AgreeOn part left right) (a b : Fin n) :
    AgreeOn part (left.separate a b) (right.separate a b) where
  classes := agree.classes
  lists x insideX y insideY := by
    refine (Exclusions.lists_insert_iff right.exclusions a b x y).trans (Iff.trans ?_
      (Exclusions.lists_insert_iff left.exclusions a b x y).symm)
    rw [agree.lists x insideX y insideY]

theorem of_join (respects : partition.Respects part) (topA : partition.root a = a)
    (topB : partition.root b = b) (different : a ≠ b) (outsideA : a ∉ part) (outsideB : b ∉ part) :
    AgreeOn part partition (partition.join a b) where
  classes := .of_union respects.classes outsideA outsideB
  lists x insideX y insideY := by
    rcases partition.exclusions_join topA topB different with ⟨gone, kept, ends, exclusions, -⟩
    -- which root goes is a matter of ranks, but both of them are outside
    have outside : gone ≠ kept ∧ gone ∉ part ∧ kept ∉ part := by
      rcases ends with ⟨rfl, rfl⟩ | ⟨rfl, rfl⟩
      · exact ⟨different, outsideA, outsideB⟩
      · exact ⟨different.symm, outsideB, outsideA⟩
    rcases outside with ⟨apart, outsideGone, outsideKept⟩
    have unequal : ∀ {z w : Fin n}, z ∈ part → w ∉ part → z ≠ w := by
      rintro z _ inside outside rfl
      exact outside inside
    have irrefl : partition.exclusions.Lists x y → x ≠ y := by
      rintro listed rfl
      exact respects.exclusions.irrefl x listed
    rw [exclusions, Exclusions.lists_move_iff respects.exclusions apart]
    simp only [ne_eq, unequal insideX outsideGone, unequal insideY outsideGone,
      unequal insideX outsideKept, unequal insideY outsideKept, not_false_eq_true, true_and,
      false_and, or_false]
    exact and_iff_right_of_imp irrefl

theorem join (agree : AgreeOn part left right) (leftRespects : left.Respects part)
    (rightRespects : right.Respects part) (topA : left.root a = a) (topB : left.root b = b)
    (different : a ≠ b) (insideA : a ∈ part) (insideB : b ∈ part) :
    AgreeOn part (left.join a b) (right.join a b) := by
  have classes := agree.classes.union leftRespects.classes insideA insideB
  refine ⟨classes, fun x insideX y insideY => ?_⟩
  have otherTopA : right.root a = a := (agree.root insideA).trans topA
  have otherTopB : right.root b = b := (agree.root insideB).trans topB
  rcases left.exclusions_join topA topB different with ⟨gone, kept, ends, exclusions, moved⟩
  rcases right.exclusions_join otherTopA otherTopB different with
      ⟨otherGone, otherKept, otherEnds, otherExclusions, otherMoved⟩
  -- the ranks agree, so the same root goes on both sides
  have sameEnds : otherGone = gone ∧ otherKept = kept := by
    have roots : (right.join a b).root a = (left.join a b).root a := classes.root a insideA
    rw [otherMoved, moved, topA, otherTopA] at roots
    grind
  have inside : gone ≠ kept ∧ gone ∈ part ∧ kept ∈ part := by
    rcases ends with ⟨rfl, rfl⟩ | ⟨rfl, rfl⟩
    · exact ⟨different, insideA, insideB⟩
    · exact ⟨different.symm, insideB, insideA⟩
  rcases sameEnds with ⟨rfl, rfl⟩
  rcases inside with ⟨apart, insideGone, insideKept⟩
  rw [exclusions, otherExclusions, Exclusions.lists_move_iff leftRespects.exclusions apart,
    Exclusions.lists_move_iff rightRespects.exclusions apart, agree.lists x insideX y insideY,
    agree.lists _ insideGone y insideY, agree.lists x insideX _ insideGone]

end AgreeOn

/-- Taking an edge outside of a part into account leaves the part as it was. -/
theorem AgreeOn.of_addEdge (respects : partition.Respects part) (outsideA : a ∉ part)
    (outsideB : b ∉ part) (repulsive : Bool) :
    AgreeOn part partition (partition.addEdge a b repulsive).2 := by
  have located : AgreeOn part partition (partition.located a b) := .of_located partition a b
  rw [addEdge_eq]
  split
  · exact located
  · next different =>
    split
    · exact located
    · split
      · exact located.trans (.of_separate (respects.root_not_mem outsideA))
      · refine located.trans (.of_join (respects.located a b) ?_ ?_ different
          (respects.root_not_mem outsideA) (respects.root_not_mem outsideB))
        · simp
        · simp

theorem AgreeOn.addEdge (agree : AgreeOn part left right) (leftRespects : left.Respects part)
    (rightRespects : right.Respects part) (insideA : a ∈ part) (insideB : b ∈ part)
    (repulsive : Bool) :
    (right.addEdge a b repulsive).1 = (left.addEdge a b repulsive).1 ∧
      AgreeOn part (left.addEdge a b repulsive).2 (right.addEdge a b repulsive).2 := by
  have located : AgreeOn part (left.located a b) (right.located a b) :=
    ((of_located left a b).symm.trans agree).trans (of_located right a b)
  have rootA := leftRespects.root_mem insideA
  have rootB := leftRespects.root_mem insideB
  rw [addEdge_eq, addEdge_eq, agree.root insideA, agree.root insideB,
    agree.excludes leftRespects rightRespects rootA rootB]
  split
  · exact ⟨rfl, located⟩
  · next different =>
    split
    · exact ⟨rfl, located⟩
    · split
      · exact ⟨rfl, located.separate _ _⟩
      · exact ⟨rfl, located.join (leftRespects.located a b) (rightRespects.located a b)
          (by simp) (by simp) different rootA rootB⟩

end Partition

end Watershed
