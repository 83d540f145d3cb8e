import Watershed.Proofs.Growth
import Watershed.Proofs.Parts

/-!
# Growth is local

Two growths that cannot be told apart on a closed part of the grid are taken through their seeds
side by side. A seed outside of the part grows a region outside, and what that does in one run has
no counterpart in the other, but it changes nothing in the part. A seed inside of the part finds
both frontiers empty. From then on these hold the same candidates up to priorities, and since
priorities compare in the same way, both runs take the same candidate next.
-/

namespace Watershed

namespace Candidate

variable {n : Nat} {priorities others : Array Nat}

/-- A candidate with the priority that its edge has. -/
def weighed (priorities : Array Nat) (candidate : Candidate n) : Candidate n :=
  { candidate with priority := Ranking.priority priorities candidate.edge }

theorem weighed_of_priority_eq {candidate : Candidate n}
    (weight : candidate.priority = Ranking.priority priorities candidate.edge) :
    candidate.weighed priorities = candidate := by
  rw [weighed, ← weight]

theorem weighed_eq_weighed_iff {candidate other : Candidate n} :
    candidate.weighed priorities = other.weighed priorities ↔ candidate.edge = other.edge ∧
      candidate.source = other.source ∧ candidate.target = other.target := by
  simp only [weighed, Candidate.mk.injEq]
  grind

/-- The order of two candidates depends on how the priorities of their edges compare only. -/
theorem order_weighed {candidate other : Candidate n}
    (compares : compare (Ranking.priority others other.edge)
        (Ranking.priority others candidate.edge) =
      compare (Ranking.priority priorities other.edge)
        (Ranking.priority priorities candidate.edge)) :
    order (candidate.weighed others) (other.weighed others) =
      order (candidate.weighed priorities) (other.weighed priorities) := by
  simp only [order, compareLex, compareOn, weighed, compares]

end Candidate

namespace Growth

section State

variable {n : Nat} {part : Set (Fin n)} {inner : Set Nat} {growth left right : Growth n}
  {node : Fin n}

/-- Two states agree on a part of the nodes and the edges inside of it, whatever their frontiers. -/
structure AgreeOn (part : Set (Fin n)) (inner : Set Nat) (left right : Growth n) : Prop where
  partition : left.partition.AgreeOn part right.partition
  visited : ∀ edge ∈ inner, right.visited[edge]? = left.visited[edge]?
  reached : ∀ x ∈ part, right.reached.get x = left.reached.get x

namespace AgreeOn

theorem refl (growth : Growth n) : AgreeOn part inner growth growth :=
  ⟨.refl _, fun _ _ => rfl, fun _ _ => rfl⟩

theorem symm (agree : AgreeOn part inner left right) : AgreeOn part inner right left where
  partition := agree.partition.symm
  visited edge isInner := (agree.visited edge isInner).symm
  reached x inside := (agree.reached x inside).symm

theorem trans {middle : Growth n} (first : AgreeOn part inner left middle)
    (second : AgreeOn part inner middle right) : AgreeOn part inner left right where
  partition := first.partition.trans second.partition
  visited edge isInner := (second.visited edge isInner).trans (first.visited edge isInner)
  reached x inside := (second.reached x inside).trans (first.reached x inside)

theorem of_alike {after : Growth n} (alike : Alike growth after) :
    AgreeOn part inner growth after where
  partition := {
    classes := ⟨fun x _ => alike.roots x, fun x _ => by rw [alike.ranks]⟩
    lists := fun x _ y _ => by rw [alike.exclusions] }
  visited edge _ := by rw [alike.visited]
  reached x _ := by rw [alike.reached]

theorem of_mark (outside : node ∉ part) : AgreeOn part inner growth (mark growth node) where
  partition := .refl _
  visited _ _ := rfl
  reached x inside := by
    have apart : x ≠ node := fun same => outside (same ▸ inside)
    rw [reached_mark, if_neg apart]

theorem mark (agree : AgreeOn part inner left right) (node : Fin n) :
    AgreeOn part inner (mark left node) (mark right node) where
  partition := agree.partition
  visited := agree.visited
  reached x inside := by rw [reached_mark, reached_mark, agree.reached x inside]

end AgreeOn

end State

section Outside

variable {edges : RankedEdges} {part : Set (Fin edges.index.nodes)}
  {growth : Growth edges.index.nodes} {candidate : Candidate edges.index.nodes}
  {node : Fin edges.index.nodes}

theorem agreeOn_reach_of_not_mem {inner : Set Nat} (outside : node ∉ part) :
    AgreeOn part inner growth (reach edges growth node) :=
  (AgreeOn.of_mark outside).trans (.of_alike (alike_reach growth node))

theorem Steady.respects (steady : Steady growth) (closed : edges.graph.Closed part) :
    growth.partition.Respects part := by
  rcases steady with ⟨history, grown⟩
  exact grown.realizes.respects closed

/-- A candidate that starts outside of a closed part leads to a state that agrees on the part. -/
theorem Steady.agreeOn_take (steady : Steady growth) (closed : edges.graph.Closed part)
    (member : candidate ∈ growth.frontier) (outside : candidate.source ∉ part) :
    AgreeOn part (edges.graph.inner part) growth (Growth.take edges growth candidate) := by
  have respects := steady.respects closed
  rcases steady with ⟨history, grown⟩
  have joins := grown.joins candidate member
  have targetOutside : candidate.target ∉ part := mt (closed.joins joins).2 outside
  have added : AgreeOn part (edges.graph.inner part) growth (add edges growth candidate) := {
    partition := .of_addEdge respects outside targetOutside _
    visited := by
      intro edge isInner
      have apart : candidate.edge ≠ edge := by
        rintro rfl
        exact SignedGraph.not_mem_inner_of_joins joins outside isInner
      simp [add, apart]
    reached := fun _ _ => rfl }
  rw [take_eq]
  split
  · exact ⟨.refl _, fun _ _ => rfl, fun _ _ => rfl⟩
  · split
    · exact added
    · exact added.trans (agreeOn_reach_of_not_mem targetOutside)

theorem source_of_mem_frontier_take {other : Candidate edges.index.nodes}
    (member : other ∈ (take edges growth candidate).frontier) :
    other ∈ growth.frontier ∨ other.source = candidate.target := by
  rw [take_eq] at member
  split at member
  · exact .inl (Std.TreeSet.mem_of_mem_erase member)
  · split at member
    · exact .inl (Std.TreeSet.mem_of_mem_erase member)
    · rcases (mem_frontier_reach _ _ _).1 member with old | leads
      · exact .inl (Std.TreeSet.mem_of_mem_erase old)
      · exact .inr leads.source

theorem Steady.agreeOn_settle (steady : Steady growth) (closed : edges.graph.Closed part)
    (outside : ∀ candidate ∈ growth.frontier, candidate.source ∉ part) :
    AgreeOn part (edges.graph.inner part) growth (Growth.settle edges growth) := by
  fun_induction Growth.settle edges growth with
  | case1 growth found => exact .refl growth
  | case2 growth candidate found _ ih =>
      have member := (Std.TreeSet.min?_eq_some_iff_mem_and_forall.1 found).1
      refine (steady.agreeOn_take closed member (outside candidate member)).trans
        (ih (steady.take found).1 fun other isOther => ?_)
      rcases source_of_mem_frontier_take isOther with old | atTarget
      · exact outside other old
      · rcases steady with ⟨history, grown⟩
        rw [atTarget, ← closed.joins (grown.joins candidate member)]
        exact outside candidate member

/-- A seed outside of a closed part grows a region that stays outside. -/
theorem Resting.agreeOn_growFrom (resting : Resting growth) (closed : edges.graph.Closed part)
    {seed : Fin edges.index.nodes} (outside : seed ∉ part) :
    AgreeOn part (edges.graph.inner part) growth (Growth.growFrom edges growth seed) := by
  unfold Growth.growFrom
  split
  · exact .refl growth
  · refine (agreeOn_reach_of_not_mem outside).trans ((resting.reach seed).agreeOn_settle closed ?_)
    intro candidate member
    rcases (mem_frontier_reach growth seed candidate).1 member with old | leads
    · exact absurd old (resting.2 candidate)
    · rw [leads.source]
      exact outside

end Outside

section Inside

variable {index : EdgeIndex} {part : Set (Fin index.nodes)} {priorities others : Array Nat}
  {valid otherValid : Array Bool} {left right : Growth index.nodes}
  {candidate : Candidate index.nodes} {node : Fin index.nodes}

/--
Two growths that agree on a part, grow inside of it, and have frontiers that differ in the
priorities of the candidates only.
-/
structure Abreast (index : EdgeIndex) (part : Set (Fin index.nodes)) (priorities others : Array Nat)
    (valid : Array Bool) (left right : Growth index.nodes) : Prop where
  agree : AgreeOn part ((index.graph valid).inner part) left right
  inside : ∀ candidate ∈ left.frontier, candidate.source ∈ part
  frontiers : ∀ candidate : Candidate index.nodes,
    candidate.weighed others ∈ right.frontier ↔ candidate.weighed priorities ∈ left.frontier

theorem leads_weighed_iff (agree : index.AgreeOn part priorities others valid otherValid)
    (same : AgreeOn part ((index.graph valid).inner part) left right) (inside : node ∈ part) :
    @Leads ⟨index, others, otherValid⟩ right (right.partition.root node) node
        (candidate.weighed others) ↔
      @Leads ⟨index, priorities, valid⟩ left (left.partition.root node) node
        (candidate.weighed priorities) := by
  have joins : (index.graph otherValid).Joins candidate.edge node candidate.target ↔
      (index.graph valid).Joins candidate.edge node candidate.target :=
    agree.graph.joins_iff inside
  have rootNode := same.partition.root inside
  have seen : (index.graph valid).Joins candidate.edge node candidate.target →
      right.visited[candidate.edge]? = left.visited[candidate.edge]? ∧
        right.partition.root candidate.target = left.partition.root candidate.target := by
    intro ends
    have targetInside := (agree.closed.joins ends).1 inside
    exact ⟨same.visited _ (SignedGraph.mem_inner_of_joins ends inside targetInside),
      same.partition.root targetInside⟩
  constructor
  · rintro ⟨-, source, ends, fresh, outside⟩
    rcases seen (joins.1 ends) with ⟨visited, rootTarget⟩
    exact ⟨rfl, source, joins.1 ends, visited ▸ fresh, rootNode ▸ rootTarget ▸ outside⟩
  · rintro ⟨-, source, ends, fresh, outside⟩
    rcases seen ends with ⟨visited, rootTarget⟩
    exact ⟨rfl, source, joins.2 ends, visited ▸ fresh, rootNode ▸ rootTarget ▸ outside⟩

namespace Abreast

/-- The edge of a candidate is inside of the part. -/
theorem inner (agree : index.AgreeOn part priorities others valid otherValid)
    (abreast : Abreast index part priorities others valid left right)
    (steady : @Steady ⟨index, priorities, valid⟩ left) (member : candidate ∈ left.frontier) :
    candidate.source ∈ part ∧ candidate.target ∈ part ∧
      candidate.edge ∈ (index.graph valid).inner part := by
  rcases steady with ⟨history, grown⟩
  have joins := grown.joins candidate member
  have insideA := abreast.inside candidate member
  have insideB := (agree.closed.joins joins).1 insideA
  exact ⟨insideA, insideB, SignedGraph.mem_inner_of_joins joins insideA insideB⟩

theorem reach (agree : index.AgreeOn part priorities others valid otherValid)
    (abreast : Abreast index part priorities others valid left right) (inside : node ∈ part) :
    Abreast index part priorities others valid (Growth.reach ⟨index, priorities, valid⟩ left node)
      (Growth.reach ⟨index, others, otherValid⟩ right node) where
  agree :=
    ((AgreeOn.of_alike (@alike_reach ⟨index, priorities, valid⟩ left node)).symm.trans
      (abreast.agree.mark node)).trans
        (.of_alike (@alike_reach ⟨index, others, otherValid⟩ right node))
  inside candidate member := by
    rcases (@mem_frontier_reach ⟨index, priorities, valid⟩ left node candidate).1 member with
      old | leads
    · exact abreast.inside candidate old
    · rw [leads.source]
      exact inside
  frontiers candidate := by
    rw [@mem_frontier_reach ⟨index, priorities, valid⟩ left node,
      @mem_frontier_reach ⟨index, others, otherValid⟩ right node, abreast.frontiers,
      leads_weighed_iff agree abreast.agree inside]

theorem mem_erase_iff (abreast : Abreast index part priorities others valid left right)
    (other : Candidate index.nodes) :
    other.weighed others ∈ right.frontier.erase (candidate.weighed others) ↔
      other.weighed priorities ∈ left.frontier.erase (candidate.weighed priorities) := by
  rw [Candidate.mem_erase_iff, Candidate.mem_erase_iff, abreast.frontiers, ne_eq, ne_eq,
    Candidate.weighed_eq_weighed_iff, Candidate.weighed_eq_weighed_iff]

/-- Adding the edges of corresponding candidates has the same outcome. -/
theorem add (agree : index.AgreeOn part priorities others valid otherValid)
    (abreast : Abreast index part priorities others valid left right)
    (leftSteady : @Steady ⟨index, priorities, valid⟩ left)
    (rightSteady : @Steady ⟨index, others, otherValid⟩ right)
    (member : candidate.weighed priorities ∈ left.frontier) :
    outcome ⟨index, others, otherValid⟩ right (candidate.weighed others) =
        outcome ⟨index, priorities, valid⟩ left (candidate.weighed priorities) ∧
      Abreast index part priorities others valid
        (Growth.add ⟨index, priorities, valid⟩ left (candidate.weighed priorities))
        (Growth.add ⟨index, others, otherValid⟩ right (candidate.weighed others)) := by
  have respects := leftSteady.respects agree.closed
  have otherRespects := rightSteady.respects agree.otherClosed
  rcases abreast.inner agree leftSteady member with ⟨insideA, insideB, -⟩
  rcases leftSteady with ⟨history, grown⟩
  rcases rightSteady with ⟨otherHistory, otherGrown⟩
  rcases abreast.agree.partition.addEdge respects otherRespects insideA insideB
      (index.isRepulsive candidate.edge) with ⟨outcomes, partitions⟩
  refine ⟨outcomes, ⟨partitions, fun edge isInner => ?_, abreast.agree.reached⟩, ?_, ?_⟩
  · have sizes : right.visited.size = left.visited.size :=
      otherGrown.sized.trans grown.sized.symm
    simp only [Growth.add, Candidate.weighed, Array.getElem?_setIfInBounds, sizes,
      abreast.agree.visited edge isInner]
  · exact fun other isOther => abreast.inside other (Std.TreeSet.mem_of_mem_erase isOther)
  · exact abreast.mem_erase_iff

theorem take (agree : index.AgreeOn part priorities others valid otherValid)
    (abreast : Abreast index part priorities others valid left right)
    (leftSteady : @Steady ⟨index, priorities, valid⟩ left)
    (rightSteady : @Steady ⟨index, others, otherValid⟩ right)
    (member : candidate.weighed priorities ∈ left.frontier) :
    Abreast index part priorities others valid
      (Growth.take ⟨index, priorities, valid⟩ left (candidate.weighed priorities))
      (Growth.take ⟨index, others, otherValid⟩ right (candidate.weighed others)) := by
  rcases abreast.add agree leftSteady rightSteady member with ⟨outcomes, added⟩
  rcases abreast.inner agree leftSteady member with ⟨-, insideB, isInner⟩
  have visited : right.visited[(candidate.weighed others).edge]? =
      left.visited[(candidate.weighed priorities).edge]? :=
    abreast.agree.visited _ isInner
  have reached : right.reached.get (candidate.weighed others).target =
      left.reached.get (candidate.weighed priorities).target :=
    abreast.agree.reached _ insideB
  rw [@take_eq ⟨index, priorities, valid⟩ left, @take_eq ⟨index, others, otherValid⟩ right,
    outcomes, visited, reached]
  split
  · exact ⟨⟨abreast.agree.partition, abreast.agree.visited, abreast.agree.reached⟩,
      fun other isOther => abreast.inside other (Std.TreeSet.mem_of_mem_erase isOther),
      abreast.mem_erase_iff⟩
  · split
    · exact added
    · exact added.reach agree insideB

/-- The best candidates of the two frontiers correspond. -/
theorem min? (agree : index.AgreeOn part priorities others valid otherValid)
    (abreast : Abreast index part priorities others valid left right)
    (leftSteady : @Steady ⟨index, priorities, valid⟩ left)
    (rightSteady : @Steady ⟨index, others, otherValid⟩ right)
    (found : left.frontier.min? = some candidate) :
    candidate.weighed priorities = candidate ∧
      right.frontier.min? = some (candidate.weighed others) := by
  rcases Std.TreeSet.min?_eq_some_iff_mem_and_forall.1 found with ⟨member, best⟩
  have inner : ∀ other ∈ left.frontier, other.edge ∈ (index.graph valid).inner part :=
    fun _ isOther => (abreast.inner agree leftSteady isOther).2.2
  rcases leftSteady with ⟨history, grown⟩
  rcases rightSteady with ⟨otherHistory, otherGrown⟩
  have weighed : candidate.weighed priorities = candidate :=
    Candidate.weighed_of_priority_eq (grown.priority candidate member)
  refine ⟨weighed, Std.TreeSet.min?_eq_some_iff_mem_and_forall.2 ⟨?_, fun rival isRival => ?_⟩⟩
  · rw [abreast.frontiers, weighed]
    exact member
  · have rivalWeighed : rival.weighed others = rival :=
      Candidate.weighed_of_priority_eq (otherGrown.priority rival isRival)
    have isOld : rival.weighed priorities ∈ left.frontier := by
      rw [← abreast.frontiers, rivalWeighed]
      exact isRival
    have sameOrder := Candidate.order_weighed
      (agree.compares rival.edge (inner (rival.weighed priorities) isOld) candidate.edge
        (inner candidate member))
    rw [← rivalWeighed, sameOrder, weighed]
    exact best _ isOld

/-- Two growths that are abreast take corresponding candidates until both frontiers are empty. -/
theorem settle (agree : index.AgreeOn part priorities others valid otherValid)
    (abreast : Abreast index part priorities others valid left right)
    (leftSteady : @Steady ⟨index, priorities, valid⟩ left)
    (rightSteady : @Steady ⟨index, others, otherValid⟩ right) :
    AgreeOn part ((index.graph valid).inner part)
      (Growth.settle ⟨index, priorities, valid⟩ left)
      (Growth.settle ⟨index, others, otherValid⟩ right) := by
  -- the recursion is that of the left run; the right one is unfolded along with it
  fun_induction Growth.settle ⟨index, priorities, valid⟩ left generalizing right with
  | case1 left found =>
      have otherFound : right.frontier.min? = none := by
        rw [Std.TreeSet.min?_eq_none_iff, Std.TreeSet.isEmpty_iff_forall_not_mem] at found ⊢
        intro rival isRival
        rcases rightSteady with ⟨otherHistory, otherGrown⟩
        rw [← Candidate.weighed_of_priority_eq (otherGrown.priority rival isRival)] at isRival
        exact found _ ((abreast.frontiers rival).1 isRival)
      rw [@settle_of_min?_eq_none ⟨index, others, otherValid⟩ right otherFound]
      exact abreast.agree
  | case2 left candidate found _ ih =>
      rcases abreast.min? agree leftSteady rightSteady found with ⟨weighed, otherFound⟩
      have member := (Std.TreeSet.min?_eq_some_iff_mem_and_forall.1 found).1
      rw [← weighed] at member
      have taken := abreast.take agree leftSteady rightSteady member
      rw [weighed] at taken
      rw [@settle_of_min?_eq_some ⟨index, others, otherValid⟩ right _ otherFound]
      exact ih taken (leftSteady.take found).1 (rightSteady.take otherFound).1

end Abreast

/-- A seed inside of the part grows corresponding regions in both runs. -/
theorem growFrom_agreeOn (agree : index.AgreeOn part priorities others valid otherValid)
    (same : AgreeOn part ((index.graph valid).inner part) left right)
    (leftResting : @Resting ⟨index, priorities, valid⟩ left)
    (rightResting : @Resting ⟨index, others, otherValid⟩ right)
    (seed : Fin index.nodes) :
    AgreeOn part ((index.graph valid).inner part)
      (growFrom ⟨index, priorities, valid⟩ left seed)
      (growFrom ⟨index, others, otherValid⟩ right seed) := by
  by_cases inside : seed ∈ part
  · have abreast : Abreast index part priorities others valid left right := {
      agree := same
      inside := fun candidate member => absurd member (leftResting.2 candidate)
      frontiers := fun candidate => iff_of_false (rightResting.2 _) (leftResting.2 _) }
    unfold growFrom
    rw [same.reached seed inside]
    split
    · exact same
    · exact (abreast.reach agree inside).settle agree (leftResting.reach seed)
        (rightResting.reach seed)
  · -- one of the runs may have reached this seed already, so they need not do the same here
    have before : AgreeOn part ((index.graph valid).inner part) left _ :=
      leftResting.agreeOn_growFrom agree.closed inside
    have after : AgreeOn part ((index.graph otherValid).inner part) right _ :=
      rightResting.agreeOn_growFrom agree.otherClosed inside
    rw [agree.graph.inner_eq] at after
    exact (before.symm.trans same).trans after

theorem foldl_growFrom_agreeOn (agree : index.AgreeOn part priorities others valid otherValid)
    (same : AgreeOn part ((index.graph valid).inner part) left right)
    (leftResting : @Resting ⟨index, priorities, valid⟩ left)
    (rightResting : @Resting ⟨index, others, otherValid⟩ right) (seeds : List (Fin index.nodes)) :
    AgreeOn part ((index.graph valid).inner part)
      (seeds.foldl (growFrom ⟨index, priorities, valid⟩) left)
      (seeds.foldl (growFrom ⟨index, others, otherValid⟩) right) := by
  induction seeds generalizing left right with
  | nil => exact same
  | cons seed seeds ih =>
      exact ih (growFrom_agreeOn agree same leftResting rightResting seed)
        (leftResting.growFrom seed).1 (rightResting.growFrom seed).1

theorem run_agreeOn (agree : index.AgreeOn part priorities others valid otherValid) :
    AgreeOn part ((index.graph valid).inner part) (run ⟨index, priorities, valid⟩)
      (run ⟨index, others, otherValid⟩) :=
  foldl_growFrom_agreeOn agree (.refl _) .start .start (List.finRange index.nodes)

end Inside

end Growth

end Watershed
