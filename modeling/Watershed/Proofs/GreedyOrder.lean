import Mathlib.Data.Finset.Max
import Watershed.Proofs.SignedGraph

/-!
# Orders with the same greedy set

Two orders of the same edges can have the same greedy set although they differ almost everywhere. It
is enough that they agree on the cycles of the graph: whenever an edge comes last on a cycle in the
first order, it comes last on it in the second order too. This is `SignedGraph.Closes`, stated
without cycles, through the parts of the cycle that lead from one edge to the other.

The proof compares the decisions on an edge. A walk of edges that come earlier in the first order
lies on a cycle that the edge closes, so its edges come earlier in the second order as well. A walk
of edges that come earlier in the second order may use edges that come later in the first one; these
are taken off the walk one by one, the last of them first, because the edge would have to come
before it in the second order if the walk could not do without it.
-/

namespace Watershed.SignedGraph

variable {ν : Type} {graph : SignedGraph ν} {edges more : Set Nat} {a b : ν}

/-- The edge joins two different nodes. -/
def Spans (graph : SignedGraph ν) (edge : Nat) : Prop :=
  ∃ a b, a ≠ b ∧ graph.Joins edge a b

theorem Spans.ne {edge : Nat} {a b : ν} (spans : graph.Spans edge) (joins : graph.Joins edge a b) :
    a ≠ b := by
  rcases spans with ⟨c, d, different, others⟩
  rcases others.same_ends joins with ⟨rfl, rfl⟩ | ⟨rfl, rfl⟩
  · exact different
  · exact different.symm

/-- Some walk along the given edges leads from one node to the other, whatever their kind. -/
def Reaches (graph : SignedGraph ν) (edges : Set Nat) (a b : ν) : Prop :=
  ∃ count, graph.Walk edges count a b

namespace Reaches

theorem refl (a : ν) : graph.Reaches edges a a :=
  ⟨0, .stay a⟩

theorem symm (reaches : graph.Reaches edges a b) : graph.Reaches edges b a := by
  rcases reaches with ⟨count, walk⟩
  exact ⟨count, walk.symm⟩

theorem trans {c : ν} (left : graph.Reaches edges a b) (right : graph.Reaches edges b c) :
    graph.Reaches edges a c := by
  rcases left with ⟨first, leftWalk⟩
  rcases right with ⟨second, rightWalk⟩
  exact ⟨first + second, leftWalk.trans rightWalk⟩

theorem mono (reaches : graph.Reaches edges a b) (subset : edges ⊆ more) :
    graph.Reaches more a b := by
  rcases reaches with ⟨count, walk⟩
  exact ⟨count, walk.mono subset⟩

theorem of_joins {edge : Nat} (member : edge ∈ edges) (joins : graph.Joins edge a b) :
    graph.Reaches edges a b := by
  cases kind : graph.repulsive edge with
  | false => exact ⟨0, .ofAttractive member kind joins⟩
  | true => exact ⟨1, .ofRepulsive member kind joins⟩

/-- What holds at the start of a walk and passes along each of its edges. -/
theorem induction (holds : ν → Prop) (reaches : graph.Reaches edges a b) (base : holds a)
    (step : ∀ x y, holds x → ∀ edge ∈ edges, graph.Joins edge x y → holds y) : holds b := by
  rcases reaches with ⟨count, walk⟩
  induction walk with
  | stay a => exact base
  | attract _ member _ joins ih => exact step _ _ (ih base) _ member joins
  | repel _ member _ joins ih => exact step _ _ (ih base) _ member joins

end Reaches

namespace Walk

/-- A walk uses only edges of the set that lie on the way between its two ends. -/
theorem restrict {count : Nat} (walk : graph.Walk edges count a b)
    (between : ∀ edge ∈ edges, ∀ x y, graph.Joins edge x y → graph.Reaches edges a x →
      graph.Reaches edges y b → edge ∈ more) : graph.Walk more count a b := by
  induction walk with
  | stay a => exact .stay a
  | attract walk member kind joins ih =>
      have last : graph.Reaches edges _ _ := .of_joins member joins
      refine .attract (ih ?_) (between _ member _ _ joins ⟨_, walk⟩ (.refl _)) kind joins
      intro edge edgeMember x y edgeJoins toX fromY
      exact between edge edgeMember x y edgeJoins toX (fromY.trans last)
  | repel walk member kind joins ih =>
      have last : graph.Reaches edges _ _ := .of_joins member joins
      refine .repel (ih ?_) (between _ member _ _ joins ⟨_, walk⟩ (.refl _)) kind joins
      intro edge edgeMember x y edgeJoins toX fromY
      exact between edge edgeMember x y edgeJoins toX (fromY.trans last)

/-- What `Walk.bypass` says about a walk to a node. -/
def Bypasses (graph : SignedGraph ν) (edges : Set Nat) (skipped count : Nat) (a b : ν) : Prop :=
  (∃ fewer ≤ count, graph.Walk (edges \ {skipped}) fewer a b) ∨
    ∃ x y, graph.Joins skipped x y ∧
      (∃ fewer ≤ count, graph.Walk (edges \ {skipped}) fewer a x) ∧
      graph.Reaches (edges \ {skipped}) y b

/-- A step along the skipped edge. -/
theorem Bypasses.cross {count skipped : Nat} {c : ν}
    (bypasses : Bypasses graph edges skipped count a b) (joins : graph.Joins skipped b c) :
    Bypasses graph edges skipped count a c := by
  rcases bypasses with before | ⟨x, y, ends, before, after⟩
  · exact .inr ⟨b, c, joins, before, .refl c⟩
  · rcases ends.same_ends joins with ⟨rfl, rfl⟩ | ⟨rfl, rfl⟩
    · exact .inr ⟨_, _, ends, before, .refl _⟩
    · exact .inl before

theorem Bypasses.mono {count larger skipped : Nat} (le : count ≤ larger)
    (bypasses : Bypasses graph edges skipped count a b) :
    Bypasses graph edges skipped larger a b := by
  rcases bypasses with ⟨fewer, bound, walk⟩ | ⟨x, y, ends, ⟨fewer, bound, walk⟩, after⟩
  · exact .inl ⟨fewer, bound.trans le, walk⟩
  · exact .inr ⟨x, y, ends, ⟨fewer, bound.trans le, walk⟩, after⟩

/--
A walk can do without an edge, unless its two ends reach the two ends of that edge without it.
-/
theorem bypass {count : Nat} (skipped : Nat) (walk : graph.Walk edges count a b) :
    Bypasses graph edges skipped count a b := by
  induction walk with
  | stay a => exact .inl ⟨0, Nat.le_refl 0, .stay a⟩
  | @attract count a b c edge walk member kind joins ih =>
      by_cases same : edge = skipped
      · subst same
        exact ih.cross joins
      · have rest : edge ∈ edges \ {skipped} := ⟨member, same⟩
        rcases ih with ⟨fewer, bound, before⟩ | ⟨x, y, ends, before, after⟩
        · exact .inl ⟨fewer, bound, .attract before rest kind joins⟩
        · exact .inr ⟨x, y, ends, before, after.trans (.of_joins rest joins)⟩
  | @repel count a b c edge walk member kind joins ih =>
      by_cases same : edge = skipped
      · subst same
        exact (ih.cross joins).mono (Nat.le_succ count)
      · have rest : edge ∈ edges \ {skipped} := ⟨member, same⟩
        rcases ih with ⟨fewer, bound, before⟩ | ⟨x, y, ends, ⟨fewer, bound, before⟩, after⟩
        · exact .inl ⟨fewer + 1, Nat.succ_le_succ bound, .repel before rest kind joins⟩
        · exact .inr ⟨x, y, ends, ⟨fewer, Nat.le_succ_of_le bound, before⟩,
            after.trans (.of_joins rest joins)⟩

end Walk

/-- The edges of an order that come before an edge. -/
def before (order : List Nat) (edge : Nat) : Set Nat :=
  {other | other ∈ order ∧ order.idxOf other < order.idxOf edge}

theorem before_subset_append {earlier later : List Nat} {edge : Nat} (member : edge ∈ earlier) :
    before earlier edge ⊆ before (earlier ++ later) edge := by
  rintro other ⟨otherMember, less⟩
  refine ⟨List.mem_append_left _ otherMember, ?_⟩
  rwa [List.idxOf_append_of_mem otherMember, List.idxOf_append_of_mem member]

theorem mem_before_append_singleton {earlier : List Nat} {edge other : Nat}
    (fresh : edge ∉ earlier) (member : other ∈ earlier) :
    other ∈ before (earlier ++ [edge]) edge := by
  refine ⟨List.mem_append_left _ member, ?_⟩
  rw [List.idxOf_append_of_mem member, List.idxOf_append_of_notMem fresh]
  exact Nat.lt_add_right _ (List.idxOf_lt_length_iff.2 member)

/--
Every edge on a cycle that the given edge closes in the first order comes before that edge in the
second order.
-/
def Closes (graph : SignedGraph ν) (first second : List Nat) : Prop :=
  ∀ last ∈ first, ∀ edge ∈ before first last, ∀ a b u v, graph.Joins last a b →
    graph.Joins edge u v → graph.Reaches (before first last) a u →
    graph.Reaches (before first last) v b → edge ∈ before second last

theorem before_append_cons {earlier later : List Nat} {edge : Nat}
    (distinct : (earlier ++ edge :: later).Nodup) :
    before (earlier ++ edge :: later) edge = {other | other ∈ earlier} := by
  have notEarlier : edge ∉ earlier := by
    intro member
    exact (List.nodup_append.1 distinct).2.2 edge member edge List.mem_cons_self rfl
  have position : (earlier ++ edge :: later).idxOf edge = earlier.length := by
    rw [List.idxOf_append_of_notMem notEarlier, List.idxOf_cons_self, Nat.add_zero]
  ext other
  rw [before, Set.mem_ofPred_eq, Set.mem_ofPred_eq, position]
  constructor
  · rintro ⟨-, earlierPosition⟩
    by_contra absent
    rw [List.idxOf_append_of_notMem absent] at earlierPosition
    omega
  · intro inEarlier
    refine ⟨List.mem_append_left _ inEarlier, ?_⟩
    rw [List.idxOf_append_of_mem inEarlier]
    exact List.idxOf_lt_length_iff.2 inEarlier

theorem greedy_inter_before {earlier later : List Nat} {edge : Nat}
    (distinct : (earlier ++ edge :: later).Nodup) :
    graph.greedy (earlier ++ edge :: later) ∩ before (earlier ++ edge :: later) edge =
      graph.greedy earlier := by
  have apart := (List.nodup_append.1 distinct).2.2
  rw [before_append_cons distinct]
  ext other
  rw [Set.mem_inter_iff, Set.mem_ofPred_eq]
  constructor
  · rintro ⟨kept, inEarlier⟩
    have notLater : other ∉ edge :: later := by
      intro member
      exact apart other inEarlier other member rfl
    exact (mem_greedy_append_iff notLater).1 kept
  · intro kept
    exact ⟨greedy_subset_append _ _ kept, (mem_of_mem_greedy kept).1⟩

theorem mem_greedy_iff_before {order : List Nat} {edge : Nat} (distinct : order.Nodup)
    (member : edge ∈ order) (joins : graph.Joins edge a b) :
    edge ∈ graph.greedy order ↔
      graph.Consistent (insert edge (graph.greedy order ∩ before order edge)) := by
  rcases List.append_of_mem member with ⟨earlier, later, rfl⟩
  have isEdge : (graph.ends? edge).isSome := isSome_ends?_iff_joins.2 ⟨a, b, joins⟩
  rw [greedy_inter_before distinct, mem_greedy_iff distinct]
  exact and_iff_right isEdge

section Comparison

variable {first second : List Nat}

theorem Closes.walk_before {edge count : Nat} {u v : ν} (closes : graph.Closes first second)
    (member : edge ∈ first) (joins : graph.Joins edge u v) (kept : Set Nat)
    (walk : graph.Walk (kept ∩ before first edge) count u v) :
    graph.Walk (kept ∩ before second edge) count u v := by
  refine walk.restrict fun other otherMember x y otherJoins toX fromY => ⟨otherMember.1, ?_⟩
  have below : kept ∩ before first edge ⊆ before first edge := Set.inter_subset_right
  exact closes edge member other otherMember.2 u v x y joins otherJoins (toX.mono below)
    (fromY.mono below)

/--
Edges that come later in the first order but earlier in the second one can be taken off a walk. The
last of them in the first order would close a cycle there with the edge on it.
-/
theorem Closes.walk_without_late {edge count : Nat} {u v : ν} (closes : graph.Closes first second)
    (joins : graph.Joins edge u v) {early : Set Nat}
    (below : early ⊆ before first edge) (late : Finset Nat)
    (above : ∀ other ∈ late, edge ∈ before first other ∧ other ∈ first)
    (precede : ∀ other ∈ late, other ∈ before second edge)
    (walk : graph.Walk (early ∪ late) count u v) :
    ∃ fewer ≤ count, graph.Walk early fewer u v := by
  induction late using Finset.induction_on_max_value first.idxOf generalizing count with
  | empty => exact ⟨count, Nat.le_refl count, by simpa using walk⟩
  | insert last late fresh largest ih =>
      have aboveRest := fun other member => above other (Finset.mem_insert_of_mem member)
      have precedeRest := fun other member => precede other (Finset.mem_insert_of_mem member)
      rcases above last (Finset.mem_insert_self last late) with ⟨edgeBelow, lastMember⟩
      have rest : (early ∪ ↑(insert last late)) \ {last} ⊆ early ∪ ↑late := by
        rintro other ⟨inUnion | inUnion, different⟩
        · exact .inl inUnion
        · rw [Finset.mem_coe, Finset.mem_insert] at inUnion
          exact .inr (inUnion.resolve_left different)
      have restBelow : early ∪ ↑late ⊆ before first last := by
        rintro other (inEarly | inLate)
        · rcases below inEarly with ⟨otherMember, otherBelow⟩
          exact ⟨otherMember, otherBelow.trans edgeBelow.2⟩
        · refine ⟨(aboveRest other inLate).2, lt_of_le_of_ne (largest other inLate) ?_⟩
          intro equal
          rw [List.idxOf_inj (aboveRest other inLate).2] at equal
          exact fresh (equal ▸ inLate)
      rcases walk.bypass last with ⟨fewer, bound, without⟩ | ⟨x, y, ends, ⟨_, _, toX⟩, fromY⟩
      · rcases ih aboveRest precedeRest (without.mono rest) with ⟨least, leastBound, found⟩
        exact ⟨least, leastBound.trans bound, found⟩
      · have toEdge : graph.Reaches (before first last) x u :=
          Reaches.symm ⟨_, toX.mono (rest.trans restBelow)⟩
        have fromEdge : graph.Reaches (before first last) v y :=
          (fromY.mono (rest.trans restBelow)).symm
        have edgeFirst := closes last lastMember edge edgeBelow x y u v ends joins toEdge fromEdge
        have lastFirst := precede last (Finset.mem_insert_self last late)
        exact absurd (edgeFirst.2.trans lastFirst.2) (Nat.lt_irrefl _)

/-- Two sets decide alike on an edge if each walk between its ends has a counterpart. -/
theorem consistent_insert_congr {edge : Nat} {u v : ν} (joins : graph.Joins edge u v)
    (consistent : graph.Consistent edges) (consistentMore : graph.Consistent more)
    (toMore : ∀ count, graph.Walk edges count u v → graph.Walk more count u v)
    (fromMore : ∀ count, graph.Walk more count u v → ∃ fewer ≤ count, graph.Walk edges fewer u v) :
    graph.Consistent (insert edge edges) ↔ graph.Consistent (insert edge more) := by
  cases kind : graph.repulsive edge with
  | true =>
      rw [consistent_insert_of_repulsive consistent kind joins,
        consistent_insert_of_repulsive consistentMore kind joins]
      apply not_congr
      constructor
      · exact toMore 0
      · intro linked
        rcases fromMore 0 linked with ⟨fewer, bound, walk⟩
        rcases Nat.le_zero.1 bound with rfl
        exact walk
  | false =>
      rw [consistent_insert_of_attractive consistent kind joins,
        consistent_insert_of_attractive consistentMore kind joins]
      apply not_congr
      constructor
      · exact toMore 1
      · intro opposed
        rcases fromMore 1 opposed with ⟨fewer, bound, walk⟩
        rcases Nat.le_one_iff_eq_zero_or_eq_one.1 bound with rfl | rfl
        · exact absurd (toMore 0 walk) (consistentMore.not_linked_of_opposed opposed)
        · exact walk

theorem Closes.same_decision {edge : Nat} {u v : ν} (closes : graph.Closes first second)
    (same : ∀ other, other ∈ first ↔ other ∈ second) (member : edge ∈ first)
    (joins : graph.Joins edge u v)
    (agree : ∀ other ∈ before first edge,
      other ∈ graph.greedy first ↔ other ∈ graph.greedy second) :
    graph.Consistent (insert edge (graph.greedy first ∩ before first edge)) ↔
      graph.Consistent (insert edge (graph.greedy second ∩ before second edge)) := by
  classical
  -- up to the edge the first order has kept what the second one keeps, but the second order has
  -- other edges before it, which only close cycles
  have early :
      graph.greedy first ∩ before first edge = graph.greedy second ∩ before first edge := by
    ext other
    exact and_congr_left (agree other)
  rw [early]
  have consistent := graph.consistent_greedy second
  refine consistent_insert_congr joins (consistent.anti Set.inter_subset_left)
    (consistent.anti Set.inter_subset_left) (fun count => ?_) fun count walk => ?_
  · exact closes.walk_before member joins _
  · refine closes.walk_without_late joins Set.inter_subset_right
      (first.toFinset.filter fun other =>
        edge ∈ before first other ∧ other ∈ before second edge) ?_ ?_ (walk.mono ?_)
    · intro other late
      rw [Finset.mem_filter, List.mem_toFinset] at late
      exact ⟨late.2.1, late.1⟩
    · intro other late
      exact (Finset.mem_filter.1 late).2.2
    · rintro other ⟨kept, precedes⟩
      have otherMember : other ∈ first := (same other).2 precedes.1
      have different : first.idxOf other ≠ first.idxOf edge := by
        intro equal
        rw [List.idxOf_inj otherMember] at equal
        exact absurd (equal ▸ precedes.2) (Nat.lt_irrefl _)
      rcases Nat.lt_or_gt_of_ne different with less | greater
      · exact .inl ⟨kept, otherMember, less⟩
      · right
        rw [Finset.mem_coe, Finset.mem_filter, List.mem_toFinset]
        exact ⟨otherMember, ⟨member, greater⟩, precedes⟩

/--
Orders of the same edges keep the same edges if the second one closes the cycles of the first.
-/
theorem Closes.greedy_eq (closes : graph.Closes first second) (distinct : first.Nodup)
    (distinctSecond : second.Nodup) (same : ∀ edge, edge ∈ first ↔ edge ∈ second) :
    graph.greedy first = graph.greedy second := by
  suffices decided : ∀ position edge, edge ∈ first → first.idxOf edge = position →
      (edge ∈ graph.greedy first ↔ edge ∈ graph.greedy second) by
    ext edge
    by_cases member : edge ∈ first
    · exact decided _ edge member rfl
    · constructor
      · exact fun kept => absurd (mem_of_mem_greedy kept).1 member
      · exact fun kept => absurd ((same edge).2 (mem_of_mem_greedy kept).1) member
  intro position
  -- the edges before a position of the first order are decided before it
  induction position using Nat.strong_induction_on with
  | _ position ih =>
    rintro edge member rfl
    cases ends : graph.ends? edge with
    | none =>
        have dropped : ∀ order, edge ∉ graph.greedy order := by
          intro order kept
          simpa [ends] using (mem_of_mem_greedy kept).2
        exact ⟨fun kept => absurd kept (dropped first), fun kept => absurd kept (dropped second)⟩
    | some pair =>
        have joins : graph.Joins edge pair.1 pair.2 := .inl ends
        rw [mem_greedy_iff_before distinct member joins,
          mem_greedy_iff_before distinctSecond ((same edge).1 member) joins]
        refine closes.same_decision same member joins fun other earlier => ?_
        exact ih _ earlier.2 other earlier.1 rfl

end Comparison

end Watershed.SignedGraph
