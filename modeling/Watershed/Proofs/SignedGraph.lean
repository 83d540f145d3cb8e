import Mathlib.Data.List.Induction
import Mathlib.Data.Set.Insert
import Watershed.Edge.Index

/-!
# Signed graphs and their greedy sets

A signed graph has numbered edges of two kinds, attractive ones and repulsive ones. Everything that
a clustering decides is a statement about walks in such a graph: two nodes are linked when a walk
along attractive edges leads from one to the other, and they are opposed when a walk with exactly
one repulsive edge does. A set of edges is consistent when none of its repulsive edges joins linked
nodes.

The greedy set of a list of edges is built by walking along the list and keeping an edge exactly
when the set stays consistent. Among the consistent sets of edges of a list without repetitions it
is the lexicographically greatest one.
-/

namespace Watershed

/-- The ends and the kind of every edge. A number without ends is not an edge. -/
structure SignedGraph (ν : Type) where
  ends? : Nat → Option (ν × ν)
  repulsive : Nat → Bool

/-- The valid edges of a grid, with the ends that the numbering gives them. -/
def EdgeIndex.graph (index : EdgeIndex) (valid : Array Bool) :
    SignedGraph (Fin index.nodes) where
  ends? edge := if valid[edge]? = some true then index.ends? edge else none
  repulsive := index.isRepulsive

namespace SignedGraph

variable {ν : Type} (graph : SignedGraph ν)

/-- An edge has the two given ends, in either order. -/
def Joins (edge : Nat) (a b : ν) : Prop :=
  graph.ends? edge = some (a, b) ∨ graph.ends? edge = some (b, a)

/-- A walk along a set of edges, with the number of repulsive edges on it. -/
inductive Walk (edges : Set Nat) : Nat → ν → ν → Prop where
  | stay (a : ν) : Walk edges 0 a a
  | attract {count : Nat} {a b c : ν} {edge : Nat} (walk : Walk edges count a b)
      (member : edge ∈ edges) (kind : graph.repulsive edge = false) (joins : graph.Joins edge b c) :
      Walk edges count a c
  | repel {count : Nat} {a b c : ν} {edge : Nat} (walk : Walk edges count a b)
      (member : edge ∈ edges) (kind : graph.repulsive edge = true) (joins : graph.Joins edge b c) :
      Walk edges (count + 1) a c

/-- Attractive edges of a set lead from one node to the other. -/
def Linked (edges : Set Nat) (a b : ν) : Prop :=
  graph.Walk edges 0 a b

/-- Attractive edges of a set and one of its repulsive edges lead from one node to the other. -/
def Opposed (edges : Set Nat) (a b : ν) : Prop :=
  graph.Walk edges 1 a b

/-- No repulsive edge of a set has ends that attractive edges of the set link. -/
def Consistent (edges : Set Nat) : Prop :=
  ∀ edge ∈ edges, graph.repulsive edge = true →
    ∀ a b, graph.ends? edge = some (a, b) → ¬ graph.Linked edges a b

open Classical in
/-- A set with one more edge, if the number is that of an edge and the set stays consistent. -/
noncomputable def retain (edges : Set Nat) (edge : Nat) : Set Nat :=
  if (graph.ends? edge).isSome ∧ graph.Consistent (insert edge edges) then insert edge edges
  else edges

/-- The set of the edges that are kept while walking along a list. -/
noncomputable def greedy (order : List Nat) : Set Nat :=
  order.foldl graph.retain ∅

variable {graph} {edges more : Set Nat} {a b c : ν}

theorem Joins.symm {edge : Nat} (joins : graph.Joins edge a b) : graph.Joins edge b a :=
  Or.symm joins

theorem joins_of_ends?_eq {edge : Nat} (ends : graph.ends? edge = some (a, b)) :
    graph.Joins edge a b :=
  .inl ends

theorem isSome_ends?_iff_joins {edge : Nat} :
    (graph.ends? edge).isSome ↔ ∃ a b, graph.Joins edge a b := by
  constructor
  · intro isEdge
    rcases Option.isSome_iff_exists.1 isEdge with ⟨⟨a, b⟩, ends⟩
    exact ⟨a, b, joins_of_ends?_eq ends⟩
  · rintro ⟨a, b, ends | ends⟩ <;> simp [ends]

theorem Joins.same_ends {edge : Nat} {c d : ν} (joins : graph.Joins edge a b)
    (other : graph.Joins edge c d) : (c = a ∧ d = b) ∨ (c = b ∧ d = a) := by
  rcases joins with joins | joins <;> rcases other with other | other <;>
    simp only [joins, Option.some.injEq, Prod.mk.injEq] at other <;> grind

namespace Walk

theorem mono {count : Nat} (walk : graph.Walk edges count a b) (subset : edges ⊆ more) :
    graph.Walk more count a b := by
  induction walk with
  | stay a => exact .stay a
  | attract _ member kind joins ih => exact .attract ih (subset member) kind joins
  | repel _ member kind joins ih => exact .repel ih (subset member) kind joins

theorem trans {first second : Nat} (left : graph.Walk edges first a b)
    (right : graph.Walk edges second b c) : graph.Walk edges (first + second) a c := by
  induction right with
  | stay b => exact left
  | attract _ member kind joins ih => exact .attract (ih left) member kind joins
  | repel _ member kind joins ih => exact .repel (ih left) member kind joins

theorem ofAttractive {edge : Nat} (member : edge ∈ edges) (kind : graph.repulsive edge = false)
    (joins : graph.Joins edge a b) : graph.Walk edges 0 a b :=
  .attract (.stay a) member kind joins

theorem ofRepulsive {edge : Nat} (member : edge ∈ edges) (kind : graph.repulsive edge = true)
    (joins : graph.Joins edge a b) : graph.Walk edges 1 a b :=
  .repel (.stay a) member kind joins

theorem symm {count : Nat} (walk : graph.Walk edges count a b) : graph.Walk edges count b a := by
  induction walk with
  | stay a => exact .stay a
  | attract _ member kind joins ih =>
      simpa using (ofAttractive member kind joins.symm).trans ih
  | repel _ member kind joins ih =>
      simpa [Nat.add_comm] using (ofRepulsive member kind joins.symm).trans ih

end Walk

theorem Linked.refl (a : ν) : graph.Linked edges a a :=
  .stay a

theorem Linked.symm (linked : graph.Linked edges a b) : graph.Linked edges b a :=
  Walk.symm linked

theorem Linked.trans (left : graph.Linked edges a b) (right : graph.Linked edges b c) :
    graph.Linked edges a c :=
  Walk.trans left right

theorem Linked.mono (linked : graph.Linked edges a b) (subset : edges ⊆ more) :
    graph.Linked more a b :=
  Walk.mono linked subset

theorem Opposed.symm (opposed : graph.Opposed edges a b) : graph.Opposed edges b a :=
  Walk.symm opposed

theorem Opposed.mono (opposed : graph.Opposed edges a b) (subset : edges ⊆ more) :
    graph.Opposed more a b :=
  Walk.mono opposed subset

/-- What holds at the start of a chain of attractive edges and passes along each of them. -/
theorem Linked.induction (holds : ν → Prop) (linked : graph.Linked edges a b) (base : holds a)
    (step : ∀ x y edge, graph.Linked edges a x → holds x → edge ∈ edges →
      graph.repulsive edge = false → graph.Joins edge x y → holds y) : holds b := by
  have walk : graph.Walk edges 0 a b := linked
  generalize zero : 0 = count at walk
  induction walk with
  | stay a => exact base
  | attract walk member kind joins ih =>
      subst zero
      exact step _ _ _ walk (ih walk base step rfl) member kind joins
  | repel _ _ _ _ _ => exact absurd zero.symm (Nat.succ_ne_zero _)

theorem opposed_iff : graph.Opposed edges a b ↔
    ∃ edge ∈ edges, graph.repulsive edge = true ∧
      ∃ c d, graph.Joins edge c d ∧ graph.Linked edges a c ∧ graph.Linked edges d b := by
  constructor
  · intro opposed
    have walk : graph.Walk edges 1 a b := opposed
    generalize one : 1 = count at walk
    induction walk with
    | stay a => exact absurd one (by decide)
    | attract walk member kind joins ih =>
        subst one
        rcases ih walk rfl with ⟨edge, edgeMember, edgeKind, c, d, edgeJoins, before, after⟩
        exact ⟨edge, edgeMember, edgeKind, c, d, edgeJoins, before,
          .attract after member kind joins⟩
    | repel walk member kind joins _ =>
        rcases Nat.succ.inj one with rfl
        exact ⟨_, member, kind, _, _, joins, walk, .refl _⟩
  · rintro ⟨edge, member, kind, c, d, joins, before, after⟩
    exact (Walk.repel before member kind joins).trans after

theorem linked_insert_of_repulsive {edge : Nat} (kind : graph.repulsive edge = true) :
    graph.Linked (insert edge edges) a b ↔ graph.Linked edges a b := by
  constructor
  · intro linked
    apply Linked.induction (graph.Linked edges a) linked (.refl a)
    intro x y other _ before member attractive joins
    rcases Set.mem_insert_iff.1 member with rfl | old
    · exact absurd (kind.symm.trans attractive) (by decide)
    · exact .attract before old attractive joins
  · intro linked
    exact linked.mono (Set.subset_insert _ _)

theorem linked_insert_of_attractive {edge : Nat} (kind : graph.repulsive edge = false)
    (joins : graph.Joins edge a b) {x y : ν} :
    graph.Linked (insert edge edges) x y ↔
      graph.Linked edges x y ∨ (graph.Linked edges x a ∧ graph.Linked edges b y) ∨
        (graph.Linked edges x b ∧ graph.Linked edges a y) := by
  constructor
  · intro linked
    refine Linked.induction (fun z => graph.Linked edges x z ∨
      (graph.Linked edges x a ∧ graph.Linked edges b z) ∨
        (graph.Linked edges x b ∧ graph.Linked edges a z)) linked (.inl (.refl x)) ?_
    intro y z other _ before member attractive step
    rcases Set.mem_insert_iff.1 member with rfl | old
    · have turned : (y = a ∧ z = b) ∨ (y = b ∧ z = a) := joins.same_ends step
      rcases turned with ⟨rfl, rfl⟩ | ⟨rfl, rfl⟩
      · rcases before with before | ⟨before, _⟩ | ⟨before, _⟩
        · exact .inr (.inl ⟨before, .refl _⟩)
        · exact .inr (.inl ⟨before, .refl _⟩)
        · exact .inl before
      · rcases before with before | ⟨before, _⟩ | ⟨before, _⟩
        · exact .inr (.inr ⟨before, .refl _⟩)
        · exact .inl before
        · exact .inr (.inr ⟨before, .refl _⟩)
    · rcases before with before | ⟨before, after⟩ | ⟨before, after⟩
      · exact .inl (.attract before old attractive step)
      · exact .inr (.inl ⟨before, .attract after old attractive step⟩)
      · exact .inr (.inr ⟨before, .attract after old attractive step⟩)
  · have grown : edges ⊆ insert edge edges := Set.subset_insert _ _
    have bridge : graph.Linked (insert edge edges) a b :=
      Walk.ofAttractive (Set.mem_insert _ _) kind joins
    rintro (old | ⟨before, after⟩ | ⟨before, after⟩)
    · exact old.mono grown
    · exact (before.mono grown).trans (bridge.trans (after.mono grown))
    · exact (before.mono grown).trans (bridge.symm.trans (after.mono grown))

theorem Consistent.anti (consistent : graph.Consistent more) (subset : edges ⊆ more) :
    graph.Consistent edges := by
  intro edge member kind x y ends linked
  exact consistent edge (subset member) kind x y ends (linked.mono subset)

theorem Consistent.not_linked {edge : Nat} (consistent : graph.Consistent edges)
    (member : edge ∈ edges) (kind : graph.repulsive edge = true) (joins : graph.Joins edge a b) :
    ¬ graph.Linked edges a b := by
  intro linked
  rcases joins with ends | ends
  · exact consistent edge member kind a b ends linked
  · exact consistent edge member kind b a ends linked.symm

theorem Consistent.not_linked_of_opposed (consistent : graph.Consistent edges)
    (opposed : graph.Opposed edges a b) : ¬ graph.Linked edges a b := by
  rcases opposed_iff.1 opposed with ⟨edge, member, kind, c, d, joins, before, after⟩
  intro linked
  exact consistent.not_linked member kind joins (before.symm.trans (linked.trans after.symm))

theorem consistent_empty : graph.Consistent ∅ := by
  intro edge impossible
  exact absurd impossible (Set.notMem_empty edge)

/-- A repulsive edge keeps a set consistent unless its ends are linked. -/
theorem consistent_insert_of_repulsive {edge : Nat} (consistent : graph.Consistent edges)
    (kind : graph.repulsive edge = true) (joins : graph.Joins edge a b) :
    graph.Consistent (insert edge edges) ↔ ¬ graph.Linked edges a b := by
  constructor
  · intro grown linked
    exact grown.not_linked (Set.mem_insert _ _) kind joins (linked.mono (Set.subset_insert _ _))
  · intro unlinked other member otherKind x y ends linked
    rw [linked_insert_of_repulsive kind] at linked
    rcases Set.mem_insert_iff.1 member with rfl | old
    · rcases joins.same_ends (.inl ends) with ⟨rfl, rfl⟩ | ⟨rfl, rfl⟩
      · exact unlinked linked
      · exact unlinked linked.symm
    · exact consistent other old otherKind x y ends linked

/-- An attractive edge keeps a set consistent unless its ends are opposed. -/
theorem consistent_insert_of_attractive {edge : Nat} (consistent : graph.Consistent edges)
    (kind : graph.repulsive edge = false) (joins : graph.Joins edge a b) :
    graph.Consistent (insert edge edges) ↔ ¬ graph.Opposed edges a b := by
  have grown : edges ⊆ insert edge edges := Set.subset_insert _ _
  constructor
  · intro stays opposed
    rcases opposed_iff.1 opposed with ⟨other, member, otherKind, c, d, ends, before, after⟩
    have bridge : graph.Linked (insert edge edges) a b :=
      Walk.ofAttractive (Set.mem_insert _ _) kind joins
    exact stays.not_linked (grown member) otherKind ends
      ((before.mono grown).symm.trans (bridge.trans (after.mono grown).symm))
  · intro unopposed other member otherKind x y ends linked
    rcases Set.mem_insert_iff.1 member with rfl | old
    · exact absurd (kind.symm.trans otherKind) (by decide)
    · rcases (linked_insert_of_attractive kind joins).1 linked with linked | ⟨before, after⟩ |
        ⟨before, after⟩
      · exact consistent other old otherKind x y ends linked
      · exact unopposed (opposed_iff.2
          ⟨other, old, otherKind, x, y, .inl ends, before.symm, after.symm⟩)
      · exact unopposed (opposed_iff.2
          ⟨other, old, otherKind, y, x, .inr ends, after, before⟩)

theorem retain_of_consistent {edge : Nat} (joins : graph.Joins edge a b)
    (consistent : graph.Consistent (insert edge edges)) :
    graph.retain edges edge = insert edge edges := by
  have isEdge : (graph.ends? edge).isSome := isSome_ends?_iff_joins.2 ⟨a, b, joins⟩
  rw [retain, if_pos ⟨isEdge, consistent⟩]

theorem retain_of_not_consistent {edge : Nat} (clash : ¬ graph.Consistent (insert edge edges)) :
    graph.retain edges edge = edges := by
  rw [retain, if_neg fun both => clash both.2]

theorem retain_of_ends?_eq_none {edge : Nat} (missing : graph.ends? edge = none) :
    graph.retain edges edge = edges := by
  rw [retain, if_neg (by simp [missing])]

theorem consistent_retain (consistent : graph.Consistent edges) (edge : Nat) :
    graph.Consistent (graph.retain edges edge) := by
  unfold retain
  split
  · next both => exact both.2
  · exact consistent

theorem mem_retain_iff {edge other : Nat} : other ∈ graph.retain edges edge ↔
    other ∈ edges ∨ (other = edge ∧ (graph.ends? edge).isSome ∧
      graph.Consistent (insert edge edges)) := by
  unfold retain
  split
  · next both =>
    rw [Set.mem_insert_iff]
    constructor
    · rintro (rfl | old)
      · exact .inr ⟨rfl, both⟩
      · exact .inl old
    · rintro (old | ⟨rfl, -⟩)
      · exact .inr old
      · exact .inl rfl
  · next refused =>
    constructor
    · exact .inl
    · rintro (old | ⟨-, both⟩)
      · exact old
      · exact absurd both refused

theorem greedy_append_singleton (order : List Nat) (edge : Nat) :
    graph.greedy (order ++ [edge]) = graph.retain (graph.greedy order) edge := by
  simp [greedy, List.foldl_append]

theorem consistent_greedy (order : List Nat) : graph.Consistent (graph.greedy order) := by
  induction order using List.reverseRecOn with
  | nil => exact consistent_empty
  | append_singleton order edge ih =>
      rw [greedy_append_singleton]
      exact consistent_retain ih edge

theorem subset_retain (edge : Nat) : edges ⊆ graph.retain edges edge :=
  fun _ old => mem_retain_iff.2 (.inl old)

theorem greedy_subset_append (earlier later : List Nat) :
    graph.greedy earlier ⊆ graph.greedy (earlier ++ later) := by
  induction later using List.reverseRecOn with
  | nil => simp
  | append_singleton later edge ih =>
      rw [← List.append_assoc, greedy_append_singleton]
      exact ih.trans (subset_retain edge)

theorem mem_greedy_append_iff {earlier later : List Nat} {edge : Nat} (absent : edge ∉ later) :
    edge ∈ graph.greedy (earlier ++ later) ↔ edge ∈ graph.greedy earlier := by
  induction later using List.reverseRecOn with
  | nil => simp
  | append_singleton later last ih =>
      simp only [List.mem_append, List.mem_singleton, not_or] at absent
      rw [← List.append_assoc, greedy_append_singleton, mem_retain_iff, ih absent.1]
      constructor
      · rintro (old | ⟨equal, -⟩)
        · exact old
        · exact absurd equal absent.2
      · exact .inl

theorem greedy_append_of_no_ends {earlier later : List Nat}
    (none : ∀ edge ∈ later, graph.ends? edge = none) :
    graph.greedy (earlier ++ later) = graph.greedy earlier := by
  induction later using List.reverseRecOn with
  | nil => rw [List.append_nil]
  | append_singleton later edge ih =>
      rw [← List.append_assoc, greedy_append_singleton,
        retain_of_ends?_eq_none (none edge (by simp)),
        ih fun other member => none other (List.mem_append_left _ member)]

theorem mem_of_mem_greedy {order : List Nat} {edge : Nat} (kept : edge ∈ graph.greedy order) :
    edge ∈ order ∧ (graph.ends? edge).isSome := by
  induction order using List.reverseRecOn with
  | nil => exact absurd kept (Set.notMem_empty edge)
  | append_singleton order last ih =>
      rw [greedy_append_singleton, mem_retain_iff] at kept
      rcases kept with old | ⟨rfl, isEdge, -⟩
      · rcases ih old with ⟨member, isEdge⟩
        exact ⟨List.mem_append_left _ member, isEdge⟩
      · exact ⟨by simp, isEdge⟩

/-- In a list without repetitions an edge is kept if and only if it suits those kept before it. -/
theorem mem_greedy_iff {earlier later : List Nat} {edge : Nat}
    (distinct : (earlier ++ edge :: later).Nodup) :
    edge ∈ graph.greedy (earlier ++ edge :: later) ↔
      (graph.ends? edge).isSome ∧ graph.Consistent (insert edge (graph.greedy earlier)) := by
  have notLater : edge ∉ later := by
    have := (List.nodup_append.1 distinct).2.1
    exact (List.nodup_cons.1 this).1
  have notEarlier : edge ∉ earlier := by
    intro member
    exact (List.nodup_append.1 distinct).2.2 edge member edge List.mem_cons_self rfl
  rw [List.append_cons, mem_greedy_append_iff notLater, greedy_append_singleton, mem_retain_iff]
  constructor
  · rintro (old | ⟨-, both⟩)
    · exact absurd (mem_of_mem_greedy old).1 notEarlier
    · exact both
  · exact fun both => .inr ⟨rfl, both⟩

/-- Where two sets of members of a list differ there is a first difference. -/
theorem exists_first_difference {order : List Nat} (subset : ∀ edge ∈ edges, edge ∈ order)
    (subsetMore : ∀ edge ∈ more, edge ∈ order) (different : edges ≠ more) :
    ∃ earlier edge later, order = earlier ++ edge :: later ∧ ¬ (edge ∈ edges ↔ edge ∈ more) ∧
      ∀ other ∈ earlier, other ∈ edges ↔ other ∈ more := by
  classical
  have somewhere : ∃ edge ∈ order, ¬ (edge ∈ edges ↔ edge ∈ more) := by
    by_contra none
    push Not at none
    apply different
    ext edge
    by_cases member : edge ∈ order
    · exact none edge member
    · exact ⟨fun kept => absurd (subset edge kept) member,
        fun kept => absurd (subsetMore edge kept) member⟩
  clear subset subsetMore different
  induction order with
  | nil => simp at somewhere
  | cons head order ih =>
      by_cases here : head ∈ edges ↔ head ∈ more
      · have further : ∃ edge ∈ order, ¬ (edge ∈ edges ↔ edge ∈ more) := by
          rcases somewhere with ⟨edge, member, unequal⟩
          rcases List.mem_cons.1 member with rfl | member
          · exact absurd here unequal
          · exact ⟨edge, member, unequal⟩
        rcases ih further with ⟨earlier, edge, later, split, unequal, agree⟩
        refine ⟨head :: earlier, edge, later, by rw [split, List.cons_append], unequal, ?_⟩
        intro other member
        rcases List.mem_cons.1 member with rfl | member
        · exact here
        · exact agree other member
      · exact ⟨[], head, order, rfl, here, by simp⟩

/-- Where a consistent set first differs from the greedy one, it leaves out an edge. -/
theorem greedy_lexicographic {order : List Nat} (distinct : order.Nodup)
    (consistent : graph.Consistent more)
    (subset : ∀ edge ∈ more, edge ∈ order ∧ (graph.ends? edge).isSome)
    (different : more ≠ graph.greedy order) :
    ∃ earlier edge later, order = earlier ++ edge :: later ∧
      edge ∈ graph.greedy order ∧ edge ∉ more ∧
      ∀ other ∈ earlier, other ∈ graph.greedy order ↔ other ∈ more := by
  obtain ⟨earlier, edge, later, rfl, unequal, agree⟩ :=
    exists_first_difference (fun edge member => (mem_of_mem_greedy member).1)
      (fun edge member => (subset edge member).1) different.symm
  have kept : edge ∈ graph.greedy (earlier ++ edge :: later) := by
    by_contra dropped
    have inMore : edge ∈ more := by
      by_contra absent
      exact unequal ⟨fun kept => absurd kept dropped, fun kept => absurd kept absent⟩
    -- what was kept before the edge lies in the other set, so the edge would have been kept
    have below : insert edge (graph.greedy earlier) ⊆ more := by
      intro other member
      rcases Set.mem_insert_iff.1 member with rfl | old
      · exact inMore
      · exact (agree other (mem_of_mem_greedy old).1).1 (greedy_subset_append _ _ old)
    exact dropped ((mem_greedy_iff distinct).2 ⟨(subset edge inMore).2, consistent.anti below⟩)
  exact ⟨earlier, edge, later, rfl, kept, fun inMore => unequal ⟨fun _ => inMore, fun _ => kept⟩,
    agree⟩

end SignedGraph

end Watershed
