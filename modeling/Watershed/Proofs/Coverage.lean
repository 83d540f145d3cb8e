import Mathlib.Algebra.Order.BigOperators.Group.Finset
import Watershed.Proofs.GrowthRecord
import Watershed.Proofs.Parts

/-!
# Growth covers every component once

Growth expands a node only for a candidate that leads there, and it passes over many candidates:
those whose edge was taken before, those that change nothing, and the edges inside of a class, which
never become candidates. None of this hides a part of the graph. When the frontier is empty, every
edge at a reached node has been taken from one of its ends, and taking it has reached the other one;
so the reached nodes are closed under all edges (`Resting.closed`), and a growth covers exactly the
component of its seed.

What happens only once is read off the record of the run. `Recorded.Accounted` says in which way the
record and the state determine each other, and it is kept by each of the three things that a step is
made of: a candidate leaves the frontier, an edge is added, and a node is expanded.
-/

namespace Watershed

namespace SignedGraph

variable {ν : Type} (graph : SignedGraph ν)

/-- The nodes to which edges of either kind lead from a node, in either direction. -/
def component (a : ν) : Set ν :=
  {b | graph.Reaches Set.univ a b}

variable {graph} {a b : ν}

theorem mem_component_self (a : ν) : a ∈ graph.component a :=
  .refl a

theorem mem_component_symm (connected : b ∈ graph.component a) : a ∈ graph.component b :=
  Reaches.symm connected

theorem mem_component_of_joins {edge : Nat} {c : ν} (connected : b ∈ graph.component a)
    (joins : graph.Joins edge b c) : c ∈ graph.component a :=
  Reaches.trans connected (.of_joins (Set.mem_univ edge) joins)

theorem closed_of_joins {part : Set ν}
    (step : ∀ edge a b, graph.Joins edge a b → a ∈ part → b ∈ part) : graph.Closed part := by
  intro edge a b ends
  exact ⟨step edge a b (.inl ends), step edge b a (.inr ends)⟩

theorem Closed.component_subset {part : Set ν} (closed : graph.Closed part) (inside : a ∈ part) :
    graph.component a ⊆ part := by
  intro b connected
  apply Reaches.induction (· ∈ part) connected inside
  intro x y isInside edge _ joins
  exact (closed.joins joins).1 isInside

end SignedGraph

/-- The same edge, seen from its other end. -/
def Candidate.opposite {n : Nat} (candidate : Candidate n) : Candidate n where
  priority := candidate.priority
  edge := candidate.edge
  source := candidate.target
  target := candidate.source

namespace Growth

section Components

variable {edges : RankedEdges} {growth : Growth edges.index.nodes}

theorem Resting.closed (resting : Resting growth) : edges.graph.Closed growth.reachedNodes := by
  apply SignedGraph.closed_of_joins
  intro edge a b joins reached
  rcases resting with ⟨⟨history, grown⟩, empty⟩
  by_cases same : a = b
  · exact same ▸ reached
  · rcases grown.waiting a reached edge b same joins with taken | ⟨candidate, member, -⟩
    · exact grown.taken edge taken a b joins
    · exact absurd member (empty candidate)

theorem reachedNodes_reach (growth : Growth edges.index.nodes) (node : Fin edges.index.nodes) :
    (reach edges growth node).reachedNodes = insert node growth.reachedNodes := by
  ext x
  have marked := reached_mark growth node x
  rw [← (alike_reach growth node).reached] at marked
  simp only [reachedNodes, Set.mem_insert_iff, Set.mem_ofPred_eq, marked]
  by_cases same : x = node <;> simp [same]

theorem reachedNodes_take_subset (growth : Growth edges.index.nodes)
    (candidate : Candidate edges.index.nodes) :
    (take edges growth candidate).reachedNodes ⊆ insert candidate.target growth.reachedNodes := by
  rw [take_eq]
  split
  · exact Set.subset_insert _ _
  · split
    · exact Set.subset_insert _ _
    · rw [reachedNodes_reach]
      exact subset_rfl

/-- Growth does not leave a set of nodes that no edge leaves. -/
theorem Steady.settle_subset {part : Set (Fin edges.index.nodes)} (closed : edges.graph.Closed part)
    (steady : Steady growth) (inside : growth.reachedNodes ⊆ part) :
    (Growth.settle edges growth).reachedNodes ⊆ part := by
  fun_induction Growth.settle edges growth with
  | case1 growth found => exact inside
  | case2 growth candidate found _ ih =>
      rcases Std.TreeSet.min?_eq_some_iff_mem_and_forall.1 found with ⟨member, -⟩
      apply ih (steady.take found).1
      apply (reachedNodes_take_subset growth candidate).trans
      apply Set.insert_subset _ inside
      rcases steady with ⟨history, grown⟩
      exact (closed.joins (grown.joins candidate member)).1
        (inside (grown.source candidate member))

/-- Growing from a seed reaches the component of the seed and nothing else. -/
theorem Resting.mem_growFrom_iff (resting : Resting growth) (seed v : Fin edges.index.nodes) :
    v ∈ (Growth.growFrom edges growth seed).reachedNodes ↔
      v ∈ growth.reachedNodes ∨ v ∈ edges.graph.component seed := by
  rcases resting.growFrom seed with ⟨after, more, here⟩
  constructor
  · intro reached
    -- no edge leaves the old nodes together with the component, so growth cannot leave them either
    let part := growth.reachedNodes ∪ edges.graph.component seed
    have closed : edges.graph.Closed part := by
      apply SignedGraph.closed_of_joins
      rintro edge a b joins (old | connected)
      · exact .inl ((resting.closed.joins joins).1 old)
      · exact .inr (SignedGraph.mem_component_of_joins connected joins)
    unfold Growth.growFrom at reached
    split at reached
    · exact .inl reached
    · apply (resting.reach seed).settle_subset closed _ reached
      rw [reachedNodes_reach]
      exact Set.insert_subset (.inr (SignedGraph.mem_component_self seed)) Set.subset_union_left
  · rintro (old | connected)
    · exact more old
    · exact after.closed.component_subset here connected

theorem Resting.mem_foldl_growFrom_iff (resting : Resting growth)
    (seeds : List (Fin edges.index.nodes)) (v : Fin edges.index.nodes) :
    v ∈ (seeds.foldl (Growth.growFrom edges) growth).reachedNodes ↔
      v ∈ growth.reachedNodes ∨ ∃ seed ∈ seeds, v ∈ edges.graph.component seed := by
  induction seeds generalizing growth with
  | nil => simp
  | cons seed seeds ih =>
      rw [List.foldl_cons, ih (resting.growFrom seed).1, resting.mem_growFrom_iff]
      simp only [List.mem_cons, exists_eq_or_imp, or_assoc]

end Components

section Guarded

variable {n : Nat} {log more : List (Event n)}

/-- Whenever an edge changed nothing, its target had been expanded by then. -/
def Guarded (log : List (Event n)) : Prop :=
  ∀ before candidate outcome, before ++ [.added candidate outcome] <+: log →
    outcome = .connected ∨ outcome = .excluded → .expanded candidate.target ∈ before

theorem Guarded.append_of_not_added (guarded : Guarded log)
    (quiet : ∀ candidate outcome, .added candidate outcome ∉ more) : Guarded (log ++ more) := by
  induction more using List.reverseRecOn with
  | nil => simpa using guarded
  | append_singleton more event ih =>
      intro before candidate outcome starts idle
      rw [← List.append_assoc, List.prefix_concat_iff] at starts
      rcases starts with last | earlier
      · have same := (List.append_inj' last rfl).2
        exact absurd (by simp [List.singleton_inj.1 same]) (quiet candidate outcome)
      · refine ih (fun candidate outcome member => ?_) before candidate outcome earlier idle
        exact quiet candidate outcome (List.mem_append_left _ member)

theorem Guarded.append_added {candidate : Candidate n} {outcome : Outcome} (guarded : Guarded log)
    (target : outcome = .connected ∨ outcome = .excluded → .expanded candidate.target ∈ log) :
    Guarded (log ++ [.added candidate outcome]) := by
  intro before other result starts idle
  rw [List.prefix_concat_iff] at starts
  rcases starts with last | earlier
  · rcases List.append_inj' last rfl with ⟨rfl, same⟩
    simp only [List.cons.injEq, Event.added.injEq, and_true] at same
    rcases same with ⟨rfl, rfl⟩
    exact target idle
  · exact guarded before other result earlier idle

end Guarded

namespace Recorded

variable {edges : RankedEdges} {recorded : Recorded edges.index.nodes}
  {candidate : Candidate edges.index.nodes} {node : Fin edges.index.nodes}

/-- A candidate is an edge at one of the given nodes, with the priority of the edge. -/
structure Offered (nodes : Set (Fin edges.index.nodes)) (candidate : Candidate edges.index.nodes) :
    Prop where
  source : candidate.source ∈ nodes
  priority : candidate.priority = Ranking.priority edges.priorities candidate.edge
  joins : edges.graph.Joins candidate.edge candidate.source candidate.target

/-- Two candidates of one edge are the same, or they are the edge seen from its two ends. -/
theorem Offered.eq_or_eq_opposite {nodes : Set (Fin edges.index.nodes)}
    {other : Candidate edges.index.nodes} (first : Offered nodes candidate)
    (second : Offered nodes other) (same : other.edge = candidate.edge) :
    other = candidate ∨ other = candidate.opposite := by
  rcases first with ⟨-, weight, ends⟩
  rcases second with ⟨-, otherWeight, otherEnds⟩
  rcases candidate with ⟨priority, edge, source, target⟩
  rcases other with ⟨otherPriority, otherEdge, otherSource, otherTarget⟩
  dsimp only at same weight ends otherWeight otherEnds
  subst same weight otherWeight
  rcases ends.same_ends otherEnds with ⟨rfl, rfl⟩ | ⟨rfl, rfl⟩
  · exact .inl rfl
  · exact .inr rfl

/-- The record and the state of a growth say the same. -/
structure Accounted (recorded : Recorded edges.index.nodes) : Prop where
  expanded : Enumerates (expansions recorded.events) (· ∈ recorded.growth.reachedNodes)
  added : Enumerates ((additions recorded.events).map Candidate.edge)
    (recorded.growth.visited[·]? = some true)
  pushed : (pushes recorded.events).Nodup
  waiting : ∀ candidate ∈ recorded.growth.frontier, candidate ∈ pushes recorded.events
  popped : Enumerates (pops recorded.events) fun candidate =>
    candidate ∈ pushes recorded.events ∧ candidate ∉ recorded.growth.frontier
  offered : ∀ candidate ∈ pushes recorded.events, Offered recorded.growth.reachedNodes candidate
  guarded : Guarded recorded.events

theorem mem_expansions_iff {n : Nat} {log : List (Event n)} {node : Fin n} :
    node ∈ expansions log ↔ .expanded node ∈ log := by
  rw [expansions, List.mem_filterMap]
  constructor
  · rintro ⟨event, member, expanded⟩
    cases event <;> simp_all [Event.expanded?]
  · intro member
    exact ⟨_, member, rfl⟩

namespace Accounted

theorem start : Accounted (start edges) where
  expanded := .nil (by simp [reachedNodes, Recorded.start, Growth.start])
  added := .nil (by simp [Recorded.start, Growth.start, Array.getElem?_replicate])
  pushed := List.nodup_nil
  waiting := by simp [Recorded.start, Growth.start]
  popped := .nil (by simp [Recorded.start, pushes])
  offered := by simp [Recorded.start, pushes]
  guarded := by simp [Recorded.start, Guarded]

theorem pop (accounted : Accounted recorded) (member : candidate ∈ recorded.growth.frontier) :
    Accounted (pop edges recorded candidate) where
  expanded := by simpa using accounted.expanded
  added := by simpa using accounted.added
  pushed := by simpa using accounted.pushed
  waiting other isOther := by
    rw [pushes_pop]
    exact accounted.waiting other (Std.TreeSet.mem_of_mem_erase isOther)
  popped := by
    have wasPushed := accounted.waiting candidate member
    rw [pops_pop, pushes_pop, frontier_pop]
    refine (accounted.popped.append (.singleton candidate) ?_).congr fun other => ?_
    · rintro other ⟨-, gone⟩ rfl
      exact gone member
    · rw [Candidate.mem_erase_iff]
      grind
  offered := by simpa using accounted.offered
  guarded := accounted.guarded.append_of_not_added (by simp)

theorem add (accounted : Accounted recorded)
    (fresh : recorded.growth.visited[candidate.edge]? = some false)
    (target : outcome edges recorded.growth candidate = .connected ∨
      outcome edges recorded.growth candidate = .excluded →
        candidate.target ∈ recorded.growth.reachedNodes) :
    Accounted (add edges recorded candidate).2 where
  expanded := by simpa using accounted.expanded
  added := by
    rw [additions_add, List.map_append]
    refine (accounted.added.append (.singleton candidate.edge) ?_).congr fun other => ?_
    · rintro other isOld rfl
      exact absurd (isOld.symm.trans fresh) (by simp)
    · have inRange : candidate.edge < recorded.growth.visited.size :=
        (Array.getElem?_eq_some_iff.1 fresh).1
      rw [visited_add, Array.getElem?_setIfInBounds, if_pos inRange]
      by_cases same : candidate.edge = other
      · simp [same]
      · simp [same, Ne.symm same]
  pushed := by simpa using accounted.pushed
  waiting := by simpa using accounted.waiting
  popped := by simpa using accounted.popped
  offered := by simpa using accounted.offered
  guarded := by
    apply accounted.guarded.append_added
    intro idle
    exact mem_expansions_iff.1 ((accounted.expanded.mem _).2 (target idle))

theorem reach (accounted : Accounted recorded) (fresh : node ∉ recorded.growth.reachedNodes) :
    Accounted (reach edges recorded node) := by
  have reached : (Recorded.reach edges recorded node).growth.reachedNodes =
      insert node recorded.growth.reachedNodes := by
    rw [growth_reach, reachedNodes_reach]
  have visited : (Recorded.reach edges recorded node).growth.visited = recorded.growth.visited := by
    rw [growth_reach, (alike_reach recorded.growth node).visited]
    rfl
  have frontier : ∀ candidate, candidate ∈ (Recorded.reach edges recorded node).growth.frontier ↔
      candidate ∈ recorded.growth.frontier ∨
        Leads recorded.growth (recorded.growth.partition.root node) node candidate := by
    rw [growth_reach]
    exact mem_frontier_reach recorded.growth node
  have apart : ∀ candidate ∈ pushes recorded.events,
      ¬ Leads recorded.growth (recorded.growth.partition.root node) node candidate := by
    intro candidate old leads
    exact fresh (leads.source ▸ (accounted.offered candidate old).source)
  rcases exists_pushes_reach recorded node with ⟨candidates, pushed, once⟩
  refine {
    expanded := ?_, added := ?_, pushed := ?_, waiting := ?_, popped := ?_, offered := ?_
    guarded := ?_ }
  · rw [expansions_reach, reached]
    refine (accounted.expanded.append (.singleton node) ?_).congr fun x => or_comm
    rintro x old rfl
    exact fresh old
  · rw [additions_reach, visited]
    exact accounted.added
  · rw [pushed]
    apply accounted.pushed.append once.once
    intro candidate old new
    exact apart candidate old ((once.mem candidate).1 new)
  · intro candidate waits
    rw [pushed, List.mem_append, once.mem]
    exact ((frontier candidate).1 waits).imp_left (accounted.waiting candidate)
  · -- the new candidates are all in the frontier, and the old ones stay where they are
    rw [pops_reach]
    refine accounted.popped.congr fun candidate => ?_
    rw [pushed, List.mem_append, once.mem, frontier]
    have := apart candidate
    tauto
  · rw [pushed, reached]
    intro candidate member
    rcases List.mem_append.1 member with old | new
    · rcases accounted.offered candidate old with ⟨source, priority, joins⟩
      exact ⟨.inr source, priority, joins⟩
    · rcases (once.mem candidate).1 new with ⟨priority, source, joins, -, -⟩
      exact ⟨.inl source, priority, source ▸ joins⟩
  · rcases events_reach recorded node with ⟨others, events, -⟩
    rw [events]
    exact accounted.guarded.append_of_not_added (by simp)

theorem take (accounted : Accounted recorded) (steady : Steady recorded.growth)
    (found : recorded.growth.frontier.min? = some candidate) :
    Accounted (take edges recorded candidate) := by
  rcases steady with ⟨history, grown⟩
  rcases Std.TreeSet.min?_eq_some_iff_mem_and_forall.1 found with ⟨member, -⟩
  have different := grown.different candidate member
  have popped := accounted.pop member
  rw [take_eq]
  split
  · exact popped
  · next new =>
    have fresh : recorded.growth.visited[candidate.edge]? = some false := by
      have inRange : candidate.edge < recorded.growth.visited.size := by
        rw [grown.sized]
        exact EdgeIndex.lt_count_of_joins (grown.joins candidate member)
      rw [Array.getElem?_eq_getElem inRange] at new ⊢
      simpa using new
    have added := popped.add fresh (grown.reached_of_addEdge different _)
    split
    · exact added
    · next busy =>
      apply added.reach
      intro already
      exact busy (.inr (.inr already))

theorem settle (accounted : Accounted recorded) (steady : Steady recorded.growth) :
    Accounted (settle edges recorded) := by
  fun_induction Recorded.settle edges recorded with
  | case1 recorded found => exact accounted
  | case2 recorded candidate found _ ih =>
      apply ih (accounted.take steady found)
      rw [growth_take]
      exact (steady.take found).1

theorem growFrom (accounted : Accounted recorded) (resting : Resting recorded.growth)
    (seed : Fin edges.index.nodes) : Accounted (growFrom edges recorded seed) := by
  unfold Recorded.growFrom
  split
  · exact accounted
  · next fresh =>
    apply (accounted.reach fresh).settle
    rw [growth_reach]
    exact resting.reach seed

theorem foldl_growFrom (accounted : Accounted recorded) (resting : Resting recorded.growth)
    (seeds : List (Fin edges.index.nodes)) :
    Accounted (seeds.foldl (Recorded.growFrom edges) recorded) := by
  induction seeds generalizing recorded with
  | nil => exact accounted
  | cons seed seeds ih =>
      apply ih (accounted.growFrom resting seed)
      rw [growth_growFrom]
      exact (resting.growFrom seed).1

/-- An edge has two ends, and from each of them it is pushed once. -/
theorem length_filter_pushes_le (accounted : Accounted recorded) (edge : Nat) :
    ((pushes recorded.events).filter (·.edge = edge)).length ≤ 2 := by
  cases met : (pushes recorded.events).filter (·.edge = edge) with
  | nil => simp
  | cons first others =>
      have known : ∀ candidate ∈ first :: others,
          candidate ∈ pushes recorded.events ∧ candidate.edge = edge := by
        intro candidate member
        rw [← met, List.mem_filter] at member
        simpa using member
      rcases known first List.mem_cons_self with ⟨isPushed, sameEdge⟩
      have inTwo : first :: others ⊆ [first, first.opposite] := by
        intro candidate member
        rcases known candidate member with ⟨alsoPushed, alsoEdge⟩
        have ends := (accounted.offered first isPushed).eq_or_eq_opposite
          (accounted.offered candidate alsoPushed) (alsoEdge.trans sameEdge.symm)
        simpa using ends
      have once : (first :: others).Nodup := met ▸ accounted.pushed.filter _
      exact (once.subperm inTwo).length_le

theorem length_pushes_le (accounted : Accounted recorded) :
    (pushes recorded.events).length ≤ 2 * edges.index.count := by
  classical
  let all := (pushes recorded.events).toFinset
  have inRange : ∀ candidate ∈ all, candidate.edge ∈ Finset.range edges.index.count := by
    intro candidate member
    have offered := accounted.offered candidate (List.mem_toFinset.1 member)
    rw [Finset.mem_range]
    exact EdgeIndex.lt_count_of_joins offered.joins
  have few : ∀ edge ∈ Finset.range edges.index.count,
      (all.filter fun candidate => candidate.edge = edge).card ≤ 2 := by
    intro edge _
    have same : all.filter (fun candidate => candidate.edge = edge) =
        ((pushes recorded.events).filter (·.edge = edge)).toFinset := by
      ext candidate
      simp [all]
    rw [same, List.toFinset_card_of_nodup (accounted.pushed.filter _)]
    exact accounted.length_filter_pushes_le edge
  have bound := Finset.card_le_mul_card_image_of_maps_to inRange 2 few
  rwa [List.toFinset_card_of_nodup accounted.pushed, Finset.card_range] at bound

end Accounted

section Run

variable (edges) (seed : Fin edges.index.nodes)

theorem growth_runUpTo : (runUpTo edges seed).growth =
    ((List.finRange edges.index.nodes).take seed).foldl (Growth.growFrom edges)
      (Growth.start edges) :=
  growth_foldl_growFrom _ _

theorem resting_runUpTo : Resting (runUpTo edges seed).growth := by
  rw [growth_runUpTo]
  exact (Resting.start.foldl_growFrom _).1

theorem accounted_runUpTo : Accounted (runUpTo edges seed) :=
  Accounted.start.foldl_growFrom .start _

/-- When it is the turn of a node, the components of the smaller nodes have been reached. -/
theorem mem_reachedNodes_runUpTo_iff (v : Fin edges.index.nodes) :
    v ∈ (runUpTo edges seed).growth.reachedNodes ↔
      ∃ smaller < seed, v ∈ edges.graph.component smaller := by
  have none : v ∉ (Growth.start edges).reachedNodes := by simp [reachedNodes, Growth.start]
  have turns : ∀ x, x ∈ (List.finRange edges.index.nodes).take seed ↔ x < seed := by
    intro x
    rw [List.mem_take_iff_idxOf_lt (List.mem_finRange x)]
    simp
  rw [growth_runUpTo, Resting.start.mem_foldl_growFrom_iff, or_iff_right none]
  simp only [turns]

/-- The nodes that become seeds are the smallest nodes of their components. -/
theorem not_mem_reachedNodes_runUpTo_iff : seed ∉ (runUpTo edges seed).growth.reachedNodes ↔
    ∀ v ∈ edges.graph.component seed, seed ≤ v := by
  rw [mem_reachedNodes_runUpTo_iff, not_exists]
  constructor
  · intro fresh v connected
    by_contra smaller
    exact fresh v ⟨Fin.not_le.1 smaller, SignedGraph.mem_component_symm connected⟩
  · rintro least smaller ⟨isSmaller, connected⟩
    exact absurd (least smaller (SignedGraph.mem_component_symm connected)) (Fin.not_le.2 isSmaller)

variable {seed}

/-- A growth expands the component of its seed. -/
theorem enumerates_growFrom (fresh : seed ∉ (runUpTo edges seed).growth.reachedNodes)
    {growing : List (Event edges.index.nodes)}
    (events : (growFrom edges (runUpTo edges seed) seed).events =
      (runUpTo edges seed).events ++ growing) :
    Enumerates (expansions growing) (· ∈ edges.graph.component seed) := by
  have resting := resting_runUpTo edges seed
  have accounted := accounted_runUpTo edges seed
  have after := (accounted.growFrom resting seed).expanded
  rw [events, expansions, List.filterMap_append, growth_growFrom] at after
  refine (after.of_append accounted.expanded).congr fun v => ?_
  rw [resting.mem_growFrom_iff]
  constructor
  · rintro ⟨old | connected, new⟩
    · exact absurd old new
    · exact connected
  · intro connected
    refine ⟨.inr connected, fun old => fresh ?_⟩
    exact resting.closed.component_subset old (SignedGraph.mem_component_symm connected)

theorem accounted_run : Accounted (run edges) :=
  Accounted.start.foldl_growFrom .start _

theorem perm_expansions_run :
    (expansions (run edges).events).Perm (List.finRange edges.index.nodes) := by
  refine (accounted_run edges).expanded.perm ⟨List.nodup_finRange _, fun v => ?_⟩
  have covered := (@Resting.start edges).foldl_growFrom (List.finRange edges.index.nodes)
  rw [growth_run]
  exact iff_of_true (List.mem_finRange v) (covered.2.2 v (List.mem_finRange v))

theorem perm_pops_run : (pops (run edges).events).Perm (pushes (run edges).events) := by
  have accounted := accounted_run edges
  have empty : ∀ candidate, candidate ∉ (run edges).growth.frontier := by
    rw [growth_run]
    exact ((@Resting.start edges).foldl_growFrom _).1.2
  refine accounted.popped.perm ⟨accounted.pushed, fun candidate => ?_⟩
  exact (and_iff_left (empty candidate)).symm

end Run

end Recorded

/--
Growth covers every component of a grid once. An edge that changes nothing leads to a node that was
expanded before. A node becomes a seed if it is the smallest one of its component; then exactly this
component is expanded, and the frontier is empty again. In the whole run every node is expanded
once, no edge is added twice, and no edge is pushed more than twice. Every candidate that is pushed
is popped, so there are at most two steps per edge.
-/
theorem cluster_covers_components {index : EdgeIndex} {stencil : Stencil} {gridShape : List Nat}
    {weights : Array Binary32} {valid : Array Bool}
    (numbered : EdgeIndex.ofGrid stencil gridShape = .ok index)
    (weightCount : weights.size = index.count) (validCount : valid.size = index.count) :
    let edges : RankedEdges := ⟨index, weights.map Binary32.priority, valid⟩
    let log := (Recorded.run edges).events
    (Recorded.run edges).growth = run edges ∧
      cluster weights valid stencil gridShape = .ok (run edges).partition.labels ∧
      Guarded log ∧
      (∀ seed : Fin index.nodes,
        let before := Recorded.runUpTo edges seed
        let after := Recorded.growFrom edges before seed
        after.events <+: log ∧
          (before.growth.reached.get seed = false ↔
            ∀ v ∈ edges.graph.component seed, seed ≤ v) ∧
          (before.growth.reached.get seed = false → ∃ growing,
            after.events = before.events ++ growing ∧
              Enumerates (expansions growing) (· ∈ edges.graph.component seed) ∧
              after.growth.frontier.isEmpty = true)) ∧
      (expansions log).Perm (List.finRange index.nodes) ∧
      ((additions log).map Candidate.edge).Nodup ∧
      (∀ edge, ((pushes log).filter (·.edge = edge)).length ≤ 2) ∧
      (pops log).Perm (pushes log) ∧ (pops log).length ≤ 2 * index.count := by
  intro edges log
  have accounted := Recorded.accounted_run edges
  refine ⟨Recorded.growth_run edges, cluster_eq_labels numbered weightCount validCount,
    accounted.guarded, fun seed => ?_, Recorded.perm_expansions_run edges, accounted.added.once,
    accounted.length_filter_pushes_le, Recorded.perm_pops_run edges, ?_⟩
  · intro before after
    have unreached : before.growth.reached.get seed = false ↔
        seed ∉ before.growth.reachedNodes := Bool.not_eq_true _ ▸ Iff.rfl
    refine ⟨Recorded.prefix_run edges seed,
      unreached.trans (Recorded.not_mem_reachedNodes_runUpTo_iff edges seed), fun fresh => ?_⟩
    rcases Recorded.prefix_growFrom before seed with ⟨growing, events⟩
    refine ⟨growing, events.symm, ?_, ?_⟩
    · exact Recorded.enumerates_growFrom edges (unreached.1 fresh) events.symm
    · rw [Recorded.growth_growFrom, Std.TreeSet.isEmpty_iff_forall_not_mem]
      exact ((Recorded.resting_runUpTo edges seed).growFrom seed).1.2
  · rw [(Recorded.perm_pops_run edges).length_eq]
    exact accounted.length_pushes_le

/-- Four cells in a row. The mask cuts off the last one, which becomes a seed of its own. -/
theorem cluster_covers_components_row :
    ∃ (stencil : Stencil) (weights : Array Binary32) (valid : Array Bool),
      let index : EdgeIndex := ⟨4, #[1, 2], 4⟩
      let edges : RankedEdges := ⟨index, weights.map Binary32.priority, valid⟩
      let log := (Recorded.run edges).events
      EdgeIndex.ofGrid stencil [4] = .ok index ∧ weights.size = index.count ∧
        valid.size = index.count ∧ Guarded log ∧
        (Recorded.runUpTo edges (3 : Fin 4)).growth.reached.get (3 : Fin 4) = false ∧
        (expansions log).Perm [0, 1, 2, 3] ∧ (pops log).length ≤ 16 := by
  let stencil : Stencil := ⟨[[1], [2]], 1, 1, by decide, by decide, by decide⟩
  let weights : Array Binary32 := #[.zero, .one, .one, .zero, .one, .zero, .zero, .zero]
  let valid : Array Bool := #[true, true, false, false, true, false, false, false]
  let edges : RankedEdges := ⟨⟨4, #[1, 2], 4⟩, weights.map Binary32.priority, valid⟩
  have numbered : EdgeIndex.ofGrid stencil [4] = .ok ⟨4, #[1, 2], 4⟩ := rfl
  have weightCount : weights.size = 8 := rfl
  have validCount : valid.size = 8 := rfl
  have cut : ∀ (edge : Fin 8) (a b : Fin 4), valid[edge.val]? = some true →
      EdgeIndex.ends? ⟨4, #[1, 2], 4⟩ edge = some (a, b) → (a = 3 ↔ b = 3) := by decide
  have alone : edges.graph.component (3 : Fin 4) ⊆ {(3 : Fin 4)} := by
    refine SignedGraph.Closed.component_subset (fun edge a b ends => ?_) (Set.mem_singleton _)
    rcases EdgeIndex.ends?_graph_eq_some_iff.1 ends with ⟨isValid, known⟩
    exact cut ⟨edge, (Array.getElem?_eq_some_iff.1 isValid).1⟩ a b isValid known
  rcases cluster_covers_components numbered weightCount validCount with
      ⟨-, -, guarded, growths, expanded, -, -, -, few⟩
  have isSeed := (growths (3 : Fin 4)).2.1.2 fun v member => (alone member).ge
  exact ⟨stencil, weights, valid, numbered, weightCount, validCount, guarded, isSeed, expanded, few⟩

end Growth

end Watershed
