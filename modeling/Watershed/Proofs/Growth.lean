import Watershed.Proofs.Frontier
import Watershed.Proofs.GreedyOrder
import Watershed.Proofs.Realization

/-!
# Growth takes edges in an order that closes the same cycles

The edges that growth takes from its frontier form a history. The partition realizes the greedy set
of this history, as it would for any other list of edges; what is special about the history is the
moment at which an edge enters it. At that moment no candidate outranks the edge, so everything that
can be reached from one of its ends along edges that outrank it has been reached already, and all of
these edges are in the history.

`Growth.Grown` is the invariant that carries this from step to step. The nodes whose edges have been
offered are named apart from the reached ones, because a node is marked before its edges are
offered.
-/

namespace Watershed

namespace SignedGraph

variable {ν : Type} {graph : SignedGraph ν}

/-- A walk that is more than a stay ends where one of its edges ends. -/
theorem Walk.last {edges : Set Nat} {count : Nat} {a b : ν} (walk : graph.Walk edges count a b) :
    (count = 0 ∧ a = b) ∨ ∃ edge ∈ edges, ∃ c, graph.Joins edge c b := by
  cases walk with
  | stay a => exact .inl ⟨rfl, rfl⟩
  | attract _ member _ joins => exact .inr ⟨_, member, _, joins⟩
  | repel _ member _ joins => exact .inr ⟨_, member, _, joins⟩

end SignedGraph

namespace Growth

variable (edges : RankedEdges)

/-- The edges with two different ends that outrank an edge. -/
def better (edge : Nat) : Set Nat :=
  {other | edges.graph.Spans other ∧ Ranking.Outranks edges.priorities other edge}

/-- One end of an edge reaches along better edges only such that are in the given set. -/
def Surrounded (edge : Nat) (early : Set Nat) : Prop :=
  ∃ a b, edges.graph.Joins edge a b ∧ ∀ x, edges.graph.Reaches (better edges edge) a x →
    ∀ other ∈ better edges edge, ∀ y, edges.graph.Joins other x y → other ∈ early

/--
The state of growth after the edges of a history were taken and the edges of some of the reached
nodes were offered.
-/
structure Grown (growth : Growth edges.index.nodes) (history : List Nat)
    (expanded : Set (Fin edges.index.nodes)) : Prop where
  distinct : history.Nodup
  sized : growth.visited.size = edges.index.count
  visited : ∀ edge, growth.visited[edge]? = some true ↔ edge ∈ history
  realizes : growth.partition.Realizes edges.graph (edges.graph.greedy history)
  spans : ∀ edge ∈ history, edges.graph.Spans edge
  taken : ∀ edge ∈ history, ∀ a b, edges.graph.Joins edge a b → growth.reached.get b = true
  priority : ∀ candidate ∈ growth.frontier,
    candidate.priority = Ranking.priority edges.priorities candidate.edge
  joins : ∀ candidate ∈ growth.frontier,
    edges.graph.Joins candidate.edge candidate.source candidate.target
  different : ∀ candidate ∈ growth.frontier, candidate.source ≠ candidate.target
  source : ∀ candidate ∈ growth.frontier, growth.reached.get candidate.source = true
  waiting : ∀ a ∈ expanded, ∀ edge b, a ≠ b → edges.graph.Joins edge a b →
    edge ∈ history ∨ ∃ candidate ∈ growth.frontier, candidate.edge = edge
  surrounded : ∀ edge ∈ history, Surrounded edges edge (SignedGraph.before history edge)

/-- The state in which the edge of a candidate has been added, and nothing more. -/
def add (growth : Growth edges.index.nodes) (candidate : Candidate edges.index.nodes) :
    Growth edges.index.nodes where
  partition := (growth.partition.addEdge candidate.source candidate.target
    (edges.index.isRepulsive candidate.edge)).2
  visited := growth.visited.setIfInBounds candidate.edge true
  reached := growth.reached
  frontier := growth.frontier.erase candidate

/-- What becomes of the classes at the ends of the edge of a candidate. -/
def outcome (growth : Growth edges.index.nodes) (candidate : Candidate edges.index.nodes) :
    Outcome :=
  (growth.partition.addEdge candidate.source candidate.target
    (edges.index.isRepulsive candidate.edge)).1

variable {edges}

theorem take_eq (growth : Growth edges.index.nodes) (candidate : Candidate edges.index.nodes) :
    take edges growth candidate =
      if growth.visited[candidate.edge]?.getD false then
        { growth with frontier := growth.frontier.erase candidate }
      else if outcome edges growth candidate = .connected ∨
          outcome edges growth candidate = .excluded ∨ growth.reached.get candidate.target then
        add edges growth candidate
      else reach edges (add edges growth candidate) candidate.target :=
  rfl

theorem Surrounded.mono {edge : Nat} {early earlier : Set Nat}
    (surrounded : Surrounded edges edge early) (subset : early ⊆ earlier) :
    Surrounded edges edge earlier := by
  rcases surrounded with ⟨a, b, joins, around⟩
  refine ⟨a, b, joins, fun x reaches other isBetter y ends => ?_⟩
  exact subset (around x reaches other isBetter y ends)

/-- The nodes that are marked as reached. -/
def reachedNodes {n : Nat} (growth : Growth n) : Set (Fin n) :=
  {node | growth.reached.get node = true}

theorem mark_self {n : Nat} (growth : Growth n) (node : Fin n) :
    (mark growth node).reached.get node = true := by
  rw [reached_mark, if_pos rfl]

theorem mark_mono {n : Nat} {growth : Growth n} (node : Fin n) {other : Fin n}
    (reached : growth.reached.get other = true) : (mark growth node).reached.get other = true := by
  rw [reached_mark, reached, ite_self]

namespace Grown

variable {growth : Growth edges.index.nodes} {history : List Nat}
  {expanded : Set (Fin edges.index.nodes)} {candidate : Candidate edges.index.nodes}

theorem start : Grown edges (start edges) [] ∅ where
  distinct := List.nodup_nil
  sized := Array.size_replicate
  visited := by
    intro edge
    simp [Growth.start, Array.getElem?_replicate]
  realizes := .discrete
  spans := by simp
  taken := by simp
  priority := by simp [Growth.start]
  joins := by simp [Growth.start]
  different := by simp [Growth.start]
  source := by simp [Growth.start]
  waiting := by simp
  surrounded := by simp

theorem reached_of_walk (grown : Grown edges growth history expanded) {count : Nat}
    {a b : Fin edges.index.nodes}
    (walk : edges.graph.Walk (edges.graph.greedy history) count a b) :
    (count = 0 ∧ a = b) ∨ growth.reached.get b = true := by
  rcases walk.last with stay | ⟨edge, kept, c, joins⟩
  · exact .inl stay
  · exact .inr (grown.taken edge (SignedGraph.mem_of_mem_greedy kept).1 c b joins)

/-- The target of a candidate that neither joins nor separates has been reached. -/
theorem reached_of_addEdge (grown : Grown edges growth history expanded)
    {a b : Fin edges.index.nodes} (different : a ≠ b) (repulsive : Bool)
    (idle : (growth.partition.addEdge a b repulsive).1 = .connected ∨
      (growth.partition.addEdge a b repulsive).1 = .excluded) : growth.reached.get b = true := by
  rw [Partition.addEdge_eq] at idle
  by_cases same : growth.partition.root a = growth.partition.root b
  · rcases grown.reached_of_walk ((grown.realizes.linked a b).1 same) with stay | reached
    · exact absurd stay.2 different
    · exact reached
  · by_cases excludes : growth.partition.excludes (growth.partition.root a)
        (growth.partition.root b) = true
    · have unlinked : ¬ edges.graph.Linked (edges.graph.greedy history) a b := fun linked =>
        same ((grown.realizes.linked a b).2 linked)
      have opposed := (grown.realizes.excludes_iff unlinked).1 excludes
      rcases grown.reached_of_walk opposed with stay | reached
      · exact absurd stay.1 (by decide)
      · exact reached
    · rw [if_neg same, if_neg excludes] at idle
      cases repulsive <;> simp at idle

/-- Edges that wait for being taken are still in the frontier when another one has left it. -/
theorem waiting_erase (grown : Grown edges growth history expanded) {longer : List Nat}
    (old : ∀ edge ∈ history, edge ∈ longer) (taken : candidate.edge ∈ longer) :
    ∀ a ∈ expanded, ∀ edge b, a ≠ b → edges.graph.Joins edge a b → edge ∈ longer ∨
      ∃ other ∈ growth.frontier.erase candidate, other.edge = edge := by
  intro a offered edge b different joins
  rcases grown.waiting a offered edge b different joins with isOld | ⟨other, member, rfl⟩
  · exact .inl (old edge isOld)
  · by_cases same : candidate = other
    · subst same
      exact .inl taken
    · exact .inr ⟨other, Candidate.mem_erase_iff.2 ⟨same, member⟩, rfl⟩

theorem skip (grown : Grown edges growth history expanded) (old : candidate.edge ∈ history) :
    Grown edges { growth with frontier := growth.frontier.erase candidate } history expanded where
  distinct := grown.distinct
  sized := grown.sized
  visited := grown.visited
  realizes := grown.realizes
  spans := grown.spans
  taken := grown.taken
  priority other member := grown.priority other (Std.TreeSet.mem_of_mem_erase member)
  joins other member := grown.joins other (Std.TreeSet.mem_of_mem_erase member)
  different other member := grown.different other (Std.TreeSet.mem_of_mem_erase member)
  source other member := grown.source other (Std.TreeSet.mem_of_mem_erase member)
  waiting := grown.waiting_erase (fun _ => id) old
  surrounded := grown.surrounded

/-- A candidate that no other one outranks is surrounded by the history. -/
theorem surrounded_of_best (grown : Grown edges growth history growth.reachedNodes)
    (member : candidate ∈ growth.frontier)
    (best : ∀ other ∈ growth.frontier, (Candidate.order candidate other).isLE) :
    Surrounded edges candidate.edge {edge | edge ∈ history} := by
  have enter : ∀ x, growth.reached.get x = true → ∀ other ∈ better edges candidate.edge, ∀ y,
      edges.graph.Joins other x y → other ∈ history := by
    rintro x reached other ⟨spans, outranks⟩ y joins
    rcases grown.waiting x reached other y (spans.ne joins) joins with old | ⟨rival, isRival, rfl⟩
    · exact old
    · exact absurd outranks (Candidate.not_outranks_of_isLE (grown.priority candidate member)
        (grown.priority rival isRival) (best rival isRival))
  refine ⟨candidate.source, candidate.target, grown.joins candidate member, ?_⟩
  intro x reaches
  refine enter x
    (reaches.induction (growth.reached.get · = true) (grown.source candidate member) ?_)
  intro y z reached other isBetter joins
  exact grown.taken other (enter y reached other isBetter z joins) y z joins

theorem visited_append (grown : Grown edges growth history expanded) {edge : Nat}
    {a b : Fin edges.index.nodes} (joins : edges.graph.Joins edge a b) (other : Nat) :
    (growth.visited.setIfInBounds edge true)[other]? = some true ↔ other ∈ history ++ [edge] := by
  have inRange : edge < growth.visited.size := by
    rw [grown.sized]
    exact EdgeIndex.lt_count_of_joins joins
  rw [Array.getElem?_setIfInBounds, if_pos inRange, List.mem_append, List.mem_singleton,
    ← grown.visited]
  by_cases same : edge = other
  · simp [same]
  · simp [same, Ne.symm same]

/-- Taking the best candidate appends its edge to the history. -/
theorem append (grown : Grown edges growth history growth.reachedNodes)
    (member : candidate ∈ growth.frontier)
    (best : ∀ other ∈ growth.frontier, (Candidate.order candidate other).isLE)
    (fresh : candidate.edge ∉ history) {reached : Vector Bool edges.index.nodes}
    (more : ∀ x : Fin edges.index.nodes, growth.reached.get x = true → reached.get x = true)
    (target : reached.get candidate.target = true) :
    Grown edges { add edges growth candidate with reached := reached }
      (history ++ [candidate.edge]) growth.reachedNodes := by
  have joins := grown.joins candidate member
  have different := grown.different candidate member
  have source := more _ (grown.source candidate member)
  have old : ∀ {other}, other ∈ growth.frontier.erase candidate → other ∈ growth.frontier :=
    Std.TreeSet.mem_of_mem_erase
  -- what is said of candidates still holds of the fewer ones that are left
  refine {
    distinct := ?_, sized := ?_, realizes := ?_, spans := ?_, taken := ?_
    visited := grown.visited_append joins
    priority := fun other isOther => grown.priority other (old isOther)
    joins := fun other isOther => grown.joins other (old isOther)
    different := fun other isOther => grown.different other (old isOther)
    source := fun other isOther => more _ (grown.source other (old isOther))
    waiting := grown.waiting_erase (fun _ => List.mem_append_left _) (by simp)
    surrounded := ?_ }
  · rw [List.nodup_append]
    refine ⟨grown.distinct, List.nodup_singleton _, ?_⟩
    intro edge isOld other isNew
    rw [List.mem_singleton.1 isNew]
    rintro rfl
    exact fresh isOld
  · exact Array.size_setIfInBounds.trans grown.sized
  · rw [SignedGraph.greedy_append_singleton]
    exact grown.realizes.addEdge (SignedGraph.consistent_greedy history) joins
  · intro edge isEdge
    rcases List.mem_append.1 isEdge with isOld | isNew
    · exact grown.spans edge isOld
    · rw [List.mem_singleton.1 isNew]
      exact ⟨_, _, different, joins⟩
  · intro edge isEdge a b ends
    rcases List.mem_append.1 isEdge with isOld | isNew
    · exact more b (grown.taken edge isOld a b ends)
    · rw [List.mem_singleton.1 isNew] at ends
      rcases joins.same_ends ends with ⟨-, rfl⟩ | ⟨-, rfl⟩
      · exact target
      · exact source
  · intro edge isEdge
    rcases List.mem_append.1 isEdge with isOld | isNew
    · exact (grown.surrounded edge isOld).mono (SignedGraph.before_subset_append isOld)
    · rw [List.mem_singleton.1 isNew]
      exact (grown.surrounded_of_best member best).mono fun other isOther =>
        SignedGraph.mem_before_append_singleton fresh isOther

/-- Once its edges are offered, no edge of a reached node is missing from history and frontier. -/
theorem waiting_reach {node : Fin edges.index.nodes}
    (grown : Grown edges (mark growth node) history expanded)
    (covered : ∀ x : Fin edges.index.nodes, (mark growth node).reached.get x = true → x ≠ node →
      x ∈ expanded)
    {a b : Fin edges.index.nodes} (reached : (mark growth node).reached.get a = true)
    {edge : Nat} (different : a ≠ b) (joins : edges.graph.Joins edge a b) :
    edge ∈ history ∨ ∃ candidate ∈ (reach edges growth node).frontier, candidate.edge = edge := by
  have before : ∀ x y, (mark growth node).reached.get x = true → x ≠ node → x ≠ y →
      edges.graph.Joins edge x y →
        edge ∈ history ∨
          ∃ candidate ∈ (reach edges growth node).frontier, candidate.edge = edge := by
    intro x y reachedX apart unequal ends
    rcases grown.waiting x (covered x reachedX apart) edge y unequal ends with
      isOld | ⟨candidate, member, same⟩
    · exact .inl isOld
    · exact .inr ⟨candidate, (mem_frontier_reach growth node candidate).2 (.inl member), same⟩
  by_cases atNode : a = node
  · subst atNode
    by_cases inside : growth.partition.root b = growth.partition.root a
    · -- nodes of one class have all been reached, so the edge was offered at the other end
      rcases grown.reached_of_walk ((grown.realizes.linked a b).1 inside.symm) with stay | reachedB
      · exact absurd stay.2 different
      · exact before b a reachedB different.symm different.symm joins.symm
    · by_cases isOld : edge ∈ history
      · exact .inl isOld
      · have fresh : growth.visited[edge]?.getD false = false := by
          have unseen : growth.visited[edge]? ≠ some true :=
            fun seen => isOld ((grown.visited edge).1 seen)
          revert unseen
          cases growth.visited[edge]? <;> simp
        have leads : Leads growth (growth.partition.root a) a
            ⟨Ranking.priority edges.priorities edge, edge, a, b⟩ := ⟨rfl, rfl, joins, fresh, inside⟩
        exact .inr ⟨_, (mem_frontier_reach growth a _).2 (.inr leads), rfl⟩
  · exact before a b reached atNode different joins

theorem reach {node : Fin edges.index.nodes}
    (grown : Grown edges (mark growth node) history expanded)
    (covered : ∀ x : Fin edges.index.nodes, growth.reached.get x = true → x ≠ node → x ∈ expanded) :
    Grown edges (reach edges growth node) history (reach edges growth node).reachedNodes := by
  have alike : Alike (mark growth node) (Growth.reach edges growth node) := alike_reach growth node
  have marked := mark_self growth node
  have others : ∀ x : Fin edges.index.nodes, (mark growth node).reached.get x = true → x ≠ node →
      x ∈ expanded := by
    intro x reached different
    rw [reached_mark, if_neg different] at reached
    exact covered x reached different
  refine {
    distinct := grown.distinct
    sized := by rw [alike.visited]; exact grown.sized
    visited := by rw [alike.visited]; exact grown.visited
    realizes := grown.realizes.congr alike.roots alike.exclusions
    spans := grown.spans
    taken := by rw [alike.reached]; exact grown.taken
    priority := ?_, joins := ?_, different := ?_, source := ?_, waiting := ?_
    surrounded := grown.surrounded }
  · intro candidate member
    rcases (mem_frontier_reach growth node candidate).1 member with old | leads
    · exact grown.priority candidate old
    · exact leads.priority
  · intro candidate member
    rcases (mem_frontier_reach growth node candidate).1 member with old | leads
    · exact grown.joins candidate old
    · rw [leads.source]
      exact leads.joins
  · intro candidate member
    rcases (mem_frontier_reach growth node candidate).1 member with old | leads
    · exact grown.different candidate old
    · intro same
      rw [leads.source] at same
      exact leads.outside (by rw [same])
  · intro candidate member
    rw [alike.reached]
    rcases (mem_frontier_reach growth node candidate).1 member with old | leads
    · exact grown.source candidate old
    · simpa only [leads.source] using marked
  · intro a reached edge b different joins
    rw [reachedNodes, Set.mem_ofPred_eq, alike.reached] at reached
    exact grown.waiting_reach others reached different joins

end Grown

/-- A state between two steps, with some history behind it and all reached nodes offered. -/
def Steady (growth : Growth edges.index.nodes) : Prop :=
  ∃ history, Grown edges growth history growth.reachedNodes

variable {growth : Growth edges.index.nodes}

/-- Taking the best candidate leads to such a state again, and unmarks no node. -/
theorem Steady.take {candidate : Candidate edges.index.nodes} (steady : Steady growth)
    (found : growth.frontier.min? = some candidate) :
    Steady (take edges growth candidate) ∧
      growth.reachedNodes ⊆ (Growth.take edges growth candidate).reachedNodes := by
  rcases steady with ⟨history, grown⟩
  rcases Std.TreeSet.min?_eq_some_iff_mem_and_forall.1 found with ⟨member, best⟩
  have different := grown.different candidate member
  have seen := grown.visited candidate.edge
  rw [take_eq]
  split
  · next old =>
    have present : growth.visited[candidate.edge]? = some true := by
      revert old
      cases growth.visited[candidate.edge]? <;> simp
    exact ⟨⟨history, grown.skip (seen.1 present)⟩, subset_rfl⟩
  · next new =>
    have fresh : candidate.edge ∉ history := by
      intro isOld
      exact new (by rw [seen.2 isOld]; rfl)
    split
    · next settled =>
      have target : growth.reached.get candidate.target = true := by
        rcases settled with connected | excluded | already
        · exact grown.reached_of_addEdge different _ (.inl connected)
        · exact grown.reached_of_addEdge different _ (.inr excluded)
        · exact already
      exact ⟨⟨_, grown.append member best fresh (fun _ => id) target⟩, subset_rfl⟩
    · have more : ∀ x : Fin edges.index.nodes, growth.reached.get x = true →
          (mark growth candidate.target).reached.get x = true := fun _ => mark_mono candidate.target
      have marked : Grown edges (mark (add edges growth candidate) candidate.target)
          (history ++ [candidate.edge]) growth.reachedNodes :=
        grown.append member best fresh more (mark_self growth candidate.target)
      refine ⟨⟨_, marked.reach fun x reached _ => reached⟩, fun x reached => ?_⟩
      rw [reachedNodes, Set.mem_ofPred_eq, (alike_reach (add edges growth candidate) _).reached]
      exact more x reached

theorem Steady.settle (steady : Steady growth) :
    Steady (settle edges growth) ∧ growth.reachedNodes ⊆ (Growth.settle edges growth).reachedNodes ∧
      ∀ candidate, candidate ∉ (Growth.settle edges growth).frontier := by
  fun_induction Growth.settle edges growth with
  | case1 growth found =>
      refine ⟨steady, subset_rfl, fun candidate => ?_⟩
      rw [Std.TreeSet.min?_eq_none_iff, Std.TreeSet.isEmpty_iff_forall_not_mem] at found
      exact found candidate
  | case2 growth candidate found _ ih =>
      rcases steady.take found with ⟨after, more⟩
      rcases ih after with ⟨final, evenMore, empty⟩
      exact ⟨final, more.trans evenMore, empty⟩

/-- A state between two seeds. -/
def Resting (growth : Growth edges.index.nodes) : Prop :=
  Steady growth ∧ ∀ candidate, candidate ∉ growth.frontier

theorem Resting.start : Resting (start edges) := by
  have none : (Growth.start edges).reachedNodes = ∅ := by
    ext node
    simp [reachedNodes, Growth.start]
  refine ⟨⟨[], ?_⟩, by simp [Growth.start]⟩
  rw [none]
  exact .start

theorem Resting.reach (resting : Resting growth) (seed : Fin edges.index.nodes) :
    Steady (reach edges growth seed) := by
  rcases resting with ⟨⟨history, grown⟩, -⟩
  have marked : Grown edges (mark growth seed) history growth.reachedNodes := {
    grown with
    taken := fun edge isEdge a b joins => mark_mono seed (grown.taken edge isEdge a b joins)
    source := fun candidate member => mark_mono seed (grown.source candidate member) }
  exact ⟨history, marked.reach fun x reached _ => reached⟩

theorem Resting.growFrom (resting : Resting growth) (seed : Fin edges.index.nodes) :
    Resting (growFrom edges growth seed) ∧
      growth.reachedNodes ⊆ (Growth.growFrom edges growth seed).reachedNodes ∧
      seed ∈ (Growth.growFrom edges growth seed).reachedNodes := by
  unfold Growth.growFrom
  split
  · next old => exact ⟨resting, subset_rfl, old⟩
  · have alike : (Growth.reach edges growth seed).reached = (mark growth seed).reached :=
      (alike_reach growth seed).reached
    rcases (resting.reach seed).settle with ⟨final, more, empty⟩
    refine ⟨⟨final, empty⟩, fun x old => more ?_, more ?_⟩
    · rw [reachedNodes, Set.mem_ofPred_eq, alike]
      exact mark_mono seed old
    · rw [reachedNodes, Set.mem_ofPred_eq, alike]
      exact mark_self growth seed

theorem Resting.foldl_growFrom (resting : Resting growth) (seeds : List (Fin edges.index.nodes)) :
    Resting (seeds.foldl (Growth.growFrom edges) growth) ∧
      growth.reachedNodes ⊆ (seeds.foldl (Growth.growFrom edges) growth).reachedNodes ∧
      ∀ seed ∈ seeds, seed ∈ (seeds.foldl (Growth.growFrom edges) growth).reachedNodes := by
  induction seeds generalizing growth with
  | nil => exact ⟨resting, subset_rfl, by simp⟩
  | cons seed seeds ih =>
      rcases resting.growFrom seed with ⟨after, more, here⟩
      rcases ih after with ⟨final, evenMore, others⟩
      refine ⟨final, more.trans evenMore, fun other member => ?_⟩
      rcases List.mem_cons.1 member with rfl | later
      · exact evenMore here
      · exact others other later

/--
At the end every edge with two different ends has been taken once, in an order in which every one
was surrounded by edges that outrank it and came before.
-/
theorem run_grown (edges : RankedEdges) :
    ∃ history : List Nat, history.Nodup ∧ (∀ edge, edge ∈ history ↔ edges.graph.Spans edge) ∧
      (∀ edge ∈ history, Surrounded edges edge (SignedGraph.before history edge)) ∧
      (run edges).partition.Realizes edges.graph (edges.graph.greedy history) := by
  rcases Resting.start.foldl_growFrom (List.finRange edges.index.nodes) with
      ⟨⟨⟨history, grown⟩, empty⟩, -, all⟩
  refine ⟨history, grown.distinct, fun edge => ⟨grown.spans edge, ?_⟩, grown.surrounded,
    grown.realizes⟩
  rintro ⟨a, b, different, joins⟩
  rcases grown.waiting a (all a (List.mem_finRange a)) edge b different joins with
    taken | ⟨candidate, member, -⟩
  · exact taken
  · exact absurd member (empty candidate)

theorem cluster_eq_labels {index : EdgeIndex} {stencil : Stencil} {gridShape : List Nat}
    {weights : Array Binary32} {valid : Array Bool}
    (numbered : EdgeIndex.ofGrid stencil gridShape = .ok index)
    (weightCount : weights.size = index.count) (validCount : valid.size = index.count) :
    cluster weights valid stencil gridShape =
      .ok (run ⟨index, weights.map Binary32.priority, valid⟩).partition.labels := by
  unfold cluster
  rw [numbered]
  simp only [EdgeIndex.checkCount, if_pos weightCount, if_pos validCount, bind, Except.bind]
  rfl

end Growth

end Watershed
