import Watershed.Clustering.Growth
import Watershed.Proofs.EdgeIndex
import Watershed.Proofs.Partition
import Watershed.Proofs.Ranking

/-!
# The frontier of a growing region

Reaching a node searches for many roots and thereby rewrites links, but it changes no root, and all
it does to the state is to put candidates into the frontier. `Growth.mem_frontier_reach` says which
ones: every valid edge at the node that was never taken and leads to another class, seen from the
node. The channels and the two directions in which an edge can be met do not show in this statement.

The best candidate of a frontier is one that no other candidate outranks.
-/

namespace Watershed

namespace Candidate

variable {n : Nat}

theorem order_eq_eq_iff (left right : Candidate n) : order left right = .eq ↔ left = right := by
  rcases left with ⟨priority, edge, source, target⟩
  rcases right with ⟨otherPriority, otherEdge, otherSource, otherTarget⟩
  simp only [order, compareLex, compareOn, Ordering.then_eq_eq, Std.compare_eq_iff_eq,
    Candidate.mk.injEq]
  grind

instance : Std.LawfulEqCmp (order (n := n)) where
  eq_of_compare := (order_eq_eq_iff _ _).1

theorem mem_erase_iff {frontier : Std.TreeSet (Candidate n) order} {taken other : Candidate n} :
    other ∈ frontier.erase taken ↔ taken ≠ other ∧ other ∈ frontier := by
  rw [Std.TreeSet.mem_erase, ne_eq, order_eq_eq_iff]

/-- A candidate that comes first in the order is not outranked. -/
theorem not_outranks_of_isLE {priorities : Array Nat} {best other : Candidate n}
    (bestPriority : best.priority = Ranking.priority priorities best.edge)
    (otherPriority : other.priority = Ranking.priority priorities other.edge)
    (first : (order best other).isLE) : ¬ Ranking.Outranks priorities other.edge best.edge := by
  rw [Ranking.Outranks, ← bestPriority, ← otherPriority]
  have different : order best other ≠ .gt := Ordering.isLE_iff_ne_gt.1 first
  intro outranks
  apply different
  simp only [order, compareLex, compareOn]
  rcases outranks with higher | ⟨equal, lower⟩
  · rw [Nat.compare_eq_gt.2 higher]
    rfl
  · rw [Nat.compare_eq_eq.2 equal, Nat.compare_eq_gt.2 lower]
    rfl

end Candidate

namespace RankedEdges

/-- The valid edges with their ends. -/
def graph (edges : RankedEdges) : SignedGraph (Fin edges.index.nodes) :=
  edges.index.graph edges.valid

end RankedEdges

namespace Growth

variable {edges : RankedEdges}

/-- A candidate is an edge at a node, seen from there, that leads out of a class. -/
structure Leads (growth : Growth edges.index.nodes) (root node : Fin edges.index.nodes)
    (candidate : Candidate edges.index.nodes) : Prop where
  priority : candidate.priority = Ranking.priority edges.priorities candidate.edge
  source : candidate.source = node
  joins : edges.graph.Joins candidate.edge node candidate.target
  fresh : growth.visited[candidate.edge]?.getD false = false
  outside : growth.partition.root candidate.target ≠ root

/-- Two states differ at most in their frontiers and in the links behind their roots. -/
structure Alike {n : Nat} (growth after : Growth n) : Prop where
  roots : ∀ x, after.partition.root x = growth.partition.root x
  ranks : after.partition.classes.rank = growth.partition.classes.rank
  exclusions : after.partition.exclusions = growth.partition.exclusions
  visited : after.visited = growth.visited
  reached : after.reached = growth.reached

theorem Alike.refl {n : Nat} (growth : Growth n) : Alike growth growth :=
  ⟨fun _ => rfl, rfl, rfl, rfl, rfl⟩

theorem Alike.trans {n : Nat} {growth middle after : Growth n} (left : Alike growth middle)
    (right : Alike middle after) : Alike growth after where
  roots x := (right.roots x).trans (left.roots x)
  ranks := right.ranks.trans left.ranks
  exclusions := right.exclusions.trans left.exclusions
  visited := right.visited.trans left.visited
  reached := right.reached.trans left.reached

theorem Alike.leads_iff {growth after : Growth edges.index.nodes} (alike : Alike growth after)
    {root node : Fin edges.index.nodes} {candidate : Candidate edges.index.nodes} :
    Leads after root node candidate ↔ Leads growth root node candidate := by
  constructor
  · rintro ⟨priority, source, joins, fresh, outside⟩
    exact ⟨priority, source, joins, alike.visited ▸ fresh, alike.roots _ ▸ outside⟩
  · rintro ⟨priority, source, joins, fresh, outside⟩
    exact ⟨priority, source, joins, alike.visited ▸ fresh, (alike.roots _).symm ▸ outside⟩

theorem offered_iff (growth : Growth edges.index.nodes) (edge : Nat) :
    (edges.valid[edge]?.getD false && !growth.visited[edge]?.getD false) = true ↔
      edges.valid[edge]? = some true ∧ growth.visited[edge]?.getD false = false := by
  cases edges.valid[edge]? <;> simp

theorem offer_eq (root : Fin edges.index.nodes) (growth : Growth edges.index.nodes) (edge : Nat)
    (source target : Fin edges.index.nodes) :
    offer edges root growth edge source target =
      if edges.valid[edge]? = some true ∧ growth.visited[edge]?.getD false = false then
        ⟨(growth.partition.find target).2, growth.visited, growth.reached,
          if growth.partition.root target = root then growth.frontier
          else growth.frontier.insert
            ⟨Ranking.priority edges.priorities edge, edge, source, target⟩⟩
      else growth := by
  have known := offered_iff growth edge
  have found : (growth.partition.find target).1 = growth.partition.root target :=
    growth.partition.find_fst target
  rcases growth with ⟨partition, visited, reached, frontier⟩
  unfold offer
  simp only [known, found]
  split
  · split <;> rfl
  · rfl

theorem alike_offer (root : Fin edges.index.nodes) (growth : Growth edges.index.nodes)
    (edge : Nat) (source target : Fin edges.index.nodes) :
    Alike growth (offer edges root growth edge source target) := by
  rw [offer_eq]
  split
  · exact ⟨growth.partition.root_find target, growth.partition.classes.rank_find target, rfl, rfl,
      rfl⟩
  · exact .refl growth

/-- There is one candidate that an offer can be about. -/
theorem leads_along_iff {root : Fin edges.index.nodes} {growth : Growth edges.index.nodes}
    {edge : Nat} {source target : Fin edges.index.nodes}
    (ends : edges.index.ends? edge = some (source, target) ∨
      edges.index.ends? edge = some (target, source))
    {candidate : Candidate edges.index.nodes} :
    (Leads growth root source candidate ∧ candidate.edge = edge ∧ candidate.target = target) ↔
      (edges.valid[edge]? = some true ∧ growth.visited[edge]?.getD false = false) ∧
        growth.partition.root target ≠ root ∧
          candidate = ⟨Ranking.priority edges.priorities edge, edge, source, target⟩ := by
  rcases candidate with ⟨priority, number, start, stop⟩
  constructor
  · rintro ⟨⟨weight, atSource, joins, fresh, outside⟩, atEdge, atTarget⟩
    dsimp only at weight atSource joins fresh outside atEdge atTarget
    subst atEdge atTarget atSource weight
    exact ⟨⟨(EdgeIndex.joins_graph_iff.1 joins).1, fresh⟩, outside, rfl⟩
  · rintro ⟨⟨valid, fresh⟩, outside, equal⟩
    rcases Candidate.mk.inj equal with ⟨rfl, rfl, rfl, rfl⟩
    exact ⟨⟨rfl, rfl, EdgeIndex.joins_graph_iff.2 ⟨valid, ends⟩, fresh, outside⟩, rfl, rfl⟩

/-- An offer puts in the candidate that it is about, if that leads out of the class. -/
theorem mem_frontier_offer (root : Fin edges.index.nodes) (growth : Growth edges.index.nodes)
    {edge : Nat} {source target : Fin edges.index.nodes}
    (ends : edges.index.ends? edge = some (source, target) ∨
      edges.index.ends? edge = some (target, source))
    (candidate : Candidate edges.index.nodes) :
    candidate ∈ (offer edges root growth edge source target).frontier ↔
      candidate ∈ growth.frontier ∨
        (Leads growth root source candidate ∧ candidate.edge = edge ∧
          candidate.target = target) := by
  rw [offer_eq, leads_along_iff ends]
  split
  · next taken =>
    simp only
    split
    · next inside =>
      simp [inside]
    · next outside =>
      rw [Std.TreeSet.mem_insert, Candidate.order_eq_eq_iff]
      grind
  · next passed =>
    simp [passed]

/-- Offers the edge to a neighbour, if there is one, whose number may depend on the neighbour. -/
def offerNeighbor (edges : RankedEdges) (root node : Fin edges.index.nodes)
    (number : Fin edges.index.nodes → Nat) (growth : Growth edges.index.nodes)
    (neighbor? : Option (Fin edges.index.nodes)) : Growth edges.index.nodes :=
  neighbor?.elim growth fun neighbor => offer edges root growth (number neighbor) node neighbor

theorem alike_offerNeighbor (root node : Fin edges.index.nodes)
    (number : Fin edges.index.nodes → Nat) (growth : Growth edges.index.nodes)
    (neighbor? : Option (Fin edges.index.nodes)) :
    Alike growth (offerNeighbor edges root node number growth neighbor?) := by
  cases neighbor? with
  | none => exact .refl growth
  | some neighbor => exact alike_offer ..

theorem mem_frontier_offerNeighbor (root node : Fin edges.index.nodes)
    {number : Fin edges.index.nodes → Nat} (growth : Growth edges.index.nodes)
    {neighbor? : Option (Fin edges.index.nodes)}
    (ends : ∀ neighbor, neighbor? = some neighbor →
      edges.index.ends? (number neighbor) = some (node, neighbor) ∨
        edges.index.ends? (number neighbor) = some (neighbor, node))
    (candidate : Candidate edges.index.nodes) :
    candidate ∈ (offerNeighbor edges root node number growth neighbor?).frontier ↔
      candidate ∈ growth.frontier ∨ (Leads growth root node candidate ∧
        neighbor? = some candidate.target ∧ candidate.edge = number candidate.target) := by
  cases neighbor? with
  | none => simp [offerNeighbor]
  | some neighbor =>
      refine (mem_frontier_offer root growth (ends neighbor rfl) candidate).trans ?_
      rw [Option.some.injEq]
      refine or_congr_right (and_congr_right fun _ => ?_)
      constructor
      · rintro ⟨sameEdge, rfl⟩
        exact ⟨rfl, sameEdge⟩
      · rintro ⟨rfl, sameEdge⟩
        exact ⟨sameEdge, rfl⟩

/-- A channel offers the edge that starts at a node, and then the one that ends there. -/
theorem offerChannel_eq {root node : Fin edges.index.nodes} {growth : Growth edges.index.nodes}
    {channel : Nat} {step : Int} (known : edges.index.steps[channel]? = some step) :
    offerChannel edges root node growth channel =
      offerNeighbor edges root node (edges.index.number channel ·.val)
        (offerNeighbor edges root node (fun _ => edges.index.number channel node) growth
          (edges.index.neighbor? node step))
        (edges.index.neighbor? node (-step)) := by
  unfold offerChannel
  simp only [known]
  cases edges.index.neighbor? node step <;> cases edges.index.neighbor? node (-step) <;> rfl

theorem alike_offerChannel (root node : Fin edges.index.nodes)
    (growth : Growth edges.index.nodes) (channel : Nat) :
    Alike growth (offerChannel edges root node growth channel) := by
  cases known : edges.index.steps[channel]? with
  | none =>
      rw [offerChannel, known]
      exact .refl growth
  | some step =>
      rw [offerChannel_eq known]
      exact (alike_offerNeighbor ..).trans (alike_offerNeighbor ..)

/-- The candidates of a channel are the edges of the channel to the two neighbours of a node. -/
theorem Leads.channel_iff {growth : Growth edges.index.nodes} {root node : Fin edges.index.nodes}
    {candidate : Candidate edges.index.nodes} (leads : Leads growth root node candidate)
    {channel : Nat} : candidate.edge / edges.index.nodes = channel ↔
      ∃ step, edges.index.steps[channel]? = some step ∧
        ((edges.index.neighbor? node step = some candidate.target ∧
            candidate.edge = edges.index.number channel node) ∨
          (edges.index.neighbor? node (-step) = some candidate.target ∧
            candidate.edge = edges.index.number channel candidate.target)) := by
  rw [← EdgeIndex.ends?_of_channel_iff]
  exact (and_iff_right (EdgeIndex.joins_graph_iff.1 leads.joins).2).symm

/-- Offering a channel puts in the candidates of that channel. -/
theorem mem_frontier_offerChannel (root node : Fin edges.index.nodes)
    (growth : Growth edges.index.nodes) (channel : Nat) (candidate : Candidate edges.index.nodes) :
    candidate ∈ (offerChannel edges root node growth channel).frontier ↔
      candidate ∈ growth.frontier ∨
        (Leads growth root node candidate ∧ candidate.edge / edges.index.nodes = channel) := by
  rw [and_congr_right fun leads : Leads growth root node candidate => leads.channel_iff]
  cases known : edges.index.steps[channel]? with
  | none => simp [offerChannel, known]
  | some step =>
      have ahead : ∀ target, edges.index.neighbor? node step = some target →
          edges.index.ends? (edges.index.number channel node) = some (node, target) :=
        fun target leads => EdgeIndex.ends?_number_eq_some_iff.2 ⟨rfl, step, known, leads⟩
      have behind : ∀ source, edges.index.neighbor? node (-step) = some source →
          edges.index.ends? (edges.index.number channel source) = some (source, node) :=
        fun source leads => EdgeIndex.ends?_number_eq_some_iff.2
          ⟨rfl, step, known, EdgeIndex.neighbor?_neg_eq_some_iff.1 leads⟩
      rw [offerChannel_eq known,
        mem_frontier_offerNeighbor root node _ fun source leads => .inr (behind source leads),
        mem_frontier_offerNeighbor root node _ fun target leads => .inl (ahead target leads),
        (alike_offerNeighbor ..).leads_iff, or_assoc, ← and_or_left]
      simp

theorem alike_foldl_offerChannel (root node : Fin edges.index.nodes) (channels : List Nat)
    (growth : Growth edges.index.nodes) :
    Alike growth (channels.foldl (offerChannel edges root node) growth) := by
  induction channels generalizing growth with
  | nil => exact .refl growth
  | cons channel channels ih => exact (alike_offerChannel root node growth channel).trans (ih _)

theorem mem_frontier_foldl_offerChannel (root node : Fin edges.index.nodes) (channels : List Nat)
    (growth : Growth edges.index.nodes) (candidate : Candidate edges.index.nodes) :
    candidate ∈ (channels.foldl (offerChannel edges root node) growth).frontier ↔
      candidate ∈ growth.frontier ∨ (Leads growth root node candidate ∧
        candidate.edge / edges.index.nodes ∈ channels) := by
  induction channels generalizing growth with
  | nil => simp
  | cons channel channels ih =>
      rw [List.foldl_cons, ih, mem_frontier_offerChannel,
        (alike_offerChannel root node growth channel).leads_iff, List.mem_cons]
      grind

/-- The state in which a node is marked as reached but none of its edges has been offered. -/
def mark {n : Nat} (growth : Growth n) (node : Fin n) : Growth n :=
  { growth with reached := growth.reached.set node true node.isLt }

theorem reached_mark {n : Nat} (growth : Growth n) (node x : Fin n) :
    (mark growth node).reached.get x = if x = node then true else growth.reached.get x :=
  Entries.get_set growth.reached node x true

/-- The state in which a node is marked as reached and its root has been searched for. -/
def rooted {n : Nat} (growth : Growth n) (node : Fin n) : Growth n :=
  { mark growth node with partition := (growth.partition.find node).2 }

theorem alike_rooted {n : Nat} (growth : Growth n) (node : Fin n) :
    Alike (mark growth node) (rooted growth node) :=
  ⟨growth.partition.root_find node, growth.partition.classes.rank_find node, rfl, rfl, rfl⟩

theorem reach_eq (growth : Growth edges.index.nodes) (node : Fin edges.index.nodes) :
    reach edges growth node = (List.range edges.index.channels).foldl
      (offerChannel edges (growth.partition.root node) node) (rooted growth node) := by
  have found := growth.partition.find_fst node
  rw [← found]
  rfl

theorem alike_reach (growth : Growth edges.index.nodes) (node : Fin edges.index.nodes) :
    Alike (mark growth node) (reach edges growth node) := by
  rw [reach_eq]
  exact (alike_rooted growth node).trans (alike_foldl_offerChannel ..)

/-- Marking a node changes no candidate, and each belongs to one of the channels. -/
theorem leads_rooted_iff {growth : Growth edges.index.nodes} {root node x : Fin edges.index.nodes}
    {candidate : Candidate edges.index.nodes} :
    Leads (rooted growth x) root node candidate ∧
        candidate.edge / edges.index.nodes ∈ List.range edges.index.channels ↔
      Leads growth root node candidate := by
  rw [(alike_rooted growth x).leads_iff]
  constructor
  · rintro ⟨⟨priority, source, joins, fresh, outside⟩, -⟩
    exact ⟨priority, source, joins, fresh, outside⟩
  · rintro ⟨priority, source, joins, fresh, outside⟩
    have numbered : candidate.edge < edges.index.count := EdgeIndex.lt_count_of_joins joins
    refine ⟨⟨priority, source, joins, fresh, outside⟩, ?_⟩
    rw [List.mem_range]
    exact Nat.div_lt_of_lt_mul numbered

/-- Reaching a node puts in all candidates that lead away from there. -/
theorem mem_frontier_reach (growth : Growth edges.index.nodes) (node : Fin edges.index.nodes)
    (candidate : Candidate edges.index.nodes) :
    candidate ∈ (reach edges growth node).frontier ↔ candidate ∈ growth.frontier ∨
      Leads growth (growth.partition.root node) node candidate := by
  rw [reach_eq, mem_frontier_foldl_offerChannel, leads_rooted_iff]
  rfl

section Settled

variable {growth : Growth edges.index.nodes} {candidate : Candidate edges.index.nodes}

theorem settle_of_min?_eq_none (found : growth.frontier.min? = none) :
    settle edges growth = growth := by
  rw [settle]
  split
  · rfl
  · next other => exact absurd (found.symm.trans other) (by simp)

theorem settle_of_min?_eq_some (found : growth.frontier.min? = some candidate) :
    settle edges growth = settle edges (take edges growth candidate) := by
  rw [settle]
  split
  · next other => exact absurd (found.symm.trans other) (by simp)
  · next other => rw [Option.some.inj (found.symm.trans other)]

end Settled

end Growth

end Watershed
