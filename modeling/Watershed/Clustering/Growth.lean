import Watershed.Binary32
import Watershed.Edge.Index
import Watershed.Partition.Basic

/-!
# Clustering by growth

A region grows from a seed. Its frontier holds the valid edges that lead from reached nodes to other
classes, each as a `Candidate` seen from one of its ends. The best candidate is taken first: the one
of highest priority, and among equal priorities that of the lowest edge number. Taking a candidate
adds its edge to the partition, and a candidate that joins or separates two classes also reaches its
target. When the frontier is empty, the next node that has not been reached becomes a seed.

Growth ends because every candidate that is taken makes the frontier smaller, except when it reaches
a node for the first time; and a node that is reached adds at most two candidates per channel. The
number `Growth.remaining` weighs the two against each other and falls with every candidate.
-/

namespace Watershed

/-- An edge in the frontier, seen from the end that has been reached. -/
structure Candidate (n : Nat) where
  priority : Nat
  edge : Nat
  source : Fin n
  target : Fin n

/-- The order in which candidates are taken: higher priority first, then the lower edge number. -/
def Candidate.order {n : Nat} : Candidate n → Candidate n → Ordering :=
  compareLex (fun left right => compareOn Candidate.priority right left)
    (compareLex (compareOn Candidate.edge)
      (compareLex (compareOn Candidate.source) (compareOn Candidate.target)))

instance {n : Nat} : Std.TransCmp (Candidate.order (n := n)) := by
  unfold Candidate.order
  infer_instance

/-- The edges of a grid graph with the priority and the validity of each. -/
structure RankedEdges where
  index : EdgeIndex
  priorities : Array Nat
  valid : Array Bool

/-- The state of a growth: the partition so far, and the frontier of edges to take next. -/
structure Growth (n : Nat) where
  partition : Partition n
  /-- The edges that have been taken from the frontier. -/
  visited : Array Bool
  /-- The nodes whose edges have been put into the frontier. -/
  reached : Vector Bool n
  frontier : Std.TreeSet (Candidate n) Candidate.order

namespace Growth

variable (edges : RankedEdges)

/-- No node has been reached, and the frontier is empty. -/
def start : Growth edges.index.nodes where
  partition := .discrete edges.index.nodes
  visited := Array.replicate edges.index.count false
  reached := Vector.replicate edges.index.nodes false
  frontier := ∅

/-- Puts an edge into the frontier if it is valid, was never taken and leads to another class. -/
def offer (root : Fin edges.index.nodes) (growth : Growth edges.index.nodes) (edge : Nat)
    (source target : Fin edges.index.nodes) : Growth edges.index.nodes :=
  match growth with
  | ⟨partition, visited, reached, frontier⟩ =>
      if edges.valid[edge]?.getD false && !visited[edge]?.getD false then
        match partition.find target with
        | (found, partition) =>
            if found = root then
              ⟨partition, visited, reached, frontier⟩
            else
              let priority := edges.priorities[edge]?.getD 0
              ⟨partition, visited, reached, frontier.insert ⟨priority, edge, source, target⟩⟩
      else
        ⟨partition, visited, reached, frontier⟩

/-- Offers the edge of a channel that starts at a node, and then the one that ends there. -/
def offerChannel (root node : Fin edges.index.nodes) (growth : Growth edges.index.nodes)
    (channel : Nat) : Growth edges.index.nodes :=
  match edges.index.steps[channel]? with
  | none => growth
  | some step =>
      let growth :=
        match edges.index.neighbor? node step with
        | none => growth
        | some target => offer edges root growth (edges.index.number channel node) node target
      match edges.index.neighbor? node (-step) with
      | none => growth
      | some source => offer edges root growth (edges.index.number channel source) node source

/-- Marks a node as reached and offers all of its edges. -/
def reach (growth : Growth edges.index.nodes) (node : Fin edges.index.nodes) :
    Growth edges.index.nodes :=
  match growth with
  | ⟨partition, visited, reached, frontier⟩ =>
      let reached := reached.set node true node.isLt
      match partition.find node with
      | (root, partition) =>
          (List.range edges.index.channels).foldl (offerChannel edges root node)
            ⟨partition, visited, reached, frontier⟩

/-- The number of nodes that can still become seeds or be reached. -/
def unreached {n : Nat} (growth : Growth n) : Nat :=
  growth.reached.count false

theorem reached_offer (root : Fin edges.index.nodes) (growth : Growth edges.index.nodes)
    (edge : Nat) (source target : Fin edges.index.nodes) :
    (offer edges root growth edge source target).reached = growth.reached := by
  unfold offer
  repeat' split
  all_goals rfl

theorem reached_offerChannel (root node : Fin edges.index.nodes)
    (growth : Growth edges.index.nodes) (channel : Nat) :
    (offerChannel edges root node growth channel).reached = growth.reached := by
  unfold offerChannel
  split
  · rfl
  · simp only
    split <;> split <;> simp [reached_offer]

theorem reached_foldl_offerChannel (root node : Fin edges.index.nodes) (channels : List Nat)
    (growth : Growth edges.index.nodes) :
    (channels.foldl (offerChannel edges root node) growth).reached = growth.reached := by
  induction channels generalizing growth with
  | nil => rfl
  | cons channel channels ih => rw [List.foldl_cons, ih, reached_offerChannel]

/-- Reaching a node marks it and no other one. -/
theorem reached_reach (growth : Growth edges.index.nodes) (node : Fin edges.index.nodes) :
    (reach edges growth node).reached = growth.reached.set node true node.isLt := by
  unfold reach
  simp only [reached_foldl_offerChannel]

/-- A node that is reached for the first time lowers the number of the others. -/
theorem unreached_reach_lt (growth : Growth edges.index.nodes) (node : Fin edges.index.nodes)
    (fresh : growth.reached.get node = false) :
    (reach edges growth node).unreached < growth.unreached := by
  have present : false ∈ growth.reached := by
    rw [← fresh]
    exact Entries.get_mem growth.reached node
  have positive := Vector.count_pos_iff.2 present
  rw [Entries.get_eq_getElem] at fresh
  simp only [unreached, reached_reach, Vector.count_set, fresh]
  simp only [beq_self_eq_true, if_true, Bool.true_beq, Bool.false_eq_true, if_false]
  omega

/--
Takes a candidate out of the frontier. Unless its edge was taken before, the edge is added to the
partition, and the target is reached if that joined or separated two classes.
-/
def take (growth : Growth edges.index.nodes) (candidate : Candidate edges.index.nodes) :
    Growth edges.index.nodes :=
  match growth with
  | ⟨partition, visited, reached, frontier⟩ =>
      let rest := frontier.erase candidate
      if visited[candidate.edge]?.getD false then
        ⟨partition, visited, reached, rest⟩
      else
        let visited := visited.setIfInBounds candidate.edge true
        match partition.addEdge candidate.source candidate.target
            (edges.index.isRepulsive candidate.edge) with
        | (outcome, partition) =>
            let growth : Growth edges.index.nodes := ⟨partition, visited, reached, rest⟩
            if outcome = .connected ∨ outcome = .excluded ∨ reached.get candidate.target then growth
            else reach edges growth candidate.target

/-- The most candidates that one node puts into the frontier. -/
def fanOut : Nat :=
  2 * edges.index.channels

/-- A number that falls with every candidate that is taken. -/
def remaining (growth : Growth edges.index.nodes) : Nat :=
  growth.unreached * (fanOut edges + 1) + growth.frontier.size

theorem size_frontier_offer_le (root : Fin edges.index.nodes) (growth : Growth edges.index.nodes)
    (edge : Nat) (source target : Fin edges.index.nodes) :
    (offer edges root growth edge source target).frontier.size ≤ growth.frontier.size + 1 := by
  unfold offer
  split
  split
  · split
    split
    · exact Nat.le_succ _
    · exact Std.TreeSet.size_insert_le
  · exact Nat.le_succ _

theorem size_frontier_offerChannel_le (root node : Fin edges.index.nodes)
    (growth : Growth edges.index.nodes) (channel : Nat) :
    (offerChannel edges root node growth channel).frontier.size ≤ growth.frontier.size + 2 := by
  unfold offerChannel
  split
  · exact Nat.le_add_right _ 2
  · simp only
    split <;> split
    · exact Nat.le_add_right _ 2
    · exact Nat.le_succ_of_le (size_frontier_offer_le ..)
    · exact Nat.le_succ_of_le (size_frontier_offer_le ..)
    · exact Nat.le_trans (size_frontier_offer_le ..)
        (Nat.succ_le_succ (size_frontier_offer_le ..))

theorem size_frontier_foldl_offerChannel_le (root node : Fin edges.index.nodes)
    (channels : List Nat) (growth : Growth edges.index.nodes) :
    (channels.foldl (offerChannel edges root node) growth).frontier.size ≤
      growth.frontier.size + 2 * channels.length := by
  induction channels generalizing growth with
  | nil => simp
  | cons channel channels ih =>
      have first := size_frontier_offerChannel_le edges root node growth channel
      have others := ih (offerChannel edges root node growth channel)
      simp only [List.foldl_cons, List.length_cons]
      omega

/-- Reaching a node puts at most two candidates per channel into the frontier. -/
theorem size_frontier_reach_le (growth : Growth edges.index.nodes) (node : Fin edges.index.nodes) :
    (reach edges growth node).frontier.size ≤ growth.frontier.size + fanOut edges := by
  unfold reach
  split
  split
  simpa [fanOut] using size_frontier_foldl_offerChannel_le edges _ node
    (List.range edges.index.channels) _

theorem remaining_reach_lt (growth : Growth edges.index.nodes) (node : Fin edges.index.nodes)
    (fresh : growth.reached.get node = false) :
    remaining edges (reach edges growth node) < remaining edges growth := by
  have fewer := unreached_reach_lt edges growth node fresh
  have grown := size_frontier_reach_le edges growth node
  have scaled := Nat.mul_le_mul_right (fanOut edges + 1) fewer
  simp only [Nat.succ_mul] at scaled
  simp only [remaining]
  omega

theorem size_erase_lt {n : Nat} {frontier : Std.TreeSet (Candidate n) Candidate.order}
    {candidate : Candidate n} (member : candidate ∈ frontier) :
    (frontier.erase candidate).size < frontier.size := by
  have contained : frontier.contains candidate = true := Std.TreeSet.mem_iff_contains.1 member
  have nonempty := Std.TreeSet.isEmpty_eq_false_iff_exists_contains_eq_true.2 ⟨_, contained⟩
  simp only [Std.TreeSet.isEmpty_eq_size_eq_zero, beq_eq_false_iff_ne] at nonempty
  simp only [Std.TreeSet.size_erase, contained, if_true]
  omega

/-- Taking a candidate of the frontier is progress. -/
theorem remaining_take_lt (growth : Growth edges.index.nodes)
    (candidate : Candidate edges.index.nodes) (member : candidate ∈ growth.frontier) :
    remaining edges (take edges growth candidate) < remaining edges growth := by
  have smaller := size_erase_lt member
  unfold take
  split
  dsimp only at smaller ⊢
  split
  · simp only [remaining, unreached]
    omega
  · split
    · simp only [remaining, unreached]
      omega
    · next unblocked =>
      refine Nat.lt_trans (remaining_reach_lt edges _ _ ?_) ?_
      · simpa using fun already => unblocked (.inr (.inr already))
      · simp only [remaining, unreached]
        omega

/-- Takes the best candidate of the frontier until there is none. -/
def settle (growth : Growth edges.index.nodes) : Growth edges.index.nodes :=
  match found : growth.frontier.min? with
  | none => growth
  | some candidate =>
      have := remaining_take_lt edges growth candidate
        (Std.TreeSet.mem_iff_contains.2 (Std.TreeSet.contains_min? found))
      settle (take edges growth candidate)
termination_by remaining edges growth

/-- Grows a region from a node, unless the node has been reached before. -/
def growFrom (growth : Growth edges.index.nodes) (seed : Fin edges.index.nodes) :
    Growth edges.index.nodes :=
  if growth.reached.get seed then growth else settle edges (reach edges growth seed)

/-- Grows regions from all nodes in ascending order. -/
def run : Growth edges.index.nodes :=
  (List.finRange edges.index.nodes).foldl (growFrom edges) (start edges)

/-- The labels that weighted edges of a grid give to its cells. -/
def cluster (weights : Array Binary32) (valid : Array Bool) (stencil : Stencil)
    (gridShape : List Nat) : Except Error (Array Nat) := do
  let index ← EdgeIndex.ofGrid stencil gridShape
  index.checkCount weights.size
  index.checkCount valid.size
  return (run ⟨index, weights.map Binary32.priority, valid⟩).partition.labels

end Growth

end Watershed
