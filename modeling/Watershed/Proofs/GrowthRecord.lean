import Watershed.Proofs.Growth

/-!
# The record of a growth

The state of a growth does not tell in which order nodes were expanded and candidates came and went.
A recorded growth takes the same steps and writes down each of these events where it happens. It
never reads what it has written: without the events it is the growth itself (`growth_run`).

What is written while a node is expanded is described by `Recorded.events_reach`: the node, and then
each candidate that leads away from it, once. An edge can be met in two directions and in several
channels, so that no candidate is pushed twice has to be shown for every offer (`Pushes.trans`).
-/

namespace Watershed

/-- The elements with a property, each of them once. -/
structure Enumerates {α : Type} (elements : List α) (which : α → Prop) : Prop where
  once : elements.Nodup
  mem : ∀ x, x ∈ elements ↔ which x

namespace Enumerates

variable {α : Type} {elements more : List α} {which others : α → Prop}

theorem nil (nothing : ∀ x, ¬ which x) : Enumerates [] which :=
  ⟨List.nodup_nil, fun x => by simp [nothing x]⟩

theorem singleton (x : α) : Enumerates [x] (· = x) :=
  ⟨List.nodup_singleton x, fun _ => List.mem_singleton⟩

theorem congr (enumerates : Enumerates elements which) (same : ∀ x, which x ↔ others x) :
    Enumerates elements others :=
  ⟨enumerates.once, fun x => (enumerates.mem x).trans (same x)⟩

theorem append (first : Enumerates elements which) (second : Enumerates more others)
    (apart : ∀ x, which x → ¬ others x) :
    Enumerates (elements ++ more) fun x => which x ∨ others x := by
  constructor
  · apply first.once.append second.once
    intro x isFirst isSecond
    exact apart x ((first.mem x).1 isFirst) ((second.mem x).1 isSecond)
  · intro x
    rw [List.mem_append, first.mem, second.mem]

/-- The elements of a longer list that are not in a part of it. -/
theorem of_append {whole : α → Prop} (all : Enumerates (elements ++ more) whole)
    (first : Enumerates elements which) : Enumerates more fun x => whole x ∧ ¬ which x := by
  rcases List.nodup_append.1 all.once with ⟨-, once, apart⟩
  refine ⟨once, fun x => ?_⟩
  rw [← all.mem, ← first.mem, List.mem_append]
  constructor
  · intro isMore
    exact ⟨.inr isMore, fun isFirst => apart x isFirst x isMore rfl⟩
  · rintro ⟨isFirst | isMore, new⟩
    · exact absurd isFirst new
    · exact isMore

theorem perm (first : Enumerates elements which) (second : Enumerates more which) :
    elements.Perm more :=
  (List.perm_ext_iff_of_nodup first.once second.once).2 fun x =>
    (first.mem x).trans (second.mem x).symm

end Enumerates

namespace Growth

/-- What can happen in a growth. -/
inductive Event (n : Nat) where
  /-- A node was marked as reached, and its edges are offered next. -/
  | expanded (node : Fin n)
  /-- A candidate was put into the frontier. -/
  | pushed (candidate : Candidate n)
  /-- A candidate was the best one and left the frontier. -/
  | popped (candidate : Candidate n)
  /-- The edge of a candidate was added to the partition. -/
  | added (candidate : Candidate n) (outcome : Outcome)

namespace Event

variable {n : Nat}

/-- The node that was marked as reached, if that has happened. -/
def expanded? : Event n → Option (Fin n)
  | .expanded node => some node
  | _ => none

/-- The candidate that was put into the frontier, if that has happened. -/
def pushed? : Event n → Option (Candidate n)
  | .pushed candidate => some candidate
  | _ => none

/-- The candidate that left the frontier, if that has happened. -/
def popped? : Event n → Option (Candidate n)
  | .popped candidate => some candidate
  | _ => none

/-- The candidate whose edge was added to the partition, if that has happened. -/
def added? : Event n → Option (Candidate n)
  | .added candidate _ => some candidate
  | _ => none

end Event

section Events

variable {n : Nat} (log : List (Event n))

/-- The nodes that were marked as reached, in order. -/
def expansions : List (Fin n) :=
  log.filterMap Event.expanded?

/-- The candidates that were put into the frontier, in order. -/
def pushes : List (Candidate n) :=
  log.filterMap Event.pushed?

/-- The candidates that left the frontier, in order. -/
def pops : List (Candidate n) :=
  log.filterMap Event.popped?

/-- The candidates whose edges were added to the partition, in order. -/
def additions : List (Candidate n) :=
  log.filterMap Event.added?

end Events

/-- A growth with everything that has happened in it. -/
structure Recorded (n : Nat) where
  growth : Growth n
  events : List (Event n)

namespace Recorded

section Run

variable (edges : RankedEdges)

/-- Nothing has happened. -/
def start : Recorded edges.index.nodes :=
  ⟨Growth.start edges, []⟩

/-- Puts an edge into the frontier and records it, unless it stays out as in `Growth.offer`. -/
def offer (root : Fin edges.index.nodes) (recorded : Recorded edges.index.nodes) (edge : Nat)
    (source target : Fin edges.index.nodes) : Recorded edges.index.nodes :=
  match recorded with
  | ⟨⟨partition, visited, reached, frontier⟩, events⟩ =>
      if edges.valid[edge]?.getD false && !visited[edge]?.getD false then
        match partition.find target with
        | (found, partition) =>
            if found = root then
              ⟨⟨partition, visited, reached, frontier⟩, events⟩
            else
              let candidate := ⟨edges.priorities[edge]?.getD 0, edge, source, target⟩
              ⟨⟨partition, visited, reached, frontier.insert candidate⟩,
                events ++ [.pushed candidate]⟩
      else
        ⟨⟨partition, visited, reached, frontier⟩, events⟩

/-- Offers the edge of a channel that starts at a node, and then the one that ends there. -/
def offerChannel (root node : Fin edges.index.nodes) (recorded : Recorded edges.index.nodes)
    (channel : Nat) : Recorded edges.index.nodes :=
  match edges.index.steps[channel]? with
  | none => recorded
  | some step =>
      let recorded :=
        match edges.index.neighbor? node step with
        | none => recorded
        | some target => offer edges root recorded (edges.index.number channel node) node target
      match edges.index.neighbor? node (-step) with
      | none => recorded
      | some source => offer edges root recorded (edges.index.number channel source) node source

/-- Marks a node as reached, records it, and offers all of its edges. -/
def reach (recorded : Recorded edges.index.nodes) (node : Fin edges.index.nodes) :
    Recorded edges.index.nodes :=
  match mark recorded.growth node with
  | ⟨partition, visited, reached, frontier⟩ =>
      match partition.find node with
      | (root, partition) =>
          (List.range edges.index.channels).foldl (offerChannel edges root node)
            ⟨⟨partition, visited, reached, frontier⟩, recorded.events ++ [.expanded node]⟩

/-- Takes a candidate out of the frontier, whatever happens to it next. -/
def pop (recorded : Recorded edges.index.nodes) (candidate : Candidate edges.index.nodes) :
    Recorded edges.index.nodes :=
  match recorded with
  | ⟨⟨partition, visited, reached, frontier⟩, events⟩ =>
      ⟨⟨partition, visited, reached, frontier.erase candidate⟩, events ++ [.popped candidate]⟩

/-- Adds the edge of a candidate to the partition. -/
def add (recorded : Recorded edges.index.nodes) (candidate : Candidate edges.index.nodes) :
    Outcome × Recorded edges.index.nodes :=
  match recorded with
  | ⟨⟨partition, visited, reached, frontier⟩, events⟩ =>
      let visited := visited.setIfInBounds candidate.edge true
      match partition.addEdge candidate.source candidate.target
          (edges.index.isRepulsive candidate.edge) with
      | (outcome, partition) =>
          (outcome,
            ⟨⟨partition, visited, reached, frontier⟩, events ++ [.added candidate outcome]⟩)

/-- Takes a candidate out of the frontier and adds its edge unless it was taken before. -/
def take (recorded : Recorded edges.index.nodes) (candidate : Candidate edges.index.nodes) :
    Recorded edges.index.nodes :=
  let recorded := pop edges recorded candidate
  if recorded.growth.visited[candidate.edge]?.getD false then recorded
  else
    match add edges recorded candidate with
    | (outcome, recorded) =>
        if outcome = .connected ∨ outcome = .excluded ∨
            recorded.growth.reached.get candidate.target then
          recorded
        else reach edges recorded candidate.target

variable {edges}

theorem growth_offer (root : Fin edges.index.nodes) (recorded : Recorded edges.index.nodes)
    (edge : Nat) (source target : Fin edges.index.nodes) :
    (offer edges root recorded edge source target).growth =
      Growth.offer edges root recorded.growth edge source target := by
  rcases recorded with ⟨⟨partition, visited, reached, frontier⟩, events⟩
  simp only [offer, Growth.offer]
  split
  · split <;> rfl
  · rfl

theorem growth_offerChannel (root node : Fin edges.index.nodes)
    (recorded : Recorded edges.index.nodes) (channel : Nat) :
    (offerChannel edges root node recorded channel).growth =
      Growth.offerChannel edges root node recorded.growth channel := by
  unfold offerChannel Growth.offerChannel
  cases edges.index.steps[channel]? with
  | none => rfl
  | some step =>
      cases ahead : edges.index.neighbor? node step <;>
        cases behind : edges.index.neighbor? node (-step) <;>
          simp only [ahead, behind, growth_offer]

theorem growth_foldl_offerChannel (root node : Fin edges.index.nodes) (channels : List Nat)
    (recorded : Recorded edges.index.nodes) :
    (channels.foldl (offerChannel edges root node) recorded).growth =
      channels.foldl (Growth.offerChannel edges root node) recorded.growth :=
  (List.foldl_hom Recorded.growth fun recorded channel =>
    (growth_offerChannel root node recorded channel).symm).symm

theorem growth_reach (recorded : Recorded edges.index.nodes) (node : Fin edges.index.nodes) :
    (reach edges recorded node).growth = Growth.reach edges recorded.growth node := by
  unfold reach Growth.reach
  exact growth_foldl_offerChannel ..

section Steps

variable (recorded : Recorded edges.index.nodes) (candidate : Candidate edges.index.nodes)

@[simp]
theorem expansions_pop : expansions (pop edges recorded candidate).events =
    expansions recorded.events := by
  simp [pop, expansions, Event.expanded?]

@[simp]
theorem pushes_pop : pushes (pop edges recorded candidate).events = pushes recorded.events := by
  simp [pop, pushes, Event.pushed?]

@[simp]
theorem pops_pop : pops (pop edges recorded candidate).events =
    pops recorded.events ++ [candidate] := by
  simp [pop, pops, Event.popped?]

@[simp]
theorem additions_pop : additions (pop edges recorded candidate).events =
    additions recorded.events := by
  simp [pop, additions, Event.added?]

@[simp]
theorem expansions_add : expansions (add edges recorded candidate).2.events =
    expansions recorded.events := by
  simp [add, expansions, Event.expanded?]

@[simp]
theorem pushes_add : pushes (add edges recorded candidate).2.events = pushes recorded.events := by
  simp [add, pushes, Event.pushed?]

@[simp]
theorem pops_add : pops (add edges recorded candidate).2.events = pops recorded.events := by
  simp [add, pops, Event.popped?]

@[simp]
theorem additions_add : additions (add edges recorded candidate).2.events =
    additions recorded.events ++ [candidate] := by
  simp [add, additions, Event.added?]

@[simp]
theorem visited_pop : (pop edges recorded candidate).growth.visited = recorded.growth.visited :=
  rfl

@[simp]
theorem reachedNodes_pop :
    (pop edges recorded candidate).growth.reachedNodes = recorded.growth.reachedNodes :=
  rfl

@[simp]
theorem frontier_pop : (pop edges recorded candidate).growth.frontier =
    recorded.growth.frontier.erase candidate :=
  rfl

@[simp]
theorem visited_add : (add edges recorded candidate).2.growth.visited =
    recorded.growth.visited.setIfInBounds candidate.edge true :=
  rfl

@[simp]
theorem reachedNodes_add :
    (add edges recorded candidate).2.growth.reachedNodes = recorded.growth.reachedNodes :=
  rfl

@[simp]
theorem frontier_add : (add edges recorded candidate).2.growth.frontier =
    recorded.growth.frontier :=
  rfl

end Steps

theorem take_eq (recorded : Recorded edges.index.nodes) (candidate : Candidate edges.index.nodes) :
    take edges recorded candidate =
      if recorded.growth.visited[candidate.edge]?.getD false then pop edges recorded candidate
      else if outcome edges recorded.growth candidate = .connected ∨
          outcome edges recorded.growth candidate = .excluded ∨
          recorded.growth.reached.get candidate.target then
        (add edges (pop edges recorded candidate) candidate).2
      else reach edges (add edges (pop edges recorded candidate) candidate).2 candidate.target :=
  rfl

theorem growth_take (recorded : Recorded edges.index.nodes)
    (candidate : Candidate edges.index.nodes) :
    (take edges recorded candidate).growth = Growth.take edges recorded.growth candidate := by
  rw [take_eq, Growth.take_eq]
  split
  · rfl
  · split
    · rfl
    · exact growth_reach ..

variable (edges)

/-- Takes the best candidate of the frontier until there is none. -/
def settle (recorded : Recorded edges.index.nodes) : Recorded edges.index.nodes :=
  match found : recorded.growth.frontier.min? with
  | none => recorded
  | some candidate =>
      have : Growth.remaining edges (take edges recorded candidate).growth <
          Growth.remaining edges recorded.growth := by
        rw [growth_take]
        exact remaining_take_lt edges recorded.growth candidate
          (Std.TreeSet.mem_iff_contains.2 (Std.TreeSet.contains_min? found))
      settle (take edges recorded candidate)
termination_by Growth.remaining edges recorded.growth

/-- Grows a region from a node, unless the node has been reached before. -/
def growFrom (recorded : Recorded edges.index.nodes) (seed : Fin edges.index.nodes) :
    Recorded edges.index.nodes :=
  if recorded.growth.reached.get seed then recorded
  else settle edges (reach edges recorded seed)

/-- Grows regions from all nodes in ascending order. -/
def run : Recorded edges.index.nodes :=
  (List.finRange edges.index.nodes).foldl (growFrom edges) (start edges)

/-- The run at the moment at which it is the turn of a node to become a seed. -/
def runUpTo (seed : Fin edges.index.nodes) : Recorded edges.index.nodes :=
  ((List.finRange edges.index.nodes).take seed).foldl (growFrom edges) (start edges)

variable {edges}

theorem growth_settle (recorded : Recorded edges.index.nodes) :
    (settle edges recorded).growth = Growth.settle edges recorded.growth := by
  fun_induction settle edges recorded with
  | case1 recorded found => rw [settle_of_min?_eq_none found]
  | case2 recorded candidate found _ ih => rw [ih, growth_take, settle_of_min?_eq_some found]

theorem growth_growFrom (recorded : Recorded edges.index.nodes)
    (seed : Fin edges.index.nodes) :
    (growFrom edges recorded seed).growth = Growth.growFrom edges recorded.growth seed := by
  unfold growFrom Growth.growFrom
  split
  · rfl
  · rw [growth_settle, growth_reach]

theorem growth_foldl_growFrom (seeds : List (Fin edges.index.nodes))
    (recorded : Recorded edges.index.nodes) :
    (seeds.foldl (growFrom edges) recorded).growth =
      seeds.foldl (Growth.growFrom edges) recorded.growth :=
  (List.foldl_hom Recorded.growth fun recorded seed => (growth_growFrom recorded seed).symm).symm

/-- Recording a run does not change it. -/
theorem growth_run (edges : RankedEdges) : (run edges).growth = Growth.run edges :=
  growth_foldl_growFrom _ (start edges)

end Run

/-- Between two states the candidates with a property are pushed, and nothing else happens. -/
def PushesOnce {n : Nat} (before after : Recorded n) (which : Candidate n → Prop) : Prop :=
  ∃ candidates, after.events = before.events ++ candidates.map .pushed ∧
    Enumerates candidates which

namespace PushesOnce

variable {n : Nat} {before middle after : Recorded n} {which others : Candidate n → Prop}

theorem stay (recorded : Recorded n) (nothing : ∀ candidate, ¬ which candidate) :
    PushesOnce recorded recorded which :=
  ⟨[], by simp, .nil nothing⟩

theorem trans (first : PushesOnce before middle which) (second : PushesOnce middle after others)
    (apart : ∀ candidate, which candidate → ¬ others candidate) :
    PushesOnce before after fun candidate => which candidate ∨ others candidate := by
  rcases first with ⟨earlier, firstEvents, firstOnce⟩
  rcases second with ⟨later, secondEvents, secondOnce⟩
  refine ⟨earlier ++ later, ?_, firstOnce.append secondOnce apart⟩
  rw [secondEvents, firstEvents, List.append_assoc, List.map_append]

theorem congr (pushes : PushesOnce before after which)
    (same : ∀ candidate, which candidate ↔ others candidate) : PushesOnce before after others := by
  rcases pushes with ⟨candidates, events, once⟩
  exact ⟨candidates, events, once.congr same⟩

end PushesOnce

section Pushed

variable {edges : RankedEdges} (root node : Fin edges.index.nodes)
  (recorded : Recorded edges.index.nodes)

theorem events_offer (edge : Nat) (source target : Fin edges.index.nodes) :
    (offer edges root recorded edge source target).events =
      if (edges.valid[edge]? = some true ∧ recorded.growth.visited[edge]?.getD false = false) ∧
          recorded.growth.partition.root target ≠ root then
        recorded.events ++
          [.pushed ⟨Ranking.priority edges.priorities edge, edge, source, target⟩]
      else recorded.events := by
  have known := offered_iff recorded.growth edge
  have found : (recorded.growth.partition.find target).1 =
      recorded.growth.partition.root target := recorded.growth.partition.find_fst target
  rcases recorded with ⟨⟨partition, visited, reached, frontier⟩, events⟩
  unfold offer
  simp only [known, found]
  by_cases taken : edges.valid[edge]? = some true ∧ visited[edge]?.getD false = false
  · by_cases inside : partition.root target = root
    · simp [taken, inside]
    · simp only [taken, inside, ne_eq, not_false_eq_true, and_self, if_true, if_false]
      rfl
  · simp [taken]

/-- An offer pushes the candidate that it is about, if that leads out of the class. -/
theorem pushesOnce_offer {edge : Nat} {source target : Fin edges.index.nodes}
    (ends : edges.index.ends? edge = some (source, target) ∨
      edges.index.ends? edge = some (target, source)) :
    PushesOnce recorded (offer edges root recorded edge source target) fun candidate =>
      Leads recorded.growth root source candidate ∧ candidate.edge = edge ∧
        candidate.target = target := by
  have about := @leads_along_iff edges root recorded.growth edge source target ends
  by_cases taken : (edges.valid[edge]? = some true ∧
      recorded.growth.visited[edge]?.getD false = false) ∧
        recorded.growth.partition.root target ≠ root
  · refine ⟨[⟨Ranking.priority edges.priorities edge, edge, source, target⟩], ?_,
      (Enumerates.singleton _).congr fun candidate => Iff.trans ?_ about.symm⟩
    · rw [events_offer, if_pos taken]
      rfl
    · exact ⟨fun same => ⟨taken.1, taken.2, same⟩, fun leads => leads.2.2⟩
  · refine ⟨[], ?_, .nil fun candidate leads => ?_⟩
    · rw [events_offer, if_neg taken]
      simp
    · rcases about.1 leads with ⟨isTaken, outside, -⟩
      exact taken ⟨isTaken, outside⟩

/-- Offers the edge to a neighbour, if there is one, whose number may depend on the neighbour. -/
def offerNeighbor (edges : RankedEdges) (root node : Fin edges.index.nodes)
    (number : Fin edges.index.nodes → Nat) (recorded : Recorded edges.index.nodes)
    (neighbor? : Option (Fin edges.index.nodes)) : Recorded edges.index.nodes :=
  neighbor?.elim recorded fun neighbor => offer edges root recorded (number neighbor) node neighbor

theorem growth_offerNeighbor (number : Fin edges.index.nodes → Nat)
    (neighbor? : Option (Fin edges.index.nodes)) :
    (offerNeighbor edges root node number recorded neighbor?).growth =
      Growth.offerNeighbor edges root node number recorded.growth neighbor? := by
  cases neighbor? with
  | none => rfl
  | some neighbor => exact growth_offer ..

theorem pushesOnce_offerNeighbor (number : Fin edges.index.nodes → Nat)
    {neighbor? : Option (Fin edges.index.nodes)}
    (ends : ∀ neighbor, neighbor? = some neighbor →
      edges.index.ends? (number neighbor) = some (node, neighbor) ∨
        edges.index.ends? (number neighbor) = some (neighbor, node)) :
    PushesOnce recorded (offerNeighbor edges root node number recorded neighbor?) fun candidate =>
      Leads recorded.growth root node candidate ∧ neighbor? = some candidate.target ∧
        candidate.edge = number candidate.target := by
  cases neighbor? with
  | none => exact .stay recorded (by simp)
  | some neighbor =>
      refine (pushesOnce_offer root recorded (ends neighbor rfl)).congr fun candidate => ?_
      rw [Option.some.injEq]
      refine and_congr_right fun _ => ?_
      constructor
      · rintro ⟨sameEdge, rfl⟩
        exact ⟨rfl, sameEdge⟩
      · rintro ⟨rfl, sameEdge⟩
        exact ⟨sameEdge, rfl⟩

variable {root node recorded}

theorem offerChannel_eq {channel : Nat} {step : Int}
    (known : edges.index.steps[channel]? = some step) :
    offerChannel edges root node recorded channel =
      offerNeighbor edges root node (edges.index.number channel ·.val)
        (offerNeighbor edges root node (fun _ => edges.index.number channel node) recorded
          (edges.index.neighbor? node step))
        (edges.index.neighbor? node (-step)) := by
  unfold offerChannel
  simp only [known]
  cases edges.index.neighbor? node step <;> cases edges.index.neighbor? node (-step) <;> rfl

/-- A channel pushes its candidates, and none of them in both directions. -/
theorem pushesOnce_offerChannel (isRoot : recorded.growth.partition.root node = root)
    (channel : Nat) :
    PushesOnce recorded (offerChannel edges root node recorded channel) fun candidate =>
      Leads recorded.growth root node candidate ∧ candidate.edge / edges.index.nodes = channel := by
  cases known : edges.index.steps[channel]? with
  | none =>
      rw [offerChannel, known]
      refine .stay recorded fun candidate => ?_
      rintro ⟨leads, inChannel⟩
      rcases leads.channel_iff.1 inChannel with ⟨step, found, -⟩
      exact absurd (known.symm.trans found) (by simp)
  | some step =>
      have ahead : ∀ target, edges.index.neighbor? node step = some target →
          edges.index.ends? (edges.index.number channel node) = some (node, target) :=
        fun target leads => EdgeIndex.ends?_number_eq_some_iff.2 ⟨rfl, step, known, leads⟩
      have behind : ∀ source, edges.index.neighbor? node (-step) = some source →
          edges.index.ends? (edges.index.number channel source) = some (source, node) :=
        fun source leads => EdgeIndex.ends?_number_eq_some_iff.2
          ⟨rfl, step, known, EdgeIndex.neighbor?_neg_eq_some_iff.1 leads⟩
      have first := pushesOnce_offerNeighbor root node recorded
        (fun _ => edges.index.number channel node) fun target leads => .inl (ahead target leads)
      have second := pushesOnce_offerNeighbor root node
        (offerNeighbor edges root node (fun _ => edges.index.number channel node) recorded
          (edges.index.neighbor? node step))
        (edges.index.number channel ·.val) fun source leads => .inr (behind source leads)
      rw [growth_offerNeighbor] at second
      rw [offerChannel_eq known]
      refine (first.trans second ?_).congr fun candidate => ?_
      · -- an edge met in both directions starts and ends at the node, and leads out of no class
        rintro candidate ⟨leads, -, sameEdge⟩ ⟨-, -, otherEdge⟩
        have same : node = candidate.target :=
          Fin.ext (Nat.add_left_cancel (sameEdge.symm.trans otherEdge))
        exact leads.outside (by rw [← same, isRoot])
      · rw [(alike_offerNeighbor ..).leads_iff, ← and_or_left]
        refine and_congr_right fun leads => ?_
        rw [leads.channel_iff, known]
        simp

theorem pushesOnce_foldl_offerChannel (isRoot : recorded.growth.partition.root node = root)
    {channels : List Nat} (distinct : channels.Nodup) :
    PushesOnce recorded (channels.foldl (offerChannel edges root node) recorded) fun candidate =>
      Leads recorded.growth root node candidate ∧
        candidate.edge / edges.index.nodes ∈ channels := by
  induction channels generalizing recorded with
  | nil => exact .stay recorded (by simp)
  | cons channel channels ih =>
      rcases List.nodup_cons.1 distinct with ⟨new, rest⟩
      have alike := alike_offerChannel root node recorded.growth channel
      rw [← growth_offerChannel] at alike
      have later := ih ((alike.roots node).trans isRoot) rest
      refine ((pushesOnce_offerChannel isRoot channel).trans later ?_).congr fun candidate => ?_
      · rintro candidate ⟨-, rfl⟩ ⟨-, others⟩
        exact new others
      · rw [alike.leads_iff, List.mem_cons, ← and_or_left]

/-- Expanding a node pushes every candidate that leads away from there. -/
theorem events_reach (recorded : Recorded edges.index.nodes) (node : Fin edges.index.nodes) :
    ∃ candidates,
      (reach edges recorded node).events =
        recorded.events ++ .expanded node :: candidates.map .pushed ∧
      Enumerates candidates (Leads recorded.growth (recorded.growth.partition.root node) node) := by
  let started : Recorded edges.index.nodes :=
    ⟨rooted recorded.growth node, recorded.events ++ [.expanded node]⟩
  have found : (recorded.growth.partition.find node).1 = recorded.growth.partition.root node :=
    recorded.growth.partition.find_fst node
  have unfolded : reach edges recorded node = (List.range edges.index.channels).foldl
      (offerChannel edges (recorded.growth.partition.root node) node) started := by
    rw [← found]
    rfl
  have isRoot : started.growth.partition.root node = recorded.growth.partition.root node :=
    (alike_rooted recorded.growth node).roots node
  rcases pushesOnce_foldl_offerChannel isRoot (List.nodup_range (n := edges.index.channels)) with
      ⟨candidates, events, once⟩
  refine ⟨candidates, ?_, once.congr fun candidate => leads_rooted_iff⟩
  rw [unfolded, events, List.append_assoc]
  rfl

theorem expansions_reach : expansions (reach edges recorded node).events =
    expansions recorded.events ++ [node] := by
  rcases events_reach recorded node with ⟨candidates, events, -⟩
  simp [events, expansions, Event.expanded?]

theorem pops_reach : pops (reach edges recorded node).events = pops recorded.events := by
  rcases events_reach recorded node with ⟨candidates, events, -⟩
  simp [events, pops, Event.popped?]

theorem additions_reach : additions (reach edges recorded node).events =
    additions recorded.events := by
  rcases events_reach recorded node with ⟨candidates, events, -⟩
  simp [events, additions, Event.added?]

theorem exists_pushes_reach (recorded : Recorded edges.index.nodes)
    (node : Fin edges.index.nodes) : ∃ candidates,
    pushes (reach edges recorded node).events = pushes recorded.events ++ candidates ∧
      Enumerates candidates (Leads recorded.growth (recorded.growth.partition.root node) node) := by
  rcases events_reach recorded node with ⟨candidates, events, once⟩
  refine ⟨candidates, ?_, once⟩
  have all : (candidates.map Event.pushed).filterMap Event.pushed? = candidates := by
    rw [List.filterMap_map]
    exact List.filterMap_some
  rw [events, pushes, List.filterMap_append, List.filterMap_cons_none rfl, all]
  rfl

end Pushed

section Prefix

variable {edges : RankedEdges} (recorded : Recorded edges.index.nodes)

theorem prefix_reach (node : Fin edges.index.nodes) :
    recorded.events <+: (reach edges recorded node).events := by
  rcases events_reach recorded node with ⟨candidates, events, -⟩
  rw [events]
  exact List.prefix_append _ _

theorem prefix_take (candidate : Candidate edges.index.nodes) :
    recorded.events <+: (take edges recorded candidate).events := by
  have popped : recorded.events <+: (pop edges recorded candidate).events := List.prefix_append _ _
  have added : recorded.events <+: (add edges (pop edges recorded candidate) candidate).2.events :=
    popped.trans (List.prefix_append _ _)
  rw [take_eq]
  split
  · exact popped
  · split
    · exact added
    · exact added.trans (prefix_reach _ _)

theorem prefix_settle : recorded.events <+: (settle edges recorded).events := by
  fun_induction settle edges recorded with
  | case1 recorded found => exact List.prefix_rfl
  | case2 recorded candidate found _ ih => exact (prefix_take recorded candidate).trans ih

theorem prefix_growFrom (seed : Fin edges.index.nodes) :
    recorded.events <+: (growFrom edges recorded seed).events := by
  unfold growFrom
  split
  · exact List.prefix_rfl
  · exact (prefix_reach recorded seed).trans (prefix_settle _)

theorem prefix_foldl_growFrom (seeds : List (Fin edges.index.nodes)) :
    recorded.events <+: (seeds.foldl (growFrom edges) recorded).events := by
  induction seeds generalizing recorded with
  | nil => exact List.prefix_rfl
  | cons seed seeds ih => exact (prefix_growFrom recorded seed).trans (ih _)

/-- After the turn of a node come those of the greater ones. -/
theorem run_eq (seed : Fin edges.index.nodes) :
    run edges = ((List.finRange edges.index.nodes).drop (seed + 1)).foldl (growFrom edges)
      (growFrom edges (runUpTo edges seed) seed) := by
  have inRange : seed.val < (List.finRange edges.index.nodes).length := by simp
  have turns : List.finRange edges.index.nodes =
      (List.finRange edges.index.nodes).take seed ++
        seed :: (List.finRange edges.index.nodes).drop (seed + 1) := by
    have rest := List.drop_eq_getElem_cons inRange
    rw [List.getElem_finRange] at rest
    exact (List.take_append_drop seed.val _).symm.trans (congrArg _ rest)
  exact (congrArg (List.foldl (growFrom edges) (start edges)) turns).trans List.foldl_append

theorem prefix_run (edges : RankedEdges) (seed : Fin edges.index.nodes) :
    (growFrom edges (runUpTo edges seed) seed).events <+: (run edges).events := by
  rw [run_eq seed]
  exact prefix_foldl_growFrom _ _

end Prefix

end Recorded

end Growth

end Watershed
