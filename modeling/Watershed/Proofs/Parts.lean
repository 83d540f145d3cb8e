import Watershed.Proofs.EdgeIndex
import Watershed.Proofs.Forest
import Watershed.Proofs.PartialAgreement
import Watershed.Proofs.Ranking
import Watershed.Proofs.Realization

/-!
# Parts of a graph that no edge leaves

A part of the nodes is closed when no edge joins it to the other nodes. A walk that starts in a
closed part stays there and uses edges inside of the part only, so what these edges link and oppose
does not depend on the rest of the graph: two graphs with the same inner edges have the same walks,
and out of an order of edges the inner ones are enough to tell which of them enter the forest. The
classes of a partition that realizes edges of the graph do not reach across the border of a closed
part.
-/

namespace Watershed

namespace SignedGraph

variable {ν : Type}

/-- No edge joins a part of the nodes to the other nodes. -/
def Closed (graph : SignedGraph ν) (part : Set ν) : Prop :=
  ∀ edge a b, graph.ends? edge = some (a, b) → (a ∈ part ↔ b ∈ part)

/-- The edges inside of a part. -/
def inner (graph : SignedGraph ν) (part : Set ν) : Set Nat :=
  {edge | ∃ a ∈ part, ∃ b ∈ part, graph.ends? edge = some (a, b)}

/-- A part is closed in two graphs, which have the same edges inside of it. -/
structure AgreeOn (part : Set ν) (graph other : SignedGraph ν) : Prop where
  closed : graph.Closed part
  otherClosed : other.Closed part
  ends : ∀ edge, ∀ a ∈ part, ∀ b ∈ part,
    other.ends? edge = some (a, b) ↔ graph.ends? edge = some (a, b)
  repulsive : ∀ edge, other.repulsive edge = graph.repulsive edge

variable {graph other : SignedGraph ν} {part : Set ν} {edges more : Set Nat} {edge : Nat} {a b : ν}

theorem Closed.joins (closed : graph.Closed part) (joins : graph.Joins edge a b) :
    a ∈ part ↔ b ∈ part := by
  rcases joins with ends | ends
  · exact closed edge a b ends
  · exact (closed edge b a ends).symm

theorem mem_inner_of_joins (joins : graph.Joins edge a b) (insideA : a ∈ part)
    (insideB : b ∈ part) : edge ∈ graph.inner part := by
  rcases joins with ends | ends
  · exact ⟨a, insideA, b, insideB, ends⟩
  · exact ⟨b, insideB, a, insideA, ends⟩

theorem not_mem_inner_of_joins (joins : graph.Joins edge a b) (outside : a ∉ part) :
    edge ∉ graph.inner part := by
  rintro ⟨c, insideC, d, insideD, ends⟩
  rcases joins.same_ends (.inl ends) with ⟨rfl, -⟩ | ⟨-, rfl⟩
  · exact outside insideC
  · exact outside insideD

/-- An edge that is not inside of a closed part has both of its ends outside. -/
theorem Closed.not_mem (closed : graph.Closed part) (ends : graph.ends? edge = some (a, b))
    (outer : edge ∉ graph.inner part) : a ∉ part ∧ b ∉ part := by
  have outside : a ∉ part := fun inside =>
    outer ⟨a, inside, b, (closed edge a b ends).1 inside, ends⟩
  exact ⟨outside, mt (closed edge a b ends).2 outside⟩

theorem Closed.linked (closed : graph.Closed part) (linked : graph.Linked edges a b) :
    a ∈ part ↔ b ∈ part := by
  apply linked.induction (a ∈ part ↔ · ∈ part) Iff.rfl
  exact fun _ _ _ _ before _ _ joins => before.trans (closed.joins joins)

namespace AgreeOn

theorem refl (closed : graph.Closed part) : graph.AgreeOn part graph :=
  ⟨closed, closed, fun _ _ _ _ _ => Iff.rfl, fun _ => rfl⟩

theorem symm (agree : AgreeOn part graph other) : AgreeOn part other graph where
  closed := agree.otherClosed
  otherClosed := agree.closed
  ends edge a insideA b insideB := (agree.ends edge a insideA b insideB).symm
  repulsive edge := (agree.repulsive edge).symm

theorem inner_eq (agree : AgreeOn part graph other) : other.inner part = graph.inner part := by
  ext edge
  simp only [inner, Set.mem_ofPred_eq]
  refine exists_congr fun a => and_congr_right fun insideA => exists_congr fun b =>
    and_congr_right fun insideB => ?_
  exact agree.ends edge a insideA b insideB

theorem joins_iff (agree : AgreeOn part graph other) (insideA : a ∈ part) :
    other.Joins edge a b ↔ graph.Joins edge a b := by
  constructor
  · intro joins
    have insideB := (agree.otherClosed.joins joins).1 insideA
    exact joins.imp (agree.ends edge a insideA b insideB).1 (agree.ends edge b insideB a insideA).1
  · intro joins
    have insideB := (agree.closed.joins joins).1 insideA
    exact joins.imp (agree.ends edge a insideA b insideB).2 (agree.ends edge b insideB a insideA).2

/-- A walk from inside of the part uses inner edges only, and these are edges of the other graph. -/
theorem walk (agree : AgreeOn part graph other)
    (subset : ∀ edge ∈ graph.inner part, edge ∈ edges → edge ∈ more) (insideA : a ∈ part)
    {count : Nat} (walk : graph.Walk edges count a b) : b ∈ part ∧ other.Walk more count a b := by
  have step : ∀ {edge x y}, x ∈ part → edge ∈ edges → graph.Joins edge x y →
      y ∈ part ∧ edge ∈ more ∧ other.Joins edge x y := by
    intro edge x y insideX member joins
    have insideY := (agree.closed.joins joins).1 insideX
    have isInner := mem_inner_of_joins joins insideX insideY
    exact ⟨insideY, subset edge isInner member, (agree.joins_iff insideX).2 joins⟩
  induction walk with
  | stay a => exact ⟨insideA, .stay a⟩
  | attract _ member kind joins ih =>
      rcases ih insideA with ⟨insideX, before⟩
      rcases step insideX member joins with ⟨insideY, otherMember, otherJoins⟩
      exact ⟨insideY, .attract before otherMember ((agree.repulsive _).trans kind) otherJoins⟩
  | repel _ member kind joins ih =>
      rcases ih insideA with ⟨insideX, before⟩
      rcases step insideX member joins with ⟨insideY, otherMember, otherJoins⟩
      exact ⟨insideY, .repel before otherMember ((agree.repulsive _).trans kind) otherJoins⟩

theorem walk_iff (agree : AgreeOn part graph other)
    (same : ∀ edge ∈ graph.inner part, edge ∈ more ↔ edge ∈ edges) (insideA : a ∈ part)
    {count : Nat} : other.Walk more count a b ↔ graph.Walk edges count a b := by
  constructor
  · intro walk
    refine (agree.symm.walk (fun edge isInner => (same edge ?_).1) insideA walk).2
    rwa [agree.inner_eq] at isInner
  · intro walk
    exact (agree.walk (fun edge isInner => (same edge isInner).2) insideA walk).2

theorem plants_iff (agree : AgreeOn part graph other)
    (same : ∀ edge ∈ graph.inner part, edge ∈ more ↔ edge ∈ edges)
    (isInner : edge ∈ graph.inner part) : other.Plants more edge ↔ graph.Plants edges edge := by
  rcases isInner with ⟨a, insideA, b, insideB, ends⟩
  rw [plants_iff_of_ends ends, plants_iff_of_ends ((agree.ends edge a insideA b insideB).2 ends),
    agree.repulsive, Linked, Linked, Opposed, Opposed, agree.walk_iff same insideA,
    agree.walk_iff same insideA]

open Classical in
/-- Whether an inner edge enters the forest is a matter of the inner edges of the order. -/
theorem mem_forest_filter_iff (agree : AgreeOn part graph other) (order : List Nat)
    (isInner : edge ∈ graph.inner part) :
    edge ∈ other.forest (order.filter (· ∈ graph.inner part)) ↔ edge ∈ graph.forest order := by
  induction order using List.reverseRecOn with
  | nil => rw [List.filter_nil, forest_nil, forest_nil]
  | append_singleton order last ih =>
      -- what the last edge finds before it differs in outer edges only
      have same : ∀ rival ∈ graph.inner part,
          rival ∈ listed (order.filter (· ∈ graph.inner part)) ↔ rival ∈ listed order := by
        intro rival rivalInner
        simp [listed, rivalInner]
      rw [List.filter_append, mem_forest_append_singleton]
      by_cases lastInner : last ∈ graph.inner part
      · rw [List.filter_cons_of_pos (by simpa using lastInner), List.filter_nil,
          mem_forest_append_singleton, ih, agree.plants_iff same lastInner]
      · rw [List.filter_cons_of_neg (by simpa using lastInner), List.filter_nil, List.append_nil,
          ih]
        refine (or_iff_left ?_).symm
        rintro ⟨rfl, -⟩
        exact lastInner isInner

end AgreeOn

end SignedGraph

namespace Partition

variable {n : Nat} {partition : Partition n} {graph : SignedGraph (Fin n)} {edges : Set Nat}
  {part : Set (Fin n)}

theorem Realizes.respects (realizes : partition.Realizes graph edges)
    (closed : graph.Closed part) : partition.Respects part where
  classes x := by
    have linked : graph.Linked edges (partition.root x) x :=
      (realizes.linked _ _).1 (partition.root_root x)
    exact closed.linked linked
  exclusions := realizes.records.mutual_exclusions

end Partition

/--
Two ways to weigh and to mask the edges of a grid that cannot be told apart on a part of the grid:
no valid edge leaves the part, inside of it the same edges are valid, and the priorities of any two
of these compare in the same way.
-/
structure EdgeIndex.AgreeOn (index : EdgeIndex) (part : Set (Fin index.nodes))
    (priorities others : Array Nat) (valid otherValid : Array Bool) : Prop where
  closed : (index.graph valid).Closed part
  otherClosed : (index.graph otherValid).Closed part
  masks : ∀ edge, ∀ a ∈ part, ∀ b ∈ part, index.ends? edge = some (a, b) →
    otherValid[edge]? = valid[edge]?
  compares : ∀ edge ∈ (index.graph valid).inner part, ∀ rival ∈ (index.graph valid).inner part,
    compare (Ranking.priority others edge) (Ranking.priority others rival) =
      compare (Ranking.priority priorities edge) (Ranking.priority priorities rival)

namespace EdgeIndex.AgreeOn

variable {index : EdgeIndex} {part : Set (Fin index.nodes)} {priorities others : Array Nat}
  {valid otherValid : Array Bool} {edge rival : Nat}

theorem graph (agree : index.AgreeOn part priorities others valid otherValid) :
    (index.graph valid).AgreeOn part (index.graph otherValid) where
  closed := agree.closed
  otherClosed := agree.otherClosed
  ends edge a insideA b insideB := by
    rw [ends?_graph_eq_some_iff, ends?_graph_eq_some_iff]
    refine and_congr_left fun known => ?_
    rw [agree.masks edge a insideA b insideB known]
  repulsive _ := rfl

theorem outranks_iff (agree : index.AgreeOn part priorities others valid otherValid)
    (isInner : edge ∈ (index.graph valid).inner part)
    (rivalInner : rival ∈ (index.graph valid).inner part) :
    Ranking.Outranks others edge rival ↔ Ranking.Outranks priorities edge rival := by
  simp only [Ranking.Outranks, ← Nat.compare_eq_lt, ← Nat.compare_eq_eq,
    agree.compares rival rivalInner edge isInner, agree.compares edge isInner rival rivalInner]

end EdgeIndex.AgreeOn

namespace Ranking

variable {index : EdgeIndex} {part : Set (Fin index.nodes)} {weights others : Tensor Binary32}
  {valid otherValid : Tensor Bool}

theorem mem_ranked_of_mem_inner (sized : weights.size = index.count) {edge : Nat}
    (isInner : edge ∈ (index.graph valid.data).inner part) : edge ∈ ranked weights valid := by
  rcases isInner with ⟨a, -, b, -, ends⟩
  rcases EdgeIndex.ends?_graph_eq_some_iff.1 ends with ⟨isValid, known⟩
  exact mem_ranked.2 ⟨sized ▸ EdgeIndex.lt_count_of_ends?_eq known, isValid⟩

theorem not_mem_inner_of_mem_dropped {edge : Nat} (member : edge ∈ dropped weights valid) :
    edge ∉ (index.graph valid.data).inner part := by
  rintro ⟨a, -, b, -, ends⟩
  exact (mem_dropped.1 member).2 (EdgeIndex.ends?_graph_eq_some_iff.1 ends).1

open Classical in
theorem filter_append_dropped :
    (ranked weights valid ++ dropped weights valid).filter
        (· ∈ (index.graph valid.data).inner part) =
      (ranked weights valid).filter (· ∈ (index.graph valid.data).inner part) := by
  have none : (dropped weights valid).filter (· ∈ (index.graph valid.data).inner part) = [] := by
    rw [List.filter_eq_nil_iff]
    intro edge member
    simpa using not_mem_inner_of_mem_dropped member
  rw [List.filter_append, none, List.append_nil]

open Classical in
/-- Both runs take the inner edges in the same order. -/
theorem filter_order_eq
    (agree : index.AgreeOn part (weights.data.map Binary32.priority)
      (others.data.map Binary32.priority) valid.data otherValid.data)
    (sized : weights.size = index.count) (otherSized : others.size = index.count) :
    (ranked others otherValid ++ dropped others otherValid).filter
        (· ∈ (index.graph otherValid.data).inner part) =
      (ranked weights valid ++ dropped weights valid).filter
        (· ∈ (index.graph valid.data).inner part) := by
  have sameInner := agree.graph.inner_eq
  rw [filter_append_dropped, filter_append_dropped, sameInner]
  have sorted : ((ranked others otherValid).filter
      (· ∈ (index.graph valid.data).inner part)).Pairwise
        (Outranks (weights.data.map Binary32.priority)) := by
    apply (pairwise_ranked.filter _).imp_of_mem
    intro edge rival member rivalMember outranks
    rw [List.mem_filter, decide_eq_true_eq] at member rivalMember
    exact (agree.outranks_iff member.2 rivalMember.2).1 outranks
  refine eq_of_pairwise_outranks sorted (pairwise_ranked.filter _) fun edge => ?_
  rw [List.mem_filter, List.mem_filter, decide_eq_true_eq]
  refine and_congr_left fun isInner => iff_of_true ?_ ?_
  · exact mem_ranked_of_mem_inner otherSized (sameInner ▸ isInner)
  · exact mem_ranked_of_mem_inner sized isInner

end Ranking

end Watershed
