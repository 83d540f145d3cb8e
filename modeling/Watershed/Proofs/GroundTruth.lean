import Watershed.Proofs.Forest
import Watershed.Proofs.GreedyOrder

/-!
# When the ground truth is found

The nodes carry labels, and the edges speak about them: an attractive edge is truthful when its ends
have one label, a repulsive edge when they have two. An order is faithful when the truthful edges
come first, and among these the attractive ones.

Along a faithful order the greedy set keeps all truthful edges. It links exactly the nodes of one
label if and only if the truthful attractive edges connect every label, and no untruthful attractive
edge stands alone: a repulsive edge has to oppose the two labels that it joins. The forest needs the
same two conditions, for one direction.
-/

namespace Watershed.SignedGraph

variable {ν α : Type} {graph : SignedGraph ν} {label : ν → α} {order : List Nat}

/-- The ends of an edge have one label. -/
def Agrees (graph : SignedGraph ν) (label : ν → α) (edge : Nat) : Prop :=
  ∃ a b, graph.Joins edge a b ∧ label a = label b

/-- An edge attracts if and only if its ends have one label. -/
def Truthful (graph : SignedGraph ν) (label : ν → α) (edge : Nat) : Prop :=
  graph.repulsive edge = false ↔ graph.Agrees label edge

/--
All edges are listed once, the truthful ones first, and the attractive ones first among these.
-/
structure Faithful (graph : SignedGraph ν) (label : ν → α) (order : List Nat) : Prop where
  distinct : order.Nodup
  complete : ∀ edge a b, graph.Joins edge a b → edge ∈ order
  truthful : ∀ edge ∈ order, ∀ other ∈ order, graph.Truthful label edge →
    ¬ graph.Truthful label other → edge ∈ before order other
  attractive : ∀ edge ∈ order, ∀ other ∈ order, graph.Truthful label edge →
    graph.Truthful label other → graph.repulsive edge = false → graph.repulsive other = true →
    edge ∈ before order other

/-- Attractive edges between nodes of one label connect all nodes of a label. -/
def Connects (graph : SignedGraph ν) (label : ν → α) (inside : ν → Prop) : Prop :=
  ∀ u v, inside u → inside v → label u = label v →
    graph.Linked {edge | graph.Agrees label edge} u v

/-- Wherever an attractive edge joins two labels, a repulsive edge joins these labels, too. -/
def Opposes (graph : SignedGraph ν) (label : ν → α) : Prop :=
  ∀ edge a b, graph.repulsive edge = false → graph.Joins edge a b → label a ≠ label b →
    ∃ other x y, graph.repulsive other = true ∧ graph.Joins other x y ∧ label x = label a ∧
      label y = label b

theorem agrees_iff {edge : Nat} {a b : ν} (joins : graph.Joins edge a b) :
    graph.Agrees label edge ↔ label a = label b := by
  constructor
  · rintro ⟨c, d, others, same⟩
    rcases others.same_ends joins with ⟨rfl, rfl⟩ | ⟨rfl, rfl⟩
    · exact same
    · exact same.symm
  · exact fun same => ⟨a, b, joins, same⟩

theorem label_eq_of_linked {edges : Set Nat} {u v : ν}
    (agree : ∀ edge ∈ edges, graph.repulsive edge = false → graph.Agrees label edge)
    (linked : graph.Linked edges u v) : label u = label v := by
  apply linked.induction (label u = label ·) rfl
  intro x y edge _ same member kind joins
  exact same.trans ((agrees_iff joins).1 (agree edge member kind))

namespace Faithful

variable (faithful : graph.Faithful label order)

include faithful

theorem truthful_of_before {edge other : Nat} (member : edge ∈ order)
    (truthful : graph.Truthful label edge) (earlier : other ∈ before order edge) :
    graph.Truthful label other := by
  by_contra untruthful
  have later := faithful.truthful edge member other earlier.1 truthful untruthful
  exact absurd (earlier.2.trans later.2) (Nat.lt_irrefl _)

theorem attractive_of_before {edge other : Nat} (member : edge ∈ order)
    (truthful : graph.Truthful label edge) (kind : graph.repulsive edge = false)
    (earlier : other ∈ before order edge) : graph.repulsive other = false := by
  by_contra repulsive
  rw [Bool.not_eq_false] at repulsive
  have later := faithful.attractive edge member other earlier.1 truthful
    (faithful.truthful_of_before member truthful earlier) kind repulsive
  exact absurd (earlier.2.trans later.2) (Nat.lt_irrefl _)

theorem mem_greedy_of_truthful {edge : Nat} {a b : ν} (joins : graph.Joins edge a b)
    (truthful : graph.Truthful label edge) : edge ∈ graph.greedy order := by
  have member := faithful.complete edge a b joins
  rw [mem_greedy_iff_before faithful.distinct member joins]
  have consistent : graph.Consistent (graph.greedy order ∩ before order edge) :=
    (consistent_greedy order).anti Set.inter_subset_left
  cases kind : graph.repulsive edge with
  | false =>
      rw [consistent_insert_of_attractive consistent kind joins]
      intro opposed
      rcases opposed_iff.1 opposed with ⟨other, ⟨-, earlier⟩, otherKind, -⟩
      have attractive := faithful.attractive_of_before member truthful kind earlier
      exact absurd (otherKind.symm.trans attractive) (by decide)
  | true =>
      rw [consistent_insert_of_repulsive consistent kind joins]
      intro linked
      have same : label a = label b := by
        refine label_eq_of_linked (fun other kept otherKind => ?_) linked
        exact (faithful.truthful_of_before member truthful kept.2).1 otherKind
      have attracts := truthful.2 ((agrees_iff joins).2 same)
      exact absurd (kind.symm.trans attracts) (by decide)

/-- The ends of an untruthful attractive edge are opposed by the truthful edges before it. -/
theorem opposed_of_opposes {inside : ν → Prop}
    (closed : ∀ edge a b, graph.Joins edge a b → inside a)
    (connects : graph.Connects label inside) (opposes : graph.Opposes label)
    {edge : Nat} {a b : ν} (kind : graph.repulsive edge = false) (joins : graph.Joins edge a b)
    (apart : label a ≠ label b) {early : Set Nat}
    (enough : ∀ other x y, graph.Joins other x y → graph.Truthful label other →
      other ∈ before order edge → other ∈ early) : graph.Opposed early a b := by
  have untruthful : ¬ graph.Truthful label edge := fun truthful =>
    apart ((agrees_iff joins).1 (truthful.1 kind))
  have member := faithful.complete edge a b joins
  have inEarly : ∀ other x y, graph.Joins other x y → graph.Truthful label other →
      other ∈ early := by
    intro other x y ends truthful
    exact enough other x y ends truthful
      (faithful.truthful other (faithful.complete other x y ends) edge member truthful untruthful)
  have link : ∀ x y, inside x → inside y → label x = label y → graph.Linked early x y := by
    intro x y insideX insideY same
    apply (connects x y insideX insideY same).induction _ (.refl x)
    intro u v other _ toU agrees otherKind ends
    have truthful : graph.Truthful label other := ⟨fun _ => agrees, fun _ => otherKind⟩
    exact .attract toU (inEarly other u v ends truthful) otherKind ends
  rcases opposes edge a b kind joins apart with ⟨other, x, y, otherKind, ends, sameX, sameY⟩
  have truthful : graph.Truthful label other := by
    constructor
    · intro attracts
      exact absurd (otherKind.symm.trans attracts) (by decide)
    · intro agrees
      exact absurd (sameX.symm.trans (((agrees_iff ends).1 agrees).trans sameY)) apart
  exact opposed_iff.2 ⟨other, inEarly other x y ends truthful, otherKind, x, y, ends,
    link a x (closed _ _ _ joins) (closed _ _ _ ends) sameX.symm,
    link y b (closed _ _ _ ends.symm) (closed _ _ _ joins.symm) sameY⟩

/-- The greedy set finds the labels exactly when the graph connects and opposes what it has to. -/
theorem greedy_iff {inside : ν → Prop} (closed : ∀ edge a b, graph.Joins edge a b → inside a) :
    (∀ u v, inside u → inside v →
        (graph.Linked (graph.greedy order) u v ↔ label u = label v)) ↔
      graph.Connects label inside ∧ graph.Opposes label := by
  have consistent : ∀ edge, graph.Consistent (graph.greedy order ∩ before order edge) :=
    fun edge => (consistent_greedy order).anti Set.inter_subset_left
  constructor
  · intro exact
    have agree : ∀ edge ∈ graph.greedy order, graph.repulsive edge = false →
        graph.Agrees label edge := by
      intro edge kept kind
      rcases Option.isSome_iff_exists.1 (mem_of_mem_greedy kept).2 with ⟨⟨a, b⟩, ends⟩
      have joins : graph.Joins edge a b := .inl ends
      exact ⟨a, b, joins, (exact a b (closed _ _ _ joins) (closed _ _ _ joins.symm)).1
        (.ofAttractive kept kind joins)⟩
    constructor
    · intro u v insideU insideV same
      apply ((exact u v insideU insideV).2 same).induction _ (.refl u)
      intro x y edge _ toX kept kind joins
      exact .attract toX (agree edge kept kind) kind joins
    · intro edge a b kind joins apart
      -- an edge between two labels is not kept, and the repulsive edge that blocks it is the guard
      have dropped : edge ∉ graph.greedy order := fun kept =>
        apart ((agrees_iff joins).1 (agree edge kept kind))
      rw [mem_greedy_iff_before faithful.distinct (faithful.complete edge a b joins) joins,
        consistent_insert_of_attractive (consistent edge) kind joins, not_not] at dropped
      rcases opposed_iff.1 dropped with ⟨other, -, otherKind, x, y, ends, toX, fromY⟩
      have sameLabel : ∀ {s t}, graph.Linked (graph.greedy order ∩ before order edge) s t →
          label s = label t := fun linked =>
        label_eq_of_linked (fun one kept oneKind => agree one kept.1 oneKind) linked
      exact ⟨other, x, y, otherKind, ends, (sameLabel toX).symm, sameLabel fromY⟩
  · rintro ⟨connects, opposes⟩ u v insideU insideV
    constructor
    · refine label_eq_of_linked fun edge kept kind => ?_
      rcases Option.isSome_iff_exists.1 (mem_of_mem_greedy kept).2 with ⟨⟨a, b⟩, ends⟩
      have joins : graph.Joins edge a b := .inl ends
      by_contra disagrees
      have apart : label a ≠ label b := fun same => disagrees ((agrees_iff joins).2 same)
      rw [mem_greedy_iff_before faithful.distinct (faithful.complete edge a b joins) joins,
        consistent_insert_of_attractive (consistent edge) kind joins] at kept
      refine kept (faithful.opposed_of_opposes closed connects opposes kind joins apart ?_)
      intro other x y others truthful earlier
      exact ⟨faithful.mem_greedy_of_truthful others truthful, earlier⟩
    · intro same
      apply (connects u v insideU insideV same).induction _ (.refl u)
      intro x y edge _ toX agrees kind joins
      have truthful : graph.Truthful label edge := ⟨fun _ => agrees, fun _ => kind⟩
      exact .attract toX (faithful.mem_greedy_of_truthful joins truthful) kind joins

/-- The forest finds the labels, too, if the graph connects and opposes what it has to. -/
theorem forest_iff {inside : ν → Prop} (closed : ∀ edge a b, graph.Joins edge a b → inside a)
    (connects : graph.Connects label inside) (opposes : graph.Opposes label) {u v : ν}
    (insideU : inside u) (insideV : inside v) :
    graph.Linked (graph.forest order) u v ↔ label u = label v := by
  constructor
  · refine label_eq_of_linked fun edge planted kind => ?_
    rcases planted with ⟨earlier, later, rfl, -, a, b, ends, -, unopposed⟩
    by_contra disagrees
    have joins : graph.Joins edge a b := .inl ends
    have apart : label a ≠ label b := fun same => disagrees ((agrees_iff joins).2 same)
    refine unopposed (faithful.opposed_of_opposes closed connects opposes kind joins apart ?_)
    intro other x y others truthful precedes
    rwa [before_append_cons faithful.distinct] at precedes
  · intro same
    apply (connects u v insideU insideV same).induction _ (.refl u)
    intro x y edge _ toX agrees kind joins
    have truthful : graph.Truthful label edge := ⟨fun _ => agrees, fun _ => kind⟩
    have member := faithful.complete edge x y joins
    have attractive : ∀ other ∈ before order edge, graph.repulsive other = false :=
      fun _ earlier => faithful.attractive_of_before member truthful kind earlier
    rcases List.append_of_mem member with ⟨earlier, later, rfl⟩
    rw [before_append_cons faithful.distinct] at attractive
    have unopposed : ∀ c d, ¬ graph.Opposed (listed earlier) c d := by
      intro c d opposed
      rcases opposed_iff.1 opposed with ⟨other, precedes, otherKind, -⟩
      exact absurd (otherKind.symm.trans (attractive other precedes)) (by decide)
    exact toX.trans (linked_forest_of_unopposed unopposed kind joins)

end Faithful

end Watershed.SignedGraph
