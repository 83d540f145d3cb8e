import Watershed.Proofs.SignedGraph

/-!
# The forest of an order of edges

When every attractive edge of an order joins its ends, whether these are opposed or not, the edges
that join unlinked and unopposed nodes form a forest. An edge enters the forest or not by what the
edges before it link and oppose, be they in the forest or not; this is the difference to the greedy
set.
-/

namespace Watershed.SignedGraph

variable {ν : Type} {graph : SignedGraph ν}

/-- The members of a list. -/
def listed (order : List Nat) : Set Nat :=
  {edge | edge ∈ order}

/-- An attractive edge whose ends are neither linked nor opposed by a set of edges. -/
def Plants (graph : SignedGraph ν) (edges : Set Nat) (edge : Nat) : Prop :=
  graph.repulsive edge = false ∧
    ∃ a b, graph.ends? edge = some (a, b) ∧ ¬ graph.Linked edges a b ∧ ¬ graph.Opposed edges a b

/-- The edges of an order that join what the edges before them neither link nor oppose. -/
def forest (graph : SignedGraph ν) (order : List Nat) : Set Nat :=
  {edge | ∃ earlier later, order = earlier ++ edge :: later ∧ graph.Plants (listed earlier) edge}

variable {order : List Nat} {edge : Nat}

theorem listed_append_singleton : listed (order ++ [edge]) = insert edge (listed order) := by
  ext other
  simp [listed, or_comm]

theorem listed_subset_append (earlier later : List Nat) :
    listed earlier ⊆ listed (earlier ++ later) :=
  fun _ member => List.mem_append_left _ member

theorem Plants.ends (plants : graph.Plants (listed order) edge) :
    ∃ a b, graph.ends? edge = some (a, b) := by
  rcases plants with ⟨-, a, b, ends, -⟩
  exact ⟨a, b, ends⟩

theorem plants_iff_joins {edges : Set Nat} : graph.Plants edges edge ↔
    graph.repulsive edge = false ∧
      ∃ a b, graph.Joins edge a b ∧ ¬ graph.Linked edges a b ∧ ¬ graph.Opposed edges a b := by
  constructor
  · rintro ⟨kind, a, b, ends, apart⟩
    exact ⟨kind, a, b, joins_of_ends?_eq ends, apart⟩
  · rintro ⟨kind, a, b, ends | ends, unlinked, unopposed⟩
    · exact ⟨kind, a, b, ends, unlinked, unopposed⟩
    · exact ⟨kind, b, a, ends, fun linked => unlinked linked.symm,
        fun opposed => unopposed opposed.symm⟩

theorem plants_iff_of_ends {edges : Set Nat} {a b : ν} (ends : graph.ends? edge = some (a, b)) :
    graph.Plants edges edge ↔ graph.repulsive edge = false ∧
      ¬ graph.Linked edges a b ∧ ¬ graph.Opposed edges a b := by
  constructor
  · rintro ⟨kind, x, y, others, apart⟩
    rcases Prod.mk.inj (Option.some.inj (ends.symm.trans others)) with ⟨rfl, rfl⟩
    exact ⟨kind, apart⟩
  · rintro ⟨kind, apart⟩
    exact ⟨kind, a, b, ends, apart⟩

theorem forest_nil : graph.forest [] = ∅ := by
  ext edge
  simp [forest]

theorem mem_forest_append_singleton {other : Nat} :
    other ∈ graph.forest (order ++ [edge]) ↔
      other ∈ graph.forest order ∨ (other = edge ∧ graph.Plants (listed order) edge) := by
  constructor
  · rintro ⟨earlier, later, split, plants⟩
    rcases List.eq_nil_or_concat later with rfl | ⟨init, last, rfl⟩
    · rcases List.append_inj' split rfl with ⟨rfl, same⟩
      rcases List.head_eq_of_cons_eq same with rfl
      exact .inr ⟨rfl, plants⟩
    · rw [List.concat_eq_append, ← List.cons_append, ← List.append_assoc] at split
      rcases List.append_inj' split rfl with ⟨rfl, -⟩
      exact .inl ⟨earlier, init, rfl, plants⟩
  · rintro (⟨earlier, later, rfl, plants⟩ | ⟨rfl, plants⟩)
    · exact ⟨earlier, later ++ [edge], by simp, plants⟩
    · exact ⟨order, [], rfl, plants⟩

theorem forest_append_singleton_of_plants (plants : graph.Plants (listed order) edge) :
    graph.forest (order ++ [edge]) = insert edge (graph.forest order) := by
  ext other
  rw [mem_forest_append_singleton, Set.mem_insert_iff, and_iff_left plants, or_comm]

theorem forest_append_singleton_of_not_plants (bare : ¬ graph.Plants (listed order) edge) :
    graph.forest (order ++ [edge]) = graph.forest order := by
  ext other
  rw [mem_forest_append_singleton]
  exact or_iff_left fun both => bare both.2

theorem forest_subset (order : List Nat) : graph.forest order ⊆ listed order := by
  rintro edge ⟨earlier, later, rfl, -⟩
  simp [listed]

theorem forest_append_of_linked {earlier : List Nat}
    (linked : ∀ a b, graph.Linked (listed earlier) a b) (later : List Nat) :
    graph.forest (earlier ++ later) = graph.forest earlier := by
  induction later using List.reverseRecOn with
  | nil => rw [List.append_nil]
  | append_singleton later edge ih =>
      rw [← List.append_assoc, forest_append_singleton_of_not_plants, ih]
      rintro ⟨-, a, b, -, unlinked, -⟩
      exact unlinked ((linked a b).mono (listed_subset_append earlier later))

theorem forest_append_of_no_ends {earlier later : List Nat}
    (none : ∀ edge ∈ later, graph.ends? edge = none) :
    graph.forest (earlier ++ later) = graph.forest earlier := by
  induction later using List.reverseRecOn with
  | nil => rw [List.append_nil]
  | append_singleton later edge ih =>
      rw [← List.append_assoc, forest_append_singleton_of_not_plants,
        ih fun other member => none other (List.mem_append_left _ member)]
      intro plants
      rcases plants.ends with ⟨a, b, ends⟩
      exact absurd (none edge (by simp)) (by simp [ends])

/--
As long as no nodes are opposed, the forest links the ends of every attractive edge that comes.
-/
theorem linked_forest_of_unopposed {earlier later : List Nat} {edge : Nat} {a b : ν}
    (unopposed : ∀ x y, ¬ graph.Opposed (listed earlier) x y)
    (kind : graph.repulsive edge = false) (joins : graph.Joins edge a b) :
    graph.Linked (graph.forest (earlier ++ edge :: later)) a b := by
  induction length : earlier.length using Nat.strong_induction_on
    generalizing earlier edge later a b with
  | _ length ih =>
    subst length
    by_cases linked : graph.Linked (listed earlier) a b
    · apply linked.induction (graph.Linked (graph.forest (earlier ++ edge :: later)) a) (.refl a)
      intro x y other _ toX member otherKind otherJoins
      rcases List.append_of_mem member with ⟨before, after, rfl⟩
      have link := @ih before.length (by simp) before (after ++ edge :: later) other x y
        (fun c d opposed => unopposed c d (opposed.mono (listed_subset_append before _)))
        otherKind otherJoins rfl
      rw [List.append_assoc]
      rw [List.append_assoc] at toX
      exact toX.trans link
    · have plants : graph.Plants (listed earlier) edge :=
        plants_iff_joins.2 ⟨kind, a, b, joins, linked, unopposed a b⟩
      exact .ofAttractive ⟨earlier, later, rfl, plants⟩ kind joins

theorem mem_forest_iff_getElem? : edge ∈ graph.forest order ↔
    ∃ position : Nat, order[position]? = some edge ∧
      graph.Plants (listed (order.take position)) edge := by
  constructor
  · rintro ⟨earlier, later, rfl, plants⟩
    exact ⟨earlier.length, by simp, by simpa using plants⟩
  · rintro ⟨position, found, plants⟩
    rcases List.getElem?_eq_some_iff.1 found with ⟨inside, rfl⟩
    refine ⟨order.take position, order.drop (position + 1), ?_, plants⟩
    rw [List.getElem_cons_drop, List.take_append_drop]

theorem Plants.anti {edges more : Set Nat} (plants : graph.Plants more edge)
    (subset : edges ⊆ more) : graph.Plants edges edge := by
  rcases plants with ⟨kind, a, b, ends, unlinked, unopposed⟩
  exact ⟨kind, a, b, ends, fun linked => unlinked (linked.mono subset),
    fun opposed => unopposed (opposed.mono subset)⟩

theorem greedy_subset_listed (order : List Nat) : graph.greedy order ⊆ listed order :=
  fun _ kept => (mem_of_mem_greedy kept).1

/--
The greedy set links and opposes less than all edges do, so it turns no edge of the forest away.
-/
theorem forest_subset_greedy (order : List Nat) : graph.forest order ⊆ graph.greedy order := by
  rintro edge ⟨earlier, later, rfl, plants⟩
  rcases plants.anti (greedy_subset_listed earlier) with ⟨kind, a, b, ends, -, unopposed⟩
  have stays : graph.Consistent (insert edge (graph.greedy earlier)) :=
    (consistent_insert_of_attractive (consistent_greedy earlier) kind (.inl ends)).2 unopposed
  rw [List.append_cons]
  apply greedy_subset_append
  rw [greedy_append_singleton, retain_of_consistent (.inl ends) stays]
  exact Set.mem_insert edge _

end Watershed.SignedGraph
