import Mathlib.Data.Set.Image
import Watershed.Proofs.Forest

/-!
# Renaming edges

What an algorithm makes of an order of edges depends on the kinds of the edges and on the nodes that
they join, and neither on their numbers nor on which end comes first. When the edges of an order get
other numbers that keep this much, walks along renamed edges are the walks along the old ones, and
so the renamed order chooses the renamed edges.
-/

namespace Watershed.SignedGraph

variable {ν : Type}

/-- New numbers for a set of edges that keep their kinds and the nodes that they join. -/
structure Renames (graph other : SignedGraph ν) (rename : Nat → Nat) (edges : Set Nat) : Prop where
  kinds : ∀ edge ∈ edges, other.repulsive (rename edge) = graph.repulsive edge
  joins : ∀ edge ∈ edges, ∀ a b, other.Joins (rename edge) a b ↔ graph.Joins edge a b

namespace Renames

variable {graph other : SignedGraph ν} {rename : Nat → Nat} {edges more : Set Nat}

theorem anti (renames : Renames graph other rename more) (subset : edges ⊆ more) :
    Renames graph other rename edges where
  kinds := fun edge member => renames.kinds edge (subset member)
  joins := fun edge member => renames.joins edge (subset member)

theorem walk_iff (renames : Renames graph other rename edges) {count : Nat} {a b : ν} :
    other.Walk (rename '' edges) count a b ↔ graph.Walk edges count a b := by
  constructor
  · intro walk
    induction walk with
    | stay a => exact .stay a
    | attract _ member kind joins ih =>
        rcases member with ⟨edge, member, rfl⟩
        rw [renames.kinds edge member] at kind
        exact .attract ih member kind ((renames.joins edge member _ _).1 joins)
    | repel _ member kind joins ih =>
        rcases member with ⟨edge, member, rfl⟩
        rw [renames.kinds edge member] at kind
        exact .repel ih member kind ((renames.joins edge member _ _).1 joins)
  · intro walk
    induction walk with
    | stay a => exact .stay a
    | @attract _ _ _ _ edge _ member kind joins ih =>
        apply Walk.attract ih (Set.mem_image_of_mem rename member)
        · rw [renames.kinds edge member]
          exact kind
        · exact (renames.joins edge member _ _).2 joins
    | @repel _ _ _ _ edge _ member kind joins ih =>
        apply Walk.repel ih (Set.mem_image_of_mem rename member)
        · rw [renames.kinds edge member]
          exact kind
        · exact (renames.joins edge member _ _).2 joins

theorem linked_iff (renames : Renames graph other rename edges) {a b : ν} :
    other.Linked (rename '' edges) a b ↔ graph.Linked edges a b :=
  renames.walk_iff

theorem opposed_iff (renames : Renames graph other rename edges) {a b : ν} :
    other.Opposed (rename '' edges) a b ↔ graph.Opposed edges a b :=
  renames.walk_iff

theorem consistent_iff (renames : Renames graph other rename edges) :
    other.Consistent (rename '' edges) ↔ graph.Consistent edges := by
  constructor
  · intro consistent edge member kind a b ends linked
    have joins := (renames.joins edge member a b).2 (joins_of_ends?_eq ends)
    rw [← renames.kinds edge member] at kind
    exact consistent.not_linked (Set.mem_image_of_mem rename member) kind joins
      (renames.linked_iff.2 linked)
  · rintro consistent _ ⟨edge, member, rfl⟩ kind a b ends linked
    have joins := (renames.joins edge member a b).1 (joins_of_ends?_eq ends)
    rw [renames.kinds edge member] at kind
    exact consistent.not_linked member kind joins (renames.linked_iff.1 linked)

theorem isSome_ends?_iff {edge : Nat} (renames : Renames graph other rename edges)
    (member : edge ∈ edges) :
    (other.ends? (rename edge)).isSome ↔ (graph.ends? edge).isSome := by
  simp only [isSome_ends?_iff_joins, renames.joins edge member]

theorem retain_image {edge : Nat} (renames : Renames graph other rename (insert edge edges)) :
    other.retain (rename '' edges) (rename edge) = rename '' graph.retain edges edge := by
  have keeps : (other.ends? (rename edge)).isSome ∧
      other.Consistent (insert (rename edge) (rename '' edges)) ↔
        (graph.ends? edge).isSome ∧ graph.Consistent (insert edge edges) := by
    rw [← Set.image_insert_eq, renames.consistent_iff,
      renames.isSome_ends?_iff (Set.mem_insert edge edges)]
  by_cases kept : (graph.ends? edge).isSome ∧ graph.Consistent (insert edge edges)
  · rw [retain, if_pos (keeps.2 kept), retain, if_pos kept, Set.image_insert_eq]
  · rw [retain, if_neg fun other => kept (keeps.1 other), retain, if_neg kept]

theorem greedy_map (order : List Nat) (renames : Renames graph other rename (listed order)) :
    other.greedy (order.map rename) = rename '' graph.greedy order := by
  induction order using List.reverseRecOn with
  | nil => simp [greedy]
  | append_singleton order edge ih =>
      have earlier := renames.anti (listed_subset_append order [edge])
      have grown : insert edge (graph.greedy order) ⊆ listed (order ++ [edge]) := by
        rw [listed_append_singleton]
        exact Set.insert_subset_insert fun _ kept => (mem_of_mem_greedy kept).1
      rw [List.map_append, List.map_singleton, greedy_append_singleton, greedy_append_singleton,
        ih earlier, (renames.anti grown).retain_image]

theorem listed_map (order : List Nat) : listed (order.map rename) = rename '' listed order := by
  ext edge
  simp [listed]

theorem plants_iff {edge : Nat} (renames : Renames graph other rename (insert edge edges)) :
    other.Plants (rename '' edges) (rename edge) ↔ graph.Plants edges edge := by
  have before := renames.anti (Set.subset_insert edge edges)
  have member := Set.mem_insert edge edges
  rw [plants_iff_joins, plants_iff_joins, renames.kinds edge member]
  simp only [renames.joins edge member, before.linked_iff, before.opposed_iff]

theorem forest_map (order : List Nat) (renames : Renames graph other rename (listed order)) :
    other.forest (order.map rename) = rename '' graph.forest order := by
  induction order using List.reverseRecOn with
  | nil => simp [forest_nil]
  | append_singleton order edge ih =>
      have plants : other.Plants (listed (order.map rename)) (rename edge) ↔
          graph.Plants (listed order) edge := by
        rw [listed_map]
        apply plants_iff
        rw [← listed_append_singleton]
        exact renames
      have same := ih (renames.anti (listed_subset_append order [edge]))
      rw [List.map_append, List.map_singleton]
      by_cases planted : graph.Plants (listed order) edge
      · rw [forest_append_singleton_of_plants (plants.2 planted),
          forest_append_singleton_of_plants planted, same, Set.image_insert_eq]
      · rw [forest_append_singleton_of_not_plants fun other => planted (plants.1 other),
          forest_append_singleton_of_not_plants planted, same]

end Renames

end Watershed.SignedGraph
