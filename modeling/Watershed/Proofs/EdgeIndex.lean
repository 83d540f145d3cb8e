import Watershed.Proofs.Layout
import Watershed.Proofs.SignedGraph

/-!
# Ends of numbered edges

The number of an edge is its channel times the number of nodes plus the node that it starts from.
The lemmas below read the ends of an edge off this decomposition, from either end: growth comes to
an edge from the node where it ends as often as from the node where it starts.
-/

namespace Watershed.EdgeIndex

variable {index : EdgeIndex} {valid : Array Bool} {edge : Nat}

theorem neighbor?_eq_some_iff {node target : Fin index.nodes} {step : Int} :
    index.neighbor? node step = some target ↔ (target.val : Int) = node.val + step := by
  have bound := target.isLt
  unfold neighbor?
  split
  · rw [Option.some.injEq, Fin.ext_iff]
    simp only
    omega
  · constructor
    · intro impossible
      exact absurd impossible (by simp)
    · intro reached
      omega

theorem neighbor?_neg_eq_some_iff {node source : Fin index.nodes} {step : Int} :
    index.neighbor? node (-step) = some source ↔ index.neighbor? source step = some node := by
  rw [neighbor?_eq_some_iff, neighbor?_eq_some_iff]
  omega

theorem ends?_eq_some_iff {source target : Fin index.nodes} :
    index.ends? edge = some (source, target) ↔
      source.val = edge % index.nodes ∧ ∃ step, index.steps[edge / index.nodes]? = some step ∧
        index.neighbor? source step = some target := by
  have positive : 0 < index.nodes := Nat.lt_of_le_of_lt (Nat.zero_le _) source.isLt
  rw [ends?, dif_pos positive]
  simp only [Option.bind_eq_some_iff, Option.map_eq_some_iff, Prod.mk.injEq]
  constructor
  · rintro ⟨step, known, found, leads, rfl, rfl⟩
    exact ⟨rfl, step, known, leads⟩
  · rintro ⟨start, step, known, leads⟩
    have same : (⟨edge % index.nodes, Nat.mod_lt _ positive⟩ : Fin index.nodes) = source :=
      Fin.ext start.symm
    exact ⟨step, known, target, same ▸ leads, same, rfl⟩

theorem div_number (channel : Nat) (node : Fin index.nodes) :
    index.number channel node / index.nodes = channel := by
  rw [number, mul_add_div_of_lt channel node.isLt]

theorem mod_number (channel : Nat) (node : Fin index.nodes) :
    index.number channel node % index.nodes = node := by
  rw [number, Nat.mul_add_mod_of_lt node.isLt]

theorem number_lt_number_iff {channel other : Nat} {node target : Fin index.nodes} :
    index.number channel node < index.number other target ↔
      channel < other ∨ (channel = other ∧ node < target) := by
  rw [number, number, Fin.lt_def]
  rcases Nat.lt_trichotomy channel other with below | rfl | above
  · have room := mul_add_lt below node.isLt
    omega
  · omega
  · have room := mul_add_lt above target.isLt
    omega

theorem number_div_mod (edge : Nat) :
    index.number (edge / index.nodes) (edge % index.nodes) = edge := by
  rw [number, Nat.mul_comm, Nat.div_add_mod]

theorem ends?_number_eq_some_iff {channel : Nat} {node source target : Fin index.nodes} :
    index.ends? (index.number channel node) = some (source, target) ↔
      source = node ∧ ∃ step, index.steps[channel]? = some step ∧
        index.neighbor? node step = some target := by
  rw [ends?_eq_some_iff, div_number, mod_number, ← Fin.ext_iff]
  constructor <;>
  · rintro ⟨rfl, leads⟩
    exact ⟨rfl, leads⟩

/-- The two ways in which an edge of a channel can be met at a node. -/
theorem ends?_of_channel_iff {channel : Nat} {node other : Fin index.nodes} :
    (index.ends? edge = some (node, other) ∨ index.ends? edge = some (other, node)) ∧
        edge / index.nodes = channel ↔
      ∃ step, index.steps[channel]? = some step ∧
        ((index.neighbor? node step = some other ∧ edge = index.number channel node) ∨
          (index.neighbor? node (-step) = some other ∧ edge = index.number channel other)) := by
  constructor
  · rintro ⟨ends | ends, rfl⟩
    · rcases ends?_eq_some_iff.1 ends with ⟨start, step, known, leads⟩
      exact ⟨step, known, .inl ⟨leads, by rw [start, number_div_mod]⟩⟩
    · rcases ends?_eq_some_iff.1 ends with ⟨start, step, known, leads⟩
      exact ⟨step, known, .inr ⟨neighbor?_neg_eq_some_iff.2 leads, by rw [start, number_div_mod]⟩⟩
  · rintro ⟨step, known, ⟨leads, rfl⟩ | ⟨leads, rfl⟩⟩
    · exact ⟨.inl (ends?_number_eq_some_iff.2 ⟨rfl, step, known, leads⟩), div_number _ _⟩
    · have back := neighbor?_neg_eq_some_iff.1 leads
      exact ⟨.inr (ends?_number_eq_some_iff.2 ⟨rfl, step, known, back⟩), div_number _ _⟩

theorem number_lt_count {channel node : Nat} (known : channel < index.channels)
    (inside : node < index.nodes) : index.number channel node < index.count := by
  rw [count, Nat.mul_comm]
  exact mul_add_lt known inside

theorem lt_count_of_ends?_eq {ends : Fin index.nodes × Fin index.nodes}
    (known : index.ends? edge = some ends) : edge < index.count := by
  rcases ends?_eq_some_iff.1 known with ⟨-, step, found, -⟩
  have channel : edge / index.nodes < index.channels := by
    by_contra outside
    rw [Array.getElem?_eq_none (Nat.le_of_not_lt outside)] at found
    exact absurd found (by simp)
  have positive : 0 < index.nodes := Nat.lt_of_le_of_lt (Nat.zero_le _) ends.1.isLt
  rw [count, Nat.mul_comm]
  exact (Nat.div_lt_iff_lt_mul positive).1 channel

theorem ends?_graph_of_valid (taken : valid[edge]? = some true) :
    (index.graph valid).ends? edge = index.ends? edge :=
  if_pos taken

theorem ends?_graph_of_not_valid (passed : valid[edge]? ≠ some true) :
    (index.graph valid).ends? edge = none :=
  if_neg passed

theorem ends?_graph_eq_some_iff {ends : Fin index.nodes × Fin index.nodes} :
    (index.graph valid).ends? edge = some ends ↔
      valid[edge]? = some true ∧ index.ends? edge = some ends := by
  by_cases taken : valid[edge]? = some true
  · simp [ends?_graph_of_valid taken, taken]
  · simp [ends?_graph_of_not_valid taken, taken]

theorem joins_graph_iff {a b : Fin index.nodes} : (index.graph valid).Joins edge a b ↔
    valid[edge]? = some true ∧
      (index.ends? edge = some (a, b) ∨ index.ends? edge = some (b, a)) := by
  rw [SignedGraph.Joins, ends?_graph_eq_some_iff, ends?_graph_eq_some_iff, ← and_or_left]

theorem lt_count_of_joins {a b : Fin index.nodes} (joins : (index.graph valid).Joins edge a b) :
    edge < index.count := by
  rcases (joins_graph_iff.1 joins).2 with ends | ends <;> exact lt_count_of_ends?_eq ends

end Watershed.EdgeIndex
