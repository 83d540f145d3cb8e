import Watershed.Proofs.Refusals
import Watershed.Proofs.Tensor
import Watershed.Tool.Problem

/-!
# The parts of a problem

A problem that has been read is a record of lists, and its parts are a stencil and tensors made from
these. Once there are parts, they say what the record says, over the grid of the problem.
-/

namespace Watershed.Tool.Problem

variable {problem : Problem} {parts : Parts}

theorem regionTensor_eq_ok {region : Option (Tensor Bool)}
    (made : problem.regionTensor = .ok region) :
    region.map (·.data) = problem.region ∧
      ∀ mask, region = some mask → mask.shape = problem.shape := by
  unfold regionTensor at made
  cases inside : problem.region with
  | none =>
      rw [inside] at made
      obtain rfl := Except.ok.inj made
      exact ⟨rfl, fun _ impossible => absurd impossible (by simp)⟩
  | some marks =>
      rw [inside] at made
      rcases Error.map_eq_ok_iff.1 made with ⟨mask, found, rfl⟩
      rcases Tensor.of_ofArray_eq_ok found with ⟨shape, data⟩
      refine ⟨congrArg some data, ?_⟩
      rintro _ ⟨⟩
      exact shape

/-- Parts of a problem lie over its grid: the weights of its edges, and its region if it has one. -/
theorem parts_eq_ok (made : problem.parts = .ok parts) :
    parts.weights.shape = parts.stencil.edgeShape problem.shape ∧
      parts.weights.data = problem.weights ∧ parts.region.map (·.data) = problem.region ∧
      ∀ mask, parts.region = some mask → mask.shape = problem.shape := by
  rcases Error.bind_eq_ok_iff.1 made with ⟨stencil, -, made⟩
  rcases Error.bind_eq_ok_iff.1 made with ⟨weights, weighted, made⟩
  rcases Error.bind_eq_ok_iff.1 made with ⟨region, masked, answered⟩
  obtain rfl := Except.ok.inj answered
  rcases Tensor.of_ofArray_eq_ok (Error.mapError_eq_ok_iff.1 weighted) with ⟨shape, data⟩
  exact ⟨shape, data, regionTensor_eq_ok (Error.mapError_eq_ok_iff.1 masked)⟩

end Watershed.Tool.Problem
