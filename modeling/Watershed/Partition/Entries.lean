/-!
# Entries of a table

A table has one entry for each of `n` nodes and is read with `Vector.get`, whose index is a node.
-/

namespace Watershed.Entries

variable {α : Type} {n : Nat}

theorem get_eq_getElem (entries : Vector α n) (a : Fin n) : entries.get a = entries[a.val] :=
  rfl

@[simp]
theorem get_ofFn (entry : Fin n → α) (a : Fin n) : (Vector.ofFn entry).get a = entry a := by
  simp [get_eq_getElem]

@[simp]
theorem get_replicate (value : α) (a : Fin n) : (Vector.replicate n value).get a = value := by
  simp [get_eq_getElem]

theorem get_set (entries : Vector α n) (a b : Fin n) (value : α) :
    (entries.set a value a.isLt).get b = if b = a then value else entries.get b := by
  simp only [get_eq_getElem]
  by_cases same : b = a
  · subst same
    simp
  · have apart : a.val ≠ b.val := fun equal => same (Fin.ext equal.symm)
    simp [Vector.getElem_set_ne _ _ apart, same]

theorem get_mem (entries : Vector α n) (a : Fin n) : entries.get a ∈ entries :=
  Vector.getElem_mem a.isLt

end Watershed.Entries
