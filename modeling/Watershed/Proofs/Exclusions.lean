import Watershed.Partition.Entries
import Watershed.Partition.Exclusions

/-!
# Exclusions as a relation

The sets of an `Exclusions` value are read through one relation: a node lists another one. As long
as this relation is symmetric, the answer of `Exclusions.excludes` does not depend on the set that
it consults; and as long as it is also irreflexive, redirecting a node never meets the set that is
being emptied. That both hold after every call is seen from the pairs that were separated.
-/

namespace Watershed.Exclusions

variable {n : Nat}

/-- The set of the first node has the second one as a member. -/
def Lists (exclusions : Exclusions n) (a b : Fin n) : Prop :=
  b ∈ exclusions.sets.get a

/-- Exclusions are mutual, and no node excludes itself. -/
structure Mutual (exclusions : Exclusions n) : Prop where
  symm : ∀ {a b}, exclusions.Lists a b → exclusions.Lists b a
  irrefl : ∀ a, ¬ exclusions.Lists a a

@[simp]
theorem not_lists_empty (a b : Fin n) : ¬ (empty n).Lists a b := by
  simp [Lists, empty]

theorem excludes_iff_lists {exclusions : Exclusions n} (consistent : exclusions.Mutual)
    (a b : Fin n) : exclusions.excludes a b = true ↔ exclusions.Lists a b := by
  simp only [excludes]
  split
  · exact Std.TreeSet.contains_iff_mem
  · constructor
    · intro contained
      exact consistent.symm (Std.TreeSet.contains_iff_mem.1 contained)
    · intro listed
      exact Std.TreeSet.contains_iff_mem.2 (consistent.symm listed)

theorem lists_insert_iff (exclusions : Exclusions n) (a b x y : Fin n) :
    (exclusions.insert a b).Lists x y ↔
      exclusions.Lists x y ∨ (x = a ∧ y = b) ∨ (x = b ∧ y = a) := by
  simp only [Lists, insert, Entries.get_set]
  by_cases atB : x = b
  · subst atB
    by_cases atA : x = a
    · subst atA
      simp only [if_true, Std.TreeSet.mem_insert, Std.compare_eq_iff_eq]
      grind
    · simp only [if_true, if_neg atA, Std.TreeSet.mem_insert, Std.compare_eq_iff_eq]
      grind
  · by_cases atA : x = a
    · subst atA
      simp only [if_true, if_neg atB, Std.TreeSet.mem_insert, Std.compare_eq_iff_eq]
      grind
    · simp only [if_neg atB, if_neg atA]
      grind

/-- In the set of a listed node the target stands for the source; the other sets are as before. -/
theorem mem_redirect_iff (source target : Fin n) (sets : Vector (Std.TreeSet (Fin n)) n)
    (nodes : List (Fin n)) (x y : Fin n) :
    y ∈ (redirect source target sets nodes).get x ↔
      (x ∈ nodes ∧ y = target) ∨ ((x ∈ nodes → y ≠ source) ∧ y ∈ sets.get x) := by
  induction nodes generalizing sets with
  | nil => simp [redirect]
  | cons node nodes ih =>
      have unfolded : redirect source target sets (node :: nodes) =
          redirect source target
            (sets.set node (((sets.get node).erase source).insert target) node.isLt) nodes := rfl
      rw [unfolded, ih, Entries.get_set]
      by_cases head : x = node
      · subst head
        simp only [if_true, Std.TreeSet.mem_insert, Std.TreeSet.mem_erase, Std.compare_eq_iff_eq,
          List.mem_cons_self, ne_eq]
        grind
      · simp only [List.mem_cons, head, false_or, if_false]

/--
After a move the target excludes what it or the source excluded, apart from the two themselves, and
the source excludes nothing.
-/
theorem lists_move_iff {exclusions : Exclusions n} (consistent : exclusions.Mutual)
    {source target : Fin n} (different : source ≠ target) (x y : Fin n) :
    (exclusions.move source target).Lists x y ↔
      x ≠ y ∧ x ≠ source ∧ y ≠ source ∧
        (exclusions.Lists x y ∨ (x = target ∧ exclusions.Lists source y) ∨
          (y = target ∧ exclusions.Lists x source)) := by
  have symm : ∀ a b, exclusions.Lists a b → exclusions.Lists b a := fun _ _ => consistent.symm
  have irrefl := consistent.irrefl
  simp only [Lists] at symm irrefl ⊢
  simp only [move, Entries.get_set]
  by_cases atTarget : x = target
  · subst atTarget
    simp only [if_true, Std.TreeSet.mem_insertMany_list, Std.TreeSet.mem_erase,
      Std.compare_eq_iff_eq, mem_redirect_iff, Entries.get_set, List.contains_iff_mem,
      List.mem_filter, Std.TreeSet.mem_toList, bne_iff_ne, ne_eq, not_true_eq_false, and_false,
      if_neg different.symm]
    grind
  · simp only [atTarget, if_false, mem_redirect_iff, Entries.get_set, List.mem_filter,
      Std.TreeSet.mem_toList, bne_iff_ne, ne_eq, not_false_eq_true, and_true]
    by_cases atSource : x = source
    · subst atSource
      simp [irrefl]
    · simp only [atSource, if_false]
      grind

end Watershed.Exclusions
