import Mathlib.Data.List.Induction
import Watershed.Partition.Numbering

/-!
# Numbering depends on the pattern of the labels only

Two lists of labels have the same pattern when they repeat themselves at the same positions and, if
zeros are kept, are zero at the same positions. The renumbering of such lists goes through states in
which corresponding labels have got the same number, so its results are equal.
-/

namespace Watershed.Numbering

/-- Pairs of labels that are in one-to-one correspondence. -/
def Matched (keepZero : Bool) (pairs : List (Nat × Nat)) : Prop :=
  (∀ pair ∈ pairs, ∀ other ∈ pairs, pair.1 = other.1 ↔ pair.2 = other.2) ∧
    (keepZero = true → ∀ pair ∈ pairs, pair.1 = 0 ↔ pair.2 = 0)

/-- Two renumberings of matched pairs have come equally far. -/
structure Abreast (pairs : List (Nat × Nat)) (left right : Progress) : Prop where
  labels : left.labels = right.labels
  sizes : left.numbers.size = right.numbers.size
  agree : ∀ pair ∈ pairs, left.numbers[pair.1]? = right.numbers[pair.2]?
  knownLeft : ∀ label number, left.numbers[label]? = some number →
    ∃ pair ∈ pairs, pair.1 = label
  knownRight : ∀ label number, right.numbers[label]? = some number →
    ∃ pair ∈ pairs, pair.2 = label

variable {keepZero : Bool} {pairs : List (Nat × Nat)} {left right : Progress} {label other : Nat}

theorem getElem?_insert (numbers : Std.TreeMap Nat Nat) (label number other : Nat) :
    (numbers.insert label number)[other]? =
      if label = other then some number else numbers[other]? := by
  rw [Std.TreeMap.getElem?_insert]
  simp only [Std.compare_eq_iff_eq]

theorem size_insert_of_fresh {numbers : Std.TreeMap Nat Nat} {label number : Nat}
    (fresh : numbers[label]? = none) :
    (numbers.insert label number).size = numbers.size + 1 := by
  rw [Std.TreeMap.size_insert, if_neg]
  rw [Std.TreeMap.contains_eq_isSome_getElem?, fresh]
  simp

theorem Abreast.number_eq (abreast : Abreast pairs left right)
    (matched : Matched keepZero (pairs ++ [(label, other)])) :
    left.numbers[label]? = right.numbers[other]? := by
  have last : (label, other) ∈ pairs ++ [(label, other)] := by simp
  cases known : left.numbers[label]? with
  | some number =>
      rcases abreast.knownLeft label number known with ⟨pair, member, rfl⟩
      rw [← known, abreast.agree pair member,
        (matched.1 pair (List.mem_append_left _ member) _ last).1 rfl]
  | none =>
      cases knownOther : right.numbers[other]? with
      | none => rfl
      | some number =>
          rcases abreast.knownRight other number knownOther with ⟨pair, member, rfl⟩
          have same := (matched.1 pair (List.mem_append_left _ member) _ last).2 rfl
          rw [← knownOther, ← abreast.agree pair member, same, known]

theorem Matched.keeps_iff (matched : Matched keepZero pairs) {pair : Nat × Nat}
    (member : pair ∈ pairs) : (keepZero && pair.1 == 0) = (keepZero && pair.2 == 0) := by
  cases keepZero with
  | false => rfl
  | true =>
      rw [Bool.true_and, Bool.true_and, Bool.eq_iff_iff, beq_iff_eq, beq_iff_eq]
      exact matched.2 rfl pair member

theorem Abreast.push (abreast : Abreast pairs left right)
    (number : left.numbers[label]? = right.numbers[other]?) (result : Nat) :
    Abreast (pairs ++ [(label, other)]) ⟨left.numbers, left.labels.push result⟩
      ⟨right.numbers, right.labels.push result⟩ where
  labels := by rw [abreast.labels]
  sizes := abreast.sizes
  agree := by
    intro pair member
    rcases List.mem_append.1 member with old | new
    · exact abreast.agree pair old
    · rw [List.mem_singleton.1 new]
      exact number
  knownLeft := by
    intro older known found
    rcases abreast.knownLeft older known found with ⟨pair, member, same⟩
    exact ⟨pair, List.mem_append_left _ member, same⟩
  knownRight := by
    intro older known found
    rcases abreast.knownRight older known found with ⟨pair, member, same⟩
    exact ⟨pair, List.mem_append_left _ member, same⟩

theorem Abreast.insert (abreast : Abreast pairs left right)
    (matched : Matched keepZero (pairs ++ [(label, other)]))
    (fresh : left.numbers[label]? = none) (result : Nat) :
    Abreast (pairs ++ [(label, other)])
      ⟨left.numbers.insert label result, left.labels.push result⟩
      ⟨right.numbers.insert other result, right.labels.push result⟩ := by
  have last : (label, other) ∈ pairs ++ [(label, other)] := by simp
  have number := abreast.number_eq matched
  have pushed := abreast.push number result
  refine ⟨pushed.labels, ?_, ?_, ?_, ?_⟩
  · rw [size_insert_of_fresh fresh, size_insert_of_fresh (number.symm.trans fresh), abreast.sizes]
  · intro pair member
    have same := matched.1 _ last pair member
    have extended := pushed.agree pair member
    dsimp only at same extended ⊢
    rw [getElem?_insert, getElem?_insert, extended]
    simp only [same]
  · intro older known found
    rw [getElem?_insert] at found
    split at found
    · next same => exact ⟨_, last, same⟩
    · exact pushed.knownLeft older known found
  · intro older known found
    rw [getElem?_insert] at found
    split at found
    · next same => exact ⟨_, last, same⟩
    · exact pushed.knownRight older known found

theorem Abreast.step (abreast : Abreast pairs left right)
    (matched : Matched keepZero (pairs ++ [(label, other)])) :
    Abreast (pairs ++ [(label, other)]) (step keepZero left label) (step keepZero right other) := by
  have number := abreast.number_eq matched
  have zeros : (keepZero && label == 0) = (keepZero && other == 0) :=
    @Matched.keeps_iff _ _ matched (label, other) (by simp)
  have sizes := abreast.sizes
  rcases left with ⟨numbers, labels⟩
  rcases right with ⟨otherNumbers, otherLabels⟩
  dsimp only at number sizes
  unfold Numbering.step
  dsimp only
  rw [← zeros, ← number, ← sizes]
  split
  · exact abreast.push number 0
  · cases fresh : numbers[label]? with
    | some known => exact abreast.push number known
    | none => exact abreast.insert matched fresh _

theorem foldl_step_abreast (matched : Matched keepZero pairs) :
    Abreast pairs ((pairs.map Prod.fst).foldl (Numbering.step keepZero) ⟨∅, #[]⟩)
      ((pairs.map Prod.snd).foldl (Numbering.step keepZero) ⟨∅, #[]⟩) := by
  induction pairs using List.reverseRecOn with
  | nil => exact ⟨rfl, rfl, by simp, by simp, by simp⟩
  | append_singleton pairs pair ih =>
      have earlier : Matched keepZero pairs :=
        ⟨fun one isOne two isTwo =>
          matched.1 one (List.mem_append_left _ isOne) two (List.mem_append_left _ isTwo),
          fun keep one isOne => matched.2 keep one (List.mem_append_left _ isOne)⟩
      simp only [List.map_append, List.map_cons, List.map_nil, List.foldl_append, List.foldl_cons,
        List.foldl_nil]
      exact (ih earlier).step matched

/-- Labels with the same pattern, and the same zeros if these are kept, get the same numbers. -/
theorem ofLabels_eq_of_same_pattern {labels others : Array Nat} (sizes : labels.size = others.size)
    (pattern : ∀ i j : Nat, i < labels.size → j < labels.size →
      (labels[i]? = labels[j]? ↔ others[i]? = others[j]?))
    (zeros : keepZero = true → ∀ i : Nat, labels[i]? = some 0 ↔ others[i]? = some 0) :
    ofLabels keepZero labels = ofLabels keepZero others := by
  have lengths : labels.toList.length = others.toList.length := by simpa using sizes
  have matched : Matched keepZero (labels.toList.zip others.toList) := by
    constructor
    · intro pair member other otherMember
      rcases List.getElem_of_mem member with ⟨i, bound, rfl⟩
      rcases List.getElem_of_mem otherMember with ⟨j, otherBound, rfl⟩
      simp only [List.length_zip, lengths, Nat.min_self, Array.length_toList] at bound otherBound
      have here := pattern i j (sizes ▸ bound) (sizes ▸ otherBound)
      simpa [bound, otherBound, sizes] using here
    · intro keep pair member
      rcases List.getElem_of_mem member with ⟨i, bound, rfl⟩
      simp only [List.length_zip, lengths, Nat.min_self, Array.length_toList] at bound
      have here := zeros keep i
      simpa [bound, sizes] using here
  have abreast := foldl_step_abreast matched
  rw [List.map_fst_zip (Nat.le_of_eq lengths), List.map_snd_zip (Nat.le_of_eq lengths.symm),
    Array.foldl_toList, Array.foldl_toList] at abreast
  rw [ofLabels, ofLabels, mk.injEq]
  exact ⟨abreast.labels, abreast.sizes⟩

end Watershed.Numbering
