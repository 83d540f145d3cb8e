import Mathlib.Data.Finset.Card
import Watershed.Proofs.FirstAppearance

/-!
# The canonical form of a partition

Renumbering keeps the pattern of the labels, and its result depends on this pattern only. So two
lists of labels get the same result if and only if they have the same pattern, and renumbering a
result changes nothing.

A list of labels can be renumbered in place. Numbers and labels that are not renumbered yet then
stand side by side and can coincide, but only the label at the position itself is ever looked up.
-/

namespace Watershed.Numbering

/-- Renumbers the label at one position in place. -/
def overwrite (keepZero : Bool) (progress : Progress) (position : Nat) : Progress :=
  match progress.labels[position]? with
  | none => progress
  | some label =>
      if keepZero && label == 0 then
        progress
      else
        match progress.numbers[label]? with
        | some number => ⟨progress.numbers, progress.labels.setIfInBounds position number⟩
        | none =>
            let number := first keepZero + progress.numbers.size
            ⟨progress.numbers.insert label number, progress.labels.setIfInBounds position number⟩

/-- Renumbers labels in place, from the first position to the last. -/
def inPlace (keepZero : Bool) (labels : Array Nat) : Numbering :=
  let final := (List.range labels.size).foldl (overwrite keepZero) ⟨∅, labels⟩
  ⟨final.labels, final.numbers.size⟩

/--
Labels with one pattern: the lists have equal length, repeat themselves at the same positions and,
if zeros are kept, are zero at the same positions.
-/
structure SamePattern (keepZero : Bool) (labels others : Array Nat) : Prop where
  size : labels.size = others.size
  repeats : ∀ i j : Nat, labels[i]? = labels[j]? ↔ others[i]? = others[j]?
  zeros : keepZero = true → ∀ i : Nat, labels[i]? = some 0 ↔ others[i]? = some 0

variable {keepZero : Bool} {labels others : Array Nat}

theorem size_labels_step (progress : Progress) (label : Nat) :
    (step keepZero progress label).labels.size = progress.labels.size + 1 := by
  unfold step
  dsimp only
  split
  · exact Array.size_push _
  · split <;> exact Array.size_push _

/-- The label behind the renumbered ones is the one that is renumbered next. -/
theorem overwrite_append (progress : Progress) (label : Nat) (rest : Array Nat) :
    overwrite keepZero ⟨progress.numbers, progress.labels ++ (#[label] ++ rest)⟩
        progress.labels.size =
      ⟨(step keepZero progress label).numbers, (step keepZero progress label).labels ++ rest⟩ := by
  have here : (progress.labels ++ (#[label] ++ rest))[progress.labels.size]? = some label := by
    rw [Array.getElem?_append_right (Nat.le_refl _), Nat.sub_self,
      Array.getElem?_append_left Nat.one_pos]
    rfl
  have written : ∀ number : Nat, (progress.labels ++ (#[label] ++ rest)).setIfInBounds
      progress.labels.size number = progress.labels.push number ++ rest := by
    intro number
    rw [Array.setIfInBounds_append_right (Nat.le_refl _), Nat.sub_self,
      Array.setIfInBounds_append_left (by simp)]
    simp
  unfold overwrite step
  dsimp only
  rw [here]
  dsimp only
  split
  · next mark =>
    rw [Bool.and_eq_true, beq_iff_eq] at mark
    simp [mark.2]
  · cases progress.numbers[label]? with
    | some number => simp only [written]
    | none => simp only [written]

theorem foldl_overwrite (progress : Progress) (rest : List Nat) :
    (List.range' progress.labels.size rest.length).foldl (overwrite keepZero)
        ⟨progress.numbers, progress.labels ++ rest.toArray⟩ =
      rest.foldl (step keepZero) progress := by
  induction rest generalizing progress with
  | nil => simp
  | cons label rest ih =>
      rw [List.length_cons, List.range'_succ, List.foldl_cons, List.foldl_cons, ← ih,
        size_labels_step, ← overwrite_append]
      simp

theorem inPlace_eq (keepZero : Bool) (labels : Array Nat) :
    inPlace keepZero labels = ofLabels keepZero labels := by
  have folded := @foldl_overwrite keepZero ⟨∅, #[]⟩ labels.toList
  dsimp only at folded
  rw [Array.size_empty, Array.length_toList, ← List.range_eq_range', Array.toArray_toList,
    Array.empty_append] at folded
  rw [inPlace, folded, Array.foldl_toList, ofLabels]

theorem labels_ofLabels_eq_map (keepZero : Bool) (labels : Array Nat) :
    (ofLabels keepZero labels).labels =
      labels.map (place keepZero (classLabels keepZero labels.toList)) := by
  rw [ofLabels_eq]

/-- Renumbering keeps the pattern. -/
theorem samePattern_ofLabels (keepZero : Bool) (labels : Array Nat) :
    SamePattern keepZero (ofLabels keepZero labels).labels labels := by
  refine ⟨size_labels_ofLabels, fun i j => ?_, fun keeps i => ?_⟩
  · rw [ofLabels_eq, Array.getElem?_map, Array.getElem?_map]
    cases here : labels[i]? with
    | none => cases labels[j]? <;> simp
    | some label =>
        cases labels[j]? with
        | none => simp
        | some other =>
            rw [Option.map_some, Option.map_some, Option.some.injEq, Option.some.injEq]
            exact place_eq_iff (Array.mem_toList_iff.2 (Array.mem_of_getElem? here))
  · subst keeps
    exact labels_ofLabels_eq_zero_iff i

theorem SamePattern.symm (same : SamePattern keepZero labels others) :
    SamePattern keepZero others labels :=
  ⟨same.size.symm, fun i j => (same.repeats i j).symm, fun keeps i => (same.zeros keeps i).symm⟩

theorem SamePattern.trans {more : Array Nat} (same : SamePattern keepZero labels others)
    (sameMore : SamePattern keepZero others more) : SamePattern keepZero labels more :=
  ⟨same.size.trans sameMore.size, fun i j => (same.repeats i j).trans (sameMore.repeats i j),
    fun keeps i => (same.zeros keeps i).trans (sameMore.zeros keeps i)⟩

/-- The result of renumbering stands for the pattern. -/
theorem ofLabels_eq_iff :
    ofLabels keepZero labels = ofLabels keepZero others ↔ SamePattern keepZero labels others := by
  constructor
  · intro equal
    have same := samePattern_ofLabels keepZero others
    rw [← equal] at same
    exact (samePattern_ofLabels keepZero labels).symm.trans same
  · intro same
    exact ofLabels_eq_of_same_pattern same.size (fun i j _ _ => same.repeats i j) same.zeros

/-- The classes are counted by their labels. -/
theorem count_ofLabels (keepZero : Bool) (labels : Array Nat) :
    (ofLabels keepZero labels).count =
      (labels.toList.toFinset.filter fun label => isMark keepZero label = false).card := by
  have members : labels.toList.toFinset.filter (fun label => isMark keepZero label = false) =
      (classLabels keepZero labels.toList).toFinset := by
    ext label
    rw [Finset.mem_filter, List.mem_toFinset, List.mem_toFinset, mem_classLabels]
  rw [members, List.toFinset_card_of_nodup (nodup_classLabels keepZero labels.toList), ofLabels_eq]

/-- The numbers of classes are consecutive. -/
theorem number_iff (keepZero : Bool) (labels : Array Nat) (number : Nat) :
    (∃ i label : Nat, labels[i]? = some label ∧ isMark keepZero label = false ∧
      (ofLabels keepZero labels).labels[i]? = some number) ↔
      first keepZero ≤ number ∧ number < first keepZero + (ofLabels keepZero labels).count := by
  have numbered := numberedFrom_ofLabels keepZero labels
  constructor
  · rintro ⟨i, label, here, unmarked, placed⟩
    have le : first keepZero ≤ number := by
      rw [labels_ofLabels_eq_map, Array.getElem?_map, here, Option.map_some, Option.some.injEq,
        place_of_unmarked unmarked] at placed
      omega
    exact ⟨le, (numbered.mem_iff number le).1 (Array.mem_of_getElem? placed)⟩
  · rintro ⟨le, below⟩
    rcases Array.mem_iff_getElem?.1 ((numbered.mem_iff number le).2 below) with ⟨i, placed⟩
    have mapped := placed
    rw [labels_ofLabels_eq_map, Array.getElem?_map, Option.map_eq_some_iff] at mapped
    rcases mapped with ⟨label, here, rfl⟩
    refine ⟨i, label, here, Bool.eq_false_of_not_eq_true fun mark => ?_, placed⟩
    have positive := first_pos_of_mark mark
    rw [place_of_mark mark] at le
    omega

/--
Renumbering is a canonical form of partitions. The result repeats itself where the labels do, zeros
that are kept are its zeros, and all other entries are consecutive numbers whose first appearances
ascend, as many as there are different labels of classes. Renumbering in place gives the same, a
second renumbering changes nothing, and two lists of labels have the same result if and only if they
have the same pattern.
-/
theorem ofLabels_canonical (keepZero : Bool) (labels : Array Nat) :
    inPlace keepZero labels = ofLabels keepZero labels ∧
      (ofLabels keepZero labels).labels.size = labels.size ∧
      (∀ i j : Nat, (ofLabels keepZero labels).labels[i]? =
        (ofLabels keepZero labels).labels[j]? ↔ labels[i]? = labels[j]?) ∧
      (keepZero = true → ∀ i : Nat,
        (ofLabels keepZero labels).labels[i]? = some 0 ↔ labels[i]? = some 0) ∧
      (∀ number, (∃ i label : Nat, labels[i]? = some label ∧ isMark keepZero label = false ∧
        (ofLabels keepZero labels).labels[i]? = some number) ↔
          first keepZero ≤ number ∧ number < first keepZero + (ofLabels keepZero labels).count) ∧
      (∀ number other j : Nat, first keepZero ≤ number → number < other →
        (ofLabels keepZero labels).labels[j]? = some other →
        ∃ i < j, (ofLabels keepZero labels).labels[i]? = some number) ∧
      (ofLabels keepZero labels).count =
        (labels.toList.toFinset.filter fun label => isMark keepZero label = false).card ∧
      ofLabels keepZero (ofLabels keepZero labels).labels = ofLabels keepZero labels ∧
      ∀ others, ofLabels keepZero labels = ofLabels keepZero others ↔
        SamePattern keepZero labels others := by
  have same := samePattern_ofLabels keepZero labels
  exact ⟨inPlace_eq keepZero labels, same.size, same.repeats, same.zeros,
    number_iff keepZero labels, (numberedFrom_ofLabels keepZero labels).ascending,
    count_ofLabels keepZero labels, ofLabels_eq_iff.2 same, fun _ => ofLabels_eq_iff⟩

end Watershed.Numbering
