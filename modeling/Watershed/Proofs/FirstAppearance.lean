import Mathlib.Data.List.Basic
import Watershed.Proofs.Numbering

/-!
# Numbers in the order of first appearance

Renumbering walks along the labels and hands out numbers as new labels turn up. Its result has a
closed form: the labels of classes are put into the order of their first appearance, and the number
of a label is its place in that order. From this it follows what the result looks like. It repeats
itself where the labels do, and its numbers are consecutive and turn up one after another.
-/

namespace Watershed.Numbering

/-- A label that marks positions outside of every class. -/
def isMark (keepZero : Bool) (label : Nat) : Bool :=
  keepZero && label == 0

/-- The labels of classes, in the order of their first appearance. -/
def classLabels (keepZero : Bool) (labels : List Nat) : List Nat :=
  (labels.filter fun label => !isMark keepZero label).eraseDups

/-- The number of a label by its place among the labels of classes, or zero for a mark. -/
def place (keepZero : Bool) (known : List Nat) (label : Nat) : Nat :=
  if isMark keepZero label then 0 else first keepZero + known.idxOf label

/-- Labels from a start on are consecutive, and each one appears after all smaller ones. -/
structure NumberedFrom (start count : Nat) (labels : Array Nat) : Prop where
  mem_iff : ∀ number, start ≤ number → (number ∈ labels ↔ number < start + count)
  ascending : ∀ number other j : Nat, start ≤ number → number < other → labels[j]? = some other →
    ∃ i < j, labels[i]? = some number

variable {keepZero : Bool} {label other : Nat} {labels passed : List Nat}

theorem mem_classLabels :
    label ∈ classLabels keepZero labels ↔ label ∈ labels ∧ isMark keepZero label = false := by
  simp [classLabels]

theorem classLabels_append_of_mark (mark : isMark keepZero label = true) :
    classLabels keepZero (passed ++ [label]) = classLabels keepZero passed := by
  simp [classLabels, mark]

theorem classLabels_append_of_mem (known : label ∈ classLabels keepZero passed) :
    classLabels keepZero (passed ++ [label]) = classLabels keepZero passed := by
  rcases mem_classLabels.1 known with ⟨member, unmarked⟩
  simp [classLabels, List.eraseDups_append, List.removeAll, member, unmarked]

theorem classLabels_append_of_fresh (unmarked : isMark keepZero label = false)
    (fresh : label ∉ passed) :
    classLabels keepZero (passed ++ [label]) = classLabels keepZero passed ++ [label] := by
  simp [classLabels, List.eraseDups_append, List.removeAll, List.eraseDups_cons, fresh, unmarked]

/-- What a renumbering has handed out so far, in closed form. -/
structure Numbers (keepZero : Bool) (passed : List Nat) (progress : Progress) : Prop where
  labels : progress.labels =
    (passed.map (place keepZero (classLabels keepZero passed))).toArray
  size : progress.numbers.size = (classLabels keepZero passed).length
  number_iff : ∀ label number, progress.numbers[label]? = some number ↔
    label ∈ classLabels keepZero passed ∧
      place keepZero (classLabels keepZero passed) label = number

theorem known_of_mem (member : label ∈ passed) :
    isMark keepZero label = true ∨ label ∈ classLabels keepZero passed := by
  cases mark : isMark keepZero label with
  | true => exact .inl rfl
  | false => exact .inr (mem_classLabels.2 ⟨member, mark⟩)

theorem place_of_mark (mark : isMark keepZero label = true) (known : List Nat) :
    place keepZero known label = 0 :=
  if_pos mark

theorem place_of_unmarked (unmarked : isMark keepZero label = false) (known : List Nat) :
    place keepZero known label = first keepZero + known.idxOf label :=
  if_neg (by simp [unmarked])

/-- The place of a label stays the same when further labels turn up. -/
theorem place_append {known : List Nat} (old : isMark keepZero label = true ∨ label ∈ known)
    (more : List Nat) : place keepZero (known ++ more) label = place keepZero known label := by
  unfold place
  split
  · rfl
  · next unmarked => rw [List.idxOf_append_of_mem (old.resolve_left unmarked)]

theorem place_of_fresh (unmarked : isMark keepZero label = false) {known : List Nat}
    (fresh : label ∉ known) :
    place keepZero (known ++ [label]) label = first keepZero + known.length := by
  rw [place_of_unmarked unmarked, List.idxOf_append_of_notMem fresh, List.idxOf_cons_self,
    Nat.add_zero]

theorem Numbers.push {progress : Progress} (numbers : Numbers keepZero passed progress)
    (same : classLabels keepZero (passed ++ [label]) = classLabels keepZero passed) :
    Numbers keepZero (passed ++ [label])
      ⟨progress.numbers,
        progress.labels.push (place keepZero (classLabels keepZero passed) label)⟩ where
  labels := by simp [same, numbers.labels]
  size := by rw [same, numbers.size]
  number_iff := by
    rw [same]
    exact numbers.number_iff

theorem Numbers.insert {progress : Progress} (numbers : Numbers keepZero passed progress)
    (unmarked : isMark keepZero label = false) (fresh : label ∉ passed) :
    Numbers keepZero (passed ++ [label])
      ⟨progress.numbers.insert label (first keepZero + progress.numbers.size),
        progress.labels.push (first keepZero + progress.numbers.size)⟩ := by
  have unknown : label ∉ classLabels keepZero passed := fun known =>
    fresh (mem_classLabels.1 known).1
  have missing : progress.numbers[label]? = none := by
    cases found : progress.numbers[label]? with
    | none => rfl
    | some number => exact absurd ((numbers.number_iff label number).1 found).1 unknown
  have given : first keepZero + progress.numbers.size =
      place keepZero (classLabels keepZero passed ++ [label]) label := by
    rw [place_of_fresh unmarked unknown, numbers.size]
  refine ⟨?_, ?_, fun other number => ?_⟩
  · rw [classLabels_append_of_fresh unmarked fresh, List.map_append, List.map_singleton, ← given]
    have kept : passed.map (place keepZero (classLabels keepZero passed ++ [label])) =
        passed.map (place keepZero (classLabels keepZero passed)) :=
      List.map_congr_left fun _ member => place_append (known_of_mem member) _
    rw [kept, numbers.labels]
    simp
  · rw [classLabels_append_of_fresh unmarked fresh, size_insert_of_fresh missing, numbers.size]
    simp
  · rw [classLabels_append_of_fresh unmarked fresh, getElem?_insert]
    split
    · next same =>
      subst same
      simp [given]
    · next different =>
      rw [numbers.number_iff, List.mem_append, List.mem_singleton, or_iff_left (Ne.symm different)]
      exact and_congr_right fun known => by rw [place_append (.inr known)]

theorem Numbers.step {progress : Progress} (numbers : Numbers keepZero passed progress)
    (label : Nat) :
    Numbers keepZero (passed ++ [label]) (Numbering.step keepZero progress label) := by
  rcases progress with ⟨given, results⟩
  unfold Numbering.step
  dsimp only
  split
  · next mark =>
    have pushed := numbers.push (classLabels_append_of_mark mark)
    rwa [place_of_mark mark] at pushed
  · next unmarked =>
    split
    · next number found =>
      rcases (numbers.number_iff label number).1 found with ⟨known, rfl⟩
      exact numbers.push (classLabels_append_of_mem known)
    · next missing =>
      rw [Bool.not_eq_true] at unmarked
      refine numbers.insert unmarked fun member => ?_
      have known := (known_of_mem member).resolve_left (by simpa [isMark] using unmarked)
      have found := (numbers.number_iff label _).2 ⟨known, rfl⟩
      exact absurd (missing.symm.trans found) (by simp)

theorem numbers_foldl (keepZero : Bool) (labels : List Nat) :
    Numbers keepZero labels (labels.foldl (Numbering.step keepZero) ⟨∅, #[]⟩) := by
  induction labels using List.reverseRecOn with
  | nil => exact ⟨rfl, rfl, by simp [classLabels]⟩
  | append_singleton labels label ih =>
      rw [List.foldl_append]
      exact ih.step label

/-- Renumbering in closed form: each label is replaced by its place in the order of classes. -/
theorem ofLabels_eq (keepZero : Bool) (labels : Array Nat) : ofLabels keepZero labels =
    ⟨labels.map (place keepZero (classLabels keepZero labels.toList)),
      (classLabels keepZero labels.toList).length⟩ := by
  have numbers := numbers_foldl keepZero labels.toList
  rw [Array.foldl_toList] at numbers
  rw [ofLabels, mk.injEq]
  refine ⟨?_, numbers.size⟩
  rw [numbers.labels, ← Array.toList_map]

theorem pairwise_classLabels (keepZero : Bool) (labels : List Nat) :
    (classLabels keepZero labels).Pairwise fun label other =>
      labels.idxOf label < labels.idxOf other := by
  induction labels using List.reverseRecOn with
  | nil => simp [classLabels]
  | append_singleton passed label ih =>
      have old : (classLabels keepZero passed).Pairwise fun label' other =>
          (passed ++ [label]).idxOf label' < (passed ++ [label]).idxOf other := by
        refine ih.imp_of_mem fun member otherMember less => ?_
        rwa [List.idxOf_append_of_mem (mem_classLabels.1 member).1,
          List.idxOf_append_of_mem (mem_classLabels.1 otherMember).1]
      by_cases known : isMark keepZero label = true ∨ label ∈ classLabels keepZero passed
      · rcases known with mark | known
        · rwa [classLabels_append_of_mark mark]
        · rwa [classLabels_append_of_mem known]
      · rw [not_or, Bool.not_eq_true] at known
        have fresh : label ∉ passed := fun member =>
          known.2 (mem_classLabels.2 ⟨member, known.1⟩)
        rw [classLabels_append_of_fresh known.1 fresh]
        refine List.pairwise_append.2 ⟨old, List.pairwise_singleton _ _, fun earlier member => ?_⟩
        rintro _ (- | ⟨_, ⟨⟩⟩)
        have inPassed := (mem_classLabels.1 member).1
        rw [List.idxOf_append_of_mem inPassed, List.idxOf_append_of_notMem fresh]
        exact Nat.lt_add_right _ (List.idxOf_lt_length_iff.2 inPassed)

theorem nodup_classLabels (keepZero : Bool) (labels : List Nat) :
    (classLabels keepZero labels).Nodup :=
  (pairwise_classLabels keepZero labels).imp fun less same => by simp [same] at less

theorem first_pos_of_mark (mark : isMark keepZero label = true) : 0 < first keepZero := by
  rw [isMark, Bool.and_eq_true] at mark
  rw [first, if_pos mark.1]
  exact Nat.one_pos

/-- Different labels have different places. -/
theorem place_eq_iff (member : label ∈ labels) :
    place keepZero (classLabels keepZero labels) label =
      place keepZero (classLabels keepZero labels) other ↔ label = other := by
  refine ⟨fun same => ?_, fun same => by rw [same]⟩
  have apart : ∀ {one two}, isMark keepZero one = true → isMark keepZero two = false →
      place keepZero (classLabels keepZero labels) one ≠
        place keepZero (classLabels keepZero labels) two := by
    intro one two mark unmarked
    have positive := first_pos_of_mark mark
    rw [place_of_mark mark, place_of_unmarked unmarked]
    omega
  cases mark : isMark keepZero label with
  | true =>
      cases otherMark : isMark keepZero other with
      | true =>
          rw [isMark, Bool.and_eq_true, beq_iff_eq] at mark otherMark
          rw [mark.2, otherMark.2]
      | false => exact absurd same (apart mark otherMark)
  | false =>
      cases otherMark : isMark keepZero other with
      | true => exact absurd same.symm (apart otherMark mark)
      | false =>
          rw [place_of_unmarked mark, place_of_unmarked otherMark, Nat.add_left_cancel_iff] at same
          exact (List.idxOf_inj (mem_classLabels.2 ⟨member, mark⟩)).1 same

/-- The number that is handed out after a number of others goes to the label in that place. -/
theorem place_eq_add_iff {offset : Nat} (member : label ∈ labels) :
    place keepZero (classLabels keepZero labels) label = first keepZero + offset ↔
      (classLabels keepZero labels)[offset]? = some label := by
  cases mark : isMark keepZero label with
  | true =>
      have positive := first_pos_of_mark mark
      rw [place_of_mark mark]
      refine iff_of_false (by omega) fun found => ?_
      exact absurd (mem_classLabels.1 (List.mem_of_getElem? found)).2 (by simp [mark])
  | false =>
      rw [place_of_unmarked mark, Nat.add_left_cancel_iff]
      constructor
      · rintro rfl
        exact List.getElem?_idxOf (mem_classLabels.2 ⟨member, mark⟩)
      · intro found
        rcases List.getElem?_eq_some_iff.1 found with ⟨inside, rfl⟩
        exact (nodup_classLabels keepZero labels).idxOf_getElem offset inside

section Results

variable {labels : Array Nat}

theorem size_labels_ofLabels : (ofLabels keepZero labels).labels.size = labels.size := by
  rw [ofLabels_eq, Array.size_map]

/-- The new labels repeat themselves at the positions where the old ones do. -/
theorem labels_ofLabels_eq_iff {i j : Nat} (inside : i < labels.size)
    (otherInside : j < labels.size) :
    (ofLabels keepZero labels).labels[i]? = (ofLabels keepZero labels).labels[j]? ↔
      labels[i]? = labels[j]? := by
  rw [ofLabels_eq, Array.getElem?_map, Array.getElem?_map, Array.getElem?_eq_getElem inside,
    Array.getElem?_eq_getElem otherInside, Option.map_some, Option.map_some, Option.some.injEq,
    Option.some.injEq]
  exact place_eq_iff (by simp)

/-- Zeros that are kept are the zeros of the result. -/
theorem labels_ofLabels_eq_zero_iff (i : Nat) :
    (ofLabels true labels).labels[i]? = some 0 ↔ labels[i]? = some 0 := by
  rw [ofLabels_eq, Array.getElem?_map]
  cases labels[i]? with
  | none => simp
  | some label =>
      rw [Option.map_some, Option.some.injEq, Option.some.injEq]
      cases mark : isMark true label with
      | true => exact iff_of_true (place_of_mark mark _) (by simpa [isMark] using mark)
      | false =>
          have positive : 0 < first true := Nat.one_pos
          refine iff_of_false ?_ (by simpa [isMark] using mark)
          rw [place_of_unmarked mark]
          omega

/-- The new labels are consecutive numbers, in the order of their first appearance. -/
theorem numberedFrom_ofLabels (keepZero : Bool) (labels : Array Nat) :
    NumberedFrom (first keepZero) (ofLabels keepZero labels).count
      (ofLabels keepZero labels).labels := by
  rw [ofLabels_eq]
  constructor
  · intro number le
    rcases Nat.exists_eq_add_of_le le with ⟨offset, rfl⟩
    rw [Nat.add_lt_add_iff_left, Array.mem_map]
    constructor
    · rintro ⟨label, member, placed⟩
      have found := (place_eq_add_iff (Array.mem_toList_iff.2 member)).1 placed
      exact (List.getElem?_eq_some_iff.1 found).1
    · intro inside
      have found := List.getElem?_eq_getElem inside
      have member := (mem_classLabels.1 (List.mem_of_getElem? found)).1
      exact ⟨_, Array.mem_toList_iff.1 member, (place_eq_add_iff member).2 found⟩
  · intro number other j le less here
    rcases Nat.exists_eq_add_of_le le with ⟨offset, rfl⟩
    rcases Nat.exists_eq_add_of_le (Nat.le_trans le (Nat.le_of_lt less)) with ⟨later, rfl⟩
    rw [Nat.add_lt_add_iff_left] at less
    rw [Array.getElem?_map, Option.map_eq_some_iff] at here
    rcases here with ⟨label, atJ, placed⟩
    rw [← Array.getElem?_toList] at atJ
    have found := (place_eq_add_iff (List.mem_of_getElem? atJ)).1 placed
    rcases List.getElem?_eq_some_iff.1 found with ⟨inside, isLabel⟩
    have foundEarlier := List.getElem?_eq_getElem (Nat.lt_trans less inside)
    have member := (mem_classLabels.1 (List.mem_of_getElem? foundEarlier)).1
    -- the label in the smaller place appears first, and so before this appearance of the other
    have before := List.pairwise_iff_getElem.1 (pairwise_classLabels keepZero labels.toList) offset
      later (Nat.lt_trans less inside) inside less
    have notLater : labels.toList.idxOf label ≤ j := by
      apply Nat.le_of_lt_succ
      rw [← List.mem_take_iff_idxOf_lt (List.mem_of_getElem? atJ)]
      exact List.mem_of_getElem? ((List.getElem?_take_of_lt (Nat.lt_succ_self j)).trans atJ)
    rw [isLabel] at before
    refine ⟨_, Nat.lt_of_lt_of_le before notLater, ?_⟩
    rw [Array.getElem?_map, ← Array.getElem?_toList, List.getElem?_idxOf member, Option.map_some,
      (place_eq_add_iff member).2 foundEarlier]

end Results

end Watershed.Numbering
