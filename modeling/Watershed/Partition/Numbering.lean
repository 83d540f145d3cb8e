import Std.Data.TreeMap

/-!
# Consecutive numbering

Labels are arbitrary numbers that tell classes apart. Renumbering replaces them by consecutive
numbers in the order of their first appearance, so that equal partitions get equal labels. The label
zero can be kept as a mark for positions outside of every class.
-/

namespace Watershed

/-- Consecutive labels and the number of classes among them. -/
structure Numbering where
  labels : Array Nat
  count : Nat
  deriving DecidableEq

namespace Numbering

/-- The numbers given so far to old labels, and the new labels of the positions passed. -/
structure Progress where
  numbers : Std.TreeMap Nat Nat
  labels : Array Nat

/-- The lowest number that is given; zero is left out where zeros are kept. -/
def first (keepZero : Bool) : Nat :=
  if keepZero then 1 else 0

/-- Renumbers one more position. -/
def step (keepZero : Bool) (progress : Progress) (label : Nat) : Progress :=
  match progress with
  | ⟨numbers, labels⟩ =>
      if keepZero && label == 0 then
        ⟨numbers, labels.push 0⟩
      else
        match numbers[label]? with
        | some number => ⟨numbers, labels.push number⟩
        | none =>
            let number := first keepZero + numbers.size
            ⟨numbers.insert label number, labels.push number⟩

/-- Renumbers labels in the order of their first appearance; zeros are kept on request. -/
def ofLabels (keepZero : Bool) (labels : Array Nat) : Numbering :=
  let final := labels.foldl (step keepZero) ⟨∅, #[]⟩
  ⟨final.labels, final.numbers.size⟩

end Numbering

end Watershed
