import Std.Data.TreeSet

/-!
# Exclusions

A symmetric relation on nodes that records which of them must never be joined. Each node has the set
of nodes that it excludes, and every insertion enters a pair on both sides; so a question may
consult the smaller of the two sets.
-/

namespace Watershed

/-- For each of `n` nodes the nodes that it excludes. -/
structure Exclusions (n : Nat) where
  sets : Vector (Std.TreeSet (Fin n)) n

namespace Exclusions

variable {n : Nat}

/-- No two nodes exclude each other. -/
def empty (n : Nat) : Exclusions n where
  sets := Vector.replicate n ∅

/-- Whether two nodes exclude each other, read off the smaller of their sets. -/
def excludes (exclusions : Exclusions n) (a b : Fin n) : Bool :=
  let besideA := exclusions.sets.get a
  let besideB := exclusions.sets.get b
  if besideA.size < besideB.size then besideA.contains b else besideB.contains a

/-- Two nodes exclude each other from now on. -/
def insert (exclusions : Exclusions n) (a b : Fin n) : Exclusions n where
  sets :=
    let sets := exclusions.sets.set a ((exclusions.sets.get a).insert b) a.isLt
    sets.set b ((sets.get b).insert a) b.isLt

/-- In the set of every listed node, `target` takes the place of `source`. -/
def redirect (source target : Fin n) (sets : Vector (Std.TreeSet (Fin n)) n)
    (nodes : List (Fin n)) : Vector (Std.TreeSet (Fin n)) n :=
  nodes.foldl (fun sets (node : Fin n) =>
    sets.set node (((sets.get node).erase source).insert target) node.isLt) sets

/--
All exclusions of `source` become exclusions of `target`, except the one between the two, which is
dropped.
-/
def move (exclusions : Exclusions n) (source target : Fin n) : Exclusions n where
  sets :=
    let moved := (exclusions.sets.get source).toList.filter (· != target)
    let sets := redirect source target (exclusions.sets.set source ∅ source.isLt) moved
    sets.set target (((sets.get target).erase source).insertMany moved) target.isLt

end Exclusions

end Watershed
