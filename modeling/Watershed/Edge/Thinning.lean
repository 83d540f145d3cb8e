import Watershed.Binary64
import Watershed.Error

/-!
# Thinning of repulsive edges

Long-range repulsive edges can be thinned out: either only those are kept that start from a regular
sublattice, or each one is kept at random so that the expected share is the same.
-/

namespace Watershed

/-- Which repulsive edges to keep, given one stride per axis. -/
inductive Thinning where
  /-- The edges that start from cells whose coordinates are multiples of the strides. -/
  | lattice (strides : List Nat)
  /-- A random share of the edges, equal to that of the sublattice. -/
  | random (strides : List Nat)
  deriving DecidableEq

namespace Thinning

/-- The strides, whichever way they are used. -/
def strides : Thinning → List Nat
  | lattice strides => strides
  | random strides => strides

/-- Whether random decisions are taken. -/
def isRandom : Thinning → Bool
  | lattice _ => false
  | random _ => true

/-- The share of edges that are kept at random: one over the product of the strides. -/
def keepProbability (strides : List Nat) : Binary64 :=
  .one / strides.foldl (fun product stride => product * .ofNat stride) .one

/-- A probability lies between zero and one; anything else is moved to the nearer end. -/
def clampUnit (x : Float) : Float :=
  let raised := if x < 0.0 then 0.0 else x
  if raised > 1.0 then 1.0 else raised

/-- The strides have to be positive, and there has to be one per axis. -/
def check (thinning : Thinning) (rank : Nat) : Except Error Unit :=
  if thinning.strides.length ≠ rank then .error (.rankMismatch rank thinning.strides.length)
  else if thinning.strides.contains 0 then .error .zeroStride
  else .ok ()

end Thinning

end Watershed
