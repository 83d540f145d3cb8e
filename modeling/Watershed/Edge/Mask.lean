import Watershed.Edge.Affinity
import Watershed.Edge.Thinning
import Watershed.Grid.Stencil
import Watershed.RandomSource

/-!
# Valid edges

An edge takes part in a clustering only if it is valid. The mask of valid edges is made in three
stages, each of which takes edges away:

* edges whose end lies outside the grid;
* repulsive edges that are thinned out, by a sublattice or at random;
* edges that touch an excluded cell.

All requests that cannot be met are refused before the first random number is drawn. Random thinning
takes one decision for every repulsive edge, whether the edge is still valid or not, so the later
stages and the offsets have no influence on the decision that an edge gets.
-/

namespace Watershed

/-- A computation that draws random numbers from a source and may refuse its input. -/
abbrev Sampled (γ α : Type) := ExceptT Error (StateM γ) α

namespace EdgeMask

variable {γ : Type} [RandomSource γ]

/-- Takes away the edges whose end lies outside the grid. -/
def dropOutside (stencil : Stencil) (layout : Layout) (valid : Tensor Bool) : Tensor Bool :=
  let channels := stencil.offsets.toArray.map fun offset =>
    if offset.all (· == 0) then none else some (layout.insideMask offset)
  valid.mapIdx fun edge keep =>
    match channels[edge / layout.size]?.join with
    | none => keep
    | some inside => keep && inside[edge % layout.size]?.getD false

/-- All coordinates are multiples of the strides of their axes. -/
def onLattice (strides : List Nat) (coordinates : Coordinates) : Bool :=
  (coordinates.zip strides).all fun (coordinate, stride) => coordinate % stride == 0

/-- Takes away the repulsive edges that start outside a sublattice. -/
def thinByLattice (stencil : Stencil) (layout : Layout) (strides : List Nat)
    (valid : Tensor Bool) : Tensor Bool :=
  if strides.all (· == 1) then
    valid
  else
    let kept := layout.sweep (onLattice strides)
    valid.mapIdx fun edge keep =>
      if edge < stencil.attractive * layout.size then keep
      else keep && kept[edge % layout.size]?.getD false

/-- Takes away repulsive edges at random, with one decision for each of them. -/
def thinAtRandom (stencil : Stencil) (layout : Layout) (strides : List Nat)
    (valid : Tensor Bool) : StateM γ (Tensor Bool) := do
  let probability := Thinning.clampUnit (Thinning.keepProbability strides).toFloat
  let first := stencil.attractive * layout.size
  let decisions ← RandomSource.nextDecisions probability (stencil.repulsive * layout.size) #[]
  return valid.mapIdx fun edge keep =>
    if edge < first then keep else keep && decisions[edge - first]?.getD false

/-- Takes away the repulsive edges that are thinned out, if any are. -/
def thin (stencil : Stencil) (layout : Layout) (thinning : Option Thinning)
    (valid : Tensor Bool) : StateM γ (Tensor Bool) :=
  match thinning with
  | none => return valid
  | some (.lattice strides) => return thinByLattice stencil layout strides valid
  | some (.random strides) => thinAtRandom stencil layout strides valid

/--
Takes away the edges that touch an excluded cell: those on which the mask changes between the ends,
and those that start from an excluded cell.
-/
def dropExcluded (stencil : Stencil) (excluded : Tensor Bool) (valid : Tensor Bool) :
    Except Error (Tensor Bool) := do
  let affinities ← Affinities.ofLabels excluded stencil.offsets none
  return valid.mapIdx fun edge keep =>
    keep && !(affinities.weights.data[edge]?.getD .zero == Binary32.zero)
      && !excluded.data[edge % excluded.size]?.getD false

/-- A mask of excluded cells has to have the shape of the grid. -/
def checkExcluded (gridShape : List Nat) : Option (Tensor Bool) → Except Error Unit
  | none => .ok ()
  | some excluded =>
      if excluded.shape = gridShape then .ok ()
      else .error (.shapeMismatch gridShape excluded.shape)

/-- The layout of the grid, if the request can be met. -/
def gridLayout (edgeShape : List Nat) (stencil : Stencil) (thinning : Option Thinning)
    (excluded : Option (Tensor Bool)) : Except Error Layout := do
  let gridShape ← stencil.gridShape edgeShape
  let layout ← Layout.ofShape gridShape
  if let some thinning := thinning then
    thinning.check stencil.rank
  checkExcluded gridShape excluded
  return layout

/-- The mask of the valid edges, with the channel as the leading axis. -/
def compute (edgeShape : List Nat) (stencil : Stencil) (thinning : Option Thinning)
    (excluded : Option (Tensor Bool)) : Sampled γ (Tensor Bool) := do
  let layout ← gridLayout edgeShape stencil thinning excluded
  let all ← Tensor.replicate edgeShape true
  let inside := dropOutside stencil layout all
  let thinned ← (thin stencil layout thinning inside : StateM γ (Tensor Bool))
  match excluded with
  | none => return thinned
  | some excluded => dropExcluded stencil excluded thinned

/-- There can be that many edges; this is asked only for a request that can be met. -/
def checkStorage (edgeShape : List Nat) (stencil : Stencil) (thinning : Option Thinning)
    (excluded : Option (Tensor Bool)) : Except Error Unit := do
  let _ ← gridLayout edgeShape stencil thinning excluded
  Tensor.checkStorage edgeShape 1

end EdgeMask

end Watershed
