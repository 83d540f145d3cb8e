import Watershed.Segmentation.Settings

/-!
# Documents

The structured results that commands write: numbers, texts, lists, and records with named fields in
a fixed order.
-/

namespace Watershed.Tool

/-- A structured result. -/
inductive Document where
  | null
  | boolean (value : Bool)
  | integer (value : Int)
  | single (value : Binary32)
  | text (value : String)
  | list (items : List Document)
  | record (fields : List (String × Document))

namespace Document

/-- A natural number as a document. -/
def natural (value : Nat) : Document :=
  integer value

/-- A list of natural numbers as a document. -/
def naturals (values : List Nat) : Document :=
  list (values.map natural)

/-- A list of offsets as a document, each of them a list of its own. -/
def offsets (values : List (List Int)) : Document :=
  list (values.map fun offset => list (offset.map integer))

/-- The record of all settings, those that were not given included. -/
def settings (settings : Settings) : Document :=
  record [
    ("strides", (settings.strides.map naturals).getD null),
    ("randomize_strides", boolean settings.randomizeStrides),
    ("invert_repulsive_weights", boolean settings.invertRepulsive),
    ("bias_cut", single settings.bias),
    ("algorithm", text settings.algorithm.name),
    ("seed", natural settings.seed)]

/-- The record of a labelling: the shape of the grid and one label per cell. -/
def labels (shape : List Nat) (labels : Array Nat) : Document :=
  record [("shape", naturals shape), ("labels", naturals labels.toList)]

end Document

end Watershed.Tool
