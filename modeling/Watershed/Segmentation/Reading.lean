import Watershed.Json.Reader
import Watershed.Segmentation.Settings

/-!
# Reading settings

Settings are described by a JSON record. Every field may be missing and then has its standard value.
-/

namespace Watershed.Settings

/-- The name of an algorithm. -/
def algorithmReader : Json.Reader Algorithm := do
  match Algorithm.ofName (← Json.text) with
  | .ok algorithm => return algorithm
  | .error error => Json.refuse error.message

/-- The fields of a description, in their order. -/
def fields : List (Json.Field Settings) := [
  ⟨"strides", fun settings => do
    return { settings with strides := (← Json.nullable (Json.list Json.natural)).map (·.toList) }⟩,
  ⟨"randomize_strides", fun settings => do
    return { settings with randomizeStrides := ← Json.boolean }⟩,
  ⟨"invert_repulsive_weights", fun settings => do
    return { settings with invertRepulsive := ← Json.boolean }⟩,
  ⟨"bias_cut", fun settings => do return { settings with bias := ← Json.single }⟩,
  ⟨"algorithm", fun settings => do return { settings with algorithm := ← algorithmReader }⟩,
  ⟨"seed", fun settings => do return { settings with seed := ← Json.natural }⟩]

/-- The settings that a text describes. -/
def ofText (text : String) : Except Json.Fault Settings :=
  Json.read (Json.record fields standard) text

end Watershed.Settings
