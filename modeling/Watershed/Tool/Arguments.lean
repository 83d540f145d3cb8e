import Watershed.Text.Numeral
import Watershed.Tool.Report

/-!
# Command lines

A command line names one of three commands and gives options to it. An option is written `--name`,
and its value follows as the next word or behind an equals sign. A value that is a word of its own
may not start with a dash, unless it is a single dash. Options may be given once; only strides may
be repeated, and then they add up. Everything else is refused without further distinction.
-/

namespace Watershed.Tool

/-- Choices on the command line that take precedence over a file with settings. -/
structure Overrides where
  settingsPath : Option String
  algorithm : Option Algorithm
  bias : Option Binary32
  strides : Option (List Nat)
  randomizeStrides : Bool
  keepRepulsive : Bool
  seed : Option Nat
  deriving DecidableEq

namespace Overrides

/-- Settings with the choices on the command line applied. -/
def apply (overrides : Overrides) (settings : Settings) : Settings where
  strides := match overrides.strides with
    | some strides => some strides
    | none => settings.strides
  randomizeStrides := overrides.randomizeStrides || settings.randomizeStrides
  invertRepulsive := !overrides.keepRepulsive && settings.invertRepulsive
  bias := overrides.bias.getD settings.bias
  algorithm := overrides.algorithm.getD settings.algorithm
  seed := overrides.seed.getD settings.seed

end Overrides

/-- What the tool is asked to do. -/
inductive Task where
  /-- Make a synthetic scene and segment it. -/
  | synthetic (scene : SceneOptions)
  /-- Segment the problem in a file. -/
  | segment (path : String)
  /-- Report the valid edges of the problem in a file. -/
  | validEdges (path : String)
  deriving DecidableEq

/-- A command line that has been understood. -/
structure Command where
  task : Task
  overrides : Overrides
  directory : String
  deriving DecidableEq

namespace Command

/-- Whether an option is a mere switch or has a value. -/
inductive OptionKind where
  | switch
  | value
  deriving DecidableEq

/-- The options of every command. -/
def sharedOptions : List (String × OptionKind) := [
  ("config", .value), ("algorithm", .value), ("bias-cut", .value), ("strides", .value),
  ("randomize-strides", .switch), ("no-invert", .switch), ("seed", .value), ("out", .value)]

/-- The options of a synthetic scene. -/
def sceneOptions : List (String × OptionKind) := [
  ("width", .value), ("height", .value), ("blobs", .value), ("noise", .value),
  ("scene-seed", .value)]

/-- The options of a problem in a file. -/
def problemOptions : List (String × OptionKind) :=
  [("input", .value)]

/-- An option that was given: its name, and its value unless it is a switch. -/
abbrev Given := String × List Char

/-- The name of an option, and the value behind an equals sign. -/
def splitWord (word : List Char) : String × Option (List Char) :=
  match word.span (· != '=') with
  | (name, _ :: value) => (String.ofList name, some value)
  | (name, []) => (String.ofList name, none)

/-- The options that a list of words gives. -/
def given? (options : List (String × OptionKind)) : List (List Char) → Option (List Given)
  | [] => some []
  | ['-', '-'] :: rest => if rest.isEmpty then some [] else none
  | ('-' :: '-' :: word) :: rest =>
      let (name, attached) := splitWord word
      match options.lookup name, attached with
      | some .switch, none => (given? options rest).map ((name, []) :: ·)
      | some .value, some value => (given? options rest).map ((name, value) :: ·)
      | some .value, none =>
          match rest with
          | value :: rest =>
              if value.head? = some '-' ∧ value ≠ ['-'] then none
              else (given? options rest).map ((name, value) :: ·)
          | [] => none
      | _, _ => none
  | _ => none

/-- The values of an option, in the order in which they were given. -/
def valuesOf (name : String) (given : List Given) : List (List Char) :=
  (given.filter (·.1 == name)).map (·.2)

/-- Whether a switch was given; it may not be repeated. -/
def switch? (name : String) (given : List Given) : Option Bool :=
  match valuesOf name given with
  | [] => some false
  | [_] => some true
  | _ => none

/-- The value of an option that may be missing but not be repeated. -/
def optional? {α : Type} (read : List Char → Option α) (name : String) (given : List Given) :
    Option (Option α) :=
  match valuesOf name given with
  | [] => some none
  | [value] => (read value).map some
  | _ => none

/-- The value of an option with a standard value. -/
def withDefault? {α : Type} (read : List Char → Option α) (name : String) (standard : α)
    (given : List Given) : Option α :=
  (optional? read name given).map (·.getD standard)

/-- A path is any text but the empty one. -/
def path? (value : List Char) : Option String :=
  if value.isEmpty then none else some (String.ofList value)

/-- The algorithm of a name, written as in settings. -/
def algorithm? (value : List Char) : Option Algorithm :=
  (Algorithm.ofName (String.ofList value)).toOption

/-- Strides separated by commas. -/
def strideList? (value : List Char) : Option (List Nat) :=
  (value.splitOn ',').mapM Text.natural?

/-- All strides that were given, or nothing if there are none. -/
def strides? (given : List Given) : Option (Option (List Nat)) :=
  match valuesOf "strides" given with
  | [] => some none
  | values => (values.mapM strideList?).map fun lists => some lists.flatten

/-- The directory for results, unless another one is chosen. -/
def standardDirectory : String := "docs/fig/raw"

/-- The noise of a scene, unless chosen otherwise: the number nearest to three tenths. -/
def standardNoise : Binary32 := .nearest 3 10

/-- The choices that every command has. -/
def overrides? (given : List Given) : Option Overrides := do
  return {
    settingsPath := ← optional? path? "config" given
    algorithm := ← optional? algorithm? "algorithm" given
    bias := ← optional? Text.single? "bias-cut" given
    strides := ← strides? given
    randomizeStrides := ← switch? "randomize-strides" given
    keepRepulsive := ← switch? "no-invert" given
    seed := ← optional? Text.natural? "seed" given }

/-- The scene that options describe. -/
def scene? (given : List Given) : Option SceneOptions := do
  return {
    width := ← withDefault? Text.natural? "width" 128 given
    height := ← withDefault? Text.natural? "height" 128 given
    blobs := ← withDefault? Text.natural? "blobs" 12 given
    noise := ← withDefault? Text.single? "noise" standardNoise given
    seed := ← withDefault? Text.natural? "scene-seed" 7 given }

/-- The file with a problem, which has to be named. -/
def input? (given : List Given) : Option String := do
  (← optional? path? "input" given)

/-- The task of a command of the given name, and the options that it has beyond the shared ones. -/
def task? (name : String) : Option (List (String × OptionKind) × (List Given → Option Task)) :=
  match name with
  | "synthetic" => some (sceneOptions, fun given => Task.synthetic <$> scene? given)
  | "segment" => some (problemOptions, fun given => Task.segment <$> input? given)
  | "valid_edges" => some (problemOptions, fun given => Task.validEdges <$> input? given)
  | _ => none

/-- The command that a list of words denotes. -/
def ofWords? : List String → Option Command
  | [] => none
  | name :: words => do
      let (options, task) ← task? name
      let given ← given? (sharedOptions ++ options) (words.map (·.toList))
      return {
        task := ← task given
        overrides := ← overrides? given
        directory := ← withDefault? path? "out" standardDirectory given }

end Command

end Watershed.Tool
