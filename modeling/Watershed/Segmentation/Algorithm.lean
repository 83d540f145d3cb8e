import Watershed.Error
import Watershed.Text.Blank

/-!
# Clustering algorithms

The clustering algorithms to choose from, and their names.
-/

namespace Watershed

/-- A way of clustering the nodes of a grid graph. -/
inductive Algorithm where
  /-- Edges in order of priority, with exclusions. -/
  | kruskal
  /-- Growth from seeds along the edges of highest priority. -/
  | prim
  /-- Edges in order of priority, with cuts in a spanning forest. -/
  | divisive
  deriving DecidableEq

namespace Algorithm

/-- The algorithms to choose from. -/
def all : List Algorithm :=
  [kruskal, prim, divisive]

/-- The name of an algorithm in settings and on the command line. -/
def name : Algorithm → String
  | kruskal => "kruskal"
  | prim => "prim"
  | divisive => "divisive"

/-- The algorithm of a name, in upper or lower case and with blank characters around it. -/
def ofName (text : String) : Except Error Algorithm :=
  let key := (Text.trimBlank text.toList).map Char.toLower
  match all.find? (fun algorithm => algorithm.name.toList == key) with
  | some algorithm => .ok algorithm
  | none => .error (.unknownAlgorithm text)

end Algorithm

end Watershed
