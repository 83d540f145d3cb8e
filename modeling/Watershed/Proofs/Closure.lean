import Mathlib.Data.List.Induction
import Mathlib.Logic.Relation
import Watershed.Proofs.DisjointSets

/-!
# The classes are the closure of the unions

Searches and unions come in any order, and a search for one node or for all of them rewrites the
links that later calls follow. The classes do not depend on this: after any sequence of calls, two
nodes have the same root exactly when they are equivalent under the smallest equivalence that
relates the two nodes of every union. So a union is the only call that can be seen from outside.
-/

namespace Watershed.DisjointSets

/-- A call on disjoint sets. -/
inductive Call (n : Nat) where
  | find (x : Fin n)
  | union (a b : Fin n)
  | labels

variable {n : Nat}

/-- The forest that a call leaves behind. -/
def Call.perform (sets : DisjointSets n) : Call n → DisjointSets n
  | find x => (sets.find x).2
  | union a b => (sets.union a b).2
  | labels => sets.labels.2

/-- The forest after a sequence of calls, with every node alone at the start. -/
def afterCalls (calls : List (Call n)) : DisjointSets n :=
  calls.foldl Call.perform (discrete n)

/-- The two nodes are those of a union among the calls. -/
def United (calls : List (Call n)) (a b : Fin n) : Prop :=
  .union a b ∈ calls

/-- The roots tell nodes apart that are not equivalent under the unions of the calls. -/
def Represents (sets : DisjointSets n) (calls : List (Call n)) : Prop :=
  ∀ x y, sets.root x = sets.root y ↔ Relation.EqvGen (United calls) x y

variable {sets : DisjointSets n} {calls : List (Call n)} {call : Call n}

/-- What holds at the start, and is kept by every call, holds after any sequence of calls. -/
theorem afterCalls_induction (holds : List (Call n) → DisjointSets n → Prop)
    (start : holds [] (discrete n))
    (step : ∀ calls sets, holds calls sets → ∀ call, holds (calls ++ [call]) (call.perform sets))
    (calls : List (Call n)) : holds calls (afterCalls calls) := by
  induction calls using List.reverseRecOn with
  | nil => exact start
  | append_singleton calls call ih =>
      rw [afterCalls, List.foldl_append]
      exact step calls _ ih call

theorem united_append_of_not_union (other : ∀ a b, call ≠ .union a b) :
    United (calls ++ [call]) = United calls := by
  funext a b
  simp [United, (other a b).symm]

theorem united_append_union {a b x y : Fin n} :
    United (calls ++ [.union a b]) x y ↔ United calls x y ∨ (x = a ∧ y = b) := by
  simp [United]

/-- Nodes that unions make equivalent have one root, if the two nodes of every union have one. -/
theorem root_eq_of_related (agrees : ∀ a b, United calls a b → sets.root a = sets.root b)
    {x y : Fin n} (related : Relation.EqvGen (United calls) x y) : sets.root x = sets.root y :=
  (eq_equivalence.comap sets.root).eqvGen_iff.1 (Relation.EqvGen.mono agrees _ _ related)

theorem Represents.discrete : (discrete n).Represents [] := by
  intro x y
  constructor
  · intro same
    rw [root_discrete, root_discrete] at same
    rw [same]
    exact .refl y
  · exact root_eq_of_related fun _ _ united => absurd united List.not_mem_nil

/-- A call that moves no root, and is no union, keeps the roots representative. -/
theorem Represents.congr {after : DisjointSets n} (represents : sets.Represents calls)
    (roots : ∀ x, after.root x = sets.root x) (other : ∀ a b, call ≠ .union a b) :
    after.Represents (calls ++ [call]) := by
  intro x y
  rw [roots, roots, united_append_of_not_union other]
  exact represents x y

/-- A union joins the classes of its two nodes and no others. -/
theorem Represents.union (represents : sets.Represents calls) (a b : Fin n) :
    (sets.union a b).2.Represents (calls ++ [.union a b]) := by
  have widen : ∀ {x y}, sets.root x = sets.root y →
      Relation.EqvGen (United (calls ++ [.union a b])) x y := fun same =>
    Relation.EqvGen.mono (fun _ _ united => united_append_union.2 (.inl united)) _ _
      ((represents _ _).1 same)
  have joined : Relation.EqvGen (United (calls ++ [.union a b])) a b :=
    .rel a b (united_append_union.2 (.inr ⟨rfl, rfl⟩))
  intro x y
  constructor
  · intro same
    rcases (sets.root_union_eq_iff a b x y).1 same with old | ⟨toA, fromB⟩ | ⟨toB, fromA⟩
    · exact widen old
    · exact .trans x a y (widen toA) (.trans a b y joined (widen fromB))
    · exact .trans x b y (widen toB) (.trans b a y (.symm a b joined) (widen fromA))
  · refine root_eq_of_related fun c d united => ?_
    rw [root_union_eq_iff]
    rcases united_append_union.1 united with old | ⟨rfl, rfl⟩
    · exact .inl ((represents c d).2 (.rel c d old))
    · exact .inr (.inl ⟨rfl, rfl⟩)

theorem Represents.perform (represents : sets.Represents calls) (call : Call n) :
    (call.perform sets).Represents (calls ++ [call]) := by
  cases call with
  | find x => exact represents.congr (sets.root_find x) (by simp)
  | union a b => exact represents.union a b
  | labels => exact represents.congr sets.root_labels (by simp)

theorem represents_afterCalls (calls : List (Call n)) : (afterCalls calls).Represents calls :=
  afterCalls_induction (fun calls sets => sets.Represents calls) Represents.discrete
    (fun _ _ represents => represents.perform) calls

theorem find_union_fst (sets : DisjointSets n) (a b : Fin n) :
    ((sets.union a b).2.find a).1 = (sets.union a b).1 ∧
      ((sets.union a b).2.find b).1 = (sets.union a b).1 := by
  rcases sets.root_union a b with ⟨-, moved⟩
  rw [find_fst, find_fst, moved a, moved b]
  simp

/--
After any sequence of calls, a search finds the same node for two nodes if and only if these are
equivalent under the unions among the calls. The node found is equivalent to the one searched for,
and a search for it finds it again. A union gives the node that searches for its two nodes find
afterwards, and it is one of the two that they found before. Searches and labels change nothing that
a search finds, and the label of every node is what a search for it finds.
-/
theorem find_represents_unions (n : Nat) (calls : List (Call n)) :
    (∀ x y, ((afterCalls calls).find x).1 = ((afterCalls calls).find y).1 ↔
      Relation.EqvGen (United calls) x y) ∧
    (∀ x, Relation.EqvGen (United calls) x ((afterCalls calls).find x).1 ∧
      (((afterCalls calls).find x).2.find ((afterCalls calls).find x).1).1 =
        ((afterCalls calls).find x).1) ∧
    (∀ a b, (((afterCalls calls).union a b).2.find a).1 = ((afterCalls calls).union a b).1 ∧
      (((afterCalls calls).union a b).2.find b).1 = ((afterCalls calls).union a b).1 ∧
      (((afterCalls calls).union a b).1 = ((afterCalls calls).find a).1 ∨
        ((afterCalls calls).union a b).1 = ((afterCalls calls).find b).1)) ∧
    (∀ x y, (((afterCalls calls).find x).2.find y).1 = ((afterCalls calls).find y).1) ∧
    (∀ y, ((afterCalls calls).labels.2.find y).1 = ((afterCalls calls).find y).1) ∧
    (afterCalls calls).labels.1 = Array.ofFn fun x => ((afterCalls calls).find x).1 := by
  have represents := represents_afterCalls calls
  generalize afterCalls calls = sets at represents ⊢
  simp only [find_fst, root_find, root_labels, root_root, labels_fst, and_true, implies_true]
  refine ⟨represents, fun x => ?_, fun a b => ?_⟩
  · exact (represents x (sets.root x)).1 (sets.root_root x).symm
  · rcases sets.find_union_fst a b with ⟨ofA, ofB⟩
    rw [find_fst] at ofA ofB
    exact ⟨ofA, ofB, (sets.root_union a b).1⟩

end Watershed.DisjointSets
