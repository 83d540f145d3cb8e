import Mathlib.Data.Finset.Lattice.Fold
import Mathlib.Data.Fintype.Basic
import Mathlib.Order.Lattice.Nat
import Watershed.Proofs.Closure

/-!
# Shortened links cannot be observed

A search for a root re-points links on its way, so two forests that have seen the same unions can
differ in almost every link when one of them was searched more often. The answers do not show it. A
plain forest is the same idea without any shortening: it is changed by unions only, and searches
follow its links as they are. All answers of a forest with shortened links are those of the plain
forest of the same unions, so they are the same for any two sequences of calls that agree in these.

Only roots and ranks matter to an answer. The two kinds of forest have the same roots and the same
ranks after the same unions, while their links have nothing in common but the way up.
-/

namespace Watershed

/-- A forest with union by rank, whose links stay as the unions have made them. -/
structure PlainForest (n : Nat) where
  parent : Fin n → Fin n
  rank : Fin n → Nat
  rank_lt : ∀ x, parent x ≠ x → rank x < rank (parent x)

namespace PlainForest

variable {n : Nat}

/-- Every node is its own root, of rank zero. -/
def discrete (n : Nat) : PlainForest n where
  parent := id
  rank _ := 0
  rank_lt _ different := absurd rfl different

/-- The end of the links that start from a node. -/
def root (forest : PlainForest n) (x : Fin n) : Fin n :=
  if forest.parent x = x then x else forest.root (forest.parent x)
termination_by Finset.univ.sup forest.rank - forest.rank x
decreasing_by
  have rises := forest.rank_lt x ‹_›
  have bounded : forest.rank (forest.parent x) ≤ Finset.univ.sup forest.rank :=
    Finset.le_sup (Finset.mem_univ _)
  omega

theorem root_of_parent_eq {forest : PlainForest n} {x : Fin n} (top : forest.parent x = x) :
    forest.root x = x := by
  rw [root, if_pos top]

theorem root_parent (forest : PlainForest n) (x : Fin n) :
    forest.root (forest.parent x) = forest.root x := by
  by_cases top : forest.parent x = x
  · rw [top]
  · have unfolded := root.eq_1 forest x
    rw [if_neg top] at unfolded
    exact unfolded.symm

theorem parent_root (forest : PlainForest n) (x : Fin n) :
    forest.parent (forest.root x) = forest.root x := by
  fun_induction root forest x with
  | case1 x top => exact top
  | case2 x inner ih => exact ih

theorem root_eq_of_step {forest : PlainForest n} (top : Fin n → Fin n)
    (step : ∀ x, top (forest.parent x) = top x) (fixed : ∀ x, forest.parent x = x → top x = x)
    (x : Fin n) : forest.root x = top x := by
  fun_induction root forest x with
  | case1 x isTop => exact (fixed x isTop).symm
  | case2 x inner ih => rw [ih, step]

/-- One root is linked below another one, whose rank rises as far as it must to stay above. -/
def link (forest : PlainForest n) (lower upper : Fin n) (top : forest.parent upper = upper)
    (different : lower ≠ upper) : PlainForest n where
  parent := Function.update forest.parent lower upper
  rank := Function.update forest.rank upper (max (forest.rank upper) (forest.rank lower + 1))
  rank_lt x inner := by
    by_cases atLower : x = lower
    · subst atLower
      rw [Function.update_self, Function.update_of_ne different, Function.update_self]
      exact lt_max_of_lt_right (Nat.lt_succ_self _)
    · rw [Function.update_of_ne atLower] at inner ⊢
      have other : x ≠ upper := fun same => inner (same ▸ top)
      have step := forest.rank_lt x inner
      rw [Function.update_of_ne other]
      by_cases target : forest.parent x = upper
      · rw [target] at step
        rw [target, Function.update_self]
        exact lt_max_of_lt_left step
      · rw [Function.update_of_ne target]
        exact step

/--
Joins the trees of two nodes and gives the root that stays: the one of higher rank, or that of the
first node if both ranks are equal.
-/
def union (forest : PlainForest n) (a b : Fin n) : Fin n × PlainForest n :=
  if same : forest.root a = forest.root b then
    (forest.root a, forest)
  else if forest.rank (forest.root a) < forest.rank (forest.root b) then
    (forest.root b, forest.link (forest.root a) (forest.root b) (forest.parent_root b) same)
  else
    (forest.root a,
      forest.link (forest.root b) (forest.root a) (forest.parent_root a) (Ne.symm same))

theorem parent_link (forest : PlainForest n) {lower upper : Fin n}
    (top : forest.parent upper = upper) (different : lower ≠ upper) (x : Fin n) :
    (forest.link lower upper top different).parent x =
      if x = lower then upper else forest.parent x :=
  Function.update_apply forest.parent lower upper x

theorem rank_link (forest : PlainForest n) {lower upper : Fin n}
    (top : forest.parent upper = upper) (different : lower ≠ upper) (x : Fin n) :
    (forest.link lower upper top different).rank x =
      if x = upper then max (forest.rank upper) (forest.rank lower + 1) else forest.rank x :=
  Function.update_apply forest.rank upper _ x

/-- A link moves the nodes of the lower tree to the upper root. -/
theorem root_link (forest : PlainForest n) {lower upper : Fin n}
    (lowerTop : forest.parent lower = lower) (top : forest.parent upper = upper)
    (different : lower ≠ upper) (x : Fin n) :
    (forest.link lower upper top different).root x =
      if forest.root x = lower then upper else forest.root x := by
  apply root_eq_of_step fun y => if forest.root y = lower then upper else forest.root y
  · intro y
    rw [parent_link]
    by_cases atLower : y = lower
    · subst atLower
      simp [root_of_parent_eq lowerTop, root_of_parent_eq top]
    · simp only [if_neg atLower, root_parent]
  · intro y isTop
    have kept : y ≠ lower := by
      rintro rfl
      rw [parent_link, if_pos rfl] at isTop
      exact different isTop.symm
    rw [parent_link, if_neg kept] at isTop
    simp only [root_of_parent_eq isTop, if_neg kept]

theorem union_fst (forest : PlainForest n) (a b : Fin n) : (forest.union a b).1 =
    if forest.rank (forest.root a) < forest.rank (forest.root b) then forest.root b
    else forest.root a := by
  unfold union
  split
  · next same => simp [same]
  · split <;> rfl

theorem root_union (forest : PlainForest n) (a b x : Fin n) : (forest.union a b).2.root x =
    if forest.root x = forest.root a ∨ forest.root x = forest.root b then (forest.union a b).1
    else forest.root x := by
  unfold union
  split
  · next same => grind
  · next different =>
    split
    · rw [root_link forest (forest.parent_root a)]
      grind
    · rw [root_link forest (forest.parent_root b)]
      grind

/-- A union raises the rank of the first root only, and only if the second one was its equal. -/
theorem rank_union (forest : PlainForest n) (a b x : Fin n) : (forest.union a b).2.rank x =
    if forest.root a ≠ forest.root b ∧
        forest.rank (forest.root a) = forest.rank (forest.root b) ∧ x = forest.root a then
      forest.rank x + 1
    else forest.rank x := by
  unfold union
  split
  · next same => rw [if_neg fun raised => raised.1 same]
  · split <;>
    · rw [rank_link]
      grind

end PlainForest

namespace DisjointSets

variable {n : Nat}

/-- What a call gives back. -/
inductive Answer (n : Nat) where
  | node (x : Fin n)
  | labels (roots : Array (Fin n))

/-- What a call on the forest gives back. -/
def Call.answer (sets : DisjointSets n) : Call n → Answer n
  | find x => .node (sets.find x).1
  | union a b => .node (sets.union a b).1
  | labels => .labels sets.labels.1

/-- The answers to a sequence of calls, each of which meets the forest that the others have left. -/
def answers : DisjointSets n → List (Call n) → List (Answer n)
  | _, [] => []
  | sets, call :: calls => call.answer sets :: answers (call.perform sets) calls

/-- The call is a union, the only kind that later answers can show. -/
def Call.isUnion : Call n → Bool
  | union _ _ => true
  | find _ => false
  | labels => false

/-- Of the answers to a sequence of calls, those to the unions. -/
def toUnions (calls : List (Call n)) (given : List (Answer n)) : List (Answer n) :=
  ((calls.zip given).filter (·.1.isUnion)).map (·.2)

end DisjointSets

namespace PlainForest

open DisjointSets (Call Answer toUnions)

variable {n : Nat}

/-- What a call on the plain forest gives back. -/
def answer (forest : PlainForest n) : Call n → Answer n
  | .find x => .node (forest.root x)
  | .union a b => .node (forest.union a b).1
  | .labels => .labels (Array.ofFn forest.root)

/-- The plain forest that a call leaves behind. Only unions change it. -/
def perform (forest : PlainForest n) : Call n → PlainForest n
  | .find _ => forest
  | .union a b => (forest.union a b).2
  | .labels => forest

/-- The answers to a sequence of calls, each of which meets the forest that the others have left. -/
def answers : PlainForest n → List (Call n) → List (Answer n)
  | _, [] => []
  | forest, call :: calls => forest.answer call :: answers (forest.perform call) calls

/-- The plain forest of a sequence of calls, with every node alone at the start. -/
def afterCalls (calls : List (Call n)) : PlainForest n :=
  calls.foldl perform (discrete n)

theorem perform_of_not_union (forest : PlainForest n) {call : Call n}
    (other : call.isUnion = false) : forest.perform call = forest := by
  cases call with
  | find x => rfl
  | union a b => exact absurd other (by simp [Call.isUnion])
  | labels => rfl

theorem foldl_perform_filter (forest : PlainForest n) (calls : List (Call n)) :
    (calls.filter Call.isUnion).foldl perform forest = calls.foldl perform forest := by
  induction calls generalizing forest with
  | nil => rfl
  | cons call calls ih =>
      cases kind : call.isUnion with
      | true => rw [List.filter_cons_of_pos kind, List.foldl_cons, List.foldl_cons, ih]
      | false =>
          rw [List.filter_cons_of_neg (by simp [kind]), List.foldl_cons, ih,
            forest.perform_of_not_union kind]

theorem afterCalls_filter (calls : List (Call n)) :
    afterCalls (calls.filter Call.isUnion) = afterCalls calls :=
  foldl_perform_filter (discrete n) calls

/-- The answers to the unions are those that the unions get when nothing else is asked. -/
theorem toUnions_answers (forest : PlainForest n) (calls : List (Call n)) :
    toUnions calls (forest.answers calls) = forest.answers (calls.filter Call.isUnion) := by
  induction calls generalizing forest with
  | nil => rfl
  | cons call calls ih =>
      have rest := ih (forest.perform call)
      rw [toUnions] at rest
      rw [toUnions, answers, List.zip_cons_cons, List.filter_cons, List.filter_cons]
      cases kind : call.isUnion with
      | true =>
          rw [if_pos rfl, if_pos rfl, List.map_cons, rest, answers]
      | false =>
          rw [forest.perform_of_not_union kind] at rest
          rw [if_neg Bool.false_ne_true, if_neg Bool.false_ne_true,
            forest.perform_of_not_union kind, rest]

/-- A forest has the roots and the ranks of a plain one, whatever its links are. -/
structure Matches (forest : PlainForest n) (sets : DisjointSets n) : Prop where
  roots : ∀ x, sets.root x = forest.root x
  ranks : ∀ x, sets.rank.get x = forest.rank x

namespace Matches

variable {forest : PlainForest n} {sets : DisjointSets n}

theorem discrete : (PlainForest.discrete n).Matches (DisjointSets.discrete n) where
  roots x := by rw [DisjointSets.root_discrete, root_of_parent_eq rfl]
  ranks x := Entries.get_replicate 0 x

theorem union_fst (same : forest.Matches sets) (a b : Fin n) :
    (sets.union a b).1 = (forest.union a b).1 := by
  rw [sets.union_fst, forest.union_fst]
  simp only [same.roots, same.ranks]

theorem union (same : forest.Matches sets) (a b : Fin n) :
    (forest.union a b).2.Matches (sets.union a b).2 where
  roots x := by
    rw [(sets.root_union a b).2, forest.root_union, same.union_fst]
    simp only [same.roots]
  ranks x := by
    rw [sets.rank_union, forest.rank_union]
    simp only [same.roots, same.ranks]

theorem congr {after : DisjointSets n} (same : forest.Matches sets)
    (roots : ∀ x, after.root x = sets.root x) (ranks : after.rank = sets.rank) :
    forest.Matches after where
  roots x := (roots x).trans (same.roots x)
  ranks x := by rw [ranks, same.ranks]

theorem answer (same : forest.Matches sets) (call : Call n) :
    call.answer sets = forest.answer call := by
  cases call with
  | find x => exact congrArg Answer.node ((sets.find_fst x).trans (same.roots x))
  | union a b => exact congrArg Answer.node (same.union_fst a b)
  | labels =>
      rw [Call.answer, DisjointSets.labels_fst, funext same.roots]
      rfl

theorem perform (same : forest.Matches sets) (call : Call n) :
    (forest.perform call).Matches (call.perform sets) := by
  cases call with
  | find x => exact same.congr (sets.root_find x) (sets.rank_find x)
  | union a b => exact same.union a b
  | labels => exact same.congr sets.root_labels sets.rank_labels

theorem answers (same : forest.Matches sets) (calls : List (Call n)) :
    DisjointSets.answers sets calls = forest.answers calls := by
  induction calls generalizing forest sets with
  | nil => rfl
  | cons call calls ih =>
      rw [DisjointSets.answers, PlainForest.answers, same.answer, ih (same.perform call)]

end Matches

theorem matches_afterCalls (calls : List (Call n)) :
    (afterCalls calls).Matches (DisjointSets.afterCalls calls) := by
  refine DisjointSets.afterCalls_induction (fun calls sets => (afterCalls calls).Matches sets)
    Matches.discrete (fun calls sets same call => ?_) calls
  rw [afterCalls, List.foldl_append]
  exact same.perform call

end PlainForest

namespace DisjointSets

/--
Shortened links cannot be observed. Let two sequences of calls contain the same unions in the same
order, and anything else in between. Then the unions give the same roots in both, and whatever is
asked afterwards, of one forest or of the other, has the same answers. They are those of a plain
forest that has seen the unions only; and the answers on the way are those of a plain forest, too.
-/
theorem answers_eq_of_unions_eq (n : Nat) (calls others later : List (Call n))
    (same : calls.filter Call.isUnion = others.filter Call.isUnion) :
    toUnions calls (answers (discrete n) calls) = toUnions others (answers (discrete n) others) ∧
    answers (afterCalls calls) later = answers (afterCalls others) later ∧
    answers (afterCalls calls) later =
      (PlainForest.afterCalls (calls.filter Call.isUnion)).answers later ∧
    answers (discrete n) calls = (PlainForest.discrete n).answers calls := by
  have plain : ∀ calls : List (Call n),
      answers (afterCalls calls) later = (PlainForest.afterCalls calls).answers later :=
    fun calls => (PlainForest.matches_afterCalls calls).answers later
  have unions : ∀ calls : List (Call n), toUnions calls (answers (discrete n) calls) =
      (PlainForest.discrete n).answers (calls.filter Call.isUnion) := by
    intro calls
    rw [PlainForest.Matches.discrete.answers, PlainForest.toUnions_answers]
  refine ⟨?_, ?_, ?_, PlainForest.Matches.discrete.answers calls⟩
  · rw [unions, unions, same]
  · rw [plain, plain, ← PlainForest.afterCalls_filter, same, PlainForest.afterCalls_filter]
  · rw [plain, PlainForest.afterCalls_filter]

/--
Four nodes in one tree of height two. One sequence searches for the lowest node, which shortens its
link, and the other one does not; the forests differ, but not the answers.
-/
theorem answers_eq_of_unions_eq_four :
    ∃ calls others : List (Call 4),
      calls.filter Call.isUnion = others.filter Call.isUnion ∧
      (afterCalls calls).parent ≠ (afterCalls others).parent ∧
      ∀ later, answers (afterCalls calls) later = answers (afterCalls others) later := by
  let calls : List (Call 4) := [.union 0 1, .union 2 3, .union 1 3, .find 3]
  let others : List (Call 4) := [.labels, .union 0 1, .find 2, .union 2 3, .union 1 3]
  have same : calls.filter Call.isUnion = others.filter Call.isUnion := rfl
  have different : (afterCalls calls).parent ≠ (afterCalls others).parent := by decide +kernel
  exact ⟨calls, others, same, different,
    fun later => (answers_eq_of_unions_eq 4 calls others later same).2.1⟩

end DisjointSets

end Watershed
