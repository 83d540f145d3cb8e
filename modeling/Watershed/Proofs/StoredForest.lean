import Mathlib.Data.Set.Card
import Watershed.Proofs.Ranks

/-!
# Forests as they are stored

In a forest, links lead to nodes, and ranks grow along links and have no bound, so that a search
ends. A stored forest promises nothing of this: its links are numbers that can lead anywhere, a rank
is a byte that stays at its largest value when it is raised, and a search is a loop that may take
some number of turns and is given up after them.

The operations on a stored forest are those on a forest all the same, if every search may take as
many turns as the logarithm of the number of nodes. This uses both properties of ranks together.
They grow along links, so that every turn of a search uses up some of the difference between the
rank at its start and the rank of its root; and they are logarithmic, so that this difference is
small and no byte is at its largest value when it is raised.
-/

namespace Watershed

/-- A forest as it is stored: for each node the number of its parent, and its rank in a byte. -/
structure StoredForest (n : Nat) where
  parent : Vector Nat n
  rank : Vector UInt8 n

namespace StoredForest

variable {n : Nat}

/-- Every node is its own parent, with the rank zero. -/
def discrete (n : Nat) : StoredForest n where
  parent := Vector.range n
  rank := Vector.replicate n 0

/-- The next byte, or the same one if it is the largest. -/
def raise (rank : UInt8) : UInt8 :=
  if rank = 255 then rank else rank + 1

/-- The parent of a node replaced; a number that is no node changes nothing. -/
def relink (forest : StoredForest n) (x parent : Nat) : StoredForest n :=
  { forest with parent := forest.parent.setIfInBounds x parent }

/-- Where a search is after a number of turns, or after fewer of them at a root. -/
def search? : (turns : Nat) → StoredForest n → Nat → Option (Nat × StoredForest n)
  | 0, forest, x => some (x, forest)
  | turns + 1, forest, x => do
      let parent ← forest.parent[x]?
      if parent = x then
        return (x, forest)
      else do
        let grandparent ← forest.parent[parent]?
        search? turns (forest.relink x grandparent) grandparent

/-- A search that reaches a root within a number of turns. -/
def find? (turns : Nat) (forest : StoredForest n) (x : Nat) : Option (Nat × StoredForest n) := do
  let (y, forest) ← forest.search? turns x
  let parent ← forest.parent[y]?
  if parent = y then return (y, forest) else none

/-- Joins two roots: the one of lower rank, or else the second one, gets the other one as parent. -/
def link? (forest : StoredForest n) (first second : Nat) : Option (Nat × StoredForest n) := do
  let firstRank ← forest.rank[first]?
  let secondRank ← forest.rank[second]?
  if firstRank < secondRank then
    return (second, forest.relink first second)
  else if secondRank < firstRank then
    return (first, forest.relink second first)
  else
    return (first, { forest.relink second first with
      rank := forest.rank.setIfInBounds first (raise firstRank) })

/-- Joins the trees of two nodes, each of which is searched for within a number of turns. -/
def union? (turns : Nat) (forest : StoredForest n) (a b : Nat) :
    Option (Nat × StoredForest n) := do
  let (rootA, forest) ← forest.find? turns a
  let (rootB, forest) ← forest.find? turns b
  if rootA = rootB then return (rootA, forest) else forest.link? rootA rootB

/-- The roots of all nodes in ascending order of these, each found within a number of turns. -/
def labels? (turns : Nat) (forest : StoredForest n) : Option (Array Nat × StoredForest n) :=
  (List.range n).foldlM (fun (found, forest) x => do
    let (root, forest) ← forest.find? turns x
    return (found.push root, forest)) (#[], forest)

/-- The stored forest that a call leaves behind, if its searches need no more turns than these. -/
def perform? (turns : Nat) (forest : StoredForest n) :
    DisjointSets.Call n → Option (StoredForest n)
  | .find x => (forest.find? turns x).map (·.2)
  | .union a b => (forest.union? turns a b).map (·.2)
  | .labels => (forest.labels? turns).map (·.2)

/-- The stored forest after a sequence of calls, with every node alone at the start. -/
def afterCalls? (turns : Nat) (calls : List (DisjointSets.Call n)) : Option (StoredForest n) :=
  calls.foldlM (perform? turns) (discrete n)

/-- Every link leads to a node, and to one of higher rank if it does not lead back. -/
structure Ascends (forest : StoredForest n) : Prop where
  parent_lt : ∀ x, forest.parent.get x < n
  rank_lt : ∀ x y : Fin n, forest.parent.get x = y.val → y ≠ x →
    forest.rank.get x < forest.rank.get y

end StoredForest

namespace DisjointSets

variable {n : Nat} {sets : DisjointSets n}

/-- The forest with its links as numbers and its ranks as bytes. -/
def stored (sets : DisjointSets n) : StoredForest n where
  parent := sets.parent.map Fin.val
  rank := sets.rank.map UInt8.ofNat

theorem get_parent_stored (sets : DisjointSets n) (x : Fin n) :
    sets.stored.parent.get x = (sets.parent.get x).val := by
  simp [stored, Entries.get_eq_getElem]

theorem get_rank_stored (sets : DisjointSets n) (x : Fin n) :
    sets.stored.rank.get x = UInt8.ofNat (sets.rank.get x) := by
  simp [stored, Entries.get_eq_getElem]

theorem getElem?_parent_stored (sets : DisjointSets n) (x : Fin n) :
    sets.stored.parent[x.val]? = some (sets.parent.get x).val := by
  simp [stored, Entries.get_eq_getElem]

theorem getElem?_rank_stored (sets : DisjointSets n) (x : Fin n) :
    sets.stored.rank[x.val]? = some (UInt8.ofNat (sets.rank.get x)) := by
  simp [stored, Entries.get_eq_getElem]

theorem stored_discrete : (discrete n).stored = StoredForest.discrete n := by
  simp [stored, discrete, StoredForest.discrete, Vector.ext_iff]

theorem stored_attach (sets : DisjointSets n) {lower upper : Fin n}
    (below : sets.rank.get lower < sets.rank.get upper) :
    (sets.attach lower upper below).stored = sets.stored.relink lower upper := by
  simp [stored, attach, StoredForest.relink, Vector.ext_iff, Vector.getElem_set,
    Vector.getElem_setIfInBounds]

/--
Where a search is after some turns: at a root, or at a node whose rank has risen with every turn.
What is left of the search is the search from there.
-/
theorem exists_search? (turns : Nat) (sets : DisjointSets n) (x : Fin n) :
    ∃ (y : Fin n) (after : DisjointSets n),
      sets.stored.search? turns x = some (y.val, after.stored) ∧ after.find y = sets.find x ∧
        (after.IsRoot y ∨ sets.rank.get x + turns ≤ sets.rank.get y) := by
  induction turns generalizing sets x with
  | zero => exact ⟨x, sets, rfl, rfl, .inr (Nat.le_refl _)⟩
  | succ turns ih =>
      rw [StoredForest.search?, getElem?_parent_stored]
      by_cases top : sets.IsRoot x
      · refine ⟨x, sets, ?_, rfl, .inl top⟩
        rw [show sets.parent.get x = x from top, Option.bind_eq_bind, Option.bind_some, if_pos rfl]
        rfl
      · have rises := sets.rank_lt_grandparent top
        have inner : (sets.parent.get x).val ≠ x.val := fun same => top (Fin.ext same)
        rcases ih (sets.attach x _ rises) (sets.parent.get (sets.parent.get x)) with
          ⟨y, after, searched, rest, place⟩
        refine ⟨y, after, ?_, ?_, ?_⟩
        · rw [Option.bind_eq_bind, Option.bind_some, if_neg inner, getElem?_parent_stored,
            Option.bind_some, ← stored_attach sets rises]
          exact searched
        · rw [rest, find.eq_1 sets x, dif_neg top]
        · refine place.imp_right fun climbed => ?_
          change sets.rank.get _ + turns ≤ sets.rank.get y at climbed
          omega

theorem rank_eq_of_find_eq {after : DisjointSets n} {x y : Fin n}
    (rest : after.find y = sets.find x) : after.rank = sets.rank := by
  rw [← after.rank_find y, rest, sets.rank_find]

/-- A search ends within as many turns as the rank of its root exceeds that of its start. -/
theorem find?_stored {turns : Nat} {x : Fin n}
    (enough : sets.rank.get (sets.root x) - sets.rank.get x ≤ turns) :
    sets.stored.find? turns x = some ((sets.find x).1.val, (sets.find x).2.stored) := by
  rcases sets.exists_search? turns x with ⟨y, after, searched, rest, place⟩
  have sameRank := rank_eq_of_find_eq rest
  have sameRoot : after.root y = sets.root x := by
    rw [← find_fst, rest, find_fst]
  have top : after.IsRoot y := by
    refine place.elim id fun climbed => ?_
    by_contra inner
    -- above a node that is no root there is a rank left for one more turn
    have step := after.rank_lt y inner
    have above := after.rank_le_rank_root (after.parent.get y)
    rw [root_parent, sameRoot] at above
    rw [sameRank] at step above
    omega
  have ended : sets.find x = (y, after) := by
    rw [← rest, find.eq_1 after y, dif_pos top]
  rw [StoredForest.find?, searched, ended, Option.bind_eq_bind, Option.bind_some]
  dsimp only
  rw [getElem?_parent_stored, show after.parent.get y = y from top, Option.bind_eq_bind,
    Option.bind_some, if_pos rfl]
  rfl

theorem find?_stored_of_rank_le {turns : Nat} (enough : ∀ x, sets.rank.get x ≤ turns)
    (x : Fin n) :
    sets.stored.find? turns x = some ((sets.find x).1.val, (sets.find x).2.stored) :=
  find?_stored (Nat.le_trans (Nat.sub_le _ _) (enough _))

theorem raise_ofNat {rank : Nat} (below : rank < 255) :
    StoredForest.raise (UInt8.ofNat rank) = UInt8.ofNat (rank + 1) := by
  have inside : rank < UInt8.size := Nat.lt_trans below (by decide)
  have other : UInt8.ofNat rank ≠ 255 := by
    intro same
    have numbers := congrArg UInt8.toNat same
    rw [UInt8.toNat_ofNat_of_lt' inside] at numbers
    exact Nat.ne_of_lt below numbers
  rw [StoredForest.raise, if_neg other, UInt8.ofNat_add]
  rfl

theorem stored_promote (sets : DisjointSets n) {upper : Fin n} (top : sets.IsRoot upper)
    (below : sets.rank.get upper < 255) : (sets.promote upper top).stored =
      { sets.stored with
        rank := sets.stored.rank.setIfInBounds upper
          (StoredForest.raise (UInt8.ofNat (sets.rank.get upper))) } := by
  rw [raise_ofNat below]
  simp [stored, promote, Vector.ext_iff, Vector.getElem_set, Vector.getElem_setIfInBounds]

theorem link?_stored (small : ∀ x, sets.rank.get x < 255) {first second : Fin n}
    (top : sets.IsRoot first) (different : first ≠ second) :
    sets.stored.link? first second =
      some ((sets.link first second top different).1.val,
        (sets.link first second top different).2.stored) := by
  have bytes : ∀ x, sets.rank.get x < UInt8.size := fun x => Nat.lt_trans (small x) (by decide)
  rw [StoredForest.link?, getElem?_rank_stored, getElem?_rank_stored, link]
  simp only [Option.bind_eq_bind, Option.bind_some, UInt8.ofNat_lt_iff_lt (bytes _) (bytes _)]
  split
  · rw [stored_attach]
    rfl
  · split
    · rw [stored_attach]
      rfl
    · rw [stored_attach, stored_promote sets top (small first)]
      rfl

theorem union?_stored {turns : Nat} (enough : ∀ x, sets.rank.get x ≤ turns)
    (small : ∀ x, sets.rank.get x < 255) (a b : Fin n) :
    sets.stored.union? turns a b = some ((sets.union a b).1.val, (sets.union a b).2.stored) := by
  have ranks : (sets.find a).2.rank = sets.rank := sets.rank_find a
  have bothRanks : ((sets.find a).2.find b).2.rank = sets.rank := by rw [rank_find, ranks]
  have foundB := @find?_stored_of_rank_le n (sets.find a).2 turns (ranks ▸ enough) b
  rw [StoredForest.union?, find?_stored_of_rank_le enough a]
  simp only [Option.bind_eq_bind, Option.bind_some, foundB, Fin.val_inj, union]
  split
  · rfl
  · exact link?_stored (bothRanks ▸ small) _ _

theorem foldlM_find?_stored {turns : Nat} (nodes : List (Fin n)) (found : Array (Fin n))
    (sets : DisjointSets n) (enough : ∀ x, sets.rank.get x ≤ turns) :
    (nodes.map Fin.val).foldlM (fun (state : Array Nat × StoredForest n) x => do
      let (root, forest) ← state.2.find? turns x
      return (state.1.push root, forest)) (found.map Fin.val, sets.stored) =
    let read := nodes.foldl (fun (state : Array (Fin n) × DisjointSets n) x =>
      (state.1.push (state.2.find x).1, (state.2.find x).2)) (found, sets)
    some (read.1.map Fin.val, read.2.stored) := by
  induction nodes generalizing found sets with
  | nil => rfl
  | cons x nodes ih =>
      have rest := ih (found.push (sets.find x).1) (sets.find x).2 (sets.rank_find x ▸ enough)
      rw [Array.map_push] at rest
      rw [List.map_cons, List.foldlM_cons, find?_stored_of_rank_le enough]
      exact rest

theorem labels?_stored {turns : Nat} (enough : ∀ x, sets.rank.get x ≤ turns) :
    sets.stored.labels? turns = some (sets.labels.1.map Fin.val, sets.labels.2.stored) := by
  have read := foldlM_find?_stored (List.finRange n) #[] sets enough
  rw [List.map_coe_finRange_eq_range, Array.map_empty, ← Fin.foldl_eq_finRange_foldl] at read
  exact read

theorem perform?_stored {turns : Nat} (enough : ∀ x, sets.rank.get x ≤ turns)
    (small : ∀ x, sets.rank.get x < 255) (call : Call n) :
    sets.stored.perform? turns call = some (call.perform sets).stored := by
  cases call with
  | find x =>
      rw [StoredForest.perform?, find?_stored_of_rank_le enough]
      rfl
  | union a b =>
      rw [StoredForest.perform?, union?_stored enough small]
      rfl
  | labels =>
      rw [StoredForest.perform?, labels?_stored enough]
      rfl

theorem afterCalls?_eq {turns : Nat} (fits : n < UInt64.size) (enough : Nat.log 2 n ≤ turns)
    (calls : List (Call n)) :
    StoredForest.afterCalls? turns calls = some (afterCalls calls).stored := by
  -- that ranks are small is part of the invariant: it bounds the turns and excludes saturation
  refine (afterCalls_induction (fun calls sets => sets.Populous ∧
    StoredForest.afterCalls? turns calls = some sets.stored)
    ⟨Populous.discrete, congrArg some stored_discrete.symm⟩ (fun calls sets known call => ?_)
    calls).2
  rcases known with ⟨populous, ran⟩
  have ranks := populous.rank_le_log
  have small : ∀ x, sets.rank.get x < 255 := fun x =>
    Nat.lt_of_le_of_lt (Nat.le_trans (ranks x) (log_le_of_lt_size fits)) (by decide)
  have step := perform?_stored (fun x => Nat.le_trans (ranks x) enough) small call
  refine ⟨populous.perform call, ?_⟩
  rw [StoredForest.afterCalls?] at ran
  rw [StoredForest.afterCalls?, List.foldlM_append, ran, Option.bind_eq_bind, Option.bind_some,
    List.foldlM_cons, step]
  rfl

theorem toNat_get_rank_stored (small : ∀ x, sets.rank.get x < 255) (x : Fin n) :
    (sets.stored.rank.get x).toNat = sets.rank.get x := by
  rw [get_rank_stored, UInt8.toNat_ofNat_of_lt' (Nat.lt_trans (small x) (by decide))]

theorem isRoot_iff_get_stored {r : Fin n} :
    sets.stored.parent.get r = r.val ↔ sets.IsRoot r := by
  rw [get_parent_stored, Fin.val_inj, IsRoot]

theorem ascends_stored (small : ∀ x, sets.rank.get x < 255) : sets.stored.Ascends where
  parent_lt x := by
    rw [get_parent_stored]
    exact (sets.parent.get x).isLt
  rank_lt x y leads different := by
    rw [get_parent_stored, Fin.val_inj] at leads
    subst leads
    rw [UInt8.lt_iff_toNat_lt, toNat_get_rank_stored small, toNat_get_rank_stored small]
    exact sets.rank_lt x different

/-- The tree of a root is the class of the root. -/
theorem Represents.ncard_class {calls : List (Call n)} (represents : sets.Represents calls)
    {r : Fin n} (top : sets.IsRoot r) :
    {x | Relation.EqvGen (United calls) x r}.ncard = (sets.treeOf r).card := by
  rw [← Set.ncard_coe_finset]
  congr 1
  ext x
  rw [Set.mem_ofPred_eq, Finset.mem_coe, mem_treeOf, ← represents, sets.root_of_isRoot top]

/--
Ranks stay logarithmic, and therefore searches end. After any sequence of calls on fewer nodes than
there are addresses, each of whose searches may take as many turns as the logarithm of the number of
nodes, the stored forest is that of the calls without any limit. Its links lead to nodes and upwards
in rank, and so they do when a search has taken only some of its turns. The class of a root has at
least as many nodes as two to the power of the root's rank. A search ends within as many turns as
the rank of its root exceeds that of its start, with the result of the search that has no limit. No
rank exceeds the logarithm, nor 63, so that raising the byte gives the next number.
-/
theorem ranks_logarithmic (n : Nat) (fits : n < UInt64.size) (calls : List (Call n)) :
    ∃ forest : StoredForest n,
      forest = (afterCalls calls).stored ∧
      (∀ turns, Nat.log 2 n ≤ turns → StoredForest.afterCalls? turns calls = some forest) ∧
      forest.Ascends ∧
      (∀ (x : Fin n) (turns : Nat), ∃ (y : Fin n) (after : StoredForest n),
        forest.search? turns x = some (y.val, after) ∧ after.Ascends) ∧
      (∀ r : Fin n, forest.parent.get r = r.val →
        2 ^ (forest.rank.get r).toNat ≤ {x | Relation.EqvGen (United calls) x r}.ncard) ∧
      (∀ x : Fin n, ∃ (r : Fin n) (after : DisjointSets n),
        (afterCalls calls).find x = (r, after) ∧ forest.parent.get r = r.val ∧
        ∀ turns, (forest.rank.get r).toNat - (forest.rank.get x).toNat ≤ turns →
          forest.find? turns x = some (r.val, after.stored)) ∧
      ∀ x, (forest.rank.get x).toNat ≤ Nat.log 2 n ∧ (forest.rank.get x).toNat ≤ 63 ∧
        (StoredForest.raise (forest.rank.get x)).toNat = (forest.rank.get x).toNat + 1 := by
  have populous := populous_afterCalls calls
  have represents := represents_afterCalls calls
  have run := fun turns enough => @afterCalls?_eq n turns fits enough calls
  generalize afterCalls calls = sets at populous represents run
  have ranks := populous.rank_le_log
  have bound : ∀ x, sets.rank.get x ≤ 63 := fun x =>
    Nat.le_trans (ranks x) (log_le_of_lt_size fits)
  have small : ∀ x, sets.rank.get x < 255 := fun x => Nat.lt_of_le_of_lt (bound x) (by decide)
  refine ⟨sets.stored, rfl, run, ascends_stored small, fun x turns => ?_, fun r top => ?_,
    fun x => ?_, fun x => ?_⟩
  · rcases sets.exists_search? turns x with ⟨y, after, searched, rest, -⟩
    exact ⟨y, after.stored, searched, ascends_stored (rank_eq_of_find_eq rest ▸ small)⟩
  · rw [isRoot_iff_get_stored] at top
    rw [toNat_get_rank_stored small, represents.ncard_class top]
    exact populous r top
  · refine ⟨sets.root x, (sets.find x).2, Prod.ext (sets.find_fst x) rfl,
      isRoot_iff_get_stored.2 (sets.isRoot_root x), fun turns enough => ?_⟩
    rw [toNat_get_rank_stored small, toNat_get_rank_stored small] at enough
    rw [find?_stored enough, find_fst]
  · rw [toNat_get_rank_stored small, get_rank_stored, raise_ofNat (small x),
      UInt8.toNat_ofNat_of_lt' (Nat.succ_lt_succ (small x))]
    exact ⟨ranks x, bound x, rfl⟩

/--
Four nodes in one tree whose root has rank two, the logarithm of four. The search for the lowest
node takes one turn.
-/
theorem ranks_logarithmic_four :
    4 < UInt64.size ∧ ∃ (calls : List (Call 4)) (forest : StoredForest 4),
      (∀ turns, 2 ≤ turns → StoredForest.afterCalls? turns calls = some forest) ∧
      (forest.rank.get 0).toNat = 2 ∧ 4 ≤ {x | Relation.EqvGen (United calls) x 0}.ncard ∧
      forest.find? 0 3 = none ∧ (forest.find? 1 3).isSome := by
  let calls : List (Call 4) := [.union 0 1, .union 2 3, .union 1 3]
  rcases ranks_logarithmic 4 (by decide) calls with ⟨forest, same, run, -, -, classes, -, -⟩
  have top : (forest.parent.get 0) = 0 := by
    rw [same]
    decide +kernel
  have rank : (forest.rank.get 0).toNat = 2 := by
    rw [same]
    decide +kernel
  have large := classes 0 top
  rw [rank] at large
  refine ⟨by decide, calls, forest, fun turns enough => run turns ?_, rank, large, ?_, ?_⟩
  · exact enough
  · rw [same]
    decide +kernel
  · rw [same]
    decide +kernel

end DisjointSets

end Watershed
