import Std.Data.ExtTreeMap
import Std.Data.ExtTreeSet

/-!
Cycles of a finite dependency relation: the greatest sets of nodes that all reach each other
in at least one step. The relation is a list of pairs of a node and something it depends on.
-/

namespace FlowTiming

namespace Dependency

variable {ν : Type} [Ord ν] [Std.TransOrd ν]

def nodes (edges : List (ν × ν)) : Std.ExtTreeSet ν :=
  edges.foldl (fun s e => (s.insert e.1).insert e.2) ∅

def successors (edges : List (ν × ν)) : Std.ExtTreeMap ν (List ν) :=
  edges.foldl (fun m e => m.insert e.1 (e.2 :: m.getD e.1 [])) ∅

/-- The nodes that remain when everything reachable from the pending nodes through remaining
ones is taken out. -/
def unreached (next : ν → List ν) (remaining : Std.ExtTreeSet ν) (pending : List ν) :
    Std.ExtTreeSet ν :=
  match _found : pending.dropWhile fun n => !remaining.contains n with
  | [] => remaining
  | n :: rest => unreached next (remaining.erase n) (next n ++ rest)
termination_by remaining.size
decreasing_by
  have found : remaining.contains n = true := by
    have := List.head_dropWhile_not (fun n => !remaining.contains n) (l := pending) (by simp [_found])
    simpa [_found] using this
  have occupied : remaining.size ≠ 0 := fun empty => by
    rw [← Std.ExtTreeSet.eq_empty_iff_size_eq_zero] at empty
    simp [empty] at found
  rw [Std.ExtTreeSet.size_erase, if_pos found]
  omega

def reached (edges : List (ν × ν)) (next : Std.ExtTreeMap ν (List ν)) (n : ν) :
    Std.ExtTreeSet ν :=
  nodes edges \ unreached (next.getD · []) (nodes edges) (next.getD n [])

def reach (edges : List (ν × ν)) : List (ν × Std.ExtTreeSet ν) :=
  (nodes edges).toList.map fun n => (n, reached edges (successors edges) n)

/-- The nodes, in order, that reach a node and are reached from it. -/
def component (reach : List (ν × Std.ExtTreeSet ν)) (n : ν) (fromNode : Std.ExtTreeSet ν) : List ν :=
  (reach.filter fun r => r.2.contains n && fromNode.contains r.1).map Prod.fst

def cycles (edges : List (ν × ν)) : List (List ν) :=
  let table := reach edges
  table.filterMap fun r =>
    let nodes := component table r.1 r.2
    match nodes with
    | [] => none
    | first :: _ => if compare first r.1 = .eq then some nodes else none

end Dependency

end FlowTiming
