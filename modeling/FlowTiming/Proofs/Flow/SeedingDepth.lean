import FlowTiming.Proofs.Flow.Seeding

/-!
Seeding ends in every network (`seededUpTo_eq`). The recursions here give nothing where they run out of
depth, and they never do with a depth of as many tasks as there are: only tasks whose masters end at one
without a master are ever reached.
-/

namespace FlowTiming

open Board

namespace Network

/-- Makes a task final and hands its dynamics down; nothing if that goes deeper than allowed. -/
def finishUpTo (n : Network) : Nat → String → FlowBoard → Option FlowBoard
  | 0, _, _ => none
  | depth + 1, task, b =>
    let b := b.finalize (taskNode task)
    match b.info? (taskNode task) with
    | none => some b
    | some d =>
      (n.slavesOf task).foldlM (fun b s =>
        if b.isFinal (taskNode s.1) then some b
        else
          let b := b.note (resolverNote "slave inherits task dynamics"
            [("master", task), ("slave", s.1)])
          n.finishUpTo depth s.1 (FlowBoard.contribute b s.2 (taskNode s.1) d)) b

def seedActivityUpTo (n : Network) (limit : Nat) (task : String) (t : Task) (b : FlowBoard) :
    Option FlowBoard :=
  match t.activity with
  | .periodic period =>
    let b := b.note (resolverNote "adding periodic trigger"
      [("task", task), ("period", period.inSeconds.markedText)])
    n.finishUpTo limit task (FlowBoard.contributeTriggers b t (taskNode task) (mainName task) 1
      [⟨mainName task ++ "-period", period, 1⟩])
  | .triggered => if t.wakingInputs.isEmpty then n.finishUpTo limit task b else some b
  | .slave _ => some b

/-- Seeds a task after the tasks below it; nothing if that goes deeper than allowed. -/
def seedTaskUpTo (n : Network) (limit : Nat) : Nat → String → Task → FlowBoard → Option FlowBoard
  | 0, _, _, _ => none
  | depth + 1, task, t, b => do
    let b ← (n.slavesOf task).foldlM (fun b s =>
      if b.isKnown (taskNode s.1) then some b else n.seedTaskUpTo limit depth s.1 s.2 b) b
    let b := b.note (resolverNote "initial port dynamics" [("task", task)])
    n.seedActivityUpTo limit task t
      (FlowBoard.seedKind task t (FlowBoard.seedHints task t (FlowBoard.seedModels task t b)))

def seedUpTo (n : Network) (limit : Nat) (task : String) (b : FlowBoard) : Option FlowBoard :=
  match n.task? task with
  | none => some b
  | some t => if t.master.isSome then some b else n.seedTaskUpTo limit limit task t b

def seededUpTo (n : Network) (limit : Nat) (tasks : List String) : Option FlowBoard :=
  tasks.foldlM (fun b x => n.seedUpTo limit x b) .empty

variable {n : Network} {x : String} {limit depth depth' k : Nat}

/-- A task with so many masters above it leaves all the depth that the tasks below it need. -/
theorem finishUpTo_eq (hr : n.Rank x k) (h : n.tasks.size ≤ depth + k)
    (h' : n.tasks.size ≤ depth' + k) (b : FlowBoard) :
    n.finishUpTo depth x b = some (n.finishWithin depth' x b) := by
  have hlt := hr.lt_size
  induction depth generalizing depth' k x b with
  | zero => omega
  | succ depth ih =>
    obtain ⟨depth', rfl⟩ := Nat.exists_eq_succ_of_ne_zero (n := depth') (by omega)
    rw [finishUpTo, finishWithin]
    simp only
    cases (b.finalize (taskNode x)).info? (taskNode x) with
    | none => rfl
    | some d =>
      refine foldlM_eq_some _ fun c s hs => ?_
      cases c.isFinal (taskNode s.1) with
      | true => rfl
      | false => exact ih (hr.ofSlave hs) (by omega) (by omega) _ (hr.ofSlave hs).lt_size

theorem seedActivityUpTo_eq (hlimit : n.tasks.size ≤ limit) (hr : n.Rank x k) (t : Task)
    (b : FlowBoard) : n.seedActivityUpTo limit x t b = some (n.seedActivity x t b) := by
  have hfinish (c : FlowBoard) : n.finishUpTo limit x c = some (n.finish x c) :=
    finishUpTo_eq hr (by omega) (Nat.le_add_right _ _) c
  unfold seedActivityUpTo seedActivity
  cases t.activity with
  | periodic period => exact hfinish _
  | triggered =>
    cases t.wakingInputs.isEmpty with
    | true => exact hfinish b
    | false => rfl
  | slave m => rfl

theorem seedTaskUpTo_eq {t : Task} (hlimit : n.tasks.size ≤ limit) (hr : n.Rank x k)
    (h : n.tasks.size ≤ depth + k) (h' : n.tasks.size ≤ depth' + k) (b : FlowBoard) :
    n.seedTaskUpTo limit depth x t b = some (n.seedWithin depth' x t b) := by
  have hlt := hr.lt_size
  induction depth generalizing depth' k x t b with
  | zero => omega
  | succ depth ih =>
    obtain ⟨depth', rfl⟩ := Nat.exists_eq_succ_of_ne_zero (n := depth') (by omega)
    have hslaves : (n.slavesOf x).foldlM (fun b s => if b.isKnown (taskNode s.1) then some b
        else n.seedTaskUpTo limit depth s.1 s.2 b) b =
          some ((n.slavesOf x).foldl (fun b s => if b.isKnown (taskNode s.1) then b
            else n.seedWithin depth' s.1 s.2 b) b) := by
      refine foldlM_eq_some b fun c s hs => ?_
      cases c.isKnown (taskNode s.1) with
      | true => rfl
      | false => exact ih (hr.ofSlave hs) (by omega) (by omega) c (hr.ofSlave hs).lt_size
    rw [seedTaskUpTo, hslaves]
    exact seedActivityUpTo_eq hlimit hr t _

theorem seedUpTo_eq (hlimit : n.tasks.size ≤ limit) (x : String) (b : FlowBoard) :
    n.seedUpTo limit x b = some (n.seed x b) := by
  unfold seedUpTo seed
  cases ht : n.task? x with
  | none => rfl
  | some t =>
    cases hm : t.master with
    | none =>
      simpa [hm] using seedTaskUpTo_eq hlimit (.root ht hm) hlimit (Nat.le_add_right _ _) b
    | some m => simp [hm]

theorem seededUpTo_eq (hlimit : n.tasks.size ≤ limit) (tasks : List String) :
    n.seededUpTo limit tasks = some (n.seeded tasks) :=
  foldlM_eq_some _ fun b x _ => seedUpTo_eq hlimit x b

end Network

end FlowTiming
