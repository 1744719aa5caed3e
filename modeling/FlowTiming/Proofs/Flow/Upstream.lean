import FlowTiming.Network.Building
import FlowTiming.Proofs.Flow.Mirroring

/-!
Tasks downstream have no influence: whatever further tasks and links a network has, propagation comes
to the same about the tasks above them (`propagate_extends`).
-/

namespace FlowTiming

open Board

namespace Network

variable {n n' : Network} {run run' : FlowRun} {x : FlowNode}

theorem Underway.needs_mem (hn : n.WellFormed) (h : n.Underway n.taskNames ∅ run) (hx : n.IsRequired x)
    (hopen : run.board.isFinal x = false) : ∀ y ∈ run.memory.getD x ∅, y.task ∈ n.tasks := by
  intro y hy
  rw [h.getD hn (.refl _) hx hopen, mem_setOf, mem_needsOf hn (.refl _)] at hy
  rcases hy.target hn with ⟨t, ht, -⟩ | ⟨e, he⟩
  · exact mem_tasks.mpr ⟨t, ht⟩
  · obtain ⟨rfl, hin⟩ := inputOf_eq_some.mp he
    obtain ⟨t, ht, -⟩ := hasInput_iff.mp hin
    exact mem_tasks.mpr ⟨t, ht⟩

/-- Whether a run of a larger network has about the tasks of a network what a run of that network alone
can have. -/
def Traces (n : Network) (run' : FlowRun) : Prop :=
  ∃ run, n.Underway n.taskNames ∅ run ∧ n.Mirrors run run'

namespace Extends

variable (h : n'.Extends n) (hn : n.WellFormed)
include h

theorem mem_requiredNodes_iff (hx : x.task ∈ n.tasks) :
    x ∈ n'.rules.requiredNodes n'.taskNames ↔ n.IsRequired x := by
  rw [mem_requiredNodes (.refl _), IsRequired, IsRequired, h.task? hx]

include hn

theorem keeps_traces : n'.rules.Keeps n'.taskNames n.Traces where
  success run' r' x := by
    rintro ⟨run, hrun, hm⟩ hx hopen (hr : n'.attempt x run' = (true, r'))
    have hlater : run'.board.Later (n'.attempt x run').2.board := ((rules_updates n').attempt x run').later
    rw [hr] at hlater
    refine ⟨?_, hlater⟩
    by_cases hown : x.task ∈ n.tasks
    · have hreq := (h.mem_requiredNodes_iff hown).mp hx
      have hopen : run.board.isFinal x = false := (hm.board x hown).final.symm.trans hopen
      obtain ⟨hanswer, hend⟩ := h.attempt hn hown hm (hrun.needs_mem hn hreq hopen)
      rw [hr] at hanswer hend
      obtain ⟨hunder, -⟩ := (keeps_underway hn (.refl _)).success run (n.attempt x run).2 x hrun
        ((mem_requiredNodes (.refl _)).mpr hreq) hopen (Prod.ext hanswer.symm rfl)
      exact ⟨_, hunder, hend.finalize x⟩
    · have hend := h.attempt_past hn hown hm
      rw [hr] at hend
      exact ⟨run, hrun, hend.finalize_past hown⟩
  failure run' r' x := by
    rintro ⟨run, hrun, hm⟩ hr
    obtain ⟨hmemory, hfacts, -⟩ := attempt_failed hr
    exact ⟨⟨run, hrun, hm.congr hmemory hfacts⟩, hfacts.later⟩
  notes run' e _ := by
    rintro ⟨run, hrun, hm⟩
    exact ⟨run, hrun, hm.congr rfl (sameFacts_note _ e)⟩

/-- Where the larger network comes to an end, the run of the network alone can not go on either. -/
theorem final_of_traced (hrun : n.Underway n.taskNames ∅ run)
    (hm : n.Mirrors run (n'.rules.settled n'.taskNames ∅).run)
    (hready : (n.scheme (n.seeded n.taskNames)).ready run.board x) : run.board.isFinal x = true := by
  obtain ⟨-, -, hdone⟩ := (h.keeps_traces hn).settled ⟨_, prepared_underway hn _ _, h.prepared hn⟩
  obtain ⟨t, ht, -⟩ := id hready.1
  have hown : x.task ∈ n.tasks := mem_tasks.mpr ⟨t, ht⟩
  have hx := (h.mem_requiredNodes_iff hown).mpr hready.1
  by_contra hopen
  rw [Bool.not_eq_true] at hopen
  have hopen' := (hm.board x hown).final.trans hopen
  have hmissing : x ∈ (n'.rules.settled n'.taskNames ∅).missing := by
    by_contra hmissing
    simp [hdone x hx hmissing] at hopen'
  refine Rules.not_ready_of_settle (tells_attempt n') n'.taskNames 0 _ hmissing
    ((Rules.mem_requiredNodes _ _ _).mp hx).1 (.inr ?_)
  change (n'.attempt x (n'.rules.settled n'.taskNames ∅).run).1 = true
  rw [(h.attempt hn hown hm (hrun.needs_mem hn hready.1 hopen)).1, attempt_iff]
  refine ⟨⟨t, ht⟩, fun y hy => ?_⟩
  rw [hrun.getD hn (.refl _) hready.1 hopen, mem_setOf] at hy
  exact (isSettled_iff hn hrun.unfolds y).mpr (hready.2 y hy)

theorem settled : n.Agrees (n.rules.settled n.taskNames ∅).run.board
    (n'.rules.settled n'.taskNames ∅).run.board := by
  obtain ⟨⟨run, hrun, hm⟩, -⟩ :=
    (h.keeps_traces hn).settled ⟨_, prepared_underway hn _ _, h.prepared hn⟩
  -- both runs of the network alone are at an end, so it does not matter in which order they went
  have hsame := hrun.unfolds.sameFacts (settled_underway hn (.refl _) ∅).unfolds (.refl _)
    (fun _ => h.final_of_traced hn hrun hm) fun _ => final_of_ready hn (.refl _)
  exact hm.board.congr hsame (.refl _)

end Extends

/-- Further tasks and links that lead to them change nothing about the tasks that were there. The same
of their nodes are final after a propagation, with the same dynamics, also where a node is an input and
has those of the outputs linked to it. -/
theorem propagate_extends (f : ValidFile) {n n' : Network} (h : f.file.build = .ok n) (he : n'.Extends n)
    (engine engine' : FlowEngine) :
    let alone := (n.propagate engine).2.2.board
    let within := (n'.propagate engine').2.2.board
    ∀ x : FlowNode, x.task ∈ n.tasks →
      (within.isFinal x = alone.isFinal x ∧ within.info? x = alone.info? x) ∧
        n'.isSettled within x = n.isSettled alone x ∧ n'.dynamicsOf within x = n.dynamicsOf alone x := by
  intro alone within x hx
  have hn := NetworkFile.build_wellFormed f.checked h
  have hagree : n.Agrees alone within := (he.settled hn).congr
    (Rules.propagate_board n.rules n.taskNames ∅ engine)
    (Rules.propagate_board n'.rules n'.taskNames ∅ engine')
  exact ⟨⟨(hagree x hx).final, (hagree x hx).info⟩, he.isSettled hn hx hagree, he.dynamicsOf hn hx hagree⟩

/-- A network with further tasks: a slave that reads what its master writes, two tasks that are masters
of each other, and one whose master is not deployed. -/
def crowded (n : Network) : Network :=
  let n := n.addTask "logger" ((Task.ofActivity (.slave "sensor")).withInput "in" {})
  let n := n.addTask "ping" (.ofActivity (.slave "pong"))
  let n := n.addTask "pong" (.ofActivity (.slave "ping"))
  let n := n.addTask "orphan" (.ofActivity (.slave "nobody"))
  n.connect ⟨⟨"sensor", "out"⟩, ⟨"logger", "in"⟩⟩ {}

theorem relay_crowded : ∃ n, relay.file.build = .ok n ∧ n.crowded.Extends n ∧ "reader" ∈ n.tasks ∧
    let alone := (n.propagate .fresh).2.2.board
    let within := (n.crowded.propagate .fresh).2.2.board
    ((within.isFinal (taskNode "reader") = alone.isFinal (taskNode "reader") ∧
        within.info? (taskNode "reader") = alone.info? (taskNode "reader")) ∧
      n.crowded.isSettled within (taskNode "reader") = n.isSettled alone (taskNode "reader") ∧
        n.crowded.dynamicsOf within (taskNode "reader") = n.dynamicsOf alone (taskNode "reader")) ∧
    (alone.isFinal (taskNode "reader"), (n.crowded.propagate .fresh).1.unresolved.toList) =
      (true, [taskNode "orphan", taskNode "ping", taskNode "pong"]) := by
  have hend : (relay.file.build.map fun n => (n.taskNames, (n.propagate .fresh).2.2.board.isFinal
      (taskNode "reader"), (n.crowded.propagate .fresh).1.unresolved.toList)) =
      .ok (["reader", "sensor"], true, [taskNode "orphan", taskNode "ping", taskNode "pong"]) := by
    decide +kernel
  obtain ⟨n, h, hend⟩ := map_eq_ok.mp hend
  obtain ⟨hnames, hend⟩ := Prod.mk.inj hend
  have hmem (x : String) : x ∈ n.tasks ↔ x = "reader" ∨ x = "sensor" := by
    rw [mem_tasks, ← mem_taskNames, hnames]
    simp
  have he : n.crowded.Extends n := by
    refine .connect (.addTask (.addTask (.addTask (.addTask (.refl n) ?_ _) ?_ _) ?_ _) ?_ _) ?_ _ <;>
      simp [hmem]
  have hreader : "reader" ∈ n.tasks := (hmem _).mpr (.inl rfl)
  exact ⟨n, h, he, hreader, propagate_extends relay h he .fresh .fresh (taskNode "reader") hreader, hend⟩

end Network

end FlowTiming
