import FlowTiming.Proofs.Flow.Stall
import FlowTiming.Proofs.Network.Endpoint
import FlowTiming.Proofs.Policy.Provision

/-!
Which failure a link has whose source is not resolved. Cycles are told apart by the texts of their
nodes, so one is blamed if the source is on it, and also if a task with the text of the source is.
-/

namespace FlowTiming

open Relation

/-! ### Names without dots -/

namespace NetworkFile

variable {f : NetworkFile} {n : Network} {l : Link}

theorem undotted_of_build (h : f.build = .ok n) (hl : l ∈ n.links.labels) :
    '.' ∉ l.source.port.toList ∧ '.' ∉ l.sink.port.toList := by
  obtain ⟨c, -, hsource, hsink⟩ := connection_of_build h hl
  exact ⟨(endpointOf_eq_ok.mp hsource).2.1, (endpointOf_eq_ok.mp hsink).2.1⟩

end NetworkFile

namespace Network

/-- Whether no port at an end of a link has a dot in its name. -/
def Undotted (n : Network) : Prop :=
  ∀ l ∈ n.links.labels, '.' ∉ l.source.port.toList ∧ '.' ∉ l.sink.port.toList

variable {n : Network} {x y z : FlowNode}

theorem Undotted.between (hdots : n.Undotted) (hn : n.WellFormed) (hin : n.Leads z x)
    (hout : n.Leads x y) : ∀ p, x.port = some p → '.' ∉ p.toList := by
  intro p hp
  cases hout with
  | source _ hs =>
    obtain rfl := Option.some.inj hp
    exact (hdots _ (Links.mem_sourcesOf.mp hs)).2
  | need hneed =>
    cases hin with
    | source _ hs =>
      obtain rfl := Option.some.inj hp
      exact (hdots _ (Links.mem_sourcesOf.mp hs)).1
    | need hneeded =>
      -- an output is not needed by anything, and an input needs nothing
      obtain ⟨task, port⟩ := x
      subst hp
      have hinput := (hneeded.input hn (e := ⟨task, p⟩)).1
      rw [Endpoint.node, inputOf_required hn hneed.required] at hinput
      contradiction

theorem Undotted.onCycle (hdots : n.Undotted) (hn : n.WellFormed) {b : FlowBoard}
    (h : TransGen (n.Waits b) x x) : ∀ p, x.port = some p → '.' ∉ p.toList := by
  obtain ⟨y, hout, -⟩ := TransGen.head'_iff.mp h
  obtain ⟨z, -, hin⟩ := TransGen.tail'_iff.mp h
  exact hdots.between hn hin.1 hout.1

theorem waits_of_reported (hn : n.WellFormed) (engine : FlowEngine) {c : List FlowNode} :
    let ended := n.propagate engine
    c ∈ n.reportedCycles ended.1 ended.2.2.board ended.2.1 → x ∈ c →
      TransGen (n.Waits ended.2.2.board) x x := by
  intro ended hc hx
  have hneeds (x y : FlowNode) : n.Depends x y ↔ ∃ s, ended.2.1[x]? = some s ∧ y ∈ s :=
    recorded_iff hn (.refl _)
  unfold reportedCycles at hc
  split at hc
  case isTrue => simp at hc
  case isFalse => exact (transGen_edges_iff hneeds hn).mp (Dependency.mem_cycles_iff.mp ⟨c, hc, hx⟩)

end Network

/-! ### The cycle that is blamed -/

/-- Whether a port is on a cycle, or a task is that has the text of the port for its name. -/
def Endpoint.NamedOn (e : Endpoint) (cycle : List FlowNode) : Prop :=
  e.node ∈ cycle ∨ taskNode e.text ∈ cycle

namespace Synthesis

variable {s : Synthesis} {l : Link} {p : LinkPolicy} {e : Endpoint}

theorem cycleThrough_cases (hport : '.' ∉ e.port.toList)
    (hcycles : ∀ c ∈ s.cycles, ∀ x ∈ c, ∀ p, x.port = some p → '.' ∉ p.toList) :
    (∃ c ∈ s.cycles, e.NamedOn c ∧ s.cycleThrough e = some c) ∨
      (∀ c ∈ s.cycles, ¬ e.NamedOn c) ∧ s.cycleThrough e = none := by
  have named (c : List FlowNode) (hc : c ∈ s.cycles) :
      (c.any fun x => x.text == e.text) = true ↔ e.NamedOn c := by
    rw [List.any_eq_true]
    constructor
    · rintro ⟨x, hx, htext⟩
      rw [beq_iff_eq, Node.text_eq_iff hport (hcycles c hc x hx)] at htext
      rcases htext with rfl | rfl
      · exact .inl hx
      · exact .inr hx
    · rintro (hx | hx)
      · exact ⟨e.node, hx, beq_self_eq_true _⟩
      · exact ⟨taskNode e.text, hx, beq_self_eq_true _⟩
  cases hfound : s.cycleThrough e with
  | some c =>
    have hc := List.mem_of_find?_eq_some hfound
    have hany := List.find?_some hfound
    exact .inl ⟨c, hc, (named c hc).mp hany, rfl⟩
  | none =>
    refine .inr ⟨fun c hc hnamed => ?_, rfl⟩
    exact List.find?_eq_none.mp hfound c hc ((named c hc).mpr hnamed)

theorem Follows.failure_of_open {unresolved : Std.ExtTreeSet FlowNode} (h : s.Follows unresolved)
    (hl : s.network.links.get? l = some p) (hopen : s.board.isFinal l.source.node = false) {e : Failure}
    (he : s.policyFor l p = .error e) (hoverflow : e ≠ .latencyOverflow) :
    e = s.gapFailure l .sourceDynamics := by
  have hnone : s.finalDynamics l.source.node = none := by simp [finalDynamics, hopen]
  have hj := s.judged l p
  rw [he] at hj
  generalize hresult : (.error e : Except Failure Decision) = result at hj
  cases hj with
  | preset | unreliable | sized => simp at hresult
  | unmodelled _ hm =>
    obtain ⟨sink, input, hend⟩ := h.exists_end hl
    simp [(h.model_eq_ok hl).mpr hend] at hm
  | overflow => exact absurd (Except.error.inj hresult) hoverflow
  | lacking _ _ _ hgap =>
    unfold fallBack at hresult
    split at hresult
    case h_1 => simp at hresult
    case h_2 =>
      cases hgap with
      | sourceDynamics => exact Except.error.inj hresult
      | sinkPeriod hd => simp [hnone] at hd

end Synthesis

namespace Network

/-- A link with an unresolved source fails because of a cycle just if the source is named on one. So it
does just if the source is on one, unless a task on a cycle has the text of the source for its name. -/
theorem policyFor_blames (f : ValidFile) {n : Network} (h : f.file.build = .ok n) (margin : Margin)
    (engine : FlowEngine) {l : Link} {p : LinkPolicy} (hl : n.links.get? l = some p)
    (hopen : (n.propagate engine).2.2.board.isFinal l.source.node = false) {e : Failure}
    (he : (n.synthesis margin engine).policyFor l p = .error e) (hoverflow : e ≠ .latencyOverflow) :
    let ended := n.propagate engine
    let cycles := n.reportedCycles ended.1 ended.2.2.board ended.2.1
    ((∃ c ∈ cycles, l.source.NamedOn c ∧ e = .dependencyCycle l.source c) ∨
      (∀ c ∈ cycles, ¬ l.source.NamedOn c) ∧ e = .unresolved l.source l.sink) ∧
    ((∀ c ∈ cycles, taskNode l.source.text ∉ c) →
      (∃ c ∈ cycles, l.source.node ∈ c ∧ e = .dependencyCycle l.source c) ∨
        (∀ c ∈ cycles, l.source.node ∉ c) ∧ e = .unresolved l.source l.sink) := by
  intro ended cycles
  have hn := NetworkFile.build_wellFormed f.checked h
  have hdots : n.Undotted := fun l hl => NetworkFile.undotted_of_build h hl
  have hcycles : ∀ c ∈ (n.synthesis margin engine).cycles, ∀ x ∈ c, ∀ p, x.port = some p → '.' ∉ p.toList :=
    fun c hc x hx => hdots.onCycle hn (waits_of_reported hn engine hc hx)
  have hfail := (synthesis_follows hn margin engine).failure_of_open hl hopen he hoverflow
  rw [Synthesis.gapFailure_sourceDynamics] at hfail
  have hcases := Synthesis.cycleThrough_cases (hdots l (mem_of_getElem? hl)).1 hcycles
  have hblamed : (∃ c ∈ cycles, l.source.NamedOn c ∧ e = .dependencyCycle l.source c) ∨
      (∀ c ∈ cycles, ¬ l.source.NamedOn c) ∧ e = .unresolved l.source l.sink := by
    rcases hcases with ⟨c, hc, hnamed, hthrough⟩ | ⟨hnone, hthrough⟩
    · rw [hthrough] at hfail
      exact .inl ⟨c, hc, hnamed, hfail⟩
    · rw [hthrough] at hfail
      exact .inr ⟨hnone, hfail⟩
  refine ⟨hblamed, fun hnamesake => ?_⟩
  rcases hblamed with ⟨c, hc, hnamed, hfail⟩ | ⟨hnone, hfail⟩
  · exact .inl ⟨c, hc, hnamed.resolve_right (hnamesake c hc), hfail⟩
  · exact .inr ⟨fun c hc hmem => hnone c hc (.inl hmem), hfail⟩

def fedRing : ValidFile where
  file :=
    let task : TaskSection :=
      { inputs := (∅ : Std.ExtTreeMap String InputPort).insert "in" {}
        outputs := (∅ : Std.ExtTreeMap String OutputSection).insert "out" {} }
    { tasks := (((∅ : Std.ExtTreeMap String TaskSection).insert "ping" task).insert "pong" task).insert "sink"
        { inputs := (∅ : Std.ExtTreeMap String InputPort).insert "in" { reliable := true } }
      connections := [⟨"ping.out", "pong.in", {}⟩, ⟨"pong.out", "ping.in", {}⟩, ⟨"ping.out", "sink.in", {}⟩] }
  checked := by decide +kernel

theorem fedRing_blames : ∃ n e, fedRing.file.build = .ok n ∧
    let l : Link := ⟨⟨"ping", "out"⟩, ⟨"sink", "in"⟩⟩
    let ended := n.propagate .fresh
    n.links.get? l = some {} ∧ ended.2.2.board.isFinal l.source.node = false ∧
      (n.synthesis .standard .fresh).policyFor l {} = .error e ∧ e ≠ .latencyOverflow ∧
      ∃ c ∈ n.reportedCycles ended.1 ended.2.2.board ended.2.1,
        l.source.node ∈ c ∧ e = .dependencyCycle l.source c := by
  let l : Link := ⟨⟨"ping", "out"⟩, ⟨"sink", "in"⟩⟩
  let cycle : List FlowNode := [taskNode "ping", ⟨"ping", some "in"⟩, ⟨"ping", some "out"⟩,
    taskNode "pong", ⟨"pong", some "in"⟩, ⟨"pong", some "out"⟩]
  have hbuild : (fedRing.file.build.map fun n =>
      let ended := n.propagate .fresh
      decide (n.links.get? l = some {} ∧ ended.2.2.board.isFinal l.source.node = false ∧
        (n.synthesis .standard .fresh).policyFor l {} = .error (.dependencyCycle l.source cycle) ∧
        n.reportedCycles ended.1 ended.2.2.board ended.2.1 = [cycle])) = .ok true := by
    decide +kernel
  obtain ⟨n, h, hn⟩ := map_eq_ok.mp hbuild
  obtain ⟨hl, hopen, he, hcycles⟩ := of_decide_eq_true hn
  have hblames := (policyFor_blames fedRing h .standard .fresh hl hopen he (by simp)).2
  simp only [hcycles] at hblames
  refine ⟨n, _, h, hl, hopen, he, by simp, ?_⟩
  rw [hcycles]
  exact (hblames (by decide)).resolve_right fun hnone => hnone.1 cycle (by simp) (by decide)

/-- A task that wakes itself, and whose name is the text of a port that only waits for it. -/
def namesake : ValidFile where
  file :=
    { tasks := (((∅ : Std.ExtTreeMap String TaskSection).insert "a.b"
        { inputs := (∅ : Std.ExtTreeMap String InputPort).insert "in" {}
          outputs := (∅ : Std.ExtTreeMap String OutputSection).insert "out" {} }).insert "a"
        { inputs := (∅ : Std.ExtTreeMap String InputPort).insert "in" {}
          outputs := (∅ : Std.ExtTreeMap String OutputSection).insert "b" {} }).insert "sink"
        { inputs := (∅ : Std.ExtTreeMap String InputPort).insert "in" { reliable := true } }
      connections := [⟨"a.b.out", "a.b.in", {}⟩, ⟨"a.b.out", "a.in", {}⟩, ⟨"a.b", "sink.in", {}⟩] }
  checked := by decide +kernel

theorem namesake_blamed : ∃ n, namesake.file.build = .ok n ∧
    let l : Link := ⟨⟨"a", "b"⟩, ⟨"sink", "in"⟩⟩
    let ended := n.propagate .fresh
    let cycle : List FlowNode := [taskNode "a.b", ⟨"a.b", some "in"⟩, ⟨"a.b", some "out"⟩]
    n.links.get? l = some {} ∧
      ((n.task? l.sink.task).bind (·.inputs[l.sink.port]?)).map InputPort.reliable = some true ∧
      ended.2.2.board.isFinal l.source.node = false ∧
      n.reportedCycles ended.1 ended.2.2.board ended.2.1 = [cycle] ∧ l.source.node ∉ cycle ∧
        (n.synthesis .standard .fresh).policyFor l {} = .error (.dependencyCycle l.source cycle) := by
  let l : Link := ⟨⟨"a", "b"⟩, ⟨"sink", "in"⟩⟩
  let cycle : List FlowNode := [taskNode "a.b", ⟨"a.b", some "in"⟩, ⟨"a.b", some "out"⟩]
  have hbuild : (namesake.file.build.map fun n =>
      let ended := n.propagate .fresh
      decide (n.links.get? l = some {} ∧
        ((n.task? l.sink.task).bind (·.inputs[l.sink.port]?)).map InputPort.reliable = some true ∧
        ended.2.2.board.isFinal l.source.node = false ∧
        n.reportedCycles ended.1 ended.2.2.board ended.2.1 = [cycle] ∧ l.source.node ∉ cycle ∧
          (n.synthesis .standard .fresh).policyFor l {} = .error (.dependencyCycle l.source cycle))) =
      .ok true := by
    decide +kernel
  obtain ⟨n, h, hn⟩ := map_eq_ok.mp hbuild
  exact ⟨n, h, of_decide_eq_true hn⟩

end Network

end FlowTiming
