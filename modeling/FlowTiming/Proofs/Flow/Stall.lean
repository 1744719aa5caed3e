import FlowTiming.Proofs.Flow.FinalTriggers
import FlowTiming.Proofs.Propagation.Cycles

/-!
A propagation that leaves something unresolved is explained by cycles of nodes that wait for each
other, and these are the cycles that are reported.
-/

namespace FlowTiming

open Board Relation

namespace Network

/-- Whether what is to be known about a node comes from another one: a task or an output from what it
depends on, an input from the outputs linked to it. -/
inductive Leads (n : Network) : FlowNode → FlowNode → Prop
  | need {x y : FlowNode} : n.Depends x y → Leads n x y
  | source {e s : Endpoint} : n.hasInput e = true → s ∈ n.links.sourcesOf e →
      Leads n e.node s.node

/-- Whether a node that is not final waits for another one that is not either. -/
def Waits (n : Network) (b : FlowBoard) (x y : FlowNode) : Prop :=
  n.Leads x y ∧ n.isSettled b x = false ∧ n.isSettled b y = false

/-- How cycles explain what a propagation leaves unresolved. -/
structure Explains (n : Network) (outcome : Outcome String String) (board : FlowBoard)
    (needs : Dependencies) (cycles : List (List FlowNode)) : Prop where
  recorded : ∀ x y, n.Depends x y ↔ ∃ s, needs[x]? = some s ∧ y ∈ s
  complete : outcome.isComplete = true ↔ cycles = []
  member : ∀ x, (∃ c ∈ cycles, x ∈ c) ↔
    n.isSettled board x = false ∧ TransGen (n.Waits board) x x
  reached : ∀ x ∈ outcome.unresolved, ∃ c ∈ cycles, ∃ y ∈ c, ReflTransGen (n.Waits board) x y
  acyclic : (∀ x, ¬ TransGen n.Leads x x) → outcome.isComplete = true

variable {n : Network} {x y : FlowNode}

theorem isSettled_required (hn : n.WellFormed) (b : FlowBoard) (hx : n.IsRequired x) :
    n.isSettled b x = b.isFinal x := by
  rw [isSettled, inputOf_required hn hx, Bool.or_false]

theorem exists_open_source {b : FlowBoard} {e : Endpoint} (he : n.inputOf y = some e)
    (hy : n.isSettled b y = false) : ∃ s ∈ n.links.sourcesOf e, b.isFinal s.node = false := by
  rw [isSettled, he, Bool.or_eq_false_iff, List.all_eq_false] at hy
  obtain ⟨s, hs, hopen⟩ := hy.2
  exact ⟨s, hs, by simpa using hopen⟩

theorem Waits.exists_open (hn : n.WellFormed) {b : FlowBoard} (h : n.Waits b x y) :
    ∃ z, n.IsRequired z ∧ b.isFinal z = false := by
  obtain ⟨hlead, hx, hy⟩ := h
  cases hlead with
  | need h => exact ⟨x, h.required, (isSettled_required hn b h.required).symm.trans hx⟩
  | source _ hs =>
    have hreq := required_source hn hs
    exact ⟨_, hreq, (isSettled_required hn b hreq).symm.trans hy⟩

/-! ### The edges in which cycles are looked for -/

def recordedEdges (n : Network) (b : FlowBoard) (needs : Dependencies) : List (FlowNode × FlowNode) :=
  (needs.toList.filter fun e => !n.isSettled b e.1).flatMap fun e =>
    (e.2.toList.filter fun need => !n.isSettled b need).map (e.1, ·)

def awaitedInputs (n : Network) (b : FlowBoard) (needs : Dependencies) : List Endpoint :=
  (setOf ((n.recordedEdges b needs).map Prod.snd)).toList.filterMap n.inputOf

theorem stalledEdges_eq (n : Network) (b : FlowBoard) (needs : Dependencies) :
    n.stalledEdges b needs = n.recordedEdges b needs ++ (n.awaitedInputs b needs).flatMap fun e =>
      ((n.links.sourcesOf e).filter fun s => !n.isSettled b s.node).map fun s => (e.node, s.node) := rfl

section Edges

variable {b : FlowBoard} {needs : Dependencies}
  (hneeds : ∀ x y, n.Depends x y ↔ ∃ s, needs[x]? = some s ∧ y ∈ s)
include hneeds

theorem mem_recordedEdges : (x, y) ∈ n.recordedEdges b needs ↔
    n.Depends x y ∧ n.isSettled b x = false ∧ n.isSettled b y = false := by
  rw [hneeds]
  simp only [recordedEdges, List.mem_flatMap, List.mem_filter, List.mem_map, Bool.not_eq_true']
  constructor
  · rintro ⟨e, ⟨he, hx⟩, need, ⟨hneed, hy⟩, hxy⟩
    obtain ⟨rfl, rfl⟩ := Prod.mk.inj hxy
    exact ⟨⟨e.2, mem_toList_iff.mp he, Std.ExtTreeSet.mem_toList.mp hneed⟩, hx, hy⟩
  · rintro ⟨⟨s, hs, hneed⟩, hx, hy⟩
    exact ⟨(x, s), ⟨mem_toList_iff.mpr hs, hx⟩, y, ⟨Std.ExtTreeSet.mem_toList.mpr hneed, hy⟩, rfl⟩

theorem mem_awaitedInputs {e : Endpoint} : e ∈ n.awaitedInputs b needs ↔ n.hasInput e = true ∧
    n.isSettled b e.node = false ∧ ∃ z, n.Depends z e.node ∧ n.isSettled b z = false := by
  simp only [awaitedInputs, List.mem_filterMap, Std.ExtTreeSet.mem_toList, mem_setOf, List.mem_map,
    inputOf_eq_some]
  constructor
  · rintro ⟨_, ⟨⟨z, _⟩, hz, rfl⟩, rfl, hin⟩
    obtain ⟨hdep, hz, he⟩ := (mem_recordedEdges hneeds).mp hz
    exact ⟨hin, he, z, hdep, hz⟩
  · rintro ⟨hin, he, z, hdep, hz⟩
    exact ⟨e.node, ⟨(z, e.node), (mem_recordedEdges hneeds).mpr ⟨hdep, hz, he⟩, rfl⟩, rfl, hin⟩

theorem mem_stalledEdges : (x, y) ∈ n.stalledEdges b needs ↔
    (n.Depends x y ∨ ∃ e s, x = e.node ∧ y = s.node ∧ n.hasInput e = true ∧
      s ∈ n.links.sourcesOf e ∧ ∃ z, n.Depends z x ∧ n.isSettled b z = false) ∧
    n.isSettled b x = false ∧ n.isSettled b y = false := by
  rw [stalledEdges_eq, List.mem_append, mem_recordedEdges hneeds, or_and_right]
  apply or_congr_right
  simp only [List.mem_flatMap, mem_awaitedInputs hneeds, List.mem_map, List.mem_filter,
    Bool.not_eq_true']
  constructor
  · rintro ⟨e, ⟨hin, he, hz⟩, s, ⟨hs, hopen⟩, hxy⟩
    obtain ⟨rfl, rfl⟩ := Prod.mk.inj hxy
    exact ⟨⟨e, s, rfl, rfl, hin, hs, hz⟩, he, hopen⟩
  · rintro ⟨⟨e, s, rfl, rfl, hin, hs, hz⟩, he, hopen⟩
    exact ⟨e, ⟨hin, he, hz⟩, s, ⟨hs, hopen⟩, rfl⟩

theorem waits_of_edge (h : (x, y) ∈ n.stalledEdges b needs) : n.Waits b x y := by
  obtain ⟨hkind, hx, hy⟩ := (mem_stalledEdges hneeds).mp h
  rcases hkind with h | ⟨e, s, rfl, rfl, hin, hs, -⟩
  · exact ⟨.need h, hx, hy⟩
  · exact ⟨.source hin hs, hx, hy⟩

theorem edge_of_waits (hn : n.WellFormed) {z : FlowNode} (hz : n.Waits b z x) (h : n.Waits b x y) :
    (x, y) ∈ n.stalledEdges b needs := by
  obtain ⟨hlead, hx, hy⟩ := h
  refine (mem_stalledEdges hneeds).mpr ⟨?_, hx, hy⟩
  cases hlead with
  | need h => exact .inl h
  | @source e s hin hs =>
    refine .inr ⟨e, s, rfl, rfl, hin, hs, ?_⟩
    obtain ⟨hlead, hz, -⟩ := hz
    generalize he : e.node = y' at hlead
    cases hlead with
    | need h => exact ⟨z, h, hz⟩
    | source _ hs' =>
      have hnone := inputOf_required hn (required_source hn hs')
      rw [← he, inputOf_eq_some.mpr ⟨rfl, hin⟩] at hnone
      contradiction

theorem transGen_edges_iff (hn : n.WellFormed) :
    TransGen (fun x y => (x, y) ∈ n.stalledEdges b needs) x x ↔ TransGen (n.Waits b) x x := by
  constructor
  · have hle : (fun x y => (x, y) ∈ n.stalledEdges b needs) ≤ n.Waits b :=
      fun _ _ h => waits_of_edge hneeds h
    exact TransGen.mono hle x x
  · intro h
    obtain ⟨z, -, hz⟩ := TransGen.tail'_iff.mp h
    have along {y : FlowNode} (h : TransGen (n.Waits b) x y) :
        TransGen (fun x y => (x, y) ∈ n.stalledEdges b needs) x y := by
      induction h with
      | single h => exact .single (edge_of_waits hneeds hn hz h)
      | tail hxy h ih =>
        obtain ⟨w, -, hw⟩ := TransGen.tail'_iff.mp hxy
        exact ih.tail (edge_of_waits hneeds hn hw h)
    exact along h

end Edges

/-! ### Where a propagation stops -/

section Stopped

variable {tasks : List String} {b : FlowBoard} (hn : n.WellFormed) (hall : tasks.Perm n.taskNames)
include hn hall

theorem recorded_iff : n.Depends x y ↔
    ∃ s, (n.rules.settled tasks ∅).run.memory[x]? = some s ∧ y ∈ s := by
  rw [(settled_underway hn hall ∅).memory]
  constructor
  · intro h
    have hy := (mem_needsOf hn hall x y).mpr h
    rcases prepared_recorded hn hall ∅ h.required with hs | ⟨hnone, -⟩
    · exact ⟨_, hs, mem_setOf.mpr hy⟩
    · simp [hnone] at hy
  · rintro ⟨s, hs, hy⟩
    obtain ⟨-, rfl⟩ := prepared_recordsOnly hn tasks x s hs
    exact (mem_needsOf hn hall x y).mp (mem_setOf.mp hy)

variable (hb : (n.rules.settled tasks ∅).run.board.SameFacts b)
include hb

theorem exists_open_need (hx : n.IsRequired x) (hopen : b.isFinal x = false) :
    ∃ y, n.Depends x y ∧ n.isSettled b y = false := by
  have hunder := settled_underway hn hall ∅
  by_contra hnone
  have hneeds : ∀ y ∈ n.needsOf (n.seeded tasks) x,
      n.Settled (n.seeded tasks) (n.rules.settled tasks ∅).run.board y := by
    intro y hy
    rw [← isSettled_iff hn hunder.unfolds, ← isSettled_congr hb]
    by_contra hwait
    exact hnone ⟨y, (mem_needsOf hn hall x y).mp hy, by simpa using hwait⟩
  have hfinal := final_of_ready hn hall ⟨hx, hneeds⟩
  rw [← hb.final, hopen] at hfinal
  contradiction

variable {needs : Dependencies}
  (hneeds : ∀ x y, n.Depends x y ↔ ∃ s, needs[x]? = some s ∧ y ∈ s)
include hneeds

theorem exists_edge_of_edge (h : (x, y) ∈ n.stalledEdges b needs) :
    ∃ z, (y, z) ∈ n.stalledEdges b needs := by
  obtain ⟨hkind, hx, hy⟩ := (mem_stalledEdges hneeds).mp h
  have required (hreq : n.IsRequired y) : ∃ z, (y, z) ∈ n.stalledEdges b needs := by
    obtain ⟨z, hd, hz⟩ :=
      exists_open_need hn hall hb hreq ((isSettled_required hn b hreq).symm.trans hy)
    exact ⟨z, (mem_stalledEdges hneeds).mpr ⟨.inl hd, hy, hz⟩⟩
  rcases hkind with hd | ⟨e, s, rfl, rfl, -, hs, -⟩
  · rcases hd.target hn with hreq | ⟨e, he⟩
    · exact required hreq
    · -- an input waits for a source that is open
      obtain ⟨s, hs, hopen⟩ := exists_open_source he hy
      have hsource := (isSettled_required hn b (required_source hn hs)).trans hopen
      obtain ⟨rfl, hin⟩ := inputOf_eq_some.mp he
      exact ⟨s.node, (mem_stalledEdges hneeds).mpr
        ⟨.inr ⟨e, s, rfl, rfl, hin, hs, x, hd, hx⟩, hy, hsource⟩⟩
  · exact required (required_source hn hs)

theorem reaches_cycle (hx : n.IsRequired x) (hopen : b.isFinal x = false) :
    ∃ c ∈ n.stalledCycles b needs, ∃ y ∈ c, ReflTransGen (n.Waits b) x y := by
  obtain ⟨z, hd, hz⟩ := exists_open_need hn hall hb hx hopen
  have hfirst : (x, z) ∈ n.stalledEdges b needs :=
    (mem_stalledEdges hneeds).mpr ⟨.inl hd, (isSettled_required hn b hx).trans hopen, hz⟩
  -- every edge leads on to another one, so a walk along edges ends in a cycle
  let starts : Set FlowNode := {x | ∃ y, (x, y) ∈ n.stalledEdges b needs}
  have hfinite : starts.Finite := by
    refine (List.finite_toSet ((n.stalledEdges b needs).map Prod.fst)).subset ?_
    rintro x ⟨y, hy⟩
    exact List.mem_map.mpr ⟨_, hy, rfl⟩
  obtain ⟨y, hpath, hself⟩ := exists_cycle_of_finite hfinite
    (fun x ⟨y, hy⟩ => ⟨y, exists_edge_of_edge hn hall hb hneeds hy, hy⟩) ⟨z, hfirst⟩
  obtain ⟨c, hc, hy⟩ := Dependency.mem_cycles_iff.mpr hself
  have hle : (fun x y => (x, y) ∈ n.stalledEdges b needs) ≤ n.Waits b :=
    fun _ _ h => waits_of_edge hneeds h
  exact ⟨c, hc, y, hy, ReflTransGen.mono hle x y hpath⟩

omit hall hb in
theorem reportedCycles_eq {outcome : Outcome String String}
    (hout : ∀ x, x ∈ outcome.unresolved ↔ n.IsRequired x ∧ b.isFinal x = false) :
    n.reportedCycles outcome b needs = n.stalledCycles b needs := by
  unfold reportedCycles
  split
  case isFalse => rfl
  case isTrue hcomplete =>
    symm
    rw [List.eq_nil_iff_forall_not_mem]
    intro c hc
    obtain ⟨x, -, hfirst, -⟩ := Dependency.mem_cycles.mp hc
    have hself := Dependency.mem_cycles_iff.mp ⟨c, hc, List.mem_of_mem_head? hfirst⟩
    obtain ⟨y, hedge, -⟩ := TransGen.head'_iff.mp hself
    obtain ⟨z, hopen⟩ := (waits_of_edge hneeds hedge).exists_open hn
    exact isEmpty_iff_not_mem.mp hcomplete z ((hout z).mpr hopen)

theorem explains_reported {outcome : Outcome String String}
    (hout : ∀ x, x ∈ outcome.unresolved ↔ n.IsRequired x ∧ b.isFinal x = false) :
    n.Explains outcome b needs (n.reportedCycles outcome b needs) := by
  have hreached (x : FlowNode) (hx : x ∈ outcome.unresolved) :
      ∃ c ∈ n.stalledCycles b needs, ∃ y ∈ c, ReflTransGen (n.Waits b) x y := by
    obtain ⟨hreq, hopen⟩ := (hout x).mp hx
    exact reaches_cycle hn hall hb hneeds hreq hopen
  have hmember (x : FlowNode) : (∃ c ∈ n.stalledCycles b needs, x ∈ c) ↔ TransGen (n.Waits b) x x :=
    Dependency.mem_cycles_iff.trans (transGen_edges_iff hneeds hn)
  have stalled (h : ¬ outcome.isComplete = true) : ∃ x, ∃ c ∈ n.stalledCycles b needs, x ∈ c := by
    obtain ⟨x, hx⟩ := not_forall_not.mp (isEmpty_iff_not_mem.not.mp h)
    obtain ⟨c, hc, y, hy, -⟩ := hreached x hx
    exact ⟨y, c, hc, hy⟩
  have hreported := reportedCycles_eq hn hneeds hout
  refine ⟨hneeds, ⟨fun h => if_pos h, fun hnone => ?_⟩, fun x => ?_, hreported ▸ hreached,
    fun hacyclic => ?_⟩
  · by_contra h
    obtain ⟨x, c, hc, -⟩ := stalled h
    simp [← hreported, hnone] at hc
  · rw [hreported]
    refine (hmember x).trans (iff_and_self.mpr fun hself => ?_)
    obtain ⟨y, hstep, -⟩ := TransGen.head'_iff.mp hself
    exact hstep.2.1
  · by_contra h
    obtain ⟨x, hx⟩ := stalled h
    exact hacyclic x (TransGen.mono (fun _ _ h => h.1) x x ((hmember x).mp hx))

end Stopped

theorem cycles_of_analyze {margin : Margin} {engine : FlowEngine} {r : Report}
    (h : (n.analyze margin engine).result = .ok r) :
    let ended := n.propagate engine
    r.cycles = n.reportedCycles ended.1 ended.2.2.board ended.2.1 ∧
      r.unresolved = ended.1.unresolved := by
  unfold analyze at h
  simp only at h
  split at h
  case h_1 => simp at h
  case h_2 =>
    obtain rfl := Except.ok.inj h
    exact ⟨rfl, rfl⟩

/-- Something stays unresolved just if there are cycles of nodes that wait for each other, and all that
is unresolved waits for one of them. The cycles reported are these. -/
theorem analyze_explains (f : ValidFile) {n : Network} (h : f.file.build = .ok n)
    {tasks : List String} (hall : tasks.Perm n.taskNames) (engine : FlowEngine) (margin : Margin) :
    let ended := n.rules.propagate tasks ∅ engine
    n.Explains ended.1 ended.2.2.board ended.2.1
        (n.reportedCycles ended.1 ended.2.2.board ended.2.1) ∧
      ∀ r, (n.analyze margin engine).result = .ok r →
        let ended := n.propagate engine
        n.Explains ended.1 ended.2.2.board ended.2.1 r.cycles ∧
          r.unresolved = ended.1.unresolved := by
  intro ended
  have hn := NetworkFile.build_wellFormed f.checked h
  have explains {tasks : List String} (hall : tasks.Perm n.taskNames) :
      let ended := n.rules.propagate tasks ∅ engine
      n.Explains ended.1 ended.2.2.board ended.2.1
        (n.reportedCycles ended.1 ended.2.2.board ended.2.1) := by
    have hsame := Rules.propagate_board n.rules tasks ∅ engine
    refine explains_reported hn hall hsame (fun x y => recorded_iff hn hall) fun x => ?_
    rw [hsame.final]
    exact mem_missing_iff hn hall
  refine ⟨explains hall, fun r hr => ?_⟩
  obtain ⟨hcycles, hunresolved⟩ := cycles_of_analyze hr
  exact ⟨hcycles ▸ explains (.refl _), hunresolved⟩

def ring : ValidFile where
  file :=
    let task : TaskSection :=
      { inputs := (∅ : Std.ExtTreeMap String InputPort).insert "in" {}
        outputs := (∅ : Std.ExtTreeMap String OutputSection).insert "out" {} }
    { tasks := ((∅ : Std.ExtTreeMap String TaskSection).insert "ping" task).insert "pong" task
      connections := [⟨"ping.out", "pong.in", {}⟩, ⟨"pong.out", "ping.in", {}⟩] }
  checked := by decide +kernel

theorem ring_explains : ∃ n, ring.file.build = .ok n ∧ ["ping", "pong"].Perm n.taskNames ∧
    let ended := n.rules.propagate ["ping", "pong"] ∅ .fresh
    ended.1.isComplete = false ∧
      n.Explains ended.1 ended.2.2.board ended.2.1
        (n.reportedCycles ended.1 ended.2.2.board ended.2.1) ∧
      ∀ r, (n.analyze .standard .fresh).result = .ok r →
        let ended := n.propagate .fresh
        n.Explains ended.1 ended.2.2.board ended.2.1 r.cycles ∧
          r.unresolved = ended.1.unresolved := by
  have hbuild : (ring.file.build.map fun n => (n.taskNames,
      (n.rules.propagate ["ping", "pong"] ∅ .fresh).1.isComplete)) = .ok (["ping", "pong"], false) := by
    decide +kernel
  obtain ⟨n, h, hn⟩ := map_eq_ok.mp hbuild
  obtain ⟨hnames, hstalled⟩ := Prod.mk.inj hn
  have hall : ["ping", "pong"].Perm n.taskNames := .of_eq hnames.symm
  exact ⟨n, h, hall, hstalled, analyze_explains ring h hall .fresh .standard⟩

end Network

end FlowTiming
