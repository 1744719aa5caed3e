import FlowTiming.Proofs.NetworkFile.Deployment
import FlowTiming.Proofs.Policy.Provision
import FlowTiming.Proofs.Propagation.Updates

/-!
A report accounts for every node once: what is known of a node is final or partial, and it is partial
just if the node is unresolved (`analyze_accounts`).
-/

namespace FlowTiming

open Board

namespace Network

/-- Whether a node is an input that is hinted or attached to a device behind a bus. -/
def IsGiven (n : Network) (x : FlowNode) : Prop :=
  ∃ t p, n.task? x.task = some t ∧ x.port = some p ∧ p ∈ t.inputs ∧
    (p ∈ t.hints.ports ∨ ∃ devices, t.kind = .bus devices ∧ ∃ a ∈ devices, p ∈ a.ports)

structure Accounts (n : Network) (r : Report) : Prop where
  covers : ∀ x, n.IsRequired x → x ∈ r.dynamics ∨ x ∈ r.partialDynamics
  apart : ∀ x, x ∈ r.dynamics → x ∉ r.partialDynamics
  partial_iff : ∀ x, x ∈ r.partialDynamics ↔ x ∈ r.unresolved
  dynamics_iff : ∀ x, x ∈ r.dynamics ↔ (n.IsRequired x ∧ x ∉ r.unresolved) ∨ n.IsGiven x

variable {n : Network} {tasks : List String} {b : FlowBoard} {x : FlowNode}

theorem StartsFinal.required_or_given (hn : n.Coherent) (hx : n.StartsFinal x) :
    n.IsRequired x ∨ n.IsGiven x := by
  obtain ⟨x, q⟩ := x
  obtain ⟨t, ht, hq⟩ := hx
  cases hq with
  | periodic => exact .inl (required_task ht)
  | idle => exact .inl (required_task ht)
  | @hinted p hp =>
    rcases hn.hinted x t ht p hp with hout | hin
    · exact .inl (required_output ht hout)
    · exact .inr ⟨t, p, ht, rfl, hin, .inl hp⟩
  | driven hkind ha _ hp => exact .inl (required_output ht (hn.driven x t _ ht hkind _ ha _ hp))
  | received hkind ha hp =>
    exact .inr ⟨t, _, ht, rfl, hn.received x t _ ht hkind _ ha _ hp, .inr ⟨_, hkind, _, ha, hp⟩⟩

theorem IsGiven.startsFinal (hx : n.IsGiven x) : n.StartsFinal x := by
  obtain ⟨x, q⟩ := x
  obtain ⟨t, p, ht, rfl, -, hp | ⟨devices, hkind, a, ha, hp⟩⟩ := hx
  · exact ⟨t, ht, .hinted hp⟩
  · exact ⟨t, ht, .received hkind ha hp⟩

theorem keeps_accounted {y : String} {t : Task} (ht : n.task? y = some t) :
    n.SeedKeeps y t fun b => ∀ x, b.isKnown x = true → n.IsRequired x ∨ n.StartsFinal x where
  note _ _ _ hb := hb
  hand b _ d s hb _ _ hs _ x hx := by
    by_cases he : x = taskNode s.1
    · exact .inl (he ▸ required_task (mem_slavesOf.mp hs).1)
    · rw [isKnown_finalize, isKnown_congr (FlowBoard.info?_contribute_of_ne b s.2 he d)] at hx
      exact hb x hx
  alter b b' q hq ha hb x hx := by
    by_cases he : x = ⟨y, q⟩
    · subst he
      cases q with
      | none => exact .inl (required_task ht)
      | some p => exact (hq p rfl).imp (required_output ht) fun hp => ⟨t, ht, hp⟩
    · exact hb x ((isKnown_congr (ha.others x he)).symm.trans hx)
  finalize b q _ _ hb x hx := hb x ((isKnown_finalize b _ x).symm.trans hx)

theorem known_seeded_iff (hn : n.WellFormed) (hall : tasks.Perm n.taskNames) :
    (n.seeded tasks).isKnown x = true ↔ n.IsRequired x ∨ n.StartsFinal x := by
  constructor
  · intro hx
    exact seeded_keeps hn (fun _ _ ht => keeps_accounted ht) tasks (fun x hx => by simp at hx) x hx
  · obtain ⟨x, q⟩ := x
    rintro (⟨t, ht, hq⟩ | hx)
    · exact (stands_seeded hn hall ht).known q hq
    · cases q with
      | none =>
        obtain ⟨t, ht, -⟩ := hx
        exact (stands_seeded hn hall ht).known none (by simp)
      | some p => exact known_of_final hn tasks ((isFinal_seeded_port hn hall x p).mpr hx)

theorem info_of_not_required (hb : (n.scheme (n.seeded tasks)).Unfolds (n.seeded tasks) b)
    (hx : ¬ n.IsRequired x) : b.info? x = (n.seeded tasks).info? x := by
  cases hf : b.isFinal x with
  | false => exact hb.info_of_open hf
  | true =>
    cases h₀ : (n.seeded tasks).isFinal x with
    | true => exact hb.later.frozen x h₀
    | false => exact absurd (hb.ready_of_final hf h₀).1 hx

theorem known_iff (hn : n.WellFormed) (hall : tasks.Perm n.taskNames)
    (hb : (n.scheme (n.seeded tasks)).Unfolds (n.seeded tasks) b) :
    b.isKnown x = true ↔ n.IsRequired x ∨ n.StartsFinal x := by
  by_cases hx : n.IsRequired x
  · obtain ⟨-, d, -, hd, -⟩ := known_of_required hn hall hb hx
    exact iff_of_true (isKnown_iff.mpr ⟨d, hd⟩) (.inl hx)
  · rw [isKnown_congr (info_of_not_required hb hx), known_seeded_iff hn hall]

theorem known_iff_given (hn : n.Coherent) (hall : tasks.Perm n.taskNames)
    (hb : (n.scheme (n.seeded tasks)).Unfolds (n.seeded tasks) b) :
    b.isKnown x = true ↔ n.IsRequired x ∨ n.IsGiven x := by
  rw [known_iff hn.toWellFormed hall hb]
  constructor
  · rintro (hx | hx)
    · exact .inl hx
    · exact hx.required_or_given hn
  · exact Or.imp_right IsGiven.startsFinal

theorem final_of_given (hn : n.WellFormed) (hall : tasks.Perm n.taskNames)
    (hb : (n.scheme (n.seeded tasks)).Unfolds (n.seeded tasks) b) (hx : n.IsGiven x) :
    b.isFinal x = true := by
  obtain ⟨x, q⟩ := x
  obtain ⟨t, p, ht, rfl, -⟩ := id hx
  exact hb.later.final _ ((isFinal_seeded_port hn hall x p).mpr hx.startsFinal)

theorem accounts_ended (hn : n.Coherent) {engine : FlowEngine} {cycles : List (List FlowNode)}
    {decisions : List (Link × Decision)} :
    n.Accounts (report (n.propagate engine).1 (n.propagate engine).2.2.board cycles decisions) := by
  have hb : (n.scheme (n.seeded n.taskNames)).Unfolds (n.seeded n.taskNames)
      (n.propagate engine).2.2.board := unfolds_ended hn.toWellFormed (.refl _) engine ∅
  have hknown {x : FlowNode} := known_iff_given (x := x) hn (.refl _) hb
  have hgiven {x : FlowNode} := final_of_given (x := x) hn.toWellFormed (.refl _) hb
  have hopen {x : FlowNode} : x ∈ (n.propagate engine).1.unresolved ↔
      n.IsRequired x ∧ (n.propagate engine).2.2.board.isFinal x = false :=
    mem_unresolved hn.toWellFormed (.refl _) engine
  refine ⟨fun x hx => ?_, fun x => not_mem_partialInfo, fun x => ?_, fun x => ?_⟩
  · have hx' := hknown.mpr (.inl hx)
    cases hf : (n.propagate engine).2.2.board.isFinal x with
    | true => exact .inl (mem_finalInfo.mpr ⟨hf, hx'⟩)
    | false => exact .inr (mem_partialInfo.mpr ⟨hf, hx'⟩)
  · rw [report, mem_partialInfo, hopen, and_comm, hknown]
    -- what is given is final
    exact and_congr_left fun hf => or_iff_left fun hx => by simp [hgiven hx] at hf
  · rw [report, mem_finalInfo, hknown, hopen, and_or_left, and_iff_right_of_imp hgiven]
    refine or_congr_left (and_comm.trans (and_congr_right fun hx => ?_))
    simp [hx]

/-- Every successful report accounts for every task and output once, as final or as unresolved with what
is known of it; beyond them it holds just the inputs that are given from the start. -/
theorem analyze_accounts (f : ValidFile) {n : Network} (h : f.file.build = .ok n) (margin : Margin)
    (engine : FlowEngine) {r : Report} (hr : (n.analyze margin engine).result = .ok r) :
    n.Accounts r := by
  rw [result_analyze] at hr
  obtain ⟨ds, -, rfl⟩ := map_eq_ok.mp hr
  exact accounts_ended (NetworkFile.coherent_of_build (NetworkFile.check_eq_ok.mp f.checked) h)

/-- A bus with a device, a task with a hint for its input, and a task that waits for itself. -/
def halted : ValidFile where
  file :=
    { tasks := (((∅ : Std.ExtTreeMap String TaskSection).insert "bus"
        { kind := .bus, inputs := (∅ : Std.ExtTreeMap String InputPort).insert "in" {},
          devices := [{ name := "device", period := some Margin.standardRatio, ports := ["in"] }] }).insert "echo"
        { inputs := (∅ : Std.ExtTreeMap String InputPort).insert "in" {},
          outputs := (∅ : Std.ExtTreeMap String OutputSection).insert "out" {} }).insert "probe"
        { inputs := (∅ : Std.ExtTreeMap String InputPort).insert "in" {},
          hints := [{ port := some "in", name := "guess", sampleCount := 1 }] }
      connections := [⟨"echo.out", "echo.in", {}⟩] }
  checked := by decide +kernel

theorem halted_accounts : ∃ n r, halted.file.build = .ok n ∧
    (n.analyze .standard .fresh).result = .ok r ∧ n.Accounts r ∧
    r.dynamics.keys.map Node.text = ["bus", "bus.in", "probe", "probe.in"] ∧
    r.partialDynamics.keys.map Node.text = ["echo", "echo.out"] := by
  have hrun : (halted.file.build.map fun n => (n.analyze .standard .fresh).result.map fun r =>
      (r.dynamics.keys.map Node.text, r.partialDynamics.keys.map Node.text)) =
        .ok (.ok (["bus", "bus.in", "probe", "probe.in"], ["echo", "echo.out"])) := by decide +kernel
  obtain ⟨n, h, hn⟩ := map_eq_ok.mp hrun
  obtain ⟨r, hr, hkeys⟩ := map_eq_ok.mp hn
  exact ⟨n, r, h, hr, analyze_accounts halted h .standard .fresh hr, Prod.mk.inj hkeys⟩

end Network

end FlowTiming
