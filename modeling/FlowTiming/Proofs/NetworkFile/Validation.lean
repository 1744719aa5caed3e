import FlowTiming.NetworkFile.Validation
import FlowTiming.Proofs.Collections
import FlowTiming.Proofs.Fallible
import FlowTiming.Proofs.Network.Endpoint
import Mathlib.Data.List.Perm.Subperm
import Mathlib.Logic.Relation

/-!
The files in which no check finds a fault are the well-formed ones (`check_eq_ok`).
-/

namespace FlowTiming

/-- Whether a number of seconds stands for a span of time. -/
def Binary64.IsSpan (value : Binary64) : Prop := ∃ d, Duration.ofSeconds? value = some d

/-- Whether a text names a port: what follows its last dot, of the task before it, neither empty. -/
def Endpoint.NamedBy (e : Endpoint) (text : String) : Prop :=
  e.text = text ∧ '.' ∉ e.port.toList ∧ e.task ≠ "" ∧ e.port ≠ ""

structure OutputSection.WellFormed (p : OutputSection) (s : TaskSection) : Prop where
  sampleSize : 1 ≤ p.sampleSize.toNat
  burstPeriod : p.burstPeriod.IsSpan
  triggers : ∀ i ∈ p.triggers, i ∈ s.inputs

structure DeviceSection.WellFormed (d : DeviceSection) (s : TaskSection) : Prop where
  period : ∀ value ∈ d.period, value.IsSpan
  sampleSize : 1 ≤ d.sampleSize.toNat
  driven : s.kind = .driver → ∀ p ∈ d.ports, p ∈ s.outputs
  received : s.kind = .bus → ∀ p ∈ d.ports, p ∈ s.inputs

structure HintSection.WellFormed (h : HintSection) (s : TaskSection) : Prop where
  period : h.period.IsSpan
  sampleSize : ∀ size ∈ h.sampleSize, 1 ≤ size.toNat
  port : ∀ p ∈ h.port, p ∈ s.outputs ∨ p ∈ s.inputs

structure TaskSection.WellFormed (s : TaskSection) : Prop where
  latency : s.latency.IsSpan
  periodic : s.activity = .periodic →
    ∃ value ∈ s.period, ∃ d, Duration.ofSeconds? value = some d ∧ 1 ≤ d.nanos
  unperiodic : s.activity ≠ .periodic → s.period = none
  mastered : (∃ m, s.master = some m) ↔ s.activity = .slave
  outputs : ∀ (p : String) (q : OutputSection), s.outputs[p]? = some q → q.WellFormed s
  disjoint : ∀ p ∈ s.inputs, p ∉ s.outputs
  component : s.kind = .component → s.devices = []
  devices : ∀ d ∈ s.devices, d.WellFormed s
  hints : ∀ h ∈ s.hints, h.WellFormed s

namespace NetworkFile

def IsSlaveOf (f : NetworkFile) (x m : String) : Prop := f.masterOf x = some m

structure WellFormed (f : NetworkFile) : Prop where
  tasks : f.tasks ≠ ∅
  margin : f.marginRatio.isFinite = true ∧ f.marginRatio.isBelowZero = false
  sections : ∀ (x : String) (s : TaskSection), f.tasks[x]? = some s → s.WellFormed
  masters : ∀ (x : String) (s : TaskSection), f.tasks[x]? = some s →
    ∀ m, s.master = some m → m ≠ x ∧ m ∈ f.tasks
  acyclic : ∀ x, ¬ Relation.TransGen f.IsSlaveOf x x
  sources : ∀ c ∈ f.connections, ∃ (e : Endpoint) (s : TaskSection), e.NamedBy c.source ∧
    f.tasks[e.task]? = some s ∧ e.port ∈ s.outputs
  sinks : ∀ c ∈ f.connections, ∃ (e : Endpoint) (s : TaskSection), e.NamedBy c.sink ∧
    f.tasks[e.task]? = some s ∧ e.port ∈ s.inputs
  policies : ∀ c ∈ f.connections, c.policy.preset ≠ some (.buffer 0) ∧ c.policy.fallback ≠ some (.buffer 0)

end NetworkFile

theorem spanOf_eq_ok {what : String} {value : Binary64} {d : Duration} :
    spanOf what value = .ok d ↔ Duration.ofSeconds? value = some d := by
  unfold spanOf
  split <;> simp_all

theorem endpointOf_eq_ok {text : String} {e : Endpoint} : endpointOf text = .ok e ↔ e.NamedBy text := by
  rw [Endpoint.NamedBy, ← Endpoint.read?_eq_some]
  unfold endpointOf
  split <;> simp_all

theorem Margin.ofBinary64_eq_ok {value : Binary64} :
    (∃ m, ofBinary64 value = .ok m) ↔ value.isFinite = true ∧ value.isBelowZero = false := by
  unfold ofBinary64
  split
  case isTrue hfinite =>
    split
    case isTrue hbelow => simp [hfinite, hbelow]
    case isFalse hbelow => simp [hbelow]
  case isFalse hfinite => simp [hfinite]

namespace NetworkFile

variable {f : NetworkFile} {x : String} {s : TaskSection}

@[simp] theorem demand_eq_ok {c : Bool} {e : FileFault} {u : Unit} : demand c e = .ok u ↔ c = true := by
  cases c <;> simp [demand, fault]

@[simp] theorem fault_ne_ok {e : FileFault} {u : Unit} : fault e ≠ .ok u := nofun

@[simp] theorem checkSpan_eq_ok {what : String} {value : Binary64} :
    checkSpan what value = .ok () ↔ value.IsSpan := by
  simp only [checkSpan, bind_eq_ok, spanOf_eq_ok, Binary64.IsSpan]
  exact exists_congr fun d => and_iff_left rfl

/-! ### One task -/

theorem checkPeriod_eq_ok : checkPeriod x s = .ok () ↔
    (s.activity = .periodic → ∃ value ∈ s.period, ∃ d, Duration.ofSeconds? value = some d ∧ 1 ≤ d.nanos) ∧
      (s.activity ≠ .periodic → s.period = none) := by
  unfold checkPeriod
  cases s.activity with
  | periodic =>
    cases s.period with
    | none => simp
    | some value => simp [bind_eq_ok, spanOf_eq_ok, Nat.one_le_iff_ne_zero]
  | triggered | slave => simp

theorem checkMaster_eq_ok : f.checkMaster x s = .ok () ↔
    ((∃ m, s.master = some m) ↔ s.activity = .slave) ∧ ∀ m, s.master = some m → m ≠ x ∧ m ∈ f.tasks := by
  unfold checkMaster
  cases s.activity with
  | slave => cases s.master <;> simp [andThen_eq_ok]
  | periodic | triggered => cases s.master <;> simp

theorem checkOutput_eq_ok {p : String × OutputSection} : checkOutput x s p = .ok () ↔ p.2.WellFormed s := by
  simp only [checkOutput, andThen_eq_ok, forM_eq_ok, demand_eq_ok, checkSpan_eq_ok, bne_iff_ne,
    ← Nat.one_le_iff_ne_zero, Std.ExtTreeMap.contains_iff_mem]
  exact ⟨fun ⟨hsize, hperiod, hin⟩ => ⟨hsize, hperiod, hin⟩, fun h => ⟨h.sampleSize, h.burstPeriod, h.triggers⟩⟩

theorem checkPorts_eq_ok : checkPorts x s = .ok () ↔
    (∀ (p : String) (q : OutputSection), s.outputs[p]? = some q → q.WellFormed s) ∧
      ∀ p ∈ s.inputs, p ∉ s.outputs := by
  have hshared : s.inputs.keys.find? s.outputs.contains = none ↔ ∀ p ∈ s.inputs, p ∉ s.outputs := by
    simp only [List.find?_eq_none, Std.ExtTreeMap.mem_keys, Std.ExtTreeMap.contains_iff_mem]
  simp only [checkPorts, andThen_eq_ok, forM_eq_ok, checkOutput_eq_ok, Prod.forall, mem_toList_iff]
  rw [← hshared]
  cases s.inputs.keys.find? s.outputs.contains <;> simp

theorem checkAttachment_eq_ok {d p : String} (hkind : s.kind ≠ .component) :
    checkAttachment x s d p = .ok () ↔
      (s.kind = .driver → p ∈ s.outputs) ∧ (s.kind = .bus → p ∈ s.inputs) := by
  unfold checkAttachment
  cases hs : s.kind with
  | component => contradiction
  | driver | bus => simp

theorem checkDevice_eq_ok {d : DeviceSection} (hkind : s.kind ≠ .component) :
    checkDevice x s d = .ok () ↔ d.WellFormed s := by
  have hsteps : checkDevice x s d = .ok () ↔ (∀ value ∈ d.period, value.IsSpan) ∧
      1 ≤ d.sampleSize.toNat ∧ ∀ p ∈ d.ports, checkAttachment x s d.name p = .ok () := by
    rw [← forM_eq_ok]
    unfold checkDevice
    cases d.period <;> simp [andThen_eq_ok, Nat.one_le_iff_ne_zero]
  simp only [hsteps, checkAttachment_eq_ok hkind]
  constructor
  · rintro ⟨hperiod, hsize, hports⟩
    exact ⟨hperiod, hsize, fun hk p hp => (hports p hp).1 hk, fun hk p hp => (hports p hp).2 hk⟩
  · intro h
    exact ⟨h.period, h.sampleSize, fun p hp => ⟨fun hk => h.driven hk p hp, fun hk => h.received hk p hp⟩⟩

theorem checkDevices_eq_ok : checkDevices x s = .ok () ↔
    (s.kind = .component → s.devices = []) ∧ ∀ d ∈ s.devices, d.WellFormed s := by
  simp only [checkDevices, andThen_eq_ok, demand_eq_ok, forM_eq_ok]
  by_cases hkind : s.kind = .component
  · simp +contextual [hkind]
  · simp [hkind, checkDevice_eq_ok]

theorem checkHint_eq_ok {h : HintSection} : checkHint x s h = .ok () ↔ h.WellFormed s := by
  have hsteps : checkHint x s h = .ok () ↔ h.period.IsSpan ∧ (∀ size ∈ h.sampleSize, 1 ≤ size.toNat) ∧
      ∀ p ∈ h.port, p ∈ s.outputs ∨ p ∈ s.inputs := by
    unfold checkHint
    cases h.port <;> cases h.sampleSize <;> simp [andThen_eq_ok, Nat.one_le_iff_ne_zero]
  rw [hsteps]
  exact ⟨fun ⟨hperiod, hsize, hport⟩ => ⟨hperiod, hsize, hport⟩, fun h => ⟨h.period, h.sampleSize, h.port⟩⟩

theorem checkTask_eq_ok : f.checkTask x s = .ok () ↔
    s.WellFormed ∧ ∀ m, s.master = some m → m ≠ x ∧ m ∈ f.tasks := by
  simp only [checkTask, checkActivity, andThen_eq_ok, checkSpan_eq_ok, checkPeriod_eq_ok,
    checkMaster_eq_ok, checkPorts_eq_ok, checkDevices_eq_ok, forM_eq_ok, checkHint_eq_ok]
  constructor
  · rintro ⟨⟨hlatency, ⟨hperiodic, hunperiodic⟩, hmastered, hmasters⟩, ⟨houtputs, hdisjoint⟩,
      ⟨hcomponent, hdevices⟩, hhints⟩
    exact ⟨⟨hlatency, hperiodic, hunperiodic, hmastered, houtputs, hdisjoint, hcomponent, hdevices,
      hhints⟩, hmasters⟩
  · rintro ⟨hs, hmasters⟩
    exact ⟨⟨hs.latency, ⟨hs.periodic, hs.unperiodic⟩, hs.mastered, hmasters⟩, ⟨hs.outputs, hs.disjoint⟩,
      ⟨hs.component, hs.devices⟩, hs.hints⟩

/-! ### Masters -/

theorem not_transGen_of_chainEnds {steps : Nat} (h : f.chainEnds steps x = true) :
    ¬ Relation.TransGen f.IsSlaveOf x x := by
  induction steps generalizing x with
  | zero =>
    intro hloop
    obtain ⟨m, hm, -⟩ := Relation.TransGen.head'_iff.mp hloop
    rw [chainEnds, Option.isNone_iff_eq_none, hm] at h
    contradiction
  | succ steps ih =>
    intro hloop
    obtain ⟨m, hm, hback⟩ := Relation.TransGen.head'_iff.mp hloop
    rw [chainEnds, hm, Option.all_some] at h
    exact ih h (.tail' hback hm)

theorem mem_tasks_of_isSlaveOf {m : String} (h : f.IsSlaveOf x m) : x ∈ f.tasks := by
  obtain ⟨s, hs, -⟩ := Option.bind_eq_some_iff.mp h
  exact mem_of_getElem? hs

section Upward

variable {below : List String} (h : ∀ x, ¬ Relation.TransGen f.IsSlaveOf x x) (hnodup : below.Nodup)
  (hbelow : ∀ y ∈ below, y ∈ f.tasks ∧ Relation.TransGen f.IsSlaveOf y x)
include h hnodup hbelow

theorem nodup_upward {m : String} (hm : f.IsSlaveOf x m) : (x :: below).Nodup ∧
    ∀ y ∈ x :: below, y ∈ f.tasks ∧ Relation.TransGen f.IsSlaveOf y m := by
  refine ⟨List.nodup_cons.mpr ⟨fun hx => h x (hbelow x hx).2, hnodup⟩, fun y hy => ?_⟩
  rcases List.mem_cons.mp hy with rfl | hy
  · exact ⟨mem_tasks_of_isSlaveOf hm, .single hm⟩
  · exact ⟨(hbelow y hy).1, (hbelow y hy).2.tail hm⟩

/-- All tasks passed on the way up are different, so it ends before they are more than there are. -/
theorem chainEnds_of_acyclic {steps : Nat} (hsteps : f.tasks.size ≤ below.length + steps) :
    f.chainEnds steps x = true := by
  induction steps generalizing x below with
  | zero =>
    rw [chainEnds, Option.isNone_iff_eq_none, Option.eq_none_iff_forall_ne_some]
    intro m hm
    obtain ⟨hnodup, hmem⟩ := nodup_upward h hnodup hbelow hm
    have hsub : x :: below ⊆ f.tasks.keys := fun y hy => Std.ExtTreeMap.mem_keys.mpr (hmem y hy).1
    have hle := (List.subperm_of_subset hnodup hsub).length_le
    rw [Std.ExtTreeMap.length_keys, List.length_cons] at hle
    omega
  | succ steps ih =>
    rw [chainEnds]
    cases hm : f.masterOf x with
    | none => rfl
    | some m =>
      obtain ⟨hnodup, hmem⟩ := nodup_upward h hnodup hbelow hm
      exact ih hnodup hmem (by rw [List.length_cons]; omega)

end Upward

theorem checkMasters_eq_ok : f.checkMasters = .ok () ↔ ∀ x, ¬ Relation.TransGen f.IsSlaveOf x x := by
  have hall : f.checkMasters = .ok () ↔ ∀ x ∈ f.tasks, f.chainEnds f.tasks.size x = true := by
    simp [checkMasters]
  rw [hall]
  constructor
  · intro hends x hloop
    obtain ⟨m, hm, -⟩ := Relation.TransGen.head'_iff.mp hloop
    exact not_transGen_of_chainEnds (hends x (mem_tasks_of_isSlaveOf hm)) hloop
  · intro h x _
    exact chainEnds_of_acyclic h .nil (by simp) (by simp)

/-! ### Connections -/

theorem checkSource_eq_ok {c : ConnectionSection} {e : Endpoint} {u : Unit} : f.checkSource c e = .ok u ↔
    ∃ s, f.tasks[e.task]? = some s ∧ e.port ∈ s.outputs := by
  unfold checkSource
  cases f.tasks[e.task]? <;> simp

theorem checkSink_eq_ok {c : ConnectionSection} {e : Endpoint} {u : Unit} : f.checkSink c e = .ok u ↔
    ∃ s, f.tasks[e.task]? = some s ∧ e.port ∈ s.inputs := by
  unfold checkSink
  cases f.tasks[e.task]? <;> simp

theorem checkConnection_eq_ok {c : ConnectionSection} : f.checkConnection c = .ok () ↔
    (∃ (e : Endpoint) (s : TaskSection), e.NamedBy c.source ∧ f.tasks[e.task]? = some s ∧ e.port ∈ s.outputs) ∧
      (∃ (e : Endpoint) (s : TaskSection), e.NamedBy c.sink ∧ f.tasks[e.task]? = some s ∧ e.port ∈ s.inputs) ∧
        c.policy.preset ≠ some (.buffer 0) ∧ c.policy.fallback ≠ some (.buffer 0) := by
  simp only [checkConnection, bind_eq_ok, endpointOf_eq_ok, checkSource_eq_ok, checkSink_eq_ok, checkPolicy,
    demand_eq_ok, bne_iff_ne, exists_const]
  constructor
  · rintro ⟨source, hsource, sink, hsink, ⟨s, hs, hout⟩, ⟨t, ht, hin⟩, hpolicies⟩
    exact ⟨⟨source, s, hsource, hs, hout⟩, ⟨sink, t, hsink, ht, hin⟩, hpolicies⟩
  · rintro ⟨⟨source, s, hsource, hs, hout⟩, ⟨sink, t, hsink, ht, hin⟩, hpolicies⟩
    exact ⟨source, hsource, sink, hsink, ⟨s, hs, hout⟩, ⟨t, ht, hin⟩, hpolicies⟩

/-! ### Files -/

theorem checkMargin_eq_ok : f.checkMargin = .ok () ↔
    f.marginRatio.isFinite = true ∧ f.marginRatio.isBelowZero = false := by
  rw [← Margin.ofBinary64_eq_ok, checkMargin, bind_eq_ok]
  exact exists_congr fun m => and_iff_left rfl

theorem checkTasks_eq_ok : f.checkTasks = .ok () ↔ f.tasks ≠ ∅ := by
  simp [checkTasks]

theorem check_eq_ok : f.check = .ok () ↔ f.WellFormed := by
  simp only [check, andThen_eq_ok, checkTasks_eq_ok, checkMargin_eq_ok, forM_eq_ok, checkTask_eq_ok,
    Prod.forall, mem_toList_iff, checkMasters_eq_ok, checkConnection_eq_ok]
  constructor
  · rintro ⟨htasks, hmargin, hsections, hacyclic, hconnections⟩
    exact ⟨htasks, hmargin, fun x s hs => (hsections x s hs).1, fun x s hs => (hsections x s hs).2, hacyclic,
      fun c hc => (hconnections c hc).1, fun c hc => (hconnections c hc).2.1,
      fun c hc => (hconnections c hc).2.2⟩
  · intro h
    exact ⟨h.tasks, h.margin, fun x s hs => ⟨h.sections x s hs, h.masters x s hs⟩, h.acyclic,
      fun c hc => ⟨h.sources c hc, h.sinks c hc, h.policies c hc⟩⟩

theorem validate_eq_ok {v : ValidFile} : f.validate = .ok v ↔ v.file = f := by
  unfold validate
  split
  case h_1 h =>
    rw [Except.ok.injEq]
    constructor
    · rintro rfl
      rfl
    · rintro rfl
      rfl
  case h_2 e h =>
    refine iff_of_false nofun ?_
    rintro rfl
    rw [v.checked] at h
    contradiction

/-- Validation accepts the well-formed files as they are, and no others. -/
theorem validate_accepts (f : NetworkFile) :
    (∃ v : ValidFile, f.validate = .ok v ∧ v.file = f) ↔ f.WellFormed := by
  simp only [validate_eq_ok, and_self, ← check_eq_ok]
  constructor
  · rintro ⟨v, rfl⟩
    exact v.checked
  · intro h
    exact ⟨⟨f, h⟩, rfl⟩

end NetworkFile

end FlowTiming
