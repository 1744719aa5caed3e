import FlowTiming.NetworkFile.Assembly
import FlowTiming.Proofs.NetworkFile.Validation

/-!
What a network file says of a network, part by part. It describes one network at most, and the order of
connections between different ports says nothing (`NetworkFile.Describes.perm`).
-/

namespace FlowTiming

open Relator (RightUnique)

theorem rightUnique_rel {α β : Type} {R : α → β → Prop} (h : RightUnique R) : RightUnique (Option.Rel R) := by
  intro a b b' hb hb'
  cases hb with
  | none =>
    cases hb'
    rfl
  | some hb =>
    cases hb' with
    | some hb' => rw [h hb hb']

theorem rel_imp {α β : Type} {R S : α → β → Prop} {a : Option α} {b : Option β}
    (h : ∀ x y, a = some x → b = some y → R x y → S x y) (hr : Option.Rel R a b) : Option.Rel S a b := by
  cases hr with
  | none => exact .none
  | some hr => exact .some (h _ _ rfl rfl hr)

def Binary64.Spans (value : Binary64) (d : Duration) : Prop := Duration.ofSeconds? value = some d

theorem Binary64.rightUnique_spans : RightUnique Binary64.Spans := by
  intro value d d' h h'
  exact Option.some.inj (h.symm.trans h')

/-! ### Ports and devices -/

structure OutputSection.Describes (q : OutputSection) (o : OutputPort) : Prop where
  sampleSize : o.sampleSize = q.sampleSize
  burstPeriod : q.burstPeriod.Spans o.burstPeriod
  burstSize : o.burstSize = q.burstSize
  onUpdate : o.onUpdate = q.onUpdate
  triggers : o.triggers = q.triggers

theorem OutputSection.rightUnique_describes : RightUnique OutputSection.Describes := by
  rintro q ⟨⟩ ⟨⟩ ⟨rfl, hspan, rfl, rfl, rfl⟩ ⟨rfl, hspan', rfl, rfl, rfl⟩
  obtain rfl := Binary64.rightUnique_spans hspan hspan'
  rfl

structure DeviceSection.Describes (d : DeviceSection) (a : Attachment) : Prop where
  name : a.device.name = d.name
  period : Option.Rel Binary64.Spans d.period a.device.period
  burst : a.device.burst = d.burst
  sampleSize : a.device.sampleSize = d.sampleSize
  ports : a.ports = d.ports

theorem DeviceSection.rightUnique_describes : RightUnique DeviceSection.Describes := by
  rintro d ⟨⟨⟩, _⟩ ⟨⟨⟩, _⟩ ⟨rfl, hperiod, rfl, rfl, rfl⟩ ⟨rfl, hperiod', rfl, rfl, rfl⟩
  obtain rfl := rightUnique_rel Binary64.rightUnique_spans hperiod hperiod'
  rfl

/-! ### Hints -/

/-- The hint for a port, or for the task itself. -/
def Hints.get? (hints : Hints) : Option String → Option PortDynamics
  | none => hints.task
  | some port => hints.ports[port]?

namespace HintSection

variable {h : HintSection} {t g : Trigger}

/-- Whether an entry tells of a trigger. One without samples tells of none. -/
structure Gives (h : HintSection) (g : Trigger) : Prop where
  source : g.source = h.name
  period : h.period.Spans g.period
  count : g.count = h.sampleCount
  positive : 0 < h.sampleCount.toNat

/-- Whether the entries for a node, put together, make up its hint: the first one sets the sample size. -/
inductive Merge (task : String) (usualSize : Count) : List HintSection → Option PortDynamics → Prop
  | unhinted : Merge task usualSize [] none
  | hinted {first : HintSection} {rest : List HintSection} {d : PortDynamics} : d.name = first.label task →
      d.sampleSize = first.sampleSize.getD usualSize →
      (∀ g, g ∈ d.triggers ↔ ∃ h ∈ first :: rest, h.Gives g) → Merge task usualSize (first :: rest) (some d)

theorem rightUnique_merge (task : String) (usualSize : Count) : RightUnique (Merge task usualSize) := by
  intro entries hint hint' h h'
  cases h with
  | unhinted =>
    cases h'
    rfl
  | @hinted first rest d hname hsize htriggers =>
    cases h' with
    | @hinted _ _ d' hname' hsize' htriggers' =>
      have hmem : d.triggers = d'.triggers := by
        apply Std.ExtTreeSet.ext_mem
        intro g
        rw [htriggers, htriggers']
      cases d
      cases d'
      simp only [Option.some.injEq, PortDynamics.mk.injEq]
      exact ⟨hname.trans hname'.symm, hsize.trans hsize'.symm, hmem⟩

end HintSection

/-! ### Tasks -/

namespace TaskSection

variable {s : TaskSection} {x : String}

inductive DescribesActivity (s : TaskSection) : Activity → Prop
  | periodic {value : Binary64} {period : Duration} : s.activity = .periodic → s.period = some value →
      value.Spans period → DescribesActivity s (.periodic period)
  | triggered : s.activity = .triggered → DescribesActivity s .triggered
  | slave {master : String} : s.activity = .slave → s.master = some master →
      DescribesActivity s (.slave master)

inductive DescribesKind (s : TaskSection) : TaskKind → Prop
  | component : s.kind = .component → DescribesKind s .component
  | driver {devices : List Attachment} : s.kind = .driver →
      List.Forall₂ DeviceSection.Describes s.devices devices → DescribesKind s (.driver devices)
  | bus {devices : List Attachment} : s.kind = .bus →
      List.Forall₂ DeviceSection.Describes s.devices devices → DescribesKind s (.bus devices)

/-- Data samples in a sample where no hint tells: as many as the output says, and one elsewhere. -/
def usualSize (s : TaskSection) : Option String → Count
  | none => 1
  | some port =>
    match s.outputs[port]? with
    | some q => q.sampleSize
    | none => 1

/-- The hint entries for a port, or for the task itself, as listed. -/
def hintsFor (s : TaskSection) (node : Option String) : List HintSection :=
  s.hints.filter (·.port = node)

structure Describes (s : TaskSection) (x : String) (t : Task) : Prop where
  activity : s.DescribesActivity t.activity
  latency : s.latency.Spans t.latency
  kind : s.DescribesKind t.kind
  inputs : t.inputs = s.inputs
  outputs : ∀ p : String, Option.Rel OutputSection.Describes s.outputs[p]? t.outputs[p]?
  hints : ∀ node, HintSection.Merge x (s.usualSize node) (s.hintsFor node) (t.hints.get? node)

theorem rightUnique_describesActivity : RightUnique DescribesActivity := by
  intro s a a' h h'
  cases h with
  | periodic hs hvalue hspan =>
    cases h' with
    | periodic _ hvalue' hspan' =>
      obtain rfl := Option.some.inj (hvalue.symm.trans hvalue')
      rw [Binary64.rightUnique_spans hspan hspan']
    | triggered hs' | slave hs' => simp [hs] at hs'
  | triggered hs =>
    cases h' with
    | triggered => rfl
    | periodic hs' | slave hs' => simp [hs] at hs'
  | slave hs hmaster =>
    cases h' with
    | slave _ hmaster' => rw [Option.some.inj (hmaster.symm.trans hmaster')]
    | periodic hs' | triggered hs' => simp [hs] at hs'

theorem rightUnique_describesKind : RightUnique DescribesKind := by
  intro s k k' h h'
  have hunique := DeviceSection.rightUnique_describes.forall₂
  cases h with
  | component hs =>
    cases h' with
    | component => rfl
    | driver hs' | bus hs' => simp [hs] at hs'
  | driver hs hdevices =>
    cases h' with
    | driver _ hdevices' => rw [hunique hdevices hdevices']
    | component hs' | bus hs' => simp [hs] at hs'
  | bus hs hdevices =>
    cases h' with
    | bus _ hdevices' => rw [hunique hdevices hdevices']
    | component hs' | driver hs' => simp [hs] at hs'

theorem rightUnique_describes (x : String) : RightUnique fun (s : TaskSection) t => s.Describes x t := by
  intro s t t' h h'
  have hactivity := rightUnique_describesActivity h.activity h'.activity
  have hlatency := Binary64.rightUnique_spans h.latency h'.latency
  have hkind := rightUnique_describesKind h.kind h'.kind
  have hinputs := h.inputs.trans h'.inputs.symm
  have houtputs : t.outputs = t'.outputs := by
    apply Std.ExtTreeMap.ext_getElem?
    intro p
    exact rightUnique_rel OutputSection.rightUnique_describes (h.outputs p) (h'.outputs p)
  have hget (node : Option String) : t.hints.get? node = t'.hints.get? node :=
    HintSection.rightUnique_merge x (s.usualSize node) (h.hints node) (h'.hints node)
  have hports : t.hints.ports = t'.hints.ports := Std.ExtTreeMap.ext_getElem? fun {p} => hget (some p)
  have htask : t.hints.task = t'.hints.task := hget none
  obtain ⟨_, _, _, _, _, ⟨⟩⟩ := t
  obtain ⟨_, _, _, _, _, ⟨⟩⟩ := t'
  simp only at hactivity hlatency hkind hinputs houtputs hports htask
  subst_vars
  rfl

end TaskSection

/-! ### Files -/

namespace ConnectionSection

/-- Whether an entry connects the ends of a link. -/
def Joins (c : ConnectionSection) (l : Link) : Prop := l.source.NamedBy c.source ∧ l.sink.NamedBy c.sink

instance (e : Endpoint) (text : String) : Decidable (e.NamedBy text) :=
  inferInstanceAs (Decidable (_ ∧ _ ∧ _ ∧ _))

instance (c : ConnectionSection) (l : Link) : Decidable (c.Joins l) :=
  inferInstanceAs (Decidable (_ ∧ _))

def ends (c : ConnectionSection) : String × String := (c.source, c.sink)

theorem Joins.ends_eq {c : ConnectionSection} {l : Link} (h : c.Joins l) :
    c.ends = (l.source.text, l.sink.text) := by
  rw [ends, h.1.1, h.2.1]

theorem filter_joins_of_perm {cs cs' : List ConnectionSection} (h : cs'.Perm cs)
    (hends : (cs.map ends).Nodup) (l : Link) :
    cs'.filter (Joins · l) = cs.filter (Joins · l) := by
  have hperm : (cs'.filter (Joins · l)).Perm (cs.filter (Joins · l)) := h.filter _
  have hnodup : ((cs.filter (Joins · l)).map ends).Nodup := hends.sublist (List.filter_sublist.map ends)
  have hends (c : ConnectionSection) (hc : c ∈ cs.filter (Joins · l)) :
      c.ends = (l.source.text, l.sink.text) :=
    (of_decide_eq_true (List.mem_filter.mp hc).2).ends_eq
  -- entries with the same ends are not repeated, so there is one at most
  match cs.filter (Joins · l), hperm, hnodup, hends with
  | [], hperm, _, _ => exact hperm.eq_nil
  | [c], hperm, _, _ => exact List.perm_singleton.mp hperm
  | c :: c' :: rest, _, hnodup, hends =>
    have hc := hends c (.head _)
    have hc' := hends c' (.tail _ (.head _))
    simp [hc, hc'] at hnodup

end ConnectionSection

namespace NetworkFile

structure Describes (f : NetworkFile) (n : Network) : Prop where
  tasks : ∀ x : String, Option.Rel (fun s t => s.Describes x t) f.tasks[x]? (n.task? x)
  links : ∀ l, n.links.get? l = ((f.connections.filter (·.Joins l)).getLast?).map (·.policy)

theorem rightUnique_describes : RightUnique Describes := by
  rintro f ⟨tasks, ⟨labels⟩⟩ ⟨tasks', ⟨labels'⟩⟩ h h'
  have htasks : tasks = tasks' := by
    apply Std.ExtTreeMap.ext_getElem?
    intro x
    exact rightUnique_rel (TaskSection.rightUnique_describes x) (h.tasks x) (h'.tasks x)
  have hlabels : labels = labels' := by
    apply Std.ExtTreeMap.ext_getElem?
    intro l
    exact (h.links l).trans (h'.links l).symm
  rw [htasks, hlabels]

variable {f : NetworkFile} {n : Network} {cs : List ConnectionSection}

theorem Describes.perm (h : f.Describes n) (hperm : cs.Perm f.connections)
    (hends : (f.connections.map ConnectionSection.ends).Nodup) :
    { f with connections := cs }.Describes n where
  tasks := h.tasks
  links l := by rw [h.links, ConnectionSection.filter_joins_of_perm hperm hends]

end NetworkFile

end FlowTiming
