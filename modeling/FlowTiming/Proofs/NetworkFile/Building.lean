import FlowTiming.Proofs.Network.WellFormed
import FlowTiming.Proofs.NetworkFile.Description

/-!
The network built from a well-formed file is well formed.
-/

namespace FlowTiming

/-! ### Tasks -/

theorem OutputSection.describes_of_build {q : OutputSection} {o : OutputPort} (h : q.build = .ok o) :
    q.Describes o := by
  simp only [build, bind_eq_ok, spanOf_eq_ok] at h
  obtain ⟨period, hperiod, h⟩ := h
  obtain rfl := Except.ok.inj h
  exact ⟨rfl, hperiod, rfl, rfl, rfl⟩

theorem DeviceSection.describes_of_build {d : DeviceSection} {a : Attachment} (h : d.build = .ok a) :
    d.Describes a := by
  unfold build at h
  cases hd : d.period with
  | none =>
    rw [hd] at h
    obtain rfl := Except.ok.inj h
    exact ⟨rfl, hd ▸ .none, rfl, rfl, rfl⟩
  | some value =>
    simp only [hd, bind_eq_ok, Functor.map, map_eq_ok, spanOf_eq_ok] at h
    obtain ⟨_, ⟨period, hperiod, rfl⟩, h⟩ := h
    obtain rfl := Except.ok.inj h
    exact ⟨rfl, hd ▸ .some hperiod, rfl, rfl, rfl⟩

namespace TaskSection

variable {s : TaskSection} {x p : String} {t : Task}

theorem build_eq_ok (h : s.build x = .ok t) : s.buildActivity = .ok t.activity ∧
    s.buildOutputs = .ok t.outputs ∧ t.inputs = s.inputs ∧
    (∃ devices, s.devices.mapM DeviceSection.build = .ok devices ∧ t.kind = s.buildKind devices) ∧
    s.hints.foldlM (HintSection.addTo x t.outputs) {} = .ok t.hints ∧ s.latency.Spans t.latency := by
  unfold build at h
  simp only [bind_eq_ok, spanOf_eq_ok] at h
  obtain ⟨activity, hact, latency, hlatency, outputs, hout, devices, hdev, hints, hhints, h⟩ := h
  obtain rfl := Except.ok.inj h
  exact ⟨hact, hout, rfl, ⟨devices, hdev, rfl⟩, hhints, hlatency⟩

theorem output_of_build {o : OutputPort} (h : s.build x = .ok t) (ho : t.outputs[p]? = some o) :
    ∃ q, s.outputs[p]? = some q ∧ q.Describes o := by
  have hout := (build_eq_ok h).2.1
  obtain ⟨q, hq, hb⟩ := entry_of_filled id Std.ExtTreeMap.insert (fun _ => OutputSection.build)
    (fun _ _ _ => rfl) rfl hout ho
  exact ⟨q, hq, OutputSection.describes_of_build hb⟩

theorem outputs_of_build (h : s.build x = .ok t) (p : String) :
    Option.Rel OutputSection.Describes s.outputs[p]? t.outputs[p]? := by
  have hrel := rel_of_filled id Std.ExtTreeMap.insert (fun _ => OutputSection.build) (fun _ _ _ => rfl) rfl
    (build_eq_ok h).2.1 p
  exact rel_imp (fun _ _ _ _ => OutputSection.describes_of_build) hrel

theorem mem_outputs_of_build (h : s.build x = .ok t) (hp : p ∈ s.outputs) : p ∈ t.outputs := by
  have hout := (build_eq_ok h).2.1
  obtain ⟨q, hq⟩ := mem_iff_getElem?.mp hp
  obtain ⟨o, ho, -⟩ := filled_of_entry id Std.ExtTreeMap.insert (fun _ => OutputSection.build)
    (fun _ _ _ => rfl) rfl hout hq
  exact mem_of_getElem? ho

theorem device_of_build {devices : List Attachment} {a : Attachment} (h : s.build x = .ok t)
    (hkind : t.kind = .driver devices ∨ t.kind = .bus devices) (ha : a ∈ devices) :
    ∃ d ∈ s.devices, d.Describes a := by
  obtain ⟨-, -, -, ⟨attachments, hdev, hk⟩, -⟩ := build_eq_ok h
  obtain rfl : attachments = devices := by
    rw [hk, buildKind] at hkind
    cases hs : s.kind with
    | component => simp [hs] at hkind
    | driver | bus => simpa [hs] using hkind
  obtain ⟨d, hd, hb⟩ := mem_of_mapM hdev ha
  exact ⟨d, hd, DeviceSection.describes_of_build hb⟩

theorem kind_of_build {devices : List Attachment} (h : s.build x = .ok t) :
    (t.kind = .driver devices → s.kind = .driver) ∧ (t.kind = .bus devices → s.kind = .bus) := by
  obtain ⟨-, -, -, ⟨attachments, -, hk⟩, -⟩ := build_eq_ok h
  rw [hk, buildKind]
  cases s.kind <;> simp

theorem WellFormed.masterless (h : s.WellFormed) (hs : s.activity ≠ .slave) : s.master = none :=
  Option.eq_none_iff_forall_ne_some.mpr fun m hm => hs (h.mastered.mp ⟨m, hm⟩)

theorem activity_of_build (h : s.WellFormed) (hb : s.build x = .ok t) : s.DescribesActivity t.activity := by
  have hact := (build_eq_ok hb).1
  unfold buildActivity at hact
  cases hs : s.activity with
  | periodic =>
    obtain ⟨value, hvalue, -⟩ := h.periodic hs
    rw [Option.mem_def] at hvalue
    simp only [hs, hvalue, Option.getD_some, map_eq_ok, spanOf_eq_ok] at hact
    obtain ⟨period, hperiod, hact⟩ := hact
    rw [← hact]
    exact .periodic hs hvalue hperiod
  | triggered =>
    rw [hs] at hact
    rw [← Except.ok.inj hact]
    exact .triggered hs
  | slave =>
    obtain ⟨master, hmaster⟩ := h.mastered.mpr hs
    rw [hs] at hact
    rw [← Except.ok.inj hact, hmaster, Option.getD_some]
    exact .slave hs hmaster

theorem master_of_build (h : s.WellFormed) (hb : s.build x = .ok t) : t.master = s.master := by
  have hact := activity_of_build h hb
  rw [Task.master]
  generalize t.activity = activity at hact
  cases hact with
  | periodic hs | triggered hs => rw [h.masterless (by simp [hs])]
  | slave _ hmaster => rw [hmaster]

end TaskSection

namespace NetworkFile

variable {f : NetworkFile} {n : Network} {x : String} {s : TaskSection} {t : Task} {l : Link}

/-! ### The network -/

theorem connect_eq_ok {b b' : Network} {c : ConnectionSection} (h : connect b c = .ok b') :
    ∃ source sink, endpointOf c.source = .ok source ∧ endpointOf c.sink = .ok sink ∧
      b' = b.connect ⟨source, sink⟩ c.policy := by
  simp only [connect, bind_eq_ok] at h
  obtain ⟨source, hsource, sink, hsink, h⟩ := h
  exact ⟨source, sink, hsource, hsink, (Except.ok.inj h).symm⟩

theorem build_eq_ok (h : f.build = .ok n) : ∃ bare, bare.tasks = n.tasks ∧ bare.links = .empty ∧
    f.tasks.toList.foldlM (fun b a => (a.2.build a.1).map (b.addTask a.1)) .empty = .ok bare ∧
    f.connections.foldlM connect bare = .ok n := by
  unfold build at h
  rw [bind_eq_ok] at h
  obtain ⟨bare, hbare, h⟩ := h
  refine ⟨bare, ?_, ?_, hbare, h⟩
  · refine foldlM_keeps (fun b : Network => bare.tasks = b.tasks) (fun b c b' hc hb => ?_) h rfl
    obtain ⟨source, sink, -, -, rfl⟩ := connect_eq_ok hc
    exact hb
  · refine foldlM_keeps (fun b : Network => b.links = .empty) (fun b a b' ha hb => ?_) hbare rfl
    obtain ⟨t, -, rfl⟩ := map_eq_ok.mp ha
    exact hb

theorem section_of_build (h : f.build = .ok n) (ht : n.task? x = some t) :
    ∃ s, f.tasks[x]? = some s ∧ s.build x = .ok t := by
  obtain ⟨bare, htasks, -, hbare, -⟩ := build_eq_ok h
  rw [Network.task?, ← htasks] at ht
  exact entry_of_filled Network.tasks Network.addTask (fun x s => TaskSection.build s x)
    (fun _ _ _ => rfl) rfl hbare ht

theorem task_of_section (h : f.build = .ok n) (hs : f.tasks[x]? = some s) :
    ∃ t, n.task? x = some t ∧ s.build x = .ok t := by
  obtain ⟨bare, htasks, -, hbare, -⟩ := build_eq_ok h
  rw [Network.task?, ← htasks]
  exact filled_of_entry Network.tasks Network.addTask (fun x s => TaskSection.build s x)
    (fun _ _ _ => rfl) rfl hbare hs

theorem get?_connect {b b' : Network} {c : ConnectionSection} (h : connect b c = .ok b') (l : Link) :
    b'.links.get? l = if c.Joins l then some c.policy else b.links.get? l := by
  obtain ⟨source, sink, hsource, hsink, rfl⟩ := connect_eq_ok h
  have hjoins : c.Joins l ↔ (⟨source, sink⟩ : Link) = l := by
    rw [ConnectionSection.Joins, ← endpointOf_eq_ok, ← endpointOf_eq_ok, hsource, hsink]
    obtain ⟨source', sink'⟩ := l
    simp
  rw [Network.connect, Links.get?_insert]
  simp only [hjoins]

theorem links_of_build (h : f.build = .ok n) (l : Link) :
    n.links.get? l = ((f.connections.filter (·.Joins l)).getLast?).map (·.policy) := by
  obtain ⟨bare, -, hbare, -, h⟩ := build_eq_ok h
  apply foldlM_along (fun passed b => b.links.get? l = ((passed.filter (·.Joins l)).getLast?).map (·.policy)) ?_ h
  · simp [hbare, Links.get?, Links.empty]
  · intro passed c _ b b' hc hb
    rw [get?_connect hc, List.filter_append, List.getLast?_append]
    split
    case isTrue hjoins => simp [hjoins]
    case isFalse hjoins => simp [hjoins, hb]

theorem joined_of_build {p : LinkPolicy} (h : f.build = .ok n) (hl : n.links.get? l = some p) :
    ∃ c ∈ f.connections, c.Joins l ∧ c.policy = p := by
  rw [links_of_build h, Option.map_eq_some_iff] at hl
  obtain ⟨c, hc, rfl⟩ := hl
  obtain ⟨hmem, hjoins⟩ := List.mem_filter.mp (List.mem_of_getLast? hc)
  exact ⟨c, hmem, of_decide_eq_true hjoins, rfl⟩

theorem connection_of_build (h : f.build = .ok n) (hl : l ∈ n.links.labels) :
    ∃ c ∈ f.connections, endpointOf c.source = .ok l.source ∧ endpointOf c.sink = .ok l.sink := by
  obtain ⟨p, hp⟩ := mem_iff_getElem?.mp hl
  obtain ⟨c, hc, ⟨hsource, hsink⟩, -⟩ := joined_of_build h hp
  exact ⟨c, hc, endpointOf_eq_ok.mpr hsource, endpointOf_eq_ok.mpr hsink⟩

theorem label_of_build {p : LinkPolicy} (h : f.build = .ok n) (hl : n.links.get? l = some p) :
    ∃ c ∈ f.connections, c.policy = p := by
  obtain ⟨c, hc, -, hp⟩ := joined_of_build h hl
  exact ⟨c, hc, hp⟩

/-! ### What holds of the network -/

section

variable (h : f.WellFormed) (hn : f.build = .ok n)
include h hn

theorem master_of_task (ht : n.task? x = some t) :
    t.master = f.masterOf x ∧ ∀ m, t.master = some m → ∃ u, n.task? m = some u := by
  obtain ⟨s, hs, hb⟩ := section_of_build hn ht
  have hmaster := TaskSection.master_of_build (h.sections x s hs) hb
  refine ⟨by rw [masterOf, hs, hmaster]; rfl, fun m hm => ?_⟩
  obtain ⟨s', hs'⟩ := mem_iff_getElem?.mp (h.masters x s hs m (hmaster ▸ hm)).2
  obtain ⟨u, hu, -⟩ := task_of_section hn hs'
  exact ⟨u, hu⟩

theorem rank_of_chainEnds {steps : Nat} (ht : n.task? x = some t) (hends : f.chainEnds steps x = true) :
    ∃ k, n.Rank x k := by
  induction steps generalizing x t with
  | zero =>
    rw [chainEnds, Option.isNone_iff_eq_none, ← (master_of_task h hn ht).1] at hends
    exact ⟨0, .root ht hends⟩
  | succ steps ih =>
    obtain ⟨hmaster, hdeployed⟩ := master_of_task h hn ht
    rw [chainEnds, ← hmaster] at hends
    cases hm : t.master with
    | none => exact ⟨0, .root ht hm⟩
    | some m =>
      rw [hm, Option.all_some] at hends
      obtain ⟨u, hu⟩ := hdeployed m hm
      obtain ⟨k, hk⟩ := ih hu hends
      exact ⟨k + 1, .slave ht hm hk⟩

theorem ranked_of_build (ht : n.task? x = some t) : ∃ k, n.Rank x k := by
  have hends : f.chainEnds f.tasks.size x = true := chainEnds_of_acyclic h.acyclic .nil (by simp) (by simp)
  exact rank_of_chainEnds h hn ht hends

end

theorem wellFormed_of_build (h : f.WellFormed) (hn : f.build = .ok n) : n.WellFormed where
  ranked _ _ ht := ranked_of_build h hn ht
  disjoint x t p ht hp hout := by
    obtain ⟨s, hs, hb⟩ := section_of_build hn ht
    obtain ⟨o, ho⟩ := mem_iff_getElem?.mp hout
    obtain ⟨q, hq, -⟩ := TaskSection.output_of_build hb ho
    rw [(TaskSection.build_eq_ok hb).2.2.1] at hp
    exact (h.sections x s hs).disjoint p hp (mem_of_getElem? hq)
  causes x t p o ht ho := by
    obtain ⟨s, hs, hb⟩ := section_of_build hn ht
    obtain ⟨q, hq, hdescribes⟩ := TaskSection.output_of_build hb ho
    rw [hdescribes.triggers, (TaskSection.build_eq_ok hb).2.2.1]
    exact ((h.sections x s hs).outputs p q hq).triggers
  driven x t devices ht hkind a ha p hp := by
    obtain ⟨s, hs, hb⟩ := section_of_build hn ht
    obtain ⟨d, hd, hdescribes⟩ := TaskSection.device_of_build hb (.inl hkind) ha
    have hdevice := (h.sections x s hs).devices d hd
    have hdriver := (TaskSection.kind_of_build hb).1 hkind
    exact TaskSection.mem_outputs_of_build hb (hdevice.driven hdriver p (hdescribes.ports ▸ hp))
  received x t devices ht hkind a ha p hp := by
    obtain ⟨s, hs, hb⟩ := section_of_build hn ht
    obtain ⟨d, hd, hdescribes⟩ := TaskSection.device_of_build hb (.inr hkind) ha
    have hdevice := (h.sections x s hs).devices d hd
    have hbus := (TaskSection.kind_of_build hb).2 hkind
    rw [(TaskSection.build_eq_ok hb).2.2.1]
    exact hdevice.received hbus p (hdescribes.ports ▸ hp)
  sources l hl := by
    obtain ⟨c, hc, hsource, -⟩ := connection_of_build hn hl
    obtain ⟨e, s, he, hs, hport⟩ := h.sources c hc
    obtain rfl := Except.ok.inj ((endpointOf_eq_ok.mpr he).symm.trans hsource)
    obtain ⟨t, ht, hb⟩ := task_of_section hn hs
    exact ⟨t, ht, TaskSection.mem_outputs_of_build hb hport⟩
  sinks l hl := by
    obtain ⟨c, hc, -, hsink⟩ := connection_of_build hn hl
    obtain ⟨e, s, he, hs, hport⟩ := h.sinks c hc
    obtain rfl := Except.ok.inj ((endpointOf_eq_ok.mpr he).symm.trans hsink)
    obtain ⟨t, ht, hb⟩ := task_of_section hn hs
    exact ⟨t, ht, (TaskSection.build_eq_ok hb).2.2.1 ▸ hport⟩

theorem build_wellFormed (h : f.check = .ok ()) (hn : f.build = .ok n) : n.WellFormed :=
  wellFormed_of_build (check_eq_ok.mp h) hn

end NetworkFile

end FlowTiming
