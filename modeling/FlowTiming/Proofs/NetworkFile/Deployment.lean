import FlowTiming.Proofs.Dynamics.Triggers
import FlowTiming.Proofs.NetworkFile.Building
import FlowTiming.Proofs.Policy.Judgement

/-!
A validated file can be built, and in the network built from it everything that is named is there
(`build_coherent`).
-/

namespace FlowTiming

/-- Whether no dynamics known in advance have a sample size of zero. -/
def Hints.Sized (hints : Hints) : Prop :=
  (∀ d, hints.task = some d → 1 ≤ d.sampleSize.toNat) ∧
    ∀ (p : String) (d : PortDynamics), hints.ports[p]? = some d → 1 ≤ d.sampleSize.toNat

structure Network.Coherent (n : Network) : Prop extends n.WellFormed where
  periods : ∀ x t period, n.task? x = some t → t.activity = .periodic period → 1 ≤ period.nanos
  masters : ∀ x t m, n.task? x = some t → t.master = some m → ∃ u, n.task? m = some u
  /-- Masters end, and in fewer steps than there are tasks. -/
  grounded : ∀ x t, n.task? x = some t → ∃ k < n.tasks.size, n.Rank x k
  hinted : ∀ x t, n.task? x = some t → ∀ p ∈ t.hints.ports, p ∈ t.outputs ∨ p ∈ t.inputs
  outputSizes : ∀ x t (p : String) (o : OutputPort), n.task? x = some t → t.outputs[p]? = some o →
    1 ≤ o.sampleSize.toNat
  deviceSizes : ∀ x t devices, n.task? x = some t → t.kind = .driver devices ∨ t.kind = .bus devices →
    ∀ a ∈ devices, 1 ≤ a.device.sampleSize.toNat
  hintSizes : ∀ x t, n.task? x = some t → t.hints.Sized

/-! ### Sections -/

theorem OutputSection.exists_build {q : OutputSection} {s : TaskSection} (h : q.WellFormed s) :
    ∃ o, q.build = .ok o := by
  obtain ⟨period, hperiod⟩ := h.burstPeriod
  simp only [build, bind_eq_ok, spanOf_eq_ok]
  exact ⟨_, period, hperiod, rfl⟩

theorem DeviceSection.exists_build {d : DeviceSection} {s : TaskSection} (h : d.WellFormed s) :
    ∃ a, d.build = .ok a := by
  unfold build
  cases hd : d.period with
  | none => exact ⟨_, rfl⟩
  | some value =>
    obtain ⟨period, hperiod⟩ := h.period value hd
    simp only [bind_eq_ok, Functor.map, map_eq_ok, spanOf_eq_ok]
    exact ⟨_, _, ⟨period, hperiod, rfl⟩, rfl⟩

namespace HintSection

variable {h : HintSection} {s : TaskSection} {x p : String} {hints hints' : Hints}
  {outputs : Std.ExtTreeMap String OutputPort}

theorem exists_addTo (hs : h.WellFormed s) (hints : Hints) :
    ∃ hints', addTo x outputs hints h = .ok hints' := by
  obtain ⟨period, hperiod⟩ := hs.period
  simp only [addTo, trigger, bind_eq_ok, spanOf_eq_ok]
  exact ⟨_, _, ⟨period, hperiod, rfl⟩, rfl⟩

theorem port_of_addTo (ha : addTo x outputs hints h = .ok hints') (hp : p ∈ hints'.ports) :
    p ∈ hints.ports ∨ h.port = some p := by
  simp only [addTo, bind_eq_ok] at ha
  obtain ⟨t, -, ha⟩ := ha
  obtain rfl := Except.ok.inj ha
  cases hport : h.port with
  | none =>
    rw [hport] at hp
    exact .inl hp
  | some port =>
    simp only [hport, Std.ExtTreeMap.mem_insert, Std.compare_eq_iff_eq] at hp
    exact hp.symm.imp_right (congrArg some)

theorem sized_of_addTo (ha : addTo x outputs hints h = .ok hints') (hs : hints.Sized) : hints'.Sized := by
  simp only [addTo, bind_eq_ok] at ha
  obtain ⟨t, -, ha⟩ := ha
  obtain rfl := Except.ok.inj ha
  have extended (known : Option PortDynamics) (hknown : ∀ d, known = some d → 1 ≤ d.sampleSize.toNat)
      (label : String) (size : Count) :
      1 ≤ ((known.getD (.empty label size)).addTrigger t).sampleSize.toNat := by
    rw [PortDynamics.sampleSize_addTrigger]
    cases known with
    | none =>
      simp only [Option.getD_none, PortDynamics.empty, Count.toNat_max, Count.toNat_one]
      exact Nat.le_max_right _ _
    | some d => exact hknown d rfl
  cases h.port with
  | none =>
    refine ⟨fun d hd => ?_, hs.2⟩
    obtain rfl := Option.some.inj hd
    exact extended hints.task hs.1 _ _
  | some port =>
    refine ⟨hs.1, fun p d hd => ?_⟩
    simp only [Std.ExtTreeMap.getElem?_insert] at hd
    split at hd
    case isTrue =>
      obtain rfl := Option.some.inj hd
      rw [Std.ExtTreeMap.getD_eq_getD_getElem?]
      exact extended hints.ports[port]? (hs.2 port) _ _
    case isFalse => exact hs.2 p d hd

end HintSection

/-! ### Tasks -/

namespace TaskSection

variable {s : TaskSection} {x : String} {t : Task}

theorem exists_buildActivity (h : s.WellFormed) : ∃ activity, s.buildActivity = .ok activity := by
  unfold buildActivity
  cases hs : s.activity with
  | periodic =>
    obtain ⟨value, hvalue, d, hd, -⟩ := h.periodic hs
    rw [Option.mem_def] at hvalue
    simp only [map_eq_ok, spanOf_eq_ok, hvalue, Option.getD_some]
    exact ⟨_, d, hd, rfl⟩
  | triggered | slave => exact ⟨_, rfl⟩

theorem exists_buildOutputs (h : s.WellFormed) : ∃ outputs, s.buildOutputs = .ok outputs := by
  refine exists_foldlM (fun q hq outputs => ?_) ∅
  obtain ⟨o, ho⟩ := OutputSection.exists_build (h.outputs q.1 q.2 (mem_toList_iff.mp hq))
  exact ⟨_, map_eq_ok.mpr ⟨o, ho, rfl⟩⟩

theorem exists_build (h : s.WellFormed) (x : String) : ∃ t, s.build x = .ok t := by
  obtain ⟨activity, hactivity⟩ := exists_buildActivity h
  obtain ⟨latency, hlatency⟩ := h.latency
  obtain ⟨outputs, houtputs⟩ := exists_buildOutputs h
  obtain ⟨devices, hdevices⟩ := exists_mapM fun d hd => DeviceSection.exists_build (h.devices d hd)
  have hadd (hint : HintSection) (hhint : hint ∈ s.hints) (hints : Hints) :
      ∃ hints', hint.addTo x outputs hints = .ok hints' :=
    HintSection.exists_addTo (h.hints hint hhint) hints
  obtain ⟨hints, hhints⟩ := exists_foldlM hadd {}
  simp only [build, bind_eq_ok, spanOf_eq_ok]
  exact ⟨_, activity, hactivity, latency, hlatency, outputs, houtputs, devices, hdevices, hints, hhints, rfl⟩

theorem period_of_build {period : Duration} (h : s.WellFormed) (hb : s.build x = .ok t)
    (hp : t.activity = .periodic period) : 1 ≤ period.nanos := by
  have hact := activity_of_build h hb
  rw [hp] at hact
  cases hact with
  | periodic hs hvalue hspan =>
    obtain ⟨value', hvalue', d, hd, hpos⟩ := h.periodic hs
    obtain rfl := Option.some.inj (hvalue.symm.trans hvalue')
    rwa [Binary64.rightUnique_spans hspan hd]

theorem hinted_of_build {p : String} (hb : s.build x = .ok t) (hp : p ∈ t.hints.ports) :
    ∃ h ∈ s.hints, h.port = some p := by
  have hhints := (build_eq_ok hb).2.2.2.2.1
  exact (of_foldlM (fun hints : Hints => p ∈ hints.ports) (fun h => h.port = some p)
    (fun _ _ _ => HintSection.port_of_addTo) hhints hp).resolve_left (by simp)

theorem sized_of_build (hb : s.build x = .ok t) : t.hints.Sized := by
  have hhints := (build_eq_ok hb).2.2.2.2.1
  exact foldlM_keeps Hints.Sized (fun _ _ _ => HintSection.sized_of_addTo) hhints ⟨by simp, by simp⟩

end TaskSection

/-! ### Networks -/

namespace NetworkFile

variable {f : NetworkFile} {n : Network}

theorem exists_build (h : f.WellFormed) : ∃ n, f.build = .ok n := by
  have htask (a : String × TaskSection) (ha : a ∈ f.tasks.toList) (b : Network) :
      ∃ b', (a.2.build a.1).map (b.addTask a.1) = .ok b' := by
    obtain ⟨t, ht⟩ := TaskSection.exists_build (h.sections a.1 a.2 (mem_toList_iff.mp ha)) a.1
    exact ⟨_, map_eq_ok.mpr ⟨t, ht, rfl⟩⟩
  have hconnection (c : ConnectionSection) (hc : c ∈ f.connections) (b : Network) :
      ∃ b', connect b c = .ok b' := by
    obtain ⟨source, -, hsource, -⟩ := h.sources c hc
    obtain ⟨sink, -, hsink, -⟩ := h.sinks c hc
    simp only [connect, bind_eq_ok, endpointOf_eq_ok]
    exact ⟨_, source, hsource, sink, hsink, rfl⟩
  obtain ⟨bare, hbare⟩ := exists_foldlM htask .empty
  obtain ⟨n, hn⟩ := exists_foldlM hconnection bare
  exact ⟨n, bind_eq_ok.mpr ⟨bare, hbare, hn⟩⟩

theorem coherent_of_build (h : f.WellFormed) (hn : f.build = .ok n) : n.Coherent where
  toWellFormed := wellFormed_of_build h hn
  periods x t period ht hp := by
    obtain ⟨s, hs, hb⟩ := section_of_build hn ht
    exact TaskSection.period_of_build (h.sections x s hs) hb hp
  masters x t m ht hm := (master_of_task h hn ht).2 m hm
  grounded x t ht := by
    obtain ⟨k, hk⟩ := ranked_of_build h hn ht
    exact ⟨k, hk.lt_size, hk⟩
  hinted x t ht p hp := by
    obtain ⟨s, hs, hb⟩ := section_of_build hn ht
    obtain ⟨hint, hhint, hport⟩ := TaskSection.hinted_of_build hb hp
    rw [(TaskSection.build_eq_ok hb).2.2.1]
    exact (((h.sections x s hs).hints hint hhint).port p hport).imp_left
      (TaskSection.mem_outputs_of_build hb)
  outputSizes x t p o ht ho := by
    obtain ⟨s, hs, hb⟩ := section_of_build hn ht
    obtain ⟨q, hq, hdescribes⟩ := TaskSection.output_of_build hb ho
    exact hdescribes.sampleSize ▸ ((h.sections x s hs).outputs p q hq).sampleSize
  deviceSizes x t devices ht hkind a ha := by
    obtain ⟨s, hs, hb⟩ := section_of_build hn ht
    obtain ⟨d, hd, hdescribes⟩ := TaskSection.device_of_build hb hkind ha
    exact hdescribes.sampleSize ▸ ((h.sections x s hs).devices d hd).sampleSize
  hintSizes x t ht := by
    obtain ⟨s, -, hb⟩ := section_of_build hn ht
    exact TaskSection.sized_of_build hb

end NetworkFile

/-! ### Links -/

namespace Synthesis

variable {s : Synthesis} {l : Link} {p : LinkPolicy}

theorem exists_model (hn : s.network.WellFormed) (hl : l ∈ s.network.links.labels) :
    ∃ sink input, s.model l = .ok (sink, input) := by
  obtain ⟨sink, hsink, hport⟩ := hn.sinks l hl
  obtain ⟨input, hinput⟩ := mem_iff_getElem?.mp hport
  exact ⟨sink, input, model_eq_ok.mpr ⟨hn.sources l hl, hsink, hinput⟩⟩

theorem fallBack_ne_badModel {gap : Gap} {fault : ModelFault} :
    s.fallBack l p gap ≠ .error (.badModel fault) := by
  unfold fallBack gapFailure
  cases p.fallback with
  | some policy => nofun
  | none =>
    cases gap with
    | sourceDynamics => cases s.cycleThrough l.source <;> nofun
    | sinkPeriod => nofun

theorem policyFor_ne_badModel (hn : s.network.WellFormed) (hl : l ∈ s.network.links.labels)
    (fault : ModelFault) : s.policyFor l p ≠ .error (.badModel fault) := by
  intro hbad
  obtain ⟨sink, input, hm⟩ := exists_model hn hl
  have hj := judged s l p
  generalize hresult : s.policyFor l p = result at hj
  rw [hbad] at hresult
  cases hj with
  | preset | unreliable | overflow | sized => simp at hresult
  | unmodelled _ hm' => simp [hm] at hm'
  | lacking => exact fallBack_ne_badModel hresult.symm

end Synthesis

/-- Every validated file describes a coherent network, whatever the policy of a link is found from. -/
theorem NetworkFile.build_coherent (v : ValidFile) : ∃ n, v.file.build = .ok n ∧ n.Coherent ∧
    ∀ s : Synthesis, s.network = n → ∀ l ∈ n.links.labels, ∀ p fault,
      s.policyFor l p ≠ .error (.badModel fault) := by
  have h := check_eq_ok.mp v.checked
  obtain ⟨n, hn⟩ := exists_build h
  have hcoherent := coherent_of_build h hn
  refine ⟨n, hn, hcoherent, ?_⟩
  rintro s rfl l hl p fault
  exact Synthesis.policyFor_ne_badModel hcoherent.toWellFormed hl fault

end FlowTiming
