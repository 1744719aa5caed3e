import FlowTiming.Proofs.Dynamics.Counting
import FlowTiming.Proofs.Flow.Devices

/-!
What is declared about a port, in its hint or by the devices attached to it, and what it has in the end.
No trigger is lost, but samples are as great as whatever came to the port first says: the model of an
output, or the first device attached to an input.
-/

namespace FlowTiming

open Board

namespace PortDynamics

variable {d declared : PortDynamics}

/-- What comes of dynamics added to what is known, if anything is. -/
def joined (known : Option PortDynamics) (d : PortDynamics) : PortDynamics := known.elim d (·.merge d)

theorem merge_of_subset (h : ∀ g ∈ declared.triggers, g ∈ d.triggers) : d.merge declared = d := by
  have htriggers : d.triggers ∪ declared.triggers = d.triggers := by
    apply Std.ExtTreeSet.ext_mem
    intro g
    rw [Std.ExtTreeSet.mem_union_iff]
    exact or_iff_left_of_imp (h g)
  rw [merge, htriggers]

theorem mem_joined (known : Option PortDynamics) {g : Trigger} (hg : g ∈ d.triggers) :
    g ∈ (joined known d).triggers := by
  cases known with
  | none => exact hg
  | some k => exact mem_merge.mpr (.inr hg)

theorem joined_twice (known : Option PortDynamics) (d : PortDynamics) :
    joined (some (joined known d)) d = joined known d :=
  merge_of_subset fun _ => mem_joined known

theorem foldl_joined (k : PortDynamics) (ds : List PortDynamics) :
    ds.foldl (fun known d => some (joined known d)) (some k) = some (ds.foldl merge k) := by
  induction ds generalizing k with
  | nil => rfl
  | cons d ds ih => exact ih (k.merge d)

end PortDynamics

/-- What a device behind a bus sends to an input. -/
def Attachment.sends (a : Attachment) (place : Endpoint) : PortDynamics :=
  .ofTriggers place.text a.device.sampleSize a.device.busTriggers

namespace FlowBoard

variable {b : FlowBoard} {x p : String} {t : Task} {d hint : PortDynamics}

/-! ### What a port starts with -/

theorem info?_contribute_open (hopen : b.isFinal ⟨x, some p⟩ = false)
    (hknown : b.info? ⟨x, some p⟩ = none → t.outputs[p]? = none) :
    (b.contribute t ⟨x, some p⟩ d).info? ⟨x, some p⟩ = some (.joined (b.info? ⟨x, some p⟩) d) := by
  have hintroduce : b.introduce t ⟨x, some p⟩ = b := by
    unfold introduce
    rw [isKnown_eq]
    cases hb : b.info? ⟨x, some p⟩ with
    | some k => rfl
    | none => simp [hknown hb]
  rw [contribute, hintroduce, info?_extend_self b hopen]
  rfl

theorem sameAt_seedModels (b : FlowBoard) (x : String) (hp : p ∉ t.outputs) :
    SameAt ⟨x, some p⟩ b (seedModels x t b) := by
  unfold seedModels
  refine (sameAt_of_alters (alters_placeTask b x) (by simp [taskNode])).trans
    (sameAt_foldl _ fun c o ho => ?_)
  have hne : (⟨x, some p⟩ : FlowNode) ≠ Endpoint.node ⟨x, o.1⟩ := by
    intro he
    obtain rfl := Option.some.inj (Node.mk.inj he).2
    exact hp (mem_of_mem_toList ho)
  exact sameAt_of_alters (alters_placeOutput c ⟨x, o.1⟩ o.2) hne

theorem modelled_seedModels (hopen : b.isFinal ⟨x, some p⟩ = false) (hnone : b.info? ⟨x, some p⟩ = none) :
    (seedModels x t b).isFinal ⟨x, some p⟩ = false ∧
      (seedModels x t b).info? ⟨x, some p⟩ = (t.outputs[p]?).map (·.dynamics ⟨x, p⟩) := by
  cases ho : t.outputs[p]? with
  | some o => exact info?_seedModels ho hopen
  | none =>
    have hp : p ∉ t.outputs := by
      intro hp
      obtain ⟨o, ho'⟩ := mem_iff_getElem?.mp hp
      rw [ho] at ho'
      contradiction
    have hsame := sameAt_seedModels b x hp
    exact ⟨hsame.final.trans hopen, hsame.info.trans hnone⟩

/-! ### Hints -/

theorem hinted_seedHints (hh : t.hints.ports[p]? = some hint) (hopen : b.isFinal ⟨x, some p⟩ = false)
    (hknown : b.info? ⟨x, some p⟩ = none → t.outputs[p]? = none) :
    (seedHints x t b).isFinal ⟨x, some p⟩ = true ∧
      (seedHints x t b).info? ⟨x, some p⟩ = some (.joined (b.info? ⟨x, some p⟩) hint) := by
  obtain ⟨start, hstart, he⟩ := seedHints_eq b x t p
  rw [he]
  refine settled_foldl (P := fun h : String × PortDynamics => h.1 = p)
    (fun c h => later_contribute_finalize c t _ h.2) ?_ ?_ ⟨(p, hint), mem_toList_iff.mpr hh, rfl⟩
  · intro c h _ hport
    exact sameAt_contribute_finalize c t h.2 (by simpa using Ne.symm hport)
  · rintro c ⟨q, d⟩ hmem rfl hc
    obtain rfl := Option.some.inj (hh.symm.trans (mem_toList_iff.mp hmem))
    have hsame := hstart.trans hc
    rw [isFinal_finalize, info?_finalize, info?_contribute_open (hsame.final.trans hopen)
      fun hnone => hknown (hsame.info.symm.trans hnone), hsame.info]
    exact ⟨.inl rfl, rfl⟩

/-! ### Devices behind a bus -/

section Bus

variable (hopen : b.isFinal ⟨x, some p⟩ = false) (ho : t.outputs[p]? = none)
include hopen ho

theorem heard_ports (a : Attachment) (ports : List String) :
    let c := ports.foldl (fun b port => contributeTriggers b t ⟨x, some port⟩ (Endpoint.text ⟨x, port⟩)
      a.device.sampleSize a.device.busTriggers) b
    c.isFinal ⟨x, some p⟩ = false ∧ c.info? ⟨x, some p⟩ =
      if p ∈ ports then some (.joined (b.info? ⟨x, some p⟩) (a.sends ⟨x, p⟩)) else b.info? ⟨x, some p⟩ := by
  induction ports generalizing b with
  | nil => exact ⟨hopen, rfl⟩
  | cons q ports ih =>
    simp only [List.foldl_cons]
    obtain ⟨hend, hinfo⟩ := ih ((isFinal_contributeTriggers b t ⟨x, some q⟩ _ _ _ _).trans hopen)
    refine ⟨hend, hinfo.trans ?_⟩
    by_cases he : p = q
    · subst he
      have hstep : (contributeTriggers b t ⟨x, some p⟩ (Endpoint.text ⟨x, p⟩) a.device.sampleSize
          a.device.busTriggers).info? ⟨x, some p⟩ = some (.joined (b.info? ⟨x, some p⟩) (a.sends ⟨x, p⟩)) := by
        rw [contributeTriggers, info?_contribute_open (by simpa using hopen) fun _ => ho, info?_noteAll]
        rfl
      -- where the device lists the port once more, it adds what is there already
      rw [hstep, PortDynamics.joined_twice, ite_self, if_pos (.head _)]
    · have hstep := sameAt_of_alters (touches_contributeTriggers b t ⟨x, some q⟩ (Endpoint.text ⟨x, q⟩)
        a.device.sampleSize a.device.busTriggers).toAlters (x := ⟨x, some p⟩) (by simpa using he)
      rw [hstep.info]
      simp [he]

theorem heard_devices (devices : List Attachment) :
    let c := devices.foldl (seedBusDevice x t) b
    c.isFinal ⟨x, some p⟩ = false ∧ c.info? ⟨x, some p⟩ =
      ((devices.filter (p ∈ ·.ports)).map (·.sends ⟨x, p⟩)).foldl (fun known d => some (.joined known d))
        (b.info? ⟨x, some p⟩) := by
  induction devices generalizing b with
  | nil => exact ⟨hopen, rfl⟩
  | cons a devices ih =>
    obtain ⟨hstill, hheard⟩ := heard_ports hopen ho a a.ports
    obtain ⟨hend, hinfo⟩ := ih (b := seedBusDevice x t b a) hstill
    refine ⟨hend, hinfo.trans ?_⟩
    rw [seedBusDevice, hheard]
    by_cases hp : p ∈ a.ports <;> simp [hp]

theorem attached_seedBus {devices rest : List Attachment} {first : Attachment}
    (hnone : b.info? ⟨x, some p⟩ = none) (hattached : devices.filter (p ∈ ·.ports) = first :: rest) :
    (seedBus x t b devices).info? ⟨x, some p⟩ =
      some ((rest.map (·.sends ⟨x, p⟩)).foldl PortDynamics.merge (first.sends ⟨x, p⟩)) := by
  obtain ⟨-, hheard⟩ := heard_devices hopen ho devices
  rw [hnone, hattached, List.map_cons, List.foldl_cons, PortDynamics.foldl_joined] at hheard
  unfold seedBus
  refine List.foldlRecOn (motive := fun c : FlowBoard => c.info? ⟨x, some p⟩ = _) _ _ hheard ?_
  intro c hc q _
  rw [info?_finalize, hc]

end Bus

end FlowBoard

/-! ### In the end -/

namespace Network

open FlowBoard

variable {n : Network} {x p : String} {t : Task} {b : FlowBoard} {hint : PortDynamics} {k : Nat}

section Task

variable (hr : n.Rank x k) (hopen : b.isFinal ⟨x, some p⟩ = false) (hnone : b.info? ⟨x, some p⟩ = none)
include hopen hnone

theorem seedTask_modelled (n : Network) (t : Task) :
    ∃ c : FlowBoard, c.isFinal ⟨x, some p⟩ = false ∧
      c.info? ⟨x, some p⟩ = t.outputs[p]?.map (·.dynamics ⟨x, p⟩) ∧
      n.seedTask x t b = n.seedActivity x t (seedKind x t (seedHints x t c)) := by
  have hsame := sameFacts_note b (resolverNote "initial port dynamics" [("task", x)])
  obtain ⟨hstill, hmodel⟩ := modelled_seedModels (t := t) ((hsame.final _).trans hopen)
    ((hsame.info _).trans hnone)
  exact ⟨_, hstill, hmodel, rfl⟩

include hr

theorem hinted_seedTask (hh : t.hints.ports[p]? = some hint) :
    (n.seedTask x t b).isFinal ⟨x, some p⟩ = true ∧ (n.seedTask x t b).info? ⟨x, some p⟩ =
      some (.joined (t.outputs[p]?.map (·.dynamics ⟨x, p⟩)) hint) := by
  obtain ⟨c, hstill, hmodel, he⟩ := seedTask_modelled hopen hnone n t
  obtain ⟨hfinal, hinfo⟩ := hinted_seedHints hh hstill fun hc => by simpa using hmodel.symm.trans hc
  rw [hmodel] at hinfo
  have hlater : (seedHints x t c).Later (n.seedTask x t b) := by
    rw [he]
    exact (keeps_later n _ x t).activity hr ((keeps_later n _ x t).kind (.refl _))
  exact ⟨hlater.final _ hfinal, (hlater.frozen _ hfinal).trans hinfo⟩

theorem attached_seedTask {devices rest : List Attachment} {first : Attachment} (hkind : t.kind = .bus devices)
    (hattached : devices.filter (p ∈ ·.ports) = first :: rest) (ho : t.outputs[p]? = none)
    (hh : p ∉ t.hints.ports) :
    (n.seedTask x t b).isFinal ⟨x, some p⟩ = true ∧ (n.seedTask x t b).info? ⟨x, some p⟩ =
      some ((rest.map (·.sends ⟨x, p⟩)).foldl PortDynamics.merge (first.sends ⟨x, p⟩)) := by
  obtain ⟨c, hstill, hmodel, he⟩ := seedTask_modelled hopen hnone n t
  rw [ho] at hmodel
  have hhints := sameAt_seedHints c x hh
  have hfirst : first ∈ devices.filter (p ∈ ·.ports) := hattached ▸ .head _
  obtain ⟨hfirst, hp⟩ := List.mem_filter.mp hfirst
  have hfinal := final_seedKind n (seedHints x t c) x (.received hkind hfirst (of_decide_eq_true hp)) hh
  have hinfo : (seedKind x t (seedHints x t c)).info? ⟨x, some p⟩ =
      some ((rest.map (·.sends ⟨x, p⟩)).foldl PortDynamics.merge (first.sends ⟨x, p⟩)) := by
    simp only [seedKind, hkind]
    exact attached_seedBus (hhints.final.trans hstill) ho (hhints.info.trans hmodel) hattached
  have hlater : (seedKind x t (seedHints x t c)).Later (n.seedTask x t b) := by
    rw [he]
    exact (keeps_later n _ x t).activity hr (.refl _)
  exact ⟨hlater.final _ hfinal, (hlater.frozen _ hfinal).trans hinfo⟩

end Task

/-- Whether the ports of a task have all that is declared about them. How great their samples are, the model of
an output says rather than its hint, and of the devices attached to an input the first. -/
structure KeepsDeclared (x : String) (t : Task) (b : FlowBoard) : Prop where
  hinted : ∀ p hint, t.hints.ports[p]? = some hint → b.isFinal ⟨x, some p⟩ = true ∧
    ∃ d, b.info? ⟨x, some p⟩ = some d ∧ d.Covers hint ∧
      d.sampleSize = t.outputs[p]?.elim hint.sampleSize fun o => max o.sampleSize 1
  attached : ∀ devices a p, t.kind = .bus devices → a ∈ devices → p ∈ a.ports → p ∉ t.hints.ports →
    b.isFinal ⟨x, some p⟩ = true ∧ ∃ d first, b.info? ⟨x, some p⟩ = some d ∧
      d.Covers (a.sends ⟨x, p⟩) ∧ devices.find? (p ∈ ·.ports) = some first ∧
        d.sampleSize = max first.device.sampleSize 1

theorem propagate_keepsDeclared (f : ValidFile) {n : Network} (h : f.file.build = .ok n)
    {tasks : List String} (hall : tasks.Perm n.taskNames) (needs : Dependencies) (engine : FlowEngine)
    (ht : n.task? x = some t) : KeepsDeclared x t (n.rules.propagate tasks needs engine).2.2.board := by
  have hn := NetworkFile.build_wellFormed f.checked h
  have hlater := (unfolds_ended hn hall engine needs).later
  constructor
  case hinted =>
    intro p hint hh
    have hstart : t.StartsFinal (some p) := .hinted (mem_of_getElem? hh)
    obtain ⟨hfinal, hinfo⟩ := seeded_own hn hall ht hstart fun b k hr hopen hnone =>
      hinted_seedTask hr hopen hnone hh
    refine ⟨hlater.final _ hfinal, _, (hlater.frozen _ hfinal).trans hinfo, ?_, ?_⟩
    · exact PortDynamics.covers_of_subset fun g => PortDynamics.mem_joined _
    · cases t.outputs[p]? with
      | none => rfl
      | some o => exact (PortDynamics.name_ofTriggers _ _ _).2
  case attached =>
    intro devices a p hkind ha hp hh
    have hstart : t.StartsFinal (some p) := .received hkind ha hp
    have ho : t.outputs[p]? = none := by
      apply Std.ExtTreeMap.getElem?_eq_none
      exact hn.disjoint x t p ht (hn.received x t devices ht hkind a ha p hp)
    have hmem : a ∈ devices.filter (p ∈ ·.ports) := List.mem_filter.mpr ⟨ha, decide_eq_true hp⟩
    obtain ⟨first, rest, hattached⟩ := List.exists_cons_of_ne_nil (List.ne_nil_of_mem hmem)
    obtain ⟨hfinal, hinfo⟩ := seeded_own hn hall ht hstart fun b k hr hopen hnone =>
      attached_seedTask hr hopen hnone hkind hattached ho hh
    obtain ⟨-, hsize, hmerged⟩ := PortDynamics.foldl_merge (rest.map (·.sends ⟨x, p⟩)) (first.sends ⟨x, p⟩)
    refine ⟨hlater.final _ hfinal, _, first, (hlater.frozen _ hfinal).trans hinfo, ?_, ?_, ?_⟩
    · refine PortDynamics.covers_of_subset fun g hg => (hmerged g).mpr ?_
      rw [hattached] at hmem
      rcases List.mem_cons.mp hmem with rfl | hmem
      · exact .inl hg
      · exact .inr ⟨_, List.mem_map_of_mem hmem, hg⟩
    · rw [← List.head?_filter, hattached, List.head?_cons]
    · exact hsize.trans (PortDynamics.name_ofTriggers _ _ _).2

def sender (name : String) (size : Count) : DeviceSection where
  name := name
  period := some (.signed false 1)
  sampleSize := size
  ports := ["in"]

def senderTo (name : String) (size : Count) : Attachment := ⟨⟨name, some ⟨1000000000, by decide⟩, 0, size⟩, ["in"]⟩

/-- A bus with devices attached to its only input, and a task with a hint for its only output. All of them
send once a second. -/
def bridge (devices : List DeviceSection) (size : Count) : NetworkFile where
  tasks := ((∅ : Std.ExtTreeMap String TaskSection).insert "bus"
    { kind := .bus, devices, inputs := (∅ : Std.ExtTreeMap String InputPort).insert "in" {} }).insert "proxy"
      { outputs := (∅ : Std.ExtTreeMap String OutputSection).insert "out" {}
        hints := [{ port := some "out", name := "guess", sampleCount := 1, sampleSize := some size
                    period := .signed false 1 }] }

def wideFirst : ValidFile := ⟨bridge [sender "wide" 4, sender "slow" 1] 1, by decide +kernel⟩

theorem wideFirst_keepsDeclared : ∃ n t d, wideFirst.file.build = .ok n ∧ ["proxy", "bus"].Perm n.taskNames ∧
    n.task? "bus" = some t ∧
    let ended := (n.rules.propagate ["proxy", "bus"] ∅ .fresh).2.2.board
    KeepsDeclared "bus" t ended ∧ ended.info? ⟨"bus", some "in"⟩ = some d ∧
      (d.queueSize ⟨1000000000, by decide⟩).toNat = 12 := by
  have hbuild : (wideFirst.file.build.map fun n => (n.taskNames, (n.task? "bus").isSome,
      ((n.rules.propagate ["proxy", "bus"] ∅ .fresh).2.2.board.info? ⟨"bus", some "in"⟩).map fun d =>
        (d.queueSize ⟨1000000000, by decide⟩).toNat)) = .ok (["bus", "proxy"], true, some 12) := by
    decide +kernel
  obtain ⟨n, h, hn⟩ := map_eq_ok.mp hbuild
  simp only [Prod.mk.injEq] at hn
  obtain ⟨hnames, htask, hinfo⟩ := hn
  obtain ⟨t, ht⟩ := Option.isSome_iff_exists.mp htask
  obtain ⟨d, hd, hqueue⟩ := Option.map_eq_some_iff.mp hinfo
  have hall : ["proxy", "bus"].Perm n.taskNames := by rw [hnames]; decide
  exact ⟨n, t, d, h, hall, ht, propagate_keepsDeclared wideFirst h hall ∅ .fresh ht, hd, hqueue⟩

def slowFirst : ValidFile := ⟨bridge [sender "slow" 1, sender "wide" 4] 3, by decide +kernel⟩

theorem slowFirst_understates : ∃ n t u d d' hint, slowFirst.file.build = .ok n ∧
    let board := (n.propagate .fresh).2.2.board
    let span : Duration := ⟨1000000000, by decide⟩
    (n.task? "bus" = some t ∧ t.kind = .bus [senderTo "slow" 1, senderTo "wide" 4] ∧ "in" ∉ t.hints.ports ∧
      board.isFinal ⟨"bus", some "in"⟩ = true ∧ board.info? ⟨"bus", some "in"⟩ = some d ∧
        ¬ ((senderTo "wide" 4).sends ⟨"bus", "in"⟩).queueSize span ≤ d.queueSize span) ∧
    (n.task? "proxy" = some u ∧ u.hints.ports["out"]? = some hint ∧
      board.isFinal ⟨"proxy", some "out"⟩ = true ∧ board.info? ⟨"proxy", some "out"⟩ = some d' ∧
        ¬ hint.queueSize span ≤ d'.queueSize span) := by
  have hbuild : (slowFirst.file.build.map fun n =>
      ((n.task? "bus").map fun t => decide (t.kind = .bus [senderTo "slow" 1, senderTo "wide" 4] ∧
          "in" ∉ t.hints.ports),
        ((n.propagate .fresh).2.2.board.info? ⟨"bus", some "in"⟩).map fun d =>
          (d.queueSize ⟨1000000000, by decide⟩).toNat,
        (n.task? "proxy").bind fun u => (u.hints.ports["out"]?).map fun hint =>
          (hint.queueSize ⟨1000000000, by decide⟩).toNat,
        ((n.propagate .fresh).2.2.board.info? ⟨"proxy", some "out"⟩).map fun d =>
          (d.queueSize ⟨1000000000, by decide⟩).toNat)) = .ok (some true, some 3, some 6, some 2) := by
    decide +kernel
  have hfinals : (slowFirst.file.build.map fun n => ((n.propagate .fresh).2.2.board.isFinal ⟨"bus", some "in"⟩,
      (n.propagate .fresh).2.2.board.isFinal ⟨"proxy", some "out"⟩)) = .ok (true, true) := by
    decide +kernel
  obtain ⟨n, h, hn⟩ := map_eq_ok.mp hbuild
  rw [h] at hfinals
  obtain ⟨hfinal, hfinal'⟩ := Prod.mk.inj (Except.ok.inj hfinals)
  simp only [Prod.mk.injEq] at hn
  obtain ⟨hbus, hheard, hproxy, hmodel⟩ := hn
  obtain ⟨t, ht, hvalues⟩ := Option.map_eq_some_iff.mp hbus
  obtain ⟨hkind, hfree⟩ := of_decide_eq_true hvalues
  obtain ⟨d, hd, hqueue⟩ := Option.map_eq_some_iff.mp hheard
  obtain ⟨u, hu, hhinted⟩ := Option.bind_eq_some_iff.mp hproxy
  obtain ⟨hint, hhint, hneeded⟩ := Option.map_eq_some_iff.mp hhinted
  obtain ⟨d', hd', hqueue'⟩ := Option.map_eq_some_iff.mp hmodel
  have hwide : (((senderTo "wide" 4).sends ⟨"bus", "in"⟩).queueSize ⟨1000000000, by decide⟩).toNat = 8 := by
    decide +kernel
  refine ⟨n, t, u, d, d', hint, h, ⟨ht, hkind, hfree, hfinal, hd, ?_⟩, hu, hhint, hfinal', hd', ?_⟩
  · rw [Count.le_def, hwide, hqueue]
    decide
  · rw [Count.le_def, hneeded, hqueue']
    decide

end Network

end FlowTiming
