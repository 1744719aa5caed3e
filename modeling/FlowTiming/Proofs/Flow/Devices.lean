import FlowTiming.Proofs.Flow.FinalNodes

/-!
What the outputs of a driver have in the end. The first active device attached to an output makes it
final, so nothing of the devices after it gets there.
-/

namespace FlowTiming

open Board

/-! ### What a device brings -/

namespace Device

/-- What a device gives to the outputs of its driver: where the driver reads it by its own period, all
that has piled up since it last did, and otherwise its own triggers. -/
def given (d : Device) : Activity → List Trigger
  | .periodic period => [d.polled period]
  | .triggered | .slave _ => d.triggers

def brings (d : Device) (activity : Activity) : PortDynamics :=
  .ofTriggers d.name 1 (d.given activity)

end Device

/-- Whether something comes to an output from an attached device. -/
def Attachment.Feeds (a : Attachment) (p : String) : Prop := a.device.IsActive ∧ p ∈ a.ports

namespace FlowBoard

variable {x : FlowNode} {b : FlowBoard} {task p : String} {t : Task} {o : OutputPort} {a : Attachment}
  {known : PortDynamics}

/-! ### What an output starts with -/

theorem seedHints_eq (b : FlowBoard) (task : String) (t : Task) (p : String) :
    ∃ c : FlowBoard, SameAt ⟨task, some p⟩ b c ∧ seedHints task t b =
      t.hints.ports.toList.foldl (fun b h => (contribute b t ⟨task, some h.1⟩ h.2).finalize ⟨task, some h.1⟩) c := by
  unfold seedHints
  cases t.hints.task with
  | none => exact ⟨b, .refl _ b, rfl⟩
  | some d => exact ⟨_, sameAt_of_alters (alters_contribute b t _ d) (by simp [taskNode]), rfl⟩

theorem sameAt_seedHints (b : FlowBoard) (task : String) (hp : p ∉ t.hints.ports) :
    SameAt ⟨task, some p⟩ b (seedHints task t b) := by
  obtain ⟨c, hsame, he⟩ := seedHints_eq b task t p
  rw [he]
  refine hsame.trans (sameAt_foldl c fun c h hh => ?_)
  have hport : p ≠ h.1 := fun he => hp (he ▸ mem_of_mem_toList hh)
  exact sameAt_contribute_finalize c t h.2 (by simpa using hport)

theorem info?_seedModels (ho : t.outputs[p]? = some o) (hopen : b.isFinal ⟨task, some p⟩ = false) :
    (seedModels task t b).isFinal ⟨task, some p⟩ = false ∧
      (seedModels task t b).info? ⟨task, some p⟩ = some (o.dynamics ⟨task, p⟩) := by
  have final_place (c : FlowBoard) (q : String × OutputPort) :
      (placeOutput c ⟨task, q.1⟩ q.2).isFinal ⟨task, some p⟩ = c.isFinal ⟨task, some p⟩ :=
    (alters_placeOutput c ⟨task, q.1⟩ q.2).final _
  have hfinal : (seedModels task t b).isFinal ⟨task, some p⟩ = false :=
    (Network.isFinal_seedModels b task t _).trans hopen
  have place (c : FlowBoard) (hopen : c.isFinal ⟨task, some p⟩ = false) :
      (placeOutput c ⟨task, p⟩ o).info? ⟨task, some p⟩ = some (o.dynamics ⟨task, p⟩) :=
    info?_replace_self _ ((isFinal_noteAll c _ _).trans hopen) _
  refine ⟨hfinal, ?_⟩
  unfold seedModels at hfinal ⊢
  refine foldl_reaches (fun c : FlowBoard => c.isFinal ⟨task, some p⟩ = false →
    c.info? ⟨task, some p⟩ = some (o.dynamics ⟨task, p⟩)) (mem_toList_iff (e := (p, o)).mpr ho)
    ?_ ?_ _ hfinal
  · rintro c ⟨q, o'⟩ hq hc hopen
    rw [final_place] at hopen
    by_cases he : p = q
    · subst he
      obtain rfl := Option.some.inj (ho.symm.trans (mem_toList_iff.mp hq))
      exact place c hopen
    · have hsame := sameAt_of_alters (alters_placeOutput c ⟨task, q⟩ o')
        (x := ⟨task, some p⟩) (by simpa [Endpoint.node] using he)
      exact hsame.info.trans (hc hopen)
  · intro c hopen
    rw [final_place c (p, o)] at hopen
    exact place c hopen

/-! ### Devices -/

theorem serve_self (t : Task) (d : PortDynamics) (hopen : b.isFinal x = false)
    (hx : b.info? x = some known) : ((b.contribute t x d).finalize x).isFinal x = true ∧
      ((b.contribute t x d).finalize x).info? x = some (known.merge d) := by
  rw [isFinal_finalize, info?_finalize, info?_contribute_of_known t d hopen hx]
  exact ⟨.inl rfl, rfl⟩

/-- Whether a step serves an output: it adds dynamics to it and makes it final. -/
def Serves (task : String) (t : Task) (d : PortDynamics) (f : FlowBoard → String → FlowBoard) : Prop :=
  ∀ c q, ∃ c' : FlowBoard, SameFacts c c' ∧ f c q = (c'.contribute t ⟨task, some q⟩ d).finalize ⟨task, some q⟩

section Serves

variable {d : PortDynamics} {f : FlowBoard → String → FlowBoard} (hf : Serves task t d f)
include hf

theorem Serves.sameAt (c : FlowBoard) {q : String} (hne : p ≠ q) : SameAt ⟨task, some p⟩ c (f c q) := by
  obtain ⟨c', hsame, he⟩ := hf c q
  rw [he]
  exact (sameAt_of_same hsame _).trans (sameAt_contribute_finalize c' t d (by simpa using hne))

theorem Serves.later (c : FlowBoard) (q : String) : c.Later (f c q) := by
  obtain ⟨c', hsame, he⟩ := hf c q
  rw [he]
  exact hsame.later.trans (later_contribute_finalize c' t _ d)

theorem Serves.self {c : FlowBoard} (hopen : c.isFinal ⟨task, some p⟩ = false)
    (hp : c.info? ⟨task, some p⟩ = some known) : (f c p).isFinal ⟨task, some p⟩ = true ∧
      (f c p).info? ⟨task, some p⟩ = some (known.merge d) := by
  obtain ⟨c', hsame, he⟩ := hf c p
  rw [he]
  exact serve_self t d ((hsame.final _).trans hopen) ((hsame.info _).trans hp)

theorem Serves.foldl_sameAt {ports : List String} (hp : p ∉ ports) (c : FlowBoard) :
    SameAt ⟨task, some p⟩ c (ports.foldl f c) :=
  sameAt_foldl c fun c' _ hq => hf.sameAt c' fun he => hp (he ▸ hq)

theorem Serves.foldl {ports : List String} (hp : p ∈ ports) {c : FlowBoard}
    (hopen : c.isFinal ⟨task, some p⟩ = false) (hinfo : c.info? ⟨task, some p⟩ = some known) :
    (ports.foldl f c).isFinal ⟨task, some p⟩ = true ∧
      (ports.foldl f c).info? ⟨task, some p⟩ = some (known.merge d) := by
  refine settled_foldl (P := (p = ·)) hf.later (fun c q _ hne => hf.sameAt c hne) ?_ ⟨p, hp, rfl⟩
  rintro c' _ - rfl hsame
  exact hf.self (hsame.final.trans hopen) (hsame.info.trans hinfo)

end Serves

theorem seedDevice_eq (b : FlowBoard) (task : String) (t : Task) (ha : a.device.IsActive) :
    ∃ c f, (∀ p, SameAt ⟨task, some p⟩ b c) ∧ Serves task t (a.device.brings t.activity) f ∧
      seedDevice task t b a = a.ports.foldl f c := by
  have hnotes : SameFacts b ((b.note (a.device.note task)).noteAll
      (PortDynamics.additionNotes a.device.name a.device.triggers)) :=
    (sameFacts_note b _).trans (sameFacts_noteAll _ _)
  have hne (p : String) : (⟨task, some p⟩ : FlowNode) ≠ taskNode task := by simp [taskNode]
  have woken (c : FlowBoard) (p : String) : SameAt ⟨task, some p⟩ c
      (c.contribute t (taskNode task) a.device.dynamics) :=
    sameAt_of_alters (alters_contribute c t _ _) (hne p)
  unfold seedDevice
  simp only
  rw [if_neg (Device.dynamics_of_isActive ha)]
  split
  case h_1 period hactivity =>
    rw [hactivity]
    exact ⟨_, _, fun p => sameAt_of_same hnotes _, fun c q => ⟨_, sameFacts_noteAll c _, rfl⟩, rfl⟩
  case h_2 hactivity =>
    rw [hactivity]
    exact ⟨_, _, fun p => (sameAt_of_same hnotes _).trans (woken _ p), fun c q => ⟨c, .refl c, rfl⟩, rfl⟩
  case h_3 hactivity =>
    rw [hactivity]
    exact ⟨_, _, fun p => (sameAt_of_same hnotes _).trans (woken _ p), fun c q => ⟨c, .refl c, rfl⟩, rfl⟩

theorem sameAt_seedDevice (b : FlowBoard) (task : String) (t : Task) (ha : ¬ a.Feeds p) :
    SameAt ⟨task, some p⟩ b (seedDevice task t b a) := by
  by_cases hactive : a.device.IsActive
  · obtain ⟨c, f, hsame, hf, he⟩ := seedDevice_eq b task t hactive
    rw [he]
    exact (hsame p).trans (hf.foldl_sameAt (fun hp => ha ⟨hactive, hp⟩) c)
  · have hempty : a.device.dynamics.isEmpty = true := by
      by_contra hd
      exact hactive (Device.isActive_of_dynamics hd)
    unfold seedDevice
    simp only
    rw [if_pos hempty]
    exact sameAt_of_same ((sameFacts_note b _).trans (sameFacts_noteAll _ _)) _

theorem served_seedDevice (task : String) (t : Task) (ha : a.Feeds p) (hopen : b.isFinal ⟨task, some p⟩ = false)
    (hinfo : b.info? ⟨task, some p⟩ = some known) :
    (seedDevice task t b a).isFinal ⟨task, some p⟩ = true ∧
      (seedDevice task t b a).info? ⟨task, some p⟩ =
        some (known.merge (a.device.brings t.activity)) := by
  obtain ⟨c, f, hsame, hf, he⟩ := seedDevice_eq b task t ha.1
  rw [he]
  exact hf.foldl ha.2 ((hsame p).final.trans hopen) ((hsame p).info.trans hinfo)

end FlowBoard

/-! ### Drivers -/

namespace Network

open FlowBoard

variable {n : Network} {x p : String} {t : Task} {o : OutputPort} {before after : List Attachment}
  {a : Attachment} {b : FlowBoard}

def firstServed (o : OutputPort) (x p : String) (t : Task) (a : Attachment) : PortDynamics :=
  (o.dynamics ⟨x, p⟩).merge (a.device.brings t.activity)

section Driver

variable (hkind : t.kind = .driver (before ++ a :: after)) (ho : t.outputs[p]? = some o)
  (hhint : p ∉ t.hints.ports) (hbefore : ∀ a' ∈ before, ¬ a'.Feeds p) (ha : a.Feeds p)
include hkind ho hhint hbefore ha

theorem served_seedTask {k : Nat} (hr : n.Rank x k) (hopen : b.isFinal ⟨x, some p⟩ = false) :
    (n.seedTask x t b).isFinal ⟨x, some p⟩ = true ∧
      (n.seedTask x t b).info? ⟨x, some p⟩ = some (firstServed o x p t a) := by
  unfold seedTask
  simp only
  generalize hnote : b.note (resolverNote "initial port dynamics" [("task", x)]) = c
  have hc : c.isFinal ⟨x, some p⟩ = false := by rw [← hnote, isFinal_note, hopen]
  obtain ⟨hmodel, hinfo⟩ := info?_seedModels ho hc
  have hhints := sameAt_seedHints (seedModels x t c) x hhint
  have hskipped : SameAt ⟨x, some p⟩ (seedHints x t (seedModels x t c))
      (before.foldl (seedDevice x t) (seedHints x t (seedModels x t c))) :=
    sameAt_foldl _ fun c' a' ha' => sameAt_seedDevice c' x t (hbefore a' ha')
  have hsame := hhints.trans hskipped
  obtain ⟨hfinal, hserved⟩ := served_seedDevice x t ha (hsame.final.trans hmodel) (hsame.info.trans hinfo)
  -- from here on the output is frozen
  have hlater : (seedDevice x t (before.foldl (seedDevice x t)
      (seedHints x t (seedModels x t c))) a).Later
        (n.seedActivity x t (seedKind x t (seedHints x t (seedModels x t c)))) := by
    refine (keeps_later n _ x t).activity hr ?_
    simp only [seedKind, hkind, List.foldl_append, List.foldl_cons]
    refine List.foldlRecOn _ _ (Later.refl _) fun c' hc' a' ha' => ?_
    exact (keeps_later n _ x t).device hkind (List.mem_append_right _ (.tail _ ha')) hc'
  exact ⟨hlater.final _ hfinal, (hlater.frozen _ hfinal).trans hserved⟩

theorem served_seeded (hn : n.WellFormed) {tasks : List String} (hall : tasks.Perm n.taskNames)
    (ht : n.task? x = some t) : (n.seeded tasks).isFinal ⟨x, some p⟩ = true ∧
      (n.seeded tasks).info? ⟨x, some p⟩ = some (firstServed o x p t a) := by
  have hstart : t.StartsFinal (some p) :=
    .driven hkind (List.mem_append_right _ (.head _)) ha.1 ha.2
  exact seeded_own hn hall ht hstart fun b k hr hopen _ =>
    served_seedTask hkind ho hhint hbefore ha hr hopen

end Driver

/-- In the end an output of a driver has its own burst and what the first active device attached to it
gives, and nothing of the devices after that one. -/
theorem propagate_serves (f : ValidFile) {n : Network} (h : f.file.build = .ok n)
    {tasks : List String} (hall : tasks.Perm n.taskNames) (needs : Dependencies) (engine : FlowEngine)
    (ht : n.task? x = some t) (hkind : t.kind = .driver (before ++ a :: after))
    (ho : t.outputs[p]? = some o) (hhint : p ∉ t.hints.ports)
    (hbefore : ∀ a' ∈ before, ¬ a'.Feeds p) (ha : a.Feeds p) :
    let ended := (n.rules.propagate tasks needs engine).2.2.board
    ended.isFinal ⟨x, some p⟩ = true ∧ ∃ d, ended.info? ⟨x, some p⟩ = some d ∧
      ∀ g, g ∈ d.triggers ↔ g.count.toNat ≠ 0 ∧ (g = o.burst ∨ g ∈ a.device.given t.activity) := by
  intro ended
  have hn := NetworkFile.build_wellFormed f.checked h
  obtain ⟨hfinal, hinfo⟩ := served_seeded hkind ho hhint hbefore ha hn hall ht
  have hlater := (unfolds_ended hn hall engine needs).later
  refine ⟨hlater.final _ hfinal, _, (hlater.frozen _ hfinal).trans hinfo, fun g => ?_⟩
  rw [firstServed, PortDynamics.mem_merge, OutputPort.dynamics, PortDynamics.mem_ofTriggers,
    Device.brings, PortDynamics.mem_ofTriggers, List.mem_singleton, ← or_and_right]
  exact and_comm

/-- A driver that reads two devices ten times a second, both of which are attached to its only output. -/
def shared : ValidFile where
  file :=
    let device (name : String) : DeviceSection :=
      { name, period := some (.signed false ⟨4587366580439587226, by decide⟩), ports := ["out"] }
    { tasks := (∅ : Std.ExtTreeMap String TaskSection).insert "driver"
        { activity := .periodic, period := some Margin.standardRatio, kind := .driver,
          outputs := (∅ : Std.ExtTreeMap String OutputSection).insert "out" { onUpdate := false },
          devices := [device "left", device "right"] } }
  checked := by decide +kernel

def sharedBy (name : String) : Attachment :=
  ⟨⟨name, some ⟨50000000, by decide⟩, 0, 1⟩, ["out"]⟩

theorem shared_serves : ∃ n t o d, shared.file.build = .ok n ∧ ["driver"].Perm n.taskNames ∧
    n.task? "driver" = some t ∧ t.activity = .periodic ⟨100000000, by decide⟩ ∧
      t.kind = .driver [sharedBy "left", sharedBy "right"] ∧ t.outputs["out"]? = some o ∧
      "out" ∉ t.hints.ports ∧ (sharedBy "left").Feeds "out" ∧
      (n.rules.propagate ["driver"] ∅ .fresh).2.2.board.info? ⟨"driver", some "out"⟩ = some d ∧
      ⟨"left", ⟨100000000, by decide⟩, 3⟩ ∈ d.triggers := by
  have hbuild : (shared.file.build.map fun n => (n.taskNames, (n.task? "driver").map fun t =>
      decide (t.activity = .periodic ⟨100000000, by decide⟩ ∧
        t.kind = .driver [sharedBy "left", sharedBy "right"] ∧
        t.outputs["out"]? = some { onUpdate := false } ∧ "out" ∉ t.hints.ports))) =
      .ok (["driver"], some true) := by
    decide +kernel
  obtain ⟨n, h, hn⟩ := map_eq_ok.mp hbuild
  obtain ⟨hnames, htask⟩ := Prod.mk.inj hn
  obtain ⟨t, ht, hvalues⟩ := Option.map_eq_some_iff.mp htask
  obtain ⟨hactivity, hkind, ho, hhint⟩ := of_decide_eq_true hvalues
  have hall : ["driver"].Perm n.taskNames := .of_eq hnames.symm
  have hfeeds : (sharedBy "left").Feeds "out" := ⟨.inl rfl, .head _⟩
  have hdevices : t.kind = .driver ([] ++ sharedBy "left" :: [sharedBy "right"]) := hkind
  obtain ⟨-, d, hd, hmem⟩ := propagate_serves shared h hall ∅ .fresh ht hdevices ho hhint (by simp) hfeeds
  refine ⟨n, t, _, d, h, hall, ht, hactivity, hkind, ho, hhint, hfeeds, hd, ?_⟩
  rw [hmem, hactivity]
  exact ⟨by decide, .inr (by decide +kernel)⟩

theorem shared_loses : ∃ n t d, shared.file.build = .ok n ∧ n.task? "driver" = some t ∧
    t.activity = .periodic ⟨100000000, by decide⟩ ∧
      t.kind = .driver [sharedBy "left", sharedBy "right"] ∧ "out" ∉ t.hints.ports ∧
      (sharedBy "right").Feeds "out" ∧
      (n.propagate .fresh).2.2.board.isFinal ⟨"driver", some "out"⟩ = true ∧
      (n.propagate .fresh).2.2.board.info? ⟨"driver", some "out"⟩ = some d ∧
      (sharedBy "right").device.polled ⟨100000000, by decide⟩ ∉ d.triggers := by
  let d : PortDynamics := .ofTriggers "driver.out" 1 [⟨"left", ⟨100000000, by decide⟩, 3⟩]
  have hbuild : (shared.file.build.map fun n => ((n.task? "driver").map fun t =>
      decide (t.activity = .periodic ⟨100000000, by decide⟩ ∧
        t.kind = .driver [sharedBy "left", sharedBy "right"] ∧ "out" ∉ t.hints.ports),
      (n.propagate .fresh).2.2.board.isFinal ⟨"driver", some "out"⟩,
      (n.propagate .fresh).2.2.board.info? ⟨"driver", some "out"⟩)) = .ok (some true, true, some d) := by
    decide +kernel
  obtain ⟨n, h, hn⟩ := map_eq_ok.mp hbuild
  simp only [Prod.mk.injEq] at hn
  obtain ⟨htask, hfinal, hinfo⟩ := hn
  obtain ⟨t, ht, hvalues⟩ := Option.map_eq_some_iff.mp htask
  obtain ⟨hactivity, hkind, hhint⟩ := of_decide_eq_true hvalues
  refine ⟨n, t, d, h, ht, hactivity, hkind, hhint, ⟨.inl rfl, .head _⟩, hfinal, hinfo, ?_⟩
  rw [PortDynamics.mem_ofTriggers]
  simp [sharedBy, Device.polled]

end Network

end FlowTiming
