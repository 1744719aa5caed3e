import FlowTiming.Proofs.Dynamics.Triggers
import FlowTiming.Proofs.Flow.Closure
import FlowTiming.Proofs.Flow.Handing

/-!
What seeding keeps (`SeedKeeps`), and from it what can be final or known after seeding.
-/

namespace FlowTiming

open Board

theorem Device.isActive_of_dynamics {d : Device} (h : d.dynamics.isEmpty ≠ true) : d.IsActive := by
  by_contra hd
  simp only [IsActive, not_or, Bool.not_eq_true, Option.isSome_eq_false_iff, Option.isNone_iff_eq_none,
    Decidable.not_not] at hd
  obtain ⟨hp, hb⟩ := hd
  refine h (PortDynamics.isEmpty_iff.mpr fun x hx => ?_)
  rw [dynamics, PortDynamics.mem_ofTriggers, triggers, hp, List.nil_append, List.mem_singleton] at hx
  obtain ⟨rfl, hc⟩ := hx
  exact hc hb

theorem Device.dynamics_of_isActive {d : Device} (h : d.IsActive) : d.dynamics.isEmpty ≠ true := by
  intro he
  rw [PortDynamics.isEmpty_iff] at he
  simp only [dynamics, PortDynamics.mem_ofTriggers, triggers] at he
  rcases h with hp | hb
  · obtain ⟨period, hp⟩ := Option.isSome_iff_exists.mp hp
    exact he ⟨d.name, period, 1⟩ ⟨by simp [hp], by simp⟩
  · exact he ⟨d.name ++ "-burst", .zero, d.burst⟩ ⟨by simp, hb⟩

def Task.Seeded (t : Task) (q : Option String) : Prop :=
  ∀ p, q = some p → p ∈ t.outputs ∨ t.StartsFinal (some p)

theorem Task.Seeded.task (t : Task) : t.Seeded none := fun _ h => by simp at h

theorem Task.Seeded.output {t : Task} {p : String} (h : p ∈ t.outputs) : t.Seeded (some p) := by
  rintro _ ⟨⟩
  exact .inl h

theorem Task.StartsFinal.seeded {t : Task} {q : Option String} (h : t.StartsFinal q) :
    t.Seeded q := by
  rintro p rfl
  exact .inr h

/-! ### What seeding keeps -/

def FlowBoard.KnownIfOpen (b : FlowBoard) (x : FlowNode) : Prop :=
  x.port.isSome = true → b.isFinal x = false → b.isKnown x = true

/-- Whether all that seeding does to the nodes of a task keeps a property of boards. -/
structure Network.SeedKeeps (n : Network) (x : String) (t : Task) (J : FlowBoard → Prop) : Prop
    extends n.Hands J where
  alter : ∀ b b' q, t.Seeded q → FlowBoard.Touches t ⟨x, q⟩ b b' → J b → J b'
  finalize : ∀ b q, t.StartsFinal q → b.KnownIfOpen ⟨x, q⟩ → J b → J (b.finalize ⟨x, q⟩)

namespace FlowBoard

theorem knownIfOpen_task (b : FlowBoard) (x : String) : b.KnownIfOpen (taskNode x) :=
  fun h => by simp [taskNode] at h

theorem knownIfOpen_contribute (b : FlowBoard) (t : Task) (x : FlowNode) (d : PortDynamics) :
    (b.contribute t x d).KnownIfOpen x := fun _ hopen =>
  isKnown_contribute b t d (((touches_contribute b t x d).final x).symm.trans hopen)

theorem KnownIfOpen.alter {b b' : FlowBoard} {x y : FlowNode} (h : b.KnownIfOpen x)
    (ha : Alters y b b') : b'.KnownIfOpen x := fun hport hopen =>
  ha.isKnown (h hport ((ha.final x).symm.trans hopen))

theorem KnownIfOpen.finalize {b : FlowBoard} {x : FlowNode} (h : b.KnownIfOpen x) (y : FlowNode) :
    KnownIfOpen (b.finalize y) x := by
  intro hport hopen
  rw [isKnown_finalize]
  exact h hport ((later_finalize b y).stillOpen hopen)

theorem knownIfOpen_seedBusDevices (b : FlowBoard) (x : String) (t : Task)
    {devices : List Attachment} {a : Attachment} {p : String} (ha : a ∈ devices) (hp : p ∈ a.ports) :
    KnownIfOpen (devices.foldl (seedBusDevice x t) b) ⟨x, some p⟩ := by
  have hkeep (b : FlowBoard) (a : Attachment) (h : b.KnownIfOpen ⟨x, some p⟩) :
      (seedBusDevice x t b a).KnownIfOpen ⟨x, some p⟩ := by
    refine List.foldlRecOn (motive := fun c : FlowBoard => c.KnownIfOpen ⟨x, some p⟩) _ _ h
      fun c hc q _ => ?_
    exact hc.alter (touches_contributeTriggers c t _ _ _ _).toAlters
  refine foldl_reaches (fun c : FlowBoard => c.KnownIfOpen ⟨x, some p⟩) ha
    (fun c a _ hc => hkeep c a hc) (fun c => ?_) b
  refine foldl_reaches (fun c : FlowBoard => c.KnownIfOpen ⟨x, some p⟩) hp (fun c q _ hc => ?_)
    (fun c => knownIfOpen_contribute _ t _ _) c
  exact hc.alter (touches_contributeTriggers c t _ _ _ _).toAlters

end FlowBoard

namespace Network.SeedKeeps

variable {n : Network} {x : String} {t : Task} {J : FlowBoard → Prop} {b : FlowBoard}

theorem same {b' : FlowBoard} (h : n.SeedKeeps x t J) (hs : SameFacts b b') (hb : J b) : J b' :=
  h.alter b b' none (.task t) (FlowBoard.touches_of_same hs t _) hb

theorem models (h : n.SeedKeeps x t J) (hb : J b) : J (FlowBoard.seedModels x t b) := by
  unfold FlowBoard.seedModels
  refine List.foldlRecOn _ _ (h.alter _ _ none (.task t) (FlowBoard.touches_placeTask b t x) hb) ?_
  intro c hc o ho
  exact h.alter _ _ (some o.1) (.output (mem_of_mem_toList ho))
    (FlowBoard.touches_placeOutput c ⟨x, o.1⟩ (mem_toList_iff.mp ho)) hc

theorem hints (h : n.SeedKeeps x t J) (hb : J b) : J (FlowBoard.seedHints x t b) := by
  unfold FlowBoard.seedHints
  refine List.foldlRecOn _ _ ?_ ?_
  · split
    · exact h.alter _ _ none (.task t) (FlowBoard.touches_contribute b t _ _) hb
    · exact hb
  · intro c hc p hp
    have hstart : t.StartsFinal (some p.1) := .hinted (mem_of_mem_toList hp)
    exact h.finalize _ _ hstart (FlowBoard.knownIfOpen_contribute c t _ _)
      (h.alter _ _ _ hstart.seeded (FlowBoard.touches_contribute c t _ _) hc)

theorem device {devices : List Attachment} {a : Attachment} (h : n.SeedKeeps x t J)
    (hkind : t.kind = .driver devices) (ha : a ∈ devices) (hb : J b) :
    J (FlowBoard.seedDevice x t b a) := by
  have hb' := h.same (sameFacts_noteAll _ (PortDynamics.additionNotes a.device.name a.device.triggers))
    (h.same (sameFacts_note b (a.device.note x)) hb)
  unfold FlowBoard.seedDevice
  simp only
  split
  case isTrue => exact hb'
  case isFalse hactive =>
    have hstart (p : String) (hp : p ∈ a.ports) : t.StartsFinal (some p) :=
      .driven hkind ha (Device.isActive_of_dynamics hactive) hp
    split
    · refine List.foldlRecOn _ _ hb' fun c hc p hp =>
        h.finalize _ _ (hstart p hp) (FlowBoard.knownIfOpen_contribute _ t _ _) ?_
      exact h.alter _ _ _ (hstart p hp).seeded (FlowBoard.touches_contributeTriggers c t _ _ _ _) hc
    all_goals
      refine List.foldlRecOn _ _ ?_ fun c hc p hp =>
        h.finalize _ _ (hstart p hp) (FlowBoard.knownIfOpen_contribute _ t _ _) ?_
      · exact h.alter _ _ none (.task t) (FlowBoard.touches_contribute _ t _ _) hb'
      · exact h.alter _ _ _ (hstart p hp).seeded (FlowBoard.touches_contribute c t _ _) hc

theorem bus {devices : List Attachment} (h : n.SeedKeeps x t J) (hkind : t.kind = .bus devices)
    (hb : J b) : J (FlowBoard.seedBus x t b devices) := by
  unfold FlowBoard.seedBus
  simp only
  refine (List.foldlRecOn (motive := fun c : FlowBoard => J c ∧ ∀ a ∈ devices, ∀ p ∈ a.ports,
    c.KnownIfOpen ⟨x, some p⟩) _ _ ⟨?_, fun a ha p hp => ?_⟩ fun c hc p hp => ⟨?_, ?_⟩).1
  · refine List.foldlRecOn _ _ hb fun c hc a ha => ?_
    refine List.foldlRecOn _ _ hc fun c hc p hp => ?_
    exact h.alter _ _ (some p) (Task.StartsFinal.seeded (.received hkind ha hp))
      (FlowBoard.touches_contributeTriggers c t _ _ _ _) hc
  · exact FlowBoard.knownIfOpen_seedBusDevices b x t ha hp
  · rw [Std.ExtTreeSet.mem_toList, mem_foldl_insert] at hp
    obtain ⟨p', hp', rfl⟩ := hp.resolve_left Std.ExtTreeSet.not_mem_empty
    obtain ⟨a, ha, hp'⟩ := List.mem_flatMap.mp hp'
    exact h.finalize _ _ (.received hkind ha hp') (hc.2 a ha p' hp') hc.1
  · exact fun a ha p' hp' => (hc.2 a ha p' hp').finalize _

theorem kind (h : n.SeedKeeps x t J) (hb : J b) : J (FlowBoard.seedKind x t b) := by
  unfold FlowBoard.seedKind
  split
  case h_1 => exact hb
  case h_2 devices hkind => exact List.foldlRecOn _ _ hb fun c hc a ha => h.device hkind ha hc
  case h_3 devices hkind => exact h.bus hkind hb

theorem activity {k : Nat} (h : n.SeedKeeps x t J) (hr : n.Rank x k) (hb : J b) :
    J (n.seedActivity x t b) := by
  unfold Network.seedActivity
  split
  case h_1 period ha =>
    refine (h.toHands.finish hr (h.finalize _ _ (.periodic ha) (FlowBoard.knownIfOpen_task _ x) ?_)).1
    exact h.alter _ _ none (.task t) (FlowBoard.touches_contributeTriggers _ t _ _ _ _)
      (h.same (sameFacts_note b _) hb)
  case h_2 ha =>
    split
    case isTrue hw =>
      exact (h.toHands.finish hr
        (h.finalize _ _ (.idle ha (List.isEmpty_iff.mp hw)) (FlowBoard.knownIfOpen_task b x) hb)).1
    case isFalse => exact hb
  case h_3 => exact hb

theorem seedTask {k : Nat} (h : n.SeedKeeps x t J) (hr : n.Rank x k) (hb : J b) :
    J (n.seedTask x t b) :=
  h.activity hr (h.kind (h.hints (h.models (h.same (sameFacts_note b _) hb))))

end Network.SeedKeeps

namespace Network

variable {n : Network} {J : FlowBoard → Prop}

def seeded (n : Network) (tasks : List String) : FlowBoard :=
  tasks.foldl (fun b x => n.seed x b) .empty

theorem seedWithin_induction
    (step : ∀ x t b, n.task? x = some t → J b → J (n.seedTask x t b)) (depth : Nat) :
    ∀ {x : String} {t : Task} {b : FlowBoard}, n.task? x = some t → J b → J (n.seedWithin depth x t b) := by
  induction depth with
  | zero => exact fun _ hb => hb
  | succ depth ih =>
    intro x t b ht hb
    refine step x t _ ht (List.foldlRecOn _ _ hb fun c hc s hs => ?_)
    split
    case isTrue => exact hc
    case isFalse => exact ih (mem_slavesOf.mp hs).1 hc

theorem seeded_induction (step : ∀ x t b, n.task? x = some t → J b → J (n.seedTask x t b))
    (tasks : List String) (hb : J .empty) : J (n.seeded tasks) := by
  refine List.foldlRecOn _ _ hb fun b hb x _ => ?_
  unfold Network.seed
  split
  case h_1 => exact hb
  case h_2 t ht =>
    split
    case isTrue => exact hb
    case isFalse => exact seedWithin_induction step _ ht hb

theorem seeded_keeps (hn : n.WellFormed) (h : ∀ x t, n.task? x = some t → n.SeedKeeps x t J)
    (tasks : List String) (hb : J .empty) : J (n.seeded tasks) := by
  refine seeded_induction (fun x t b ht hb => ?_) tasks hb
  obtain ⟨k, hr⟩ := hn.ranked x t ht
  exact (h x t ht).seedTask hr hb

/-! ### What is final after seeding, and what is known -/

theorem final_of_closed (hn : n.WellFormed) {F : Set FlowNode} (hF : n.IsClosed F)
    (tasks : List String) {x : FlowNode} (hx : (n.seeded tasks).isFinal x = true) : x ∈ F := by
  refine seeded_keeps (J := fun b => ∀ x, b.isFinal x = true → x ∈ F) hn ?_ tasks (by simp) x hx
  intro y t ht
  refine { note := fun b _ _ hb => hb, hand := ?_, alter := ?_, finalize := ?_ }
  · intro b m d s hb hm _ hs hopen x hx
    rw [isFinal_finalize, FlowBoard.isFinal_contribute] at hx
    rcases hx with rfl | hx
    · obtain ⟨hs, hmaster⟩ := mem_slavesOf.mp hs
      refine hF.follows _ (required_task hs) fun z hz => .mem ?_
      cases hz with
      | master ht' hm' =>
        obtain rfl := Option.some.inj (hs.symm.trans ht')
        obtain rfl := Option.some.inj (hmaster.symm.trans hm')
        exact hb _ hm
      | waking ht' hm' =>
        obtain rfl := Option.some.inj (hs.symm.trans ht')
        simp [hmaster] at hm'
    · exact hb x hx
  · intro b b' q _ ha hb x hx
    exact hb x ((ha.final x).symm.trans hx)
  · intro b q hq _ hb x hx
    rw [isFinal_finalize] at hx
    rcases hx with rfl | hx
    · exact hF.starts _ ⟨t, ht, hq⟩
    · exact hb x hx

theorem seeded_port (hn : n.WellFormed) (tasks : List String) (x p : String) (hb : J .empty)
    (congr : ∀ b b' : FlowBoard, FlowBoard.SameAt ⟨x, some p⟩ b b' → J b → J b')
    (alter : ∀ t b b', n.task? x = some t → t.Seeded (some p) →
      FlowBoard.Touches t ⟨x, some p⟩ b b' → J b → J b')
    (finalize : ∀ t b, n.task? x = some t → t.StartsFinal (some p) →
      b.KnownIfOpen ⟨x, some p⟩ → J b → J (b.finalize ⟨x, some p⟩)) : J (n.seeded tasks) := by
  refine seeded_keeps hn (fun y t ht => ?_) tasks hb
  refine { note := fun b _ _ hb => congr b _ ⟨rfl, rfl⟩ hb, hand := ?_, alter := ?_, finalize := ?_ }
  · intro b m d s hb _ _ _ _
    exact congr b _ (FlowBoard.sameAt_contribute_finalize b s.2 d (by simp [taskNode])) hb
  · intro b b' q hq ha hb
    by_cases he : (⟨x, some p⟩ : FlowNode) = ⟨y, q⟩
    · obtain ⟨rfl, rfl⟩ := Node.mk.inj he
      exact alter t b b' ht hq ha hb
    · exact congr b b' (FlowBoard.sameAt_of_alters ha.toAlters he) hb
  · intro b q hq hknown hb
    by_cases he : (⟨x, some p⟩ : FlowNode) = ⟨y, q⟩
    · obtain ⟨rfl, rfl⟩ := Node.mk.inj he
      exact finalize t b ht hq hknown hb
    · exact congr b _ (FlowBoard.sameAt_finalize b he) hb

theorem startsFinal_of_final (hn : n.WellFormed) (tasks : List String) {x p : String}
    (hx : (n.seeded tasks).isFinal ⟨x, some p⟩ = true) : n.StartsFinal ⟨x, some p⟩ := by
  refine seeded_port (J := fun b => b.isFinal ⟨x, some p⟩ = true → n.StartsFinal ⟨x, some p⟩)
    hn tasks x p (by simp) ?_ ?_ ?_ hx
  · intro b b' hsame hb hx
    exact hb (hsame.final.symm.trans hx)
  · intro t b b' _ _ ha hb hx
    exact hb ((ha.final _).symm.trans hx)
  · exact fun t b ht hp _ _ _ => ⟨t, ht, hp⟩

theorem port_of_known (hn : n.WellFormed) (tasks : List String) {x p : String}
    (hx : (n.seeded tasks).isKnown ⟨x, some p⟩ = true) :
    ∃ t, n.task? x = some t ∧ (p ∈ t.outputs ∨ t.StartsFinal (some p)) := by
  refine seeded_port (J := fun b => b.isKnown ⟨x, some p⟩ = true → ∃ t, n.task? x = some t ∧
    (p ∈ t.outputs ∨ t.StartsFinal (some p))) hn tasks x p (by simp) ?_ ?_ ?_ hx
  · intro b b' hsame hb hx
    exact hb ((isKnown_congr hsame.info).symm.trans hx)
  · exact fun t b b' ht hp _ _ _ => ⟨t, ht, hp p rfl⟩
  · exact fun t b ht hp _ _ _ => ⟨t, ht, .inr hp⟩

theorem known_of_final (hn : n.WellFormed) (tasks : List String) {x p : String}
    (hx : (n.seeded tasks).isFinal ⟨x, some p⟩ = true) :
    (n.seeded tasks).isKnown ⟨x, some p⟩ = true := by
  refine seeded_port (J := fun b => b.isFinal ⟨x, some p⟩ = true → b.isKnown ⟨x, some p⟩ = true)
    hn tasks x p (by simp) ?_ ?_ ?_ hx
  · intro b b' hsame hb hx
    exact (isKnown_congr hsame.info).trans (hb (hsame.final.symm.trans hx))
  · intro t b b' _ _ ha hb hx
    exact ha.isKnown (hb ((ha.final _).symm.trans hx))
  · intro t b _ _ hknown hb _
    rw [isKnown_finalize]
    cases hf : b.isFinal ⟨x, some p⟩ with
    | true => exact hb hf
    | false => exact hknown rfl hf

theorem model_seeded (hn : n.WellFormed) (tasks : List String) {x p : String} {t : Task}
    {o : OutputPort} (ht : n.task? x = some t) (ho : t.outputs[p]? = some o) :
    FlowBoard.HasModel o ⟨x, some p⟩ (n.seeded tasks) := by
  refine seeded_port hn tasks x p (fun d hd => by simp at hd) ?_ ?_ ?_
  · exact fun b b' hsame hb d hd => hb d (hsame.info.symm.trans hd)
  · intro u b b' hu _ ha hb
    obtain rfl := Option.some.inj (ht.symm.trans hu)
    exact ha.model p o rfl ho hb
  · exact fun u b _ _ _ hb d hd => hb d ((info?_finalize b _ _).symm.trans hd)

end Network

end FlowTiming
