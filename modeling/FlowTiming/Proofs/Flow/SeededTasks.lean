import FlowTiming.Proofs.Flow.Seeding

/-!
Every task of a network is seeded with all its outputs, whatever the order of the tasks
(`stands_seeded`).
-/

namespace FlowTiming

open Board

namespace Network

variable {n : Network}

structure Grows (b b' : FlowBoard) : Prop where
  final : ∀ x, b.isFinal x = true → b'.isFinal x = true
  known : ∀ x, b.isKnown x = true → b'.isKnown x = true

theorem Grows.refl (b : FlowBoard) : Grows b b := ⟨fun _ h => h, fun _ h => h⟩

theorem Grows.trans {b b' b'' : FlowBoard} (h : Grows b b') (h' : Grows b' b'') : Grows b b'' :=
  ⟨fun x hx => h'.final x (h.final x hx), fun x hx => h'.known x (h.known x hx)⟩

theorem grows_of_alters {b b' : FlowBoard} {x : FlowNode} (h : Alters x b b') : Grows b b' :=
  ⟨fun y hy => (h.final y).trans hy, fun _ hy => h.isKnown hy⟩

theorem grows_finalize (b : FlowBoard) (x : FlowNode) : Grows b (b.finalize x) :=
  ⟨(later_finalize b x).final, fun y hy => (isKnown_finalize b x y).trans hy⟩

theorem keeps_grows (n : Network) (b : FlowBoard) (x : String) (t : Task) :
    n.SeedKeeps x t (Grows b) where
  note _ _ _ hc := ⟨hc.final, hc.known⟩
  hand c _ d s hc _ _ _ _ :=
    (hc.trans (grows_of_alters (FlowBoard.alters_contribute c s.2 _ d))).trans (grows_finalize _ _)
  alter _ _ _ _ ha hc := hc.trans (grows_of_alters ha.toAlters)
  finalize c _ _ _ hc := hc.trans (grows_finalize c _)

theorem keeps_later (n : Network) (b : FlowBoard) (x : String) (t : Task) :
    n.SeedKeeps x t b.Later where
  note c _ _ hc := hc.trans (sameFacts_note c _).later
  hand c _ d s hc _ _ _ _ := hc.trans (FlowBoard.later_contribute_finalize c s.2 (taskNode s.1) d)
  alter _ _ _ _ ha hc := hc.trans ha.toAlters.later
  finalize c _ _ _ hc := hc.trans (later_finalize c _)

def FinalsKnown (n : Network) (b : FlowBoard) : Prop :=
  ∀ x, n.IsRequired x → b.isFinal x = true → b.isKnown x = true

structure Stands (b : FlowBoard) (x : String) (t : Task) : Prop where
  known : ∀ q, (∀ p, q = some p → p ∈ t.outputs) → b.isKnown ⟨x, q⟩ = true
  final : ∀ q, t.StartsFinal q → b.isFinal ⟨x, q⟩ = true

theorem Stands.grow {b b' : FlowBoard} {x : String} {t : Task} (h : Stands b x t) (hg : Grows b b') :
    Stands b' x t :=
  ⟨fun q hq => hg.known _ (h.known q hq), fun q hq => hg.final _ (h.final q hq)⟩

theorem isFinal_seedModels (b : FlowBoard) (x : String) (t : Task) (y : FlowNode) :
    (FlowBoard.seedModels x t b).isFinal y = b.isFinal y := by
  unfold FlowBoard.seedModels
  refine List.foldlRecOn (motive := fun c : FlowBoard => c.isFinal y = b.isFinal y) _ _ ?_ ?_
  · exact (FlowBoard.alters_placeTask b x).final y
  · intro c hc o _
    exact ((FlowBoard.alters_placeOutput c _ _).final y).trans hc

theorem known_seedModels {b : FlowBoard} {x : String} {t : Task} (ht : n.task? x = some t)
    (hb : n.FinalsKnown b) (q : Option String) (hq : ∀ p, q = some p → p ∈ t.outputs) :
    (FlowBoard.seedModels x t b).isKnown ⟨x, q⟩ = true := by
  cases hf : b.isFinal ⟨x, q⟩ with
  | true => exact ((keeps_grows n b x t).models (.refl b)).known _ (hb _ ⟨t, ht, hq⟩ hf)
  | false =>
    cases q with
    | none =>
      unfold FlowBoard.seedModels
      refine List.foldlRecOn (motive := fun c : FlowBoard => c.isKnown ⟨x, none⟩ = true) _ _ ?_ ?_
      · exact isKnown_iff.mpr ⟨_, info?_replace_self b hf _⟩
      · intro c hc o _
        exact (FlowBoard.alters_placeOutput c _ _).isKnown hc
    | some p =>
      obtain ⟨o, ho⟩ := mem_iff_getElem?.mp (hq p rfl)
      have hopen := (isFinal_seedModels b x t ⟨x, some p⟩).trans hf
      unfold FlowBoard.seedModels at hopen ⊢
      refine foldl_reaches (fun c : FlowBoard => c.isFinal ⟨x, some p⟩ = false →
        c.isKnown ⟨x, some p⟩ = true) (mem_toList_iff (e := (p, o)).mpr ho) ?_ ?_ _ hopen
      · intro c o _ hc hopen
        have ha := FlowBoard.alters_placeOutput c ⟨x, o.1⟩ o.2
        exact ha.isKnown (hc ((ha.final _).symm.trans hopen))
      · intro c hopen
        rw [(FlowBoard.alters_placeOutput c ⟨x, p⟩ o).final] at hopen
        exact isKnown_iff.mpr ⟨_, info?_replace_self _ ((isFinal_noteAll c _ _).trans hopen) _⟩

theorem keeps_finalsKnown {x : String} {t : Task} (ht : n.task? x = some t) : n.SeedKeeps x t
    fun b => n.FinalsKnown b ∧ ∀ q, (∀ p, q = some p → p ∈ t.outputs) → b.isKnown ⟨x, q⟩ = true where
  note _ _ _ hb := hb
  hand b _ d s hb _ _ _ hopen := by
    have hg := (grows_of_alters (FlowBoard.alters_contribute b s.2 (taskNode s.1) d)).trans
      (grows_finalize _ (taskNode s.1))
    refine ⟨fun y hy hf => ?_, fun q hq => hg.known _ (hb.2 q hq)⟩
    rw [isFinal_finalize, FlowBoard.isFinal_contribute] at hf
    rcases hf with rfl | hf
    · exact (grows_finalize _ _).known _ (FlowBoard.isKnown_contribute b s.2 d hopen)
    · exact hg.known y (hb.1 y hy hf)
  alter b b' _ _ ha hb := by
    refine ⟨fun y hy hf => ha.isKnown (hb.1 y hy ((ha.final y).symm.trans hf)), fun r hr => ?_⟩
    exact ha.isKnown (hb.2 r hr)
  finalize b q _ _ hb := by
    have hg := grows_finalize b ⟨x, q⟩
    refine ⟨fun y hy hf => ?_, fun r hr => hg.known _ (hb.2 r hr)⟩
    rw [isFinal_finalize] at hf
    rcases hf with rfl | hf
    · obtain ⟨t', ht', hq⟩ := hy
      obtain rfl := Option.some.inj (ht.symm.trans ht')
      exact hg.known _ (hb.2 q hq)
    · exact hg.known y (hb.1 y hy hf)

theorem final_seedHints (b : FlowBoard) (x : String) {t : Task} {p : String}
    (hp : p ∈ t.hints.ports) : (FlowBoard.seedHints x t b).isFinal ⟨x, some p⟩ = true := by
  obtain ⟨d, hd⟩ := mem_iff_getElem?.mp hp
  unfold FlowBoard.seedHints
  refine foldl_reaches (fun c : FlowBoard => c.isFinal ⟨x, some p⟩ = true)
    (mem_toList_iff (e := (p, d)).mpr hd) ?_ ?_ _
  · intro c h _ hc
    rw [isFinal_finalize, FlowBoard.isFinal_contribute]
    exact .inr hc
  · intro c
    rw [isFinal_finalize]
    exact .inl rfl

theorem final_seedDevice (b : FlowBoard) (x : String) (t : Task) {a : Attachment} {p : String}
    (ha : a.device.IsActive) (hp : p ∈ a.ports) :
    (FlowBoard.seedDevice x t b a).isFinal ⟨x, some p⟩ = true := by
  unfold FlowBoard.seedDevice
  simp only
  rw [if_neg (Device.dynamics_of_isActive ha)]
  split
  all_goals
    refine foldl_reaches (fun c : FlowBoard => c.isFinal ⟨x, some p⟩ = true) hp ?_ ?_ _
    · intro c q _ hc
      simp [hc]
    · intro c
      rw [isFinal_finalize]
      exact .inl rfl

theorem final_seedKind (n : Network) (b : FlowBoard) (x : String) {t : Task} {p : String}
    (hp : t.StartsFinal (some p)) (hh : p ∉ t.hints.ports) :
    (FlowBoard.seedKind x t b).isFinal ⟨x, some p⟩ = true := by
  unfold FlowBoard.seedKind
  cases hp with
  | hinted hp => exact absurd hp hh
  | driven hkind ha hactive hp =>
    simp only [hkind]
    refine foldl_reaches (fun c : FlowBoard => c.isFinal ⟨x, some p⟩ = true) ha ?_ ?_ _
    · intro c a ha hc
      exact ((keeps_grows n c x t).device hkind ha (.refl c)).final _ hc
    · exact fun c => final_seedDevice c x t hactive hp
  | received hkind ha hp =>
    simp only [hkind, FlowBoard.seedBus]
    refine foldl_reaches (fun c : FlowBoard => c.isFinal ⟨x, some p⟩ = true) (a := p) ?_ ?_ ?_ _
    · rw [Std.ExtTreeSet.mem_toList, mem_foldl_insert]
      exact .inr ⟨p, List.mem_flatMap.mpr ⟨_, ha, hp⟩, rfl⟩
    · exact fun c q _ hc => (later_finalize c _).final _ hc
    · exact fun c => (isFinal_finalize c _ _).mpr (.inl rfl)

theorem final_seedActivity {b : FlowBoard} {x : String} {t : Task} {k : Nat} (hr : n.Rank x k)
    (hx : t.StartsFinal none) : (n.seedActivity x t b).isFinal (taskNode x) = true := by
  have hfinish (c : FlowBoard) : (n.finish x c).isFinal (taskNode x) = true :=
    ((keeps_grows n _ x t).toHands.finish hr (.refl _)).2.final _
      ((isFinal_finalize c _ _).mpr (.inl rfl))
  unfold Network.seedActivity
  cases hx with
  | periodic ha => simp only [ha, hfinish]
  | idle ha hw => simp only [ha, hw, List.isEmpty_nil, ↓reduceIte, hfinish]

theorem stands_seedTask {b : FlowBoard} {x : String} {t : Task} {k : Nat}
    (ht : n.task? x = some t) (hr : n.Rank x k) (hb : n.FinalsKnown b) :
    Stands (n.seedTask x t b) x t ∧ n.FinalsKnown (n.seedTask x t b) := by
  have hmodels (e : Entry) := known_seedModels ht (b := b.note e) hb
  have hfinals (e : Entry) : n.FinalsKnown (FlowBoard.seedModels x t (b.note e)) := fun y hy hf =>
    ((keeps_grows n (b.note e) x t).models (.refl _)).known y
      (hb y hy ((isFinal_seedModels (b.note e) x t y).symm.trans hf))
  have hkeep := keeps_finalsKnown (n := n) ht
  unfold Network.seedTask
  simp only
  obtain ⟨hend, hknown⟩ := hkeep.activity hr (hkeep.kind (hkeep.hints ⟨hfinals _, hmodels _⟩))
  refine ⟨⟨hknown, fun q hq => ?_⟩, hend⟩
  have hactivity (c : FlowBoard) := (keeps_grows n c x t).activity hr (.refl c)
  cases q with
  | none => exact final_seedActivity hr hq
  | some p =>
    refine (hactivity _).final _ ?_
    by_cases hh : p ∈ t.hints.ports
    · exact ((keeps_grows n _ x t).kind (.refl _)).final _ (final_seedHints _ x hh)
    · exact final_seedKind n _ x hq hh

structure AllStand (n : Network) (b : FlowBoard) : Prop where
  finals : n.FinalsKnown b
  stands : ∀ x t, n.task? x = some t → b.isKnown (taskNode x) = true → Stands b x t
  slaves : ∀ x, b.isKnown (taskNode x) = true → ∀ s ∈ n.slavesOf x, b.isKnown (taskNode s.1) = true

theorem allStand_empty (n : Network) : n.AllStand .empty :=
  ⟨fun _ _ h => by simp at h, fun _ _ _ h => by simp at h, fun _ h => by simp at h⟩

theorem keeps_known {b : FlowBoard} (hb : n.AllStand b) {x : String}
    (hx : ∀ s ∈ n.slavesOf x, b.isKnown (taskNode s.1) = true) (t : Task) :
    n.SeedKeeps x t fun c => ∀ y, c.isKnown (taskNode y) = true → y = x ∨ b.isKnown (taskNode y) = true where
  note _ _ _ hc := hc
  hand c m d s hc _ hd hs _ y hy := by
    by_cases he : taskNode y = taskNode s.1
    · obtain ⟨rfl, -⟩ := Node.mk.inj he
      have hm : c.isKnown (taskNode m) = true := isKnown_iff.mpr ⟨d, hd⟩
      rcases hc m hm with rfl | hm
      · exact .inr (hx s hs)
      · exact .inr (hb.slaves m hm s hs)
    · rw [isKnown_finalize, isKnown_congr (FlowBoard.info?_contribute_of_ne c s.2 he d)] at hy
      exact hc y hy
  alter c c' q _ ha hc y hy := by
    by_cases he : taskNode y = ⟨x, q⟩
    · exact .inl (Node.mk.inj he).1
    · rw [isKnown_congr (ha.others _ he)] at hy
      exact hc y hy
  finalize c q _ _ hc y hy := by
    rw [isKnown_finalize] at hy
    exact hc y hy

theorem allStand_seedTask {b : FlowBoard} {x : String} {t : Task} {k : Nat}
    (ht : n.task? x = some t) (hr : n.Rank x k) (hb : n.AllStand b)
    (hx : ∀ s ∈ n.slavesOf x, b.isKnown (taskNode s.1) = true) :
    n.AllStand (n.seedTask x t b) ∧ (n.seedTask x t b).isKnown (taskNode x) = true ∧
      Grows b (n.seedTask x t b) := by
  obtain ⟨hstands, hfinals⟩ := stands_seedTask ht hr hb.finals
  have hg : Grows b (n.seedTask x t b) := (keeps_grows n b x t).seedTask hr (.refl b)
  have hknown := (keeps_known hb hx t).seedTask hr fun y hy => .inr hy
  refine ⟨⟨hfinals, fun y u hu hy => ?_, fun y hy s hs => ?_⟩, hstands.known none (by simp), hg⟩
  · rcases hknown y hy with rfl | hy
    · obtain rfl := Option.some.inj (ht.symm.trans hu)
      exact hstands
    · exact (hb.stands y u hu hy).grow hg
  · rcases hknown y hy with rfl | hy
    · exact hg.known _ (hx s hs)
    · exact hg.known _ (hb.slaves y hy s hs)

/-- Seeding keeps whatever the seeding of a single task keeps once the tasks right below it are known. -/
def StepKeeps (n : Network) (J : FlowBoard → Prop) : Prop :=
  ∀ x t k b, n.task? x = some t → n.Rank x k → n.AllStand b →
    (∀ s ∈ n.slavesOf x, b.isKnown (taskNode s.1) = true) → J b → J (n.seedTask x t b)

theorem StepKeeps.trivial (n : Network) : n.StepKeeps fun _ => True := fun _ _ _ _ _ _ _ _ _ => True.intro

section StepKeeps

variable {J : FlowBoard → Prop} (step : n.StepKeeps J)
include step

theorem allStand_seedWithin {depth : Nat} : ∀ {k : Nat} {x : String} {t : Task}
    {b : FlowBoard}, n.Rank x k → n.task? x = some t → n.tasks.size ≤ depth + k → n.AllStand b → J b →
      n.AllStand (n.seedWithin depth x t b) ∧ J (n.seedWithin depth x t b) ∧
        (n.seedWithin depth x t b).isKnown (taskNode x) = true ∧
          Grows b (n.seedWithin depth x t b) := by
  induction depth with
  | zero =>
    intro k x t b hr _ hsize
    have := hr.lt_size
    omega
  | succ depth ih =>
    intro k x t b hr ht hsize hb hj
    -- after the loop all slaves it went over are known
    have loop (slaves : List (String × Task)) (hs : ∀ s ∈ slaves, s ∈ n.slavesOf x) (c : FlowBoard)
        (hc : n.AllStand c) (hj : J c) :
        let c' := slaves.foldl (fun b s => if b.isKnown (taskNode s.1) then b
          else n.seedWithin depth s.1 s.2 b) c
        n.AllStand c' ∧ J c' ∧ (∀ s ∈ slaves, c'.isKnown (taskNode s.1) = true) ∧ Grows c c' := by
      induction slaves generalizing c with
      | nil => exact ⟨hc, hj, by simp, .refl c⟩
      | cons s slaves ihs =>
        have hslave := hs s (.head _)
        have hstep : ∃ c', (if c.isKnown (taskNode s.1) then c else n.seedWithin depth s.1 s.2 c) = c' ∧
            n.AllStand c' ∧ J c' ∧ c'.isKnown (taskNode s.1) = true ∧ Grows c c' := by
          split
          case isTrue hk => exact ⟨c, rfl, hc, hj, hk, .refl c⟩
          case isFalse =>
            exact ⟨_, rfl, ih (hr.ofSlave hslave) (mem_slavesOf.mp hslave).1 (by omega) hc hj⟩
        obtain ⟨c', he, hc', hj', hk, hg⟩ := hstep
        obtain ⟨hend, hkept, hall, hg'⟩ := ihs (fun s' hs' => hs s' (.tail _ hs')) c' hc' hj'
        simp only [List.foldl_cons, he]
        refine ⟨hend, hkept, fun s' hs' => ?_, hg.trans hg'⟩
        rcases List.mem_cons.mp hs' with rfl | hs'
        · exact hg'.known _ hk
        · exact hall s' hs'
    obtain ⟨hc, hj', hall, hg⟩ := loop (n.slavesOf x) (fun _ h => h) b hb hj
    obtain ⟨hend, hk, hg'⟩ := allStand_seedTask ht hr hc hall
    exact ⟨hend, step x t k _ ht hr hc hall hj', hk, hg.trans hg'⟩

theorem allStand_seed {b : FlowBoard} (hb : n.AllStand b) (hj : J b) (x : String) :
    n.AllStand (n.seed x b) ∧ J (n.seed x b) ∧ Grows b (n.seed x b) ∧
      ∀ t, n.task? x = some t → t.master = none → (n.seed x b).isKnown (taskNode x) = true := by
  unfold Network.seed
  split
  case h_1 hx => exact ⟨hb, hj, .refl b, fun t ht => by simp [hx] at ht⟩
  case h_2 t ht =>
    split
    case isTrue hm =>
      refine ⟨hb, hj, .refl b, fun t' ht' hm' => ?_⟩
      obtain rfl := Option.some.inj (ht.symm.trans ht')
      simp [hm'] at hm
    case isFalse hm =>
      have hr : n.Rank x 0 := .root ht (by simpa using hm)
      obtain ⟨hend, hkept, hk, hg⟩ := allStand_seedWithin step hr ht (Nat.le_add_right _ _) hb hj
      exact ⟨hend, hkept, hg, fun _ _ _ => hk⟩

theorem allStand_seeds (tasks : List String) {b : FlowBoard} (hb : n.AllStand b) (hj : J b) :
    n.AllStand (tasks.foldl (fun b x => n.seed x b) b) ∧ J (tasks.foldl (fun b x => n.seed x b) b) ∧
      Grows b (tasks.foldl (fun b x => n.seed x b) b) ∧
        ∀ x ∈ tasks, ∀ t, n.task? x = some t → t.master = none →
          (tasks.foldl (fun b x => n.seed x b) b).isKnown (taskNode x) = true := by
  induction tasks generalizing b with
  | nil => exact ⟨hb, hj, .refl b, by simp⟩
  | cons y tasks ih =>
    obtain ⟨hb', hj', hg, hk⟩ := allStand_seed step hb hj y
    obtain ⟨hend, hkept, hg', hall⟩ := ih hb' hj'
    refine ⟨hend, hkept, hg.trans hg', fun x hx t ht hm => ?_⟩
    rcases List.mem_cons.mp hx with rfl | hx
    · exact hg'.known _ (hk t ht hm)
    · exact hall x hx t ht hm

theorem seeded_steps (tasks : List String) (hj : J .empty) : J (n.seeded tasks) :=
  (allStand_seeds step tasks (allStand_empty n) hj).2.1

end StepKeeps

theorem allStand_seeded (n : Network) (tasks : List String) : n.AllStand (n.seeded tasks) :=
  (allStand_seeds (.trivial n) tasks (allStand_empty n) True.intro).1

theorem known_of_rank {tasks : List String} (hall : tasks.Perm n.taskNames) {x : String} {k : Nat}
    (hr : n.Rank x k) : (n.seeded tasks).isKnown (taskNode x) = true := by
  obtain ⟨hend, -, -, hroots⟩ := allStand_seeds (.trivial n) tasks (allStand_empty n) True.intro
  induction hr with
  | root ht hm => exact hroots _ (hall.mem_iff.mpr (mem_taskNames.mpr ⟨_, ht⟩)) _ ht hm
  | slave ht hm _ ih => exact hend.slaves _ ih (_, _) (mem_slavesOf.mpr ⟨ht, hm⟩)

theorem stands_of_rank {tasks : List String} (hall : tasks.Perm n.taskNames) {x : String} {t : Task}
    {k : Nat} (ht : n.task? x = some t) (hr : n.Rank x k) : Stands (n.seeded tasks) x t :=
  (allStand_seeded n tasks).stands x t ht (known_of_rank hall hr)

theorem stands_seeded (hn : n.WellFormed) {tasks : List String} (hall : tasks.Perm n.taskNames)
    {x : String} {t : Task} (ht : n.task? x = some t) : Stands (n.seeded tasks) x t := by
  obtain ⟨k, hr⟩ := hn.ranked x t ht
  exact stands_of_rank hall ht hr

/-! ### Ports that their own task makes final -/

theorem sameAt_seedTask {b : FlowBoard} {x y p : String} {u : Task} {k : Nat} (hr : n.Rank y k)
    (hne : x ≠ y) : FlowBoard.SameAt ⟨x, some p⟩ b (n.seedTask y u b) := by
  have hkeeps : n.SeedKeeps y u (FlowBoard.SameAt ⟨x, some p⟩ b) := by
    refine { note := fun _ _ _ hc => ⟨hc.final, hc.info⟩, hand := ?_, alter := ?_, finalize := ?_ }
    · intro c _ d s hc _ _ _ _
      exact hc.trans (FlowBoard.sameAt_contribute_finalize c s.2 d (by simp [taskNode]))
    · intro c c' q _ ha hc
      exact hc.trans (FlowBoard.sameAt_of_alters ha.toAlters fun h => hne (Node.mk.inj h).1)
    · intro c q _ _ hc
      exact hc.trans (FlowBoard.sameAt_finalize c fun h => hne (Node.mk.inj h).1)
  exact hkeeps.seedTask hr (.refl _ b)

theorem seeded_own (hn : n.WellFormed) {tasks : List String} (hall : tasks.Perm n.taskNames) {x p : String}
    {t : Task} {d : PortDynamics} (ht : n.task? x = some t) (hstart : t.StartsFinal (some p))
    (own : ∀ b k, n.Rank x k → b.isFinal ⟨x, some p⟩ = false → b.info? ⟨x, some p⟩ = none →
      (n.seedTask x t b).isFinal ⟨x, some p⟩ = true ∧ (n.seedTask x t b).info? ⟨x, some p⟩ = some d) :
    (n.seeded tasks).isFinal ⟨x, some p⟩ = true ∧ (n.seeded tasks).info? ⟨x, some p⟩ = some d := by
  have hfinal := (stands_seeded hn hall ht).final _ hstart
  refine (seeded_induction (J := fun b => b.isFinal ⟨x, some p⟩ = false ∧ b.info? ⟨x, some p⟩ = none ∨
    b.isFinal ⟨x, some p⟩ = true ∧ b.info? ⟨x, some p⟩ = some d) ?_ tasks (by simp)).resolve_left
    fun h => by simp [hfinal] at h
  intro y u b hu hb
  obtain ⟨k, hr⟩ := hn.ranked y u hu
  by_cases he : x = y
  · subst he
    obtain rfl := Option.some.inj (ht.symm.trans hu)
    rcases hb with ⟨hopen, hnone⟩ | ⟨hf, hinfo⟩
    · exact .inr (own b k hr hopen hnone)
    · have hlater := (keeps_later n b x t).seedTask hr (.refl b)
      exact .inr ⟨hlater.final _ hf, (hlater.frozen _ hf).trans hinfo⟩
  · have hsame := sameAt_seedTask (p := p) (b := b) (u := u) hr he
    rw [hsame.final, hsame.info]
    exact hb

end Network

end FlowTiming
