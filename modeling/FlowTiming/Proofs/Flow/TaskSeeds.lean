import FlowTiming.Network.Building
import FlowTiming.Proofs.Flow.FinalTriggers
import FlowTiming.Proofs.Flow.Locality
import FlowTiming.Proofs.Flow.SeedingDepth

/-!
What is known about tasks after seeding, in any network whatsoever (`seeded_descends`). Tasks whose
masters end at one without a master have their own triggers, and those of their master if that is
final; nothing is known about any other task.
-/

namespace FlowTiming

open Board

/-- The triggers of the hint for a task, and of the devices of a driver that does not poll them. -/
def Task.givenTriggers (t : Task) : Set Trigger :=
  {g | ∃ d, t.hints.task = some d ∧ g ∈ d.triggers} ∪
    {g | t.period = none ∧ ∃ devices, t.kind = .driver devices ∧
      ∃ a ∈ devices, g ∈ a.device.dynamics.triggers}

def periodTrigger (x : String) (period : Duration) : Trigger := ⟨mainName x ++ "-period", period, 1⟩

/-- The triggers that a task has without its master. -/
def Task.ownTriggers (x : String) (t : Task) : Set Trigger :=
  t.givenTriggers ∪ {g | ∃ period, t.activity = .periodic period ∧ g = periodTrigger x period}

theorem Task.period_eq_some {t : Task} {period : Duration} :
    t.period = some period ↔ t.activity = .periodic period := by
  unfold Task.period
  cases t.activity <;> simp

theorem Task.ownTriggers_of_period {t : Task} (h : t.period = none) (x : String) :
    t.ownTriggers x = t.givenTriggers := by
  simp [ownTriggers, ← period_eq_some, h]

theorem Task.ownTriggers_of_periodic {t : Task} {period : Duration} (h : t.activity = .periodic period)
    {x : String} : t.ownTriggers x =
      t.givenTriggers ∪ {g | g ∈ [periodTrigger x period] ∧ g.count.toNat ≠ 0} := by
  have hcount : (periodTrigger x period).count.toNat ≠ 0 := by simp [periodTrigger]
  unfold ownTriggers
  congr 1
  ext g
  simp only [h, Activity.periodic.injEq, exists_eq_left', Set.mem_ofPred_eq, List.mem_singleton]
  exact ⟨fun hg => ⟨hg, hg ▸ hcount⟩, And.left⟩

namespace FlowBoard

variable {b b' : FlowBoard} {x : String} {t : Task} {S : Set Trigger}

theorem triggersOf_congr {y : FlowNode} (h : b'.info? y = b.info? y) :
    b'.triggersOf y = b.triggersOf y := by
  rw [triggersOf, triggersOf, h]

/-- Whether a node is known, not final, and has these triggers and no others. -/
structure Carries (b : FlowBoard) (y : FlowNode) (S : Set Trigger) : Prop where
  unsettled : b.isFinal y = false
  known : b.isKnown y = true
  triggers : b.triggersOf y = S

theorem Carries.same {y : FlowNode} (h : Carries b y S) (hs : SameAt y b b') : Carries b' y S :=
  ⟨hs.final.trans h.unsettled, (isKnown_congr hs.info).trans h.known,
    (triggersOf_congr hs.info).trans h.triggers⟩

theorem Carries.contribute {y : FlowNode} (h : Carries b y S) (t : Task) (d : PortDynamics) :
    Carries (b.contribute t y d) y (S ∪ {g | g ∈ d.triggers}) := by
  obtain ⟨known, hknown⟩ := isKnown_iff.mp h.known
  have hinfo := info?_contribute_of_known t d h.unsettled hknown
  refine ⟨(isFinal_contribute b t y y d).trans h.unsettled, isKnown_iff.mpr ⟨_, hinfo⟩, ?_⟩
  ext g
  rw [mem_triggersOf hinfo, PortDynamics.mem_merge, Set.mem_union, ← h.triggers, mem_triggersOf hknown]
  rfl

theorem Carries.note {y : FlowNode} (h : Carries b y S) (e : Entry) : Carries (b.note e) y S :=
  h.same (sameAt_of_same (sameFacts_note b e) y)

theorem Carries.noteAll {y : FlowNode} (h : Carries b y S) (entries : List Entry) :
    Carries (b.noteAll entries) y S :=
  h.same (sameAt_of_same (sameFacts_noteAll b entries) y)

theorem Carries.contributeTriggers {y : FlowNode} (h : Carries b y S) (t : Task) (name : String)
    (size : Count) (facts : List Trigger) :
    Carries (b.contributeTriggers t y name size facts) y (S ∪ {g | g ∈ facts ∧ g.count.toNat ≠ 0}) := by
  have hgiven := (h.noteAll (PortDynamics.additionNotes name facts)).contribute t (.ofTriggers name size facts)
  simp only [PortDynamics.mem_ofTriggers] at hgiven
  exact hgiven

theorem carries_placeTask (h : b.isFinal (taskNode x) = false) :
    Carries (b.placeTask x) (taskNode x) ∅ := by
  have hinfo := info?_replace_self b h (PortDynamics.empty (mainName x) 1)
  refine ⟨((alters_placeTask b x).final _).trans h, isKnown_iff.mpr ⟨_, hinfo⟩, ?_⟩
  ext g
  rw [placeTask, mem_triggersOf hinfo]
  simp [PortDynamics.empty]

/-! ### What a task has before its activity is looked at -/

theorem taskNode_ne (x y p : String) : taskNode x ≠ (⟨y, some p⟩ : FlowNode) := by simp [taskNode]

theorem carries_seedModels (t : Task) (h : b.isFinal (taskNode x) = false) :
    Carries (seedModels x t b) (taskNode x) ∅ := by
  unfold seedModels
  refine (carries_placeTask h).same (sameAt_foldl _ fun c o _ => ?_)
  exact sameAt_of_alters (alters_placeOutput c ⟨x, o.1⟩ o.2) (taskNode_ne x x o.1)

theorem Carries.givePorts (h : Carries b (taskNode x) S) (t : Task) (ports : List String)
    (d : PortDynamics) :
    Carries (ports.foldl (fun b p => (FlowBoard.contribute b t ⟨x, some p⟩ d).finalize ⟨x, some p⟩) b)
      (taskNode x) S :=
  h.same (sameAt_foldl b fun c p _ => sameAt_contribute_finalize c t d (taskNode_ne x x p))

theorem Carries.seedHints (h : Carries b (taskNode x) S) (t : Task) :
    Carries (seedHints x t b) (taskNode x)
      (S ∪ {g | ∃ d, t.hints.task = some d ∧ g ∈ d.triggers}) := by
  unfold FlowBoard.seedHints
  refine Carries.same ?_ (sameAt_foldl _ fun c p _ => ?_)
  case refine_2 => exact sameAt_contribute_finalize c t p.2 (taskNode_ne x x p.1)
  cases t.hints.task with
  | none => simpa using h
  | some d => simpa using h.contribute t d

theorem Carries.seedDevice (h : Carries b (taskNode x) S) (t : Task) (a : Attachment) :
    Carries (seedDevice x t b a) (taskNode x)
      (S ∪ {g | t.period = none ∧ g ∈ a.device.dynamics.triggers}) := by
  have hnoted (entries : List Entry) : Carries ((b.note (a.device.note x)).noteAll entries) (taskNode x) S :=
    (h.note _).noteAll entries
  unfold FlowBoard.seedDevice
  simp only
  split
  case isTrue hnone =>
    have hno : {g | t.period = none ∧ g ∈ a.device.dynamics.triggers} = ∅ :=
      Set.eq_empty_of_forall_notMem fun g hg => PortDynamics.isEmpty_iff.mp hnone g hg.2
    simpa only [hno, Set.union_empty] using hnoted _
  case isFalse =>
    unfold Task.period
    cases t.activity with
    | periodic period =>
      simp only [reduceCtorEq, false_and, Set.ofPred_false, Set.union_empty]
      refine (hnoted _).same (sameAt_foldl _ fun c p _ => ?_)
      exact (sameAt_of_same (sameFacts_noteAll c _) _).trans
        (sameAt_contribute_finalize _ t _ (taskNode_ne x x p))
    | triggered => simpa using ((hnoted _).contribute t a.device.dynamics).givePorts t a.ports _
    | slave m => simpa using ((hnoted _).contribute t a.device.dynamics).givePorts t a.ports _

theorem Carries.seedDevices {devices : List Attachment} (h : Carries b (taskNode x) S) (t : Task) :
    Carries (devices.foldl (FlowBoard.seedDevice x t) b) (taskNode x)
      (S ∪ {g | t.period = none ∧ ∃ a ∈ devices, g ∈ a.device.dynamics.triggers}) := by
  induction devices generalizing b S with
  | nil => simpa using h
  | cons a devices ih =>
    have hsplit : {g | t.period = none ∧ ∃ a' ∈ a :: devices, g ∈ a'.device.dynamics.triggers} =
        {g | t.period = none ∧ g ∈ a.device.dynamics.triggers} ∪
          {g | t.period = none ∧ ∃ a' ∈ devices, g ∈ a'.device.dynamics.triggers} := by
      ext g
      simp only [List.mem_cons, exists_eq_or_imp, Set.mem_ofPred_eq, Set.mem_union, ← and_or_left]
    rw [hsplit, ← Set.union_assoc]
    exact ih (h.seedDevice t a)

theorem Carries.seedBus (h : Carries b (taskNode x) S) (t : Task) (devices : List Attachment) :
    Carries (seedBus x t b devices) (taskNode x) S := by
  unfold FlowBoard.seedBus
  refine Carries.same (h.same (sameAt_foldl b fun c a _ => ?_))
    (sameAt_foldl _ fun c p _ => sameAt_finalize c (taskNode_ne x x p))
  exact sameAt_foldl c fun c p _ => sameAt_of_alters
    (touches_contributeTriggers c t ⟨x, some p⟩ _ _ _).toAlters (taskNode_ne x x p)

theorem Carries.seedKind (h : Carries b (taskNode x) S) (t : Task) :
    Carries (seedKind x t b) (taskNode x) (S ∪ {g | t.period = none ∧ ∃ devices,
      t.kind = .driver devices ∧ ∃ a ∈ devices, g ∈ a.device.dynamics.triggers}) := by
  unfold FlowBoard.seedKind
  cases t.kind with
  | component => simpa using h
  | driver devices => simpa using h.seedDevices t
  | bus devices => simpa using h.seedBus t devices

def seedGiven (x : String) (t : Task) (b : FlowBoard) : FlowBoard :=
  seedKind x t (seedHints x t (seedModels x t (b.note (resolverNote "initial port dynamics" [("task", x)]))))

theorem carries_seedGiven (t : Task) (h : b.isFinal (taskNode x) = false) :
    Carries (seedGiven x t b) (taskNode x) t.givenTriggers := by
  have hgiven := ((carries_seedModels (b := b.note (resolverNote "initial port dynamics" [("task", x)]))
    t h).seedHints t).seedKind t
  rwa [Set.empty_union] at hgiven

end FlowBoard

namespace Network

variable {n : Network} {b c : FlowBoard} {x : String} {t : Task} {k : Nat}

/-- What is known about tasks comes from themselves, and once they are final from their masters too. -/
structure Inherits (n : Network) (b : FlowBoard) : Prop where
  ranked : ∀ z, b.isKnown z = true ∨ b.isFinal z = true → ∃ k, n.Rank z.task k
  slaves : ∀ y, b.isKnown (taskNode y) = true → ∀ s ∈ n.slavesOf y, b.isKnown (taskNode s.1) = true
  master : ∀ y t m, n.task? y = some t → t.master = some m → b.isFinal (taskNode y) = true →
    b.isFinal (taskNode m) = true
  triggers : ∀ y t, n.task? y = some t → b.isKnown (taskNode y) = true →
    b.triggersOf (taskNode y) = t.ownTriggers y ∪
      {g | b.isFinal (taskNode y) = true ∧ ∃ m, t.master = some m ∧ g ∈ b.triggersOf (taskNode m)}

theorem taskNode_inj {x y : String} (h : taskNode x = taskNode y) : x = y := (Node.mk.inj h).1

theorem Inherits.own (hb : n.Inherits b) {y : String} (ht : n.task? y = some t)
    (hknown : b.isKnown (taskNode y) = true) (hopen : b.isFinal (taskNode y) = false) :
    b.triggersOf (taskNode y) = t.ownTriggers y := by
  rw [hb.triggers y t ht hknown]
  simp [hopen]

theorem later_masters (hl : b.Later c) (u : Task) {P : Prop}
    (h : P → ∀ m, u.master = some m → b.isFinal (taskNode m) = true) :
    {g | P ∧ ∃ m, u.master = some m ∧ g ∈ c.triggersOf (taskNode m)} =
      {g | P ∧ ∃ m, u.master = some m ∧ g ∈ b.triggersOf (taskNode m)} := by
  ext g
  refine and_congr_right fun hp => exists_congr fun m => and_congr_right fun hm => ?_
  rw [FlowBoard.triggersOf_congr (hl.frozen _ (h hp m hm))]

/-- Whether boards differ in the nodes of a single task, which is known on the later one. -/
structure Changes (x : String) (b c : FlowBoard) : Prop where
  other : ∀ z : FlowNode, z.task ≠ x → FlowBoard.SameAt z b c
  later : b.Later c
  known : c.isKnown (taskNode x) = true

theorem Changes.finalize (h : Changes x b c) : Changes x b (c.finalize (taskNode x)) where
  other z hz := (h.other z hz).trans (FlowBoard.sameAt_finalize c fun he => hz (congrArg Node.task he))
  later := h.later.trans (later_finalize c _)
  known := (isKnown_finalize c _ _).trans h.known

theorem changes_contribute (t : Task) (d : PortDynamics) (hopen : b.isFinal (taskNode x) = false) :
    Changes x b (FlowBoard.contribute b t (taskNode x) d) where
  other _ hz := FlowBoard.sameAt_of_alters (FlowBoard.alters_contribute b t (taskNode x) d)
    fun he => hz (congrArg Node.task he)
  later := (FlowBoard.alters_contribute b t (taskNode x) d).later
  known := FlowBoard.isKnown_contribute b t d hopen

theorem Inherits.change (hb : n.Inherits b) (hr : n.Rank x k) (ht : n.task? x = some t)
    (hslaves : ∀ s ∈ n.slavesOf x, b.isKnown (taskNode s.1) = true) (hc : Changes x b c)
    (hmaster : c.isFinal (taskNode x) = true → ∀ m, t.master = some m → b.isFinal (taskNode m) = true)
    (htriggers : b.isFinal (taskNode x) = false → c.triggersOf (taskNode x) = t.ownTriggers x ∪
      {g | c.isFinal (taskNode x) = true ∧ ∃ m, t.master = some m ∧ g ∈ b.triggersOf (taskNode m)}) :
    n.Inherits c where
  ranked z hz := by
    by_cases he : z.task = x
    · exact ⟨k, he ▸ hr⟩
    · rw [isKnown_congr (hc.other z he).info, (hc.other z he).final] at hz
      exact hb.ranked z hz
  slaves y hy s hs := by
    have hkept : b.isKnown (taskNode s.1) = true := by
      by_cases he : y = x
      · exact hslaves s (he ▸ hs)
      · exact hb.slaves y ((isKnown_congr (hc.other (taskNode y) he).info).symm.trans hy) s hs
    by_cases he : s.1 = x
    · exact he ▸ hc.known
    · exact (isKnown_congr (hc.other (taskNode s.1) he).info).trans hkept
  master y u m hu hm hy := by
    refine hc.later.final _ ?_
    by_cases he : y = x
    · subst he
      obtain rfl := Option.some.inj (ht.symm.trans hu)
      exact hmaster hy m hm
    · exact hb.master y u m hu hm ((hc.other (taskNode y) he).final.symm.trans hy)
  triggers y u hu hy := by
    by_cases he : y = x
    · subst he
      obtain rfl := Option.some.inj (ht.symm.trans hu)
      rw [later_masters hc.later t hmaster]
      cases hf : b.isFinal (taskNode y) with
      | false => exact htriggers hf
      | true =>
        -- a final task stays as it is
        have hinfo := hc.later.frozen _ hf
        rw [FlowBoard.triggersOf_congr hinfo, hc.later.final _ hf,
          hb.triggers y t ht ((isKnown_congr hinfo).symm.trans hy), hf]
    · have hsame := hc.other (taskNode y) he
      have hkept := hsame.final
      -- the master may be the task that changes, but not if it has to be final
      rw [later_masters hc.later u fun hf m hm => hb.master y u m hu hm (hkept.symm.trans hf), hkept,
        FlowBoard.triggersOf_congr hsame.info]
      exact hb.triggers y u hu ((isKnown_congr hsame.info).symm.trans hy)

theorem hands_inherits (n : Network) : n.Hands n.Inherits where
  note _ _ _ hb := ⟨hb.ranked, hb.slaves, hb.master, hb.triggers⟩
  hand b m d s hb hm hd hs hopen := by
    obtain ⟨ht, hmaster⟩ := mem_slavesOf.mp hs
    have hmknown : b.isKnown (taskNode m) = true := isKnown_iff.mpr ⟨d, hd⟩
    have hsknown := hb.slaves m hmknown s hs
    obtain ⟨known, hknown⟩ := isKnown_iff.mp hsknown
    obtain ⟨k, hr⟩ := hb.ranked _ (.inl hmknown)
    have hinfo := (info?_finalize (FlowBoard.contribute b s.2 (taskNode s.1) d) (taskNode s.1) _).trans
      (FlowBoard.info?_contribute_of_known s.2 d hopen hknown)
    refine hb.change (hr.ofSlave hs) ht (hb.slaves s.1 hsknown) (changes_contribute s.2 d hopen).finalize
      (fun _ m' hm' => ?_) fun _ => ?_
    · obtain rfl := Option.some.inj (hmaster.symm.trans hm')
      exact hm
    · rw [← hb.own ht hsknown hopen]
      ext g
      rw [FlowBoard.mem_triggersOf hinfo, PortDynamics.mem_merge, Set.mem_union,
        FlowBoard.mem_triggersOf hknown]
      simp [hmaster, FlowBoard.mem_triggersOf hd]

/-! ### Handing down reaches all slaves -/

def SlavesFinal (n : Network) (b : FlowBoard) (y : String) : Prop :=
  b.isFinal (taskNode y) = true → ∀ s ∈ n.slavesOf y, b.isFinal (taskNode s.1) = true

theorem SlavesFinal.congr {y : String} (h : n.SlavesFinal b y)
    (hc : ∀ z, c.isFinal (taskNode z) = b.isFinal (taskNode z)) : n.SlavesFinal c y := by
  simpa only [SlavesFinal, hc] using h

theorem final_finishWithin {depth : Nat} (hr : n.Rank x k) (hsize : n.tasks.size ≤ depth + k)
    (b : FlowBoard) : (n.finishWithin depth x b).isFinal (taskNode x) = true := by
  have hands : n.Hands fun _ => True := ⟨fun _ _ _ _ => trivial, fun _ _ _ _ _ _ _ _ _ => trivial⟩
  exact (hands.finishWithin hr hsize trivial).2.final _ ((isFinal_finalize b _ _).mpr (.inl rfl))

theorem finishWithin_slavesFinal {depth : Nat} {y : String} (hr : n.Rank x k)
    (hsize : n.tasks.size ≤ depth + k) (hknown : b.isKnown (taskNode x) = true)
    (hb : n.SlavesFinal b y) : n.SlavesFinal (n.finishWithin depth x b) y := by
  induction depth generalizing k x b with
  | zero =>
    have := hr.lt_size
    omega
  | succ depth ih =>
    obtain ⟨d, hd⟩ := isKnown_iff.mp hknown
    rw [finishWithin]
    simp only [info?_finalize, hd]
    by_cases he : y = x
    · subst he
      -- the loop goes over all slaves, and each is final afterwards
      intro _ s hs
      refine foldl_reaches (fun c : FlowBoard => c.isFinal (taskNode s.1) = true) hs
        (fun c s' _ hc => ?_) (fun c => ?_) _
      · split
        · exact hc
        · refine (updated_finishWithin n s'.1 _ depth).later.final _ ?_
          rw [FlowBoard.isFinal_contribute]
          exact hc
      · split
        · assumption
        · exact final_finishWithin (hr.ofSlave hs) (by omega) _
    · refine List.foldlRecOn (motive := fun c => n.SlavesFinal c y) _ _ (fun hy s hs => ?_)
        fun c hc s hs => ?_
      · rw [isFinal_finalize_of_ne b fun h => he (taskNode_inj h)] at hy
        exact (later_finalize b _).final _ (hb hy s hs)
      · split
        case isTrue => exact hc
        case isFalse hopen =>
          refine ih (hr.ofSlave hs) (by omega) ?_ (hc.congr fun z => ?_)
          · exact FlowBoard.isKnown_contribute _ s.2 d (by simpa using hopen)
          · rw [FlowBoard.isFinal_contribute]
            rfl

/-! ### Seeding a single task -/

/-- What has come of a task that is being seeded before anything about it becomes final. -/
structure Readied (x : String) (S : Set Trigger) (b c : FlowBoard) : Prop extends Changes x b c where
  final : ∀ y, c.isFinal (taskNode y) = b.isFinal (taskNode y)
  triggers : b.isFinal (taskNode x) = false → c.triggersOf (taskNode x) = S

theorem Readied.of_actsOn {f : FlowBoard → FlowBoard} {S : Set Trigger} (hf : FlowBoard.ActsOn x f)
    (hknown : b.isFinal (taskNode x) = true → b.isKnown (taskNode x) = true)
    (hcarries : b.isFinal (taskNode x) = false → (f b).Carries (taskNode x) S) :
    Readied x S b (f b) where
  other z hz := hf.others z b hz
  later := (hf.updated b).later
  final y := by
    by_cases he : y = x
    · subst he
      cases hfin : b.isFinal (taskNode y) with
      | true => exact (hf.updated b).later.final _ hfin
      | false => exact (hcarries hfin).unsettled
    · exact (hf.others (taskNode y) b he).final
  known := by
    cases hfin : b.isFinal (taskNode x) with
    | true => exact (isKnown_congr ((hf.updated b).later.frozen _ hfin)).trans (hknown hfin)
    | false => exact (hcarries hfin).known
  triggers hopen := (hcarries hopen).triggers

section SeedTask

variable (hb : n.Inherits b) (hr : n.Rank x k) (ht : n.task? x = some t)
  (hslaves : ∀ s ∈ n.slavesOf x, b.isKnown (taskNode s.1) = true)
include hb hr ht hslaves

theorem Readied.inherits (h : Readied x (t.ownTriggers x) b c) : n.Inherits c := by
  refine hb.change hr ht hslaves h.toChanges (fun hfin m hm => ?_) fun hopen => ?_
  · exact hb.master x t m ht hm ((h.final x).symm.trans hfin)
  · rw [h.triggers hopen, h.final x, hopen]
    simp

theorem Readied.finished (h : Readied x (t.ownTriggers x) b c) (hmaster : t.master = none) :
    n.Inherits (n.finish x c) := by
  refine ((hands_inherits n).finish hr ?_).1
  refine hb.change hr ht hslaves h.toChanges.finalize (fun _ m hm => ?_) fun hopen => ?_
  · simp [hmaster] at hm
  · rw [FlowBoard.triggersOf_congr (info?_finalize c _ _), h.triggers hopen]
    simp [hmaster]

theorem seedTask_inherits (hfinals : b.isFinal (taskNode x) = true → b.isKnown (taskNode x) = true)
    (hclosed : ∀ y, n.SlavesFinal b y) :
    n.Inherits (n.seedTask x t b) ∧ ∀ y, n.SlavesFinal (n.seedTask x t b) y := by
  have hgiven : Readied x t.givenTriggers b (FlowBoard.seedGiven x t b) :=
    .of_actsOn (actsOn_seeds x t) hfinals (FlowBoard.carries_seedGiven t)
  change n.Inherits (n.seedActivity x t (FlowBoard.seedGiven x t b)) ∧
    ∀ y, n.SlavesFinal (n.seedActivity x t (FlowBoard.seedGiven x t b)) y
  have hfinish {c : FlowBoard} (hc : Readied x (t.ownTriggers x) b c) (hm : t.master = none) :
      n.Inherits (n.finish x c) ∧ ∀ y, n.SlavesFinal (n.finish x c) y :=
    ⟨hc.finished hb hr ht hslaves hm, fun y => finishWithin_slavesFinal hr (Nat.le_add_right _ _) hc.known
      ((hclosed y).congr hc.final)⟩
  unfold seedActivity
  cases ha : t.activity with
  | periodic period =>
    refine hfinish (.of_actsOn (((actsOn_seeds x t).comp (.note x _)).comp
      (.contributeTriggers t x none _ _ _)) hfinals fun hopen => ?_) (by simp [Task.master, ha])
    rw [Task.ownTriggers_of_periodic ha]
    exact ((FlowBoard.carries_seedGiven t hopen).note _).contributeTriggers t (mainName x) 1
      [periodTrigger x period]
  | triggered =>
    rw [← Task.ownTriggers_of_period (by simp [Task.period, ha]) x] at hgiven
    simp only
    split
    case isTrue => exact hfinish hgiven (by simp [Task.master, ha])
    case isFalse => exact ⟨hgiven.inherits hb hr ht hslaves, fun y => (hclosed y).congr hgiven.final⟩
  | slave m =>
    -- it stays open until its master hands its dynamics down
    rw [← Task.ownTriggers_of_period (by simp [Task.period, ha]) x] at hgiven
    exact ⟨hgiven.inherits hb hr ht hslaves, fun y => (hclosed y).congr hgiven.final⟩

end SeedTask

/-! ### Seeding all tasks -/

/-- What is known about the tasks of a network when all are seeded. -/
structure Descends (n : Network) (b : FlowBoard) : Prop where
  known : ∀ x t, n.task? x = some t → (b.isKnown (taskNode x) = true ↔ ∃ k, n.Rank x k)
  others : ∀ z, b.isKnown z = true ∨ b.isFinal z = true → ∃ k, n.Rank z.task k
  triggers : ∀ x t k, n.task? x = some t → n.Rank x k → b.triggersOf (taskNode x) = t.ownTriggers x ∪
    {g | ∃ m, t.master = some m ∧ b.isFinal (taskNode m) = true ∧ g ∈ b.triggersOf (taskNode m)}
  slave : ∀ x t m, n.task? x = some t → t.master = some m →
    b.isFinal (taskNode x) = b.isFinal (taskNode m)

theorem inherits_empty (n : Network) : n.Inherits .empty where
  ranked _ h := by simp at h
  slaves _ h := by simp at h
  master _ _ _ _ _ h := by simp at h
  triggers _ _ _ h := by simp at h

theorem seeded_inherits (n : Network) (tasks : List String) :
    n.Inherits (n.seeded tasks) ∧ ∀ y, n.SlavesFinal (n.seeded tasks) y := by
  refine seeded_steps (J := fun b => n.Inherits b ∧ ∀ y, n.SlavesFinal b y) ?_ tasks
    ⟨inherits_empty n, fun y hy => by simp at hy⟩
  intro x t k b ht hr hall hslaves hb
  exact seedTask_inherits hb.1 hr ht hslaves (hall.finals _ (required_task ht)) hb.2

/-- Seeding never goes deeper than there are tasks. It reaches just the tasks whose masters end at one
without a master; they have their own triggers, and those of their master if it is final. -/
theorem seeded_descends (n : Network) {tasks : List String} (hall : tasks.Perm n.taskNames) :
    (∀ limit, n.tasks.size ≤ limit → n.seededUpTo limit tasks = some (n.seeded tasks)) ∧
      n.Descends (n.seeded tasks) := by
  obtain ⟨hb, hclosed⟩ := seeded_inherits n tasks
  have hslave (x : String) (t : Task) (m : String) (ht : n.task? x = some t) (hm : t.master = some m) :
      (n.seeded tasks).isFinal (taskNode x) = (n.seeded tasks).isFinal (taskNode m) :=
    Bool.eq_iff_iff.mpr ⟨hb.master x t m ht hm, fun hf => hclosed m hf (x, t) (mem_slavesOf.mpr ⟨ht, hm⟩)⟩
  refine ⟨fun limit hlimit => seededUpTo_eq hlimit tasks, ⟨fun x t ht => ?_, hb.ranked, ?_, hslave⟩⟩
  · exact ⟨fun hk => hb.ranked _ (.inl hk), fun ⟨k, hr⟩ => known_of_rank hall hr⟩
  · intro x t k ht hr
    rw [hb.triggers x t ht (known_of_rank hall hr)]
    congr 1
    ext g
    constructor
    · rintro ⟨hf, m, hm, hg⟩
      exact ⟨m, hm, (hslave x t m ht hm).symm.trans hf, hg⟩
    · rintro ⟨m, hm, hf, hg⟩
      exact ⟨(hslave x t m ht hm).trans hf, m, hm, hg⟩

/-- A clock with a camera on it and an echo on the camera that samples the clock, a gauge that waits for
data with a probe on it, two tasks that are each other's master, one on them, one that is its own master
and one whose master is not deployed. -/
def tangled : Network :=
  let clock := Task.ofActivity (.periodic ⟨200000000, by decide⟩)
  let n := empty.addTask "clock" (clock.withOutput "tick" {})
  let n := n.addTask "camera" ((Task.ofActivity (.slave "clock")).withDriver ⟨⟨"lens", none, 3, 1⟩, []⟩)
  let n := n.addTask "echo" ((Task.ofActivity (.slave "camera")).withReliableInput "in" false)
  let n := n.addTask "gauge" ((Task.ofActivity .triggered).withInput "in" {})
  let n := n.addTask "probe" (.ofActivity (.slave "gauge"))
  let n := n.addTask "left" (.ofActivity (.slave "right"))
  let n := n.addTask "right" (.ofActivity (.slave "left"))
  let n := n.addTask "under" (.ofActivity (.slave "left"))
  let n := n.addTask "self" (.ofActivity (.slave "self"))
  let n := n.addTask "lost" (.ofActivity (.slave "nowhere"))
  n.connect ⟨⟨"clock", "tick"⟩, ⟨"echo", "in"⟩⟩ {}

theorem tangled_descends :
    let b := tangled.seeded tangled.taskNames.reverse
    ((∀ limit, 10 ≤ limit → tangled.seededUpTo limit tangled.taskNames.reverse = some b) ∧
      tangled.Descends b) ∧
    tangled.taskNames.filter (fun x => b.isKnown (taskNode x)) =
      ["camera", "clock", "echo", "gauge", "probe"] ∧
    tangled.taskNames.filter (fun x => b.isFinal (taskNode x)) = ["camera", "clock", "echo"] ∧
    (b.info? (taskNode "echo")).map (·.triggers.toList) = some
      [⟨"clock.main-period", ⟨200000000, by decide⟩, 1⟩, ⟨"lens-burst", .zero, 3⟩] := by
  intro b
  have hsize : tangled.tasks.size = 10 := by decide +kernel
  have hdescends := seeded_descends tangled (List.reverse_perm tangled.taskNames)
  rw [hsize] at hdescends
  exact ⟨hdescends, by decide +kernel, by decide +kernel, by decide +kernel⟩

end Network

end FlowTiming
