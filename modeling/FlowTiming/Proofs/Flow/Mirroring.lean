import FlowTiming.Proofs.Flow.FinalNodes
import FlowTiming.Proofs.Flow.Locality
import FlowTiming.Proofs.Network.Extension

/-!
A network and one with further tasks below it, seeded, linked and tried in step: boards that agree
about the tasks of the one stay so, and what becomes of the further tasks does not matter to them.
-/

namespace FlowTiming

open Board FlowBoard

namespace Network

/-- Whether boards agree about the tasks of a network and their ports. -/
def Agrees (n : Network) (b b' : FlowBoard) : Prop :=
  ∀ y : FlowNode, y.task ∈ n.tasks → SameAt y b b'

/-- Whether runs agree about the tasks of a network, and have recorded the same needs for them. -/
structure Mirrors (n : Network) (run run' : FlowRun) : Prop where
  board : n.Agrees run.board run'.board
  memory : ∀ y : FlowNode, y.task ∈ n.tasks → run'.memory[y]? = run.memory[y]?

section Agrees

variable {n : Network} {b b' : FlowBoard} {x : String} {f : FlowBoard → FlowBoard}

theorem Agrees.refl (n : Network) (b : FlowBoard) : n.Agrees b b := fun y _ => .refl y b

theorem Agrees.acts (h : n.Agrees b b') (hf : ActsOn x f) : n.Agrees (f b) (f b') :=
  fun y hy => hf.same y b b' (h y hy)

theorem Agrees.past (h : n.Agrees b b') (hf : ActsOn x f) (hx : x ∉ n.tasks) : n.Agrees b (f b') :=
  fun y hy => (h y hy).trans (hf.others y b' fun he => hx (he ▸ hy))

theorem Agrees.congr {c c' : FlowBoard} (h : n.Agrees b b') (hc : SameFacts b c) (hc' : SameFacts b' c') :
    n.Agrees c c' := fun y hy =>
  (sameAt_of_same hc y).symm.trans ((h y hy).trans (sameAt_of_same hc' y))

variable {run run' : FlowRun}

theorem Mirrors.congr {r' : FlowRun} (h : n.Mirrors run run') (hm : r'.memory = run'.memory)
    (hb : SameFacts run'.board r'.board) : n.Mirrors run r' where
  board := h.board.congr (.refl _) hb
  memory y hy := by rw [hm, h.memory y hy]

theorem Mirrors.finalize (h : n.Mirrors run run') (y : FlowNode) :
    n.Mirrors (run.finalize y) (run'.finalize y) :=
  ⟨h.board.acts (ActsOn.finalize y.task y.port), h.memory⟩

theorem Mirrors.finalize_past (h : n.Mirrors run run') {y : FlowNode} (hy : y.task ∉ n.tasks) :
    n.Mirrors run (run'.finalize y) :=
  ⟨h.board.past (ActsOn.finalize y.task y.port) hy, h.memory⟩

theorem Mirrors.record (h : n.Mirrors run run') (y : FlowNode) (needs : Std.ExtTreeSet FlowNode) :
    n.Mirrors { run with memory := run.memory.insert y needs }
      { run' with memory := run'.memory.insert y needs } := by
  refine ⟨h.board, fun z hz => ?_⟩
  simp only [Std.ExtTreeMap.getElem?_insert, h.memory z hz]

theorem Mirrors.record_past (h : n.Mirrors run run') {y : FlowNode} (hy : y.task ∉ n.tasks)
    (needs : Std.ExtTreeSet FlowNode) :
    n.Mirrors run { run' with memory := run'.memory.insert y needs } := by
  refine ⟨h.board, fun z hz => ?_⟩
  have hne : compare y z ≠ .eq := fun he => hy (Std.compare_eq_iff_eq.mp he ▸ hz)
  rw [Std.ExtTreeMap.getElem?_insert, if_neg hne]
  exact h.memory z hz

end Agrees

variable {n n' : Network} {x : String} {t : Task} {b b' : FlowBoard} {run run' : FlowRun}

namespace Extends

variable (h : n'.Extends n) (hn : n.WellFormed)
include h hn

/-! ### Handing down -/

theorem finishWithin_past (depth : Nat) (hx : x ∉ n.tasks) (hb : n.Agrees b b') :
    n.Agrees b (n'.finishWithin depth x b') := by
  induction depth generalizing x b' with
  | zero => exact hb
  | succ depth ih =>
    have hfinal := hb.past (ActsOn.finalize x none) hx
    rw [Network.finishWithin]
    simp only
    split
    case h_1 => exact hfinal
    case h_2 d _ =>
      refine List.foldlRecOn (motive := n.Agrees b) _ _ hfinal fun c hc s hs => ?_
      have hs' := h.slave_notMem hn hx hs
      split
      case isTrue => exact hc
      case isFalse => exact ih hs' (hc.past ((ActsOn.note s.1 _).comp (.contribute s.2 s.1 none d)) hs')

theorem finishWithin {k depth depth' : Nat} (hr : n.Rank x k) (hd : n.tasks.size ≤ depth + k)
    (hd' : n'.tasks.size ≤ depth' + k) (hb : n.Agrees b b') :
    n.Agrees (n.finishWithin depth x b) (n'.finishWithin depth' x b') := by
  -- a task has the same rank in both networks, so neither runs out of depth
  have hlt := hr.lt_size
  have hlt' := (h.rank hr).lt_size
  induction depth generalizing k depth' x b b' with
  | zero => omega
  | succ depth ih =>
    obtain ⟨depth', rfl⟩ : ∃ j, depth' = j + 1 := ⟨depth' - 1, by omega⟩
    have hfinal : n.Agrees (b.finalize (taskNode x)) (b'.finalize (taskNode x)) :=
      hb.acts (ActsOn.finalize x none)
    rw [Network.finishWithin, Network.finishWithin]
    simp only
    rw [(hfinal (taskNode x) (mem_tasks.mpr hr.deployed)).info]
    split
    case h_1 => exact hfinal
    case h_2 d _ =>
      rw [h.slavesOf x]
      refine foldl_filter_rel hfinal (fun s hs hown c c' hc => ?_) fun s hs hown c c' hc => ?_
      · have hr' := hr.ofSlave (h.slave_mem hs hown)
        rw [(hc (taskNode s.1) (mem_tasks.mpr hr'.deployed)).final]
        split
        case isTrue => exact hc
        case isFalse =>
          exact ih hr' (by omega) (by omega)
            (hc.acts ((ActsOn.note s.1 _).comp (.contribute s.2 s.1 none d))) hr'.lt_size (h.rank hr').lt_size
      · have hs' := contains_tasks_eq_false.mp hown
        split
        case isTrue => exact hc
        case isFalse =>
          exact h.finishWithin_past hn depth' hs'
            (hc.past ((ActsOn.note s.1 _).comp (.contribute s.2 s.1 none d)) hs')

theorem finish (hx : x ∈ n.tasks) (hb : n.Agrees b b') : n.Agrees (n.finish x b) (n'.finish x b') := by
  obtain ⟨t, ht⟩ := mem_tasks.mp hx
  obtain ⟨k, hr⟩ := hn.ranked x t ht
  exact h.finishWithin hn hr (Nat.le_add_right _ _) (Nat.le_add_right _ _) hb

/-! ### Seeding -/

theorem seedTask (ht : n.task? x = some t) (hb : n.Agrees b b') :
    n.Agrees (n.seedTask x t b) (n'.seedTask x t b') := by
  have hx := mem_tasks.mpr ⟨t, ht⟩
  have hseeds := hb.acts (actsOn_seeds x t)
  unfold Network.seedTask seedActivity
  simp only
  split
  · exact h.finish hn hx (hseeds.acts ((ActsOn.note x _).comp (.contributeTriggers t x none _ _ _)))
  · split
    · exact h.finish hn hx hseeds
    · exact hseeds
  · exact hseeds

theorem seedTask_past (hx : x ∉ n.tasks) (t : Task) (hb : n.Agrees b b') :
    n.Agrees b (n'.seedTask x t b') := by
  have hseeds := hb.past (actsOn_seeds x t) hx
  unfold Network.seedTask seedActivity
  simp only
  split
  · exact h.finishWithin_past hn _ hx
      (hseeds.past ((ActsOn.note x _).comp (.contributeTriggers t x none _ _ _)) hx)
  · split
    · exact h.finishWithin_past hn _ hx hseeds
    · exact hseeds
  · exact hseeds

theorem seedWithin_past (depth : Nat) (hx : x ∉ n.tasks) (t : Task) (hb : n.Agrees b b') :
    n.Agrees b (n'.seedWithin depth x t b') := by
  induction depth generalizing x t b' with
  | zero => exact hb
  | succ depth ih =>
    refine h.seedTask_past hn hx t (List.foldlRecOn (motive := n.Agrees b) _ _ hb fun c hc s hs => ?_)
    split
    case isTrue => exact hc
    case isFalse => exact ih (h.slave_notMem hn hx hs) s.2 hc

theorem seedWithin {k depth depth' : Nat} (hr : n.Rank x k) (ht : n.task? x = some t)
    (hd : n.tasks.size ≤ depth + k) (hd' : n'.tasks.size ≤ depth' + k) (hb : n.Agrees b b') :
    n.Agrees (n.seedWithin depth x t b) (n'.seedWithin depth' x t b') := by
  have hlt := hr.lt_size
  have hlt' := (h.rank hr).lt_size
  induction depth generalizing k depth' x t b b' with
  | zero => omega
  | succ depth ih =>
    obtain ⟨depth', rfl⟩ : ∃ j, depth' = j + 1 := ⟨depth' - 1, by omega⟩
    rw [Network.seedWithin, Network.seedWithin, h.slavesOf x]
    refine h.seedTask hn ht (foldl_filter_rel hb (fun s hs hown c c' hc => ?_) fun s hs hown c c' hc => ?_)
    · have hslave := h.slave_mem hs hown
      have hr' := hr.ofSlave hslave
      rw [isKnown_congr (hc (taskNode s.1) (mem_tasks.mpr hr'.deployed)).info]
      split
      case isTrue => exact hc
      case isFalse =>
        exact ih hr' (mem_slavesOf.mp hslave).1 (by omega) (by omega) hc hr'.lt_size (h.rank hr').lt_size
    · split
      case isTrue => exact hc
      case isFalse => exact h.seedWithin_past hn depth' (contains_tasks_eq_false.mp hown) s.2 hc

theorem seeded : n.Agrees (n.seeded n.taskNames) (n'.seeded n'.taskNames) := by
  unfold Network.seeded
  rw [h.taskNames]
  refine foldl_filter_rel (.refl n .empty) (fun x _ hown b b' hb => ?_) fun x _ hown b b' hb => ?_
  · have hx : x ∈ n.tasks := by simpa using hown
    obtain ⟨t, ht⟩ := mem_tasks.mp hx
    obtain ⟨k, hr⟩ := hn.ranked x t ht
    unfold Network.seed
    rw [h.task? hx, ht]
    simp only
    split
    · exact hb
    · exact h.seedWithin hn hr ht (Nat.le_add_right _ _) (Nat.le_add_right _ _) hb
  · unfold Network.seed
    split
    · exact hb
    · split
      · exact hb
      · exact h.seedWithin_past hn _ (contains_tasks_eq_false.mp hown) _ hb

/-! ### Linking -/

omit hn in
theorem receivable (hx : x ∈ n.tasks) (hb : n.Agrees b b') (inputs : List String) :
    (inputs.map (Endpoint.mk x)).filter (n'.canReceive b') =
      (inputs.map (Endpoint.mk x)).filter (n.canReceive b) := by
  refine List.filter_congr fun e he => ?_
  obtain ⟨p, -, rfl⟩ := List.mem_map.mp he
  rw [canReceive, canReceive, h.feeds hx, (hb (Endpoint.node ⟨x, p⟩) hx).final]

omit hn in
theorem linkOutput (hx : x ∈ n.tasks) (hm : n.Mirrors run run') (o : String × OutputPort) :
    n.Mirrors (n.linkOutput x run o) (n'.linkOutput x run' o) := by
  have hneeds : n'.outputNeeds run'.board x o.2 = n.outputNeeds run.board x o.2 := by
    rw [outputNeeds, outputNeeds, h.receivable hx hm.board]
  unfold Network.linkOutput
  rw [hneeds]
  split
  · exact ⟨hm.board.acts (ActsOn.finalize x (some o.1)), hm.memory⟩
  · exact hm.record _ _

omit hn in
theorem link (hx : x ∈ n.tasks) (hm : n.Mirrors run run') :
    n.Mirrors (n.link x run) (n'.link x run') := by
  obtain ⟨t, ht⟩ := mem_tasks.mp hx
  have hneeds : n'.taskNeeds run'.board x t = n.taskNeeds run.board x t := by
    rw [taskNeeds, taskNeeds, h.receivable hx hm.board]
  unfold Network.link
  rw [h.task? hx, ht]
  simp only
  rw [hneeds]
  exact List.foldl_rel (hm.record _ _) fun o _ _ _ hm => h.linkOutput hx hm o

omit h hn in
theorem link_past (hx : x ∉ n.tasks) (hm : n.Mirrors run run') : n.Mirrors run (n'.link x run') := by
  unfold Network.link
  split
  case h_1 => exact hm
  case h_2 t _ =>
    refine List.foldlRecOn (motive := n.Mirrors run) _ _ (hm.record_past hx _) fun r hr o _ => ?_
    unfold Network.linkOutput
    split
    · exact ⟨hr.board.past (ActsOn.finalize x (some o.1)) hx, hr.memory⟩
    · exact hr.record_past hx _

theorem prepared : n.Mirrors (n.prepared n.taskNames ∅) (n'.prepared n'.taskNames ∅) := by
  rw [prepared_eq, prepared_eq]
  have hseeded : n.Mirrors ⟨∅, n.seeded n.taskNames⟩ ⟨∅, n'.seeded n'.taskNames⟩ :=
    ⟨h.seeded hn, fun _ _ => rfl⟩
  rw [h.taskNames] at hseeded ⊢
  refine foldl_filter_rel hseeded (fun x _ hown _ _ hm => ?_) fun x _ hown _ _ hm => ?_
  · exact h.link (by simpa using hown) hm
  · exact link_past (contains_tasks_eq_false.mp hown) hm

/-! ### Tries -/

omit hn in
theorem inputOf {y : FlowNode} (hy : y.task ∈ n.tasks) : n'.inputOf y = n.inputOf y := by
  obtain ⟨x, q⟩ := y
  have hin (p : String) : n'.hasInput ⟨x, p⟩ = n.hasInput ⟨x, p⟩ := by
    rw [hasInput, hasInput, h.task? hy]
  cases q with
  | none => rfl
  | some p => simp only [Network.inputOf, Option.map_some, Option.filter_some, hin]

omit hn in
theorem sourcesOf_input {y : FlowNode} {e : Endpoint} (hy : y.task ∈ n.tasks) (he : n.inputOf y = some e) :
    n'.links.sourcesOf e = n.links.sourcesOf e := by
  obtain ⟨rfl, -⟩ := inputOf_eq_some.mp he
  exact h.sourcesOf hy

omit h in
theorem sameAt_source (hb : n.Agrees b b') {e s : Endpoint} (hs : s ∈ n.links.sourcesOf e) :
    SameAt s.node b b' := by
  obtain ⟨t, ht, -⟩ := required_source hn hs
  exact hb s.node (mem_tasks.mpr ⟨t, ht⟩)

theorem isSettled {y : FlowNode} (hy : y.task ∈ n.tasks) (hb : n.Agrees b b') :
    n'.isSettled b' y = n.isSettled b y := by
  unfold Network.isSettled
  rw [h.inputOf hy, (hb y hy).final]
  cases he : n.inputOf y with
  | none => rfl
  | some e =>
    have hsources : (n'.links.sourcesOf e).all (fun s => b'.isFinal s.node) =
        (n.links.sourcesOf e).all fun s => b.isFinal s.node := by
      rw [h.sourcesOf_input hy he, Bool.eq_iff_iff, List.all_eq_true, List.all_eq_true]
      exact forall₂_congr fun s hs => by rw [(sameAt_source hn hb hs).final]
    simp only [hsources]

theorem dynamicsOf {y : FlowNode} (hy : y.task ∈ n.tasks) (hb : n.Agrees b b') :
    n'.dynamicsOf b' y = n.dynamicsOf b y := by
  unfold Network.dynamicsOf
  rw [h.inputOf hy, (hb y hy).final, (hb y hy).info]
  cases he : n.inputOf y with
  | none => rfl
  | some e =>
    have hsources : n'.sourceDynamics b' e = n.sourceDynamics b e := by
      unfold sourceDynamics
      rw [h.sourcesOf_input hy he]
      exact List.filterMap_congr fun s hs => (sameAt_source hn hb hs).info
    obtain ⟨rfl, -⟩ := inputOf_eq_some.mp he
    simp only [inputStart, hsources, (hb e.node hy).info]

theorem absorbed (ht : n.task? x = some t) (q : Option String) {needs : List FlowNode}
    (hneeds : ∀ y ∈ needs, y.task ∈ n.tasks) (hb : n.Agrees b b') {c c' : FlowBoard} (hc : n.Agrees c c') :
    n.Agrees (n.absorbed t ⟨x, q⟩ needs b c) (n'.absorbed t ⟨x, q⟩ needs b' c') := by
  have hdynamics : (needs.flatMap fun y => (n'.dynamicsOf b' y).toList.map (y.port.isSome, ·)) =
      needs.flatMap fun y => (n.dynamicsOf b y).toList.map (y.port.isSome, ·) :=
    List.flatMap_congr fun y hy => by rw [h.dynamicsOf hn (hneeds y hy) hb]
  unfold Network.absorbed
  rw [h.rootPeriod hn ht, hdynamics]
  exact hc.acts (.foldl (ActsOn.absorb t x q _) _)

theorem attempt {y : FlowNode} (hy : y.task ∈ n.tasks) (hm : n.Mirrors run run')
    (hneeds : ∀ z ∈ run.memory.getD y ∅, z.task ∈ n.tasks) :
    (n'.attempt y run').1 = (n.attempt y run).1 ∧
      n.Mirrors (n.attempt y run).2 (n'.attempt y run').2 := by
  have hmemory : run'.memory.getD y ∅ = run.memory.getD y ∅ := by
    rw [Std.ExtTreeMap.getD_eq_getD_getElem?, Std.ExtTreeMap.getD_eq_getD_getElem?, hm.memory y hy]
  have hsettled {z : FlowNode} (hz : z ∈ run.memory.getD y ∅) :
      n'.isSettled run'.board z = n.isSettled run.board z := h.isSettled hn (hneeds z hz) hm.board
  have ht := h.task? hy
  have htry := attempted n y run
  have htry' := attempted n' y run'
  generalize n.attempt y run = result at htry ⊢
  generalize n'.attempt y run' = result' at htry' ⊢
  cases htry with
  | undeployed hnone => simp [mem_tasks, hnone] at hy
  | waiting hz hopen hfacts =>
    cases htry' with
    | undeployed hnone => simp [mem_tasks, ← ht, hnone] at hy
    | waiting _ _ hfacts' => exact ⟨rfl, hm.board.congr hfacts hfacts', hm.memory⟩
    | resolved _ hall =>
      specialize hall _ (hmemory ▸ hz)
      simp [hsettled hz, hopen] at hall
  | @resolved t c c' htask hall hfacts _ hc =>
    cases htry' with
    | undeployed hnone => simp [mem_tasks, ← ht, hnone] at hy
    | waiting hz hopen =>
      rw [hmemory] at hz
      simp [hsettled hz, hall _ hz] at hopen
    | @resolved _ d d' htask' _ hfacts' _ hd =>
      obtain rfl := Option.some.inj (htask'.symm.trans (ht.trans htask))
      obtain ⟨x, q⟩ := y
      have habsorbed : n.Agrees c' d' := by
        rw [hc, hd, hmemory]
        exact h.absorbed hn htask q (fun z hz => hneeds z (Std.ExtTreeSet.mem_toList.mp hz)) hm.board
          (hm.board.congr hfacts hfacts')
      cases q with
      | none => exact ⟨rfl, h.finish hn hy habsorbed, hm.memory⟩
      | some p => exact ⟨rfl, habsorbed, hm.memory⟩

theorem attempt_past {y : FlowNode} (hy : y.task ∉ n.tasks) (hm : n.Mirrors run run') :
    n.Mirrors run (n'.attempt y run').2 := by
  have htry := attempted n' y run'
  generalize n'.attempt y run' = result at htry ⊢
  cases htry with
  | undeployed => exact hm
  | waiting _ _ hfacts => exact ⟨hm.board.congr (.refl _) hfacts, hm.memory⟩
  | @resolved t c c' _ _ hfacts _ hc =>
    obtain ⟨x, q⟩ := y
    have habsorbed : n.Agrees run.board c' := by
      rw [hc]
      exact (hm.board.congr (.refl _) hfacts).past (.foldl (ActsOn.absorb t x q _) _) hy
    cases q with
    | none => exact ⟨h.finishWithin_past hn _ hy habsorbed, hm.memory⟩
    | some p => exact ⟨habsorbed, hm.memory⟩

end Extends

end Network

end FlowTiming
