import FlowTiming.Proofs.Flow.Dependence
import FlowTiming.Proofs.Propagation.Unfolding

/-!
A try at a node of a network: it succeeds where all that the node needs counts as final, and then it
resolves the node by the scheme of the network (`scheme`).
-/

namespace FlowTiming

open Board

namespace Network

/-! ### What a try reads -/

section Reading

variable {n : Network} {b b' : FlowBoard}

theorem isSettled_congr (h : SameFacts b b') : n.isSettled b' = n.isSettled b := by
  funext y
  simp only [isSettled, h.final]

theorem sourceDynamics_congr (h : SameFacts b b') : n.sourceDynamics b' = n.sourceDynamics b := by
  funext e
  simp only [sourceDynamics, h.info]

theorem dynamicsOf_congr (h : SameFacts b b') : n.dynamicsOf b' = n.dynamicsOf b := by
  funext y
  simp only [dynamicsOf, inputStart, sourceDynamics_congr h, h.info, h.final]

theorem silent_dynamicsNotes (n : Network) (b : FlowBoard) (y : FlowNode) :
    Silent b (b.noteAll (n.dynamicsNotes b y)) := by
  apply silent_noteAll
  intro e he
  unfold dynamicsNotes at he
  split at he
  case h_1 =>
    split at he
    case isTrue => simp at he
    case isFalse =>
      obtain ⟨d, -, rfl⟩ := List.mem_map.mp he
      exact Entry.not_isRefusal (by simp [PortDynamics.mergeNote])
  case h_2 => simp at he

theorem gather_eq (n : Network) (x : FlowNode) (needs : List FlowNode) (b : FlowBoard) :
    SameFacts b (n.gather x needs b).2 ∧ Silent b (n.gather x needs b).2 ∧
      (n.gather x needs b).1 =
      if needs.all (n.isSettled b) = true then
        some (needs.flatMap fun y => (n.dynamicsOf b y).toList.map (y.port.isSome, ·))
      else none := by
  induction needs generalizing b with
  | nil => exact ⟨.refl b, .refl b, rfl⟩
  | cons y needs ih =>
    rw [gather]
    cases hy : n.isSettled b y with
    | true =>
      have hs := sameFacts_noteAll b (n.dynamicsNotes b y)
      obtain ⟨hfacts, hsilent, hresult⟩ := ih (b.noteAll (n.dynamicsNotes b y))
      rw [isSettled_congr hs, dynamicsOf_congr hs] at hresult
      simp only [↓reduceIte, hresult, List.all_cons, hy, Bool.true_and, List.flatMap_cons]
      refine ⟨hs.trans hfacts, (silent_dynamicsNotes n b y).trans hsilent, ?_⟩
      split <;> rfl
    | false =>
      simp only [List.all_cons, hy, Bool.false_and, Bool.false_eq_true, ↓reduceIte, and_true]
      exact ⟨sameFacts_note b _, silent_note_iff.mpr (Entry.not_isRefusal (by simp [resolverNote]))⟩

end Reading

def seen : Option Duration → Bool → PortDynamics → PortDynamics
  | some period, true, d => d.sampledAt period
  | _, _, d => d

theorem absorb_eq (t : Task) (x : FlowNode) (period : Option Duration) (b : FlowBoard)
    (need : Bool × PortDynamics) : ∃ c, SameFacts b c ∧ Silent b c ∧
      absorb t x period b need = FlowBoard.contribute c t x (seen period need.1 need.2) := by
  obtain ⟨fromPort, d⟩ := need
  cases period with
  | none => exact ⟨b, .refl b, .refl b, rfl⟩
  | some period =>
    cases fromPort with
    | false => exact ⟨b, .refl b, .refl b, rfl⟩
    | true =>
      refine ⟨_, sameFacts_noteAll b (d.resampleNotes period), silent_noteAll fun e he => ?_, rfl⟩
      obtain ⟨g, -, rfl⟩ := List.mem_map.mp he
      exact Entry.not_isRefusal (by simp)

theorem foldl_absorb (t : Task) {x : FlowNode} (period : Option Duration)
    (needs : List (Bool × PortDynamics)) {b : FlowBoard} {d : PortDynamics}
    (hx : b.isFinal x = false) (hd : b.info? x = some d) :
    Alters x b (needs.foldl (absorb t x period) b) ∧
      Silent b (needs.foldl (absorb t x period) b) ∧
      (needs.foldl (absorb t x period) b).info? x =
        some ((needs.map fun need => seen period need.1 need.2).foldl PortDynamics.merge d) := by
  induction needs generalizing b d with
  | nil => exact ⟨(SameFacts.refl b).alters x, .refl b, hd⟩
  | cons need needs ih =>
    obtain ⟨c, hc, hquiet, he⟩ := absorb_eq t x period b need
    have ha := FlowBoard.alters_contribute c t x (seen period need.1 need.2)
    have hc' : c.isFinal x = false := (hc.final x).trans hx
    have hinfo := FlowBoard.info?_contribute_of_known t (seen period need.1 need.2) hc'
      ((hc.info x).trans hd)
    have hsilent := hquiet.trans (FlowBoard.silent_contribute t
      (seen period need.1 need.2) hc' ((hc.info x).trans hd))
    obtain ⟨ha', hsilent', hend⟩ := ih ((ha.final x).trans hc') hinfo
    simp only [List.foldl_cons, he, List.map_cons]
    exact ⟨((hc.alters x).trans ha).trans ha', hsilent.trans hsilent', hend⟩

/-! ### The scheme -/

def mergedSources (n : Network) (b : FlowBoard) (e : Endpoint) : PortDynamics :=
  (n.sourceDynamics b e).foldl PortDynamics.merge
    (.empty e.text (((n.sourceDynamics b e).map (·.sampleSize)).foldl max 1))

/-- Whether a node counts as final, where the inputs that are final are those of the seeded board. -/
def Settled (n : Network) (b₀ b : FlowBoard) (y : FlowNode) : Prop :=
  match n.inputOf y with
  | some e => b₀.isFinal y = true ∨ ∀ s ∈ n.links.sourcesOf e, b.isFinal s.node = true
  | none => b.isFinal y = true

def settledDynamics (n : Network) (b₀ b : FlowBoard) (y : FlowNode) : Option PortDynamics :=
  match n.inputOf y with
  | some e => if b₀.isFinal y = true then b₀.info? y else some (n.mergedSources b e)
  | none => b.info? y

def contributions (n : Network) (b₀ b : FlowBoard) (x : FlowNode) : List PortDynamics :=
  (setOf (n.needsOf b₀ x)).toList.flatMap fun y =>
    (n.settledDynamics b₀ b y).toList.map (seen ((n.task? x.task).bind n.rootPeriod) y.port.isSome)

variable {n : Network} {b₀ b b' : FlowBoard}

theorem mem_setOf {nodes : List FlowNode} {y : FlowNode} : y ∈ setOf nodes ↔ y ∈ nodes := by
  unfold setOf
  rw [mem_foldl_insert (fun y => y)]
  simp

theorem Settled.later (h : b.Later b') {y : FlowNode} (hy : n.Settled b₀ b y) :
    n.Settled b₀ b' y := by
  unfold Settled at hy ⊢
  split at hy
  case h_1 e he => exact hy.imp_right fun hs s hmem => h.final _ (hs s hmem)
  case h_2 => exact h.final y hy

theorem settledDynamics_later (h : b.Later b') {y : FlowNode} (hy : n.Settled b₀ b y) :
    n.settledDynamics b₀ b' y = n.settledDynamics b₀ b y := by
  unfold Settled at hy
  unfold settledDynamics
  split at hy
  case h_1 e he =>
    split
    case isTrue => rfl
    case isFalse hopen =>
      have hsources : n.sourceDynamics b' e = n.sourceDynamics b e :=
        List.filterMap_congr fun s hs => h.frozen _ (hy.resolve_left hopen s hs)
      simp only [mergedSources, hsources]
  case h_2 => exact h.frozen y hy

theorem contributions_later (h : b.Later b') {x : FlowNode}
    (hx : ∀ y ∈ n.needsOf b₀ x, n.Settled b₀ b y) :
    n.contributions b₀ b' x = n.contributions b₀ b x := by
  unfold contributions
  apply List.flatMap_congr
  intro y hy
  rw [settledDynamics_later h (hx y (mem_setOf.mp (Std.ExtTreeSet.mem_toList.mp hy)))]

def scheme (n : Network) (b₀ : FlowBoard) : Scheme String String PortDynamics where
  ready b x := n.IsRequired x ∧ ∀ y ∈ n.needsOf b₀ x, n.Settled b₀ b y
  value b x start := start.map fun d => (n.contributions b₀ b x).foldl PortDynamics.merge d
  ready_later h := fun ⟨hx, hneeds⟩ => ⟨hx, fun y hy => (hneeds y hy).later h⟩
  value_later h := fun ⟨_, hneeds⟩ start => by rw [contributions_later h hneeds]

/-! ### Inputs stay as they are seeded -/

variable {tasks : List String}

section Unfolded

variable {y : FlowNode} {e : Endpoint}

theorem isFinal_input (hn : n.WellFormed) (hb : (n.scheme b₀).Unfolds b₀ b)
    (he : n.inputOf y = some e) : b.isFinal y = b₀.isFinal y := by
  rw [Bool.eq_iff_iff]
  refine ⟨fun hy => ?_, hb.later.final y⟩
  by_contra h₀
  have hready := hb.ready_of_final hy (by simpa using h₀)
  simp [inputOf_required hn hready.1] at he

theorem info_input (hn : n.WellFormed) (hb : (n.scheme b₀).Unfolds b₀ b)
    (he : n.inputOf y = some e) : b.info? y = b₀.info? y := by
  cases hy : b.isFinal y with
  | true => exact hb.later.frozen y ((isFinal_input hn hb he).symm.trans hy)
  | false => exact hb.info_of_open hy

theorem isSettled_iff (hn : n.WellFormed) (hb : (n.scheme b₀).Unfolds b₀ b) (y : FlowNode) :
    n.isSettled b y = true ↔ n.Settled b₀ b y := by
  unfold isSettled Settled
  cases he : n.inputOf y with
  | none => simp
  | some e => simp [isFinal_input hn hb he]

theorem unknown_input (hn : n.WellFormed) (hall : tasks.Perm n.taskNames)
    (he : n.inputOf y = some e) (hy : (n.seeded tasks).isFinal y = false) :
    (n.seeded tasks).info? y = none := by
  obtain ⟨rfl, hin⟩ := inputOf_eq_some.mp he
  by_contra hk
  obtain ⟨t, ht, hp⟩ := port_of_known hn tasks (x := e.task) (p := e.port) (by
    rw [isKnown_eq]
    exact Option.isSome_iff_ne_none.mpr hk)
  rcases hp with hp | hp
  · have hnone := inputOf_output hn ht hp
    rw [Endpoint.node, hnone] at he
    contradiction
  · rw [Endpoint.node, (isFinal_seeded_port hn hall e.task e.port).mpr ⟨t, ht, hp⟩] at hy
    contradiction

theorem dynamicsOf_eq (hn : n.WellFormed) (hall : tasks.Perm n.taskNames)
    (hb : (n.scheme (n.seeded tasks)).Unfolds (n.seeded tasks) b) (y : FlowNode) :
    n.dynamicsOf b y = n.settledDynamics (n.seeded tasks) b y := by
  unfold dynamicsOf settledDynamics
  cases he : n.inputOf y with
  | none => rfl
  | some e =>
    simp only [isFinal_input hn hb he]
    split
    case isTrue => exact info_input hn hb he
    case isFalse hy =>
      have hnone := unknown_input hn hall he (by simpa using hy)
      obtain ⟨rfl, -⟩ := inputOf_eq_some.mp he
      simp only [inputStart, mergedSources, info_input hn hb he, hnone, Option.getD_none]

theorem known_of_required (hn : n.WellFormed) (hall : tasks.Perm n.taskNames)
    (hb : (n.scheme (n.seeded tasks)).Unfolds (n.seeded tasks) b) {x : FlowNode}
    (hx : n.IsRequired x) : ∃ start d, (n.seeded tasks).info? x = some start ∧ b.info? x = some d ∧
      d.name = start.name ∧ d.sampleSize = start.sampleSize := by
  obtain ⟨t, ht, hq⟩ := hx
  obtain ⟨start, hstart⟩ := isKnown_iff.mp ((stands_seeded hn hall ht).known x.port hq)
  cases hf : b.isFinal x with
  | false => exact ⟨start, start, hstart, (hb.info_of_open hf).trans hstart, rfl, rfl⟩
  | true =>
    cases h₀ : (n.seeded tasks).isFinal x with
    | true => exact ⟨start, start, hstart, (hb.later.frozen x h₀).trans hstart, rfl, rfl⟩
    | false =>
      have hvalue := (hb.info_of_final hf h₀).trans (congrArg (Option.map _) hstart)
      obtain ⟨hname, hsize, -⟩ :=
        PortDynamics.foldl_merge (n.contributions (n.seeded tasks) b x) start
      exact ⟨start, _, hstart, hvalue, hname, hsize⟩

end Unfolded

end Network

end FlowTiming
