import FlowTiming.Proofs.Flow.Resolution
import FlowTiming.Proofs.Propagation.Passes

/-!
Tries and links as steps of the scheme of a network: every board that a propagation comes to unfolds
from the seeded one.
-/

namespace FlowTiming

open Board

namespace Network

variable {n : Network} {tasks : List String}

theorem toList_setOf_singleton (y : FlowNode) : (setOf [y]).toList = [y] := by
  apply List.perm_singleton.mp
  apply (List.perm_ext_iff_of_nodup (nodup_toList _) (by simp)).mpr
  intro z
  rw [Std.ExtTreeSet.mem_toList, mem_setOf]

theorem seen_of_task (period : Option Duration) (d : PortDynamics) : seen period false d = d := by
  unfold seen
  split
  · contradiction
  · rfl

theorem hands_unfolds (hn : n.WellFormed) (hall : tasks.Perm n.taskNames) (c : FlowBoard) :
    n.Hands fun b => (n.scheme (n.seeded tasks)).Unfolds (n.seeded tasks) b ∧ Silent c b where
  note b _ _ hb := ⟨hb.1.congr (sameFacts_note b _),
    hb.2.trans (silent_note_iff.mpr (Entry.not_isRefusal (by simp [resolverNote])))⟩
  hand b m d s := by
    rintro ⟨hb, hsilent⟩ hm hd hs hopen
    obtain ⟨hs, hmaster⟩ := mem_slavesOf.mp hs
    have ha := FlowBoard.alters_contribute b s.2 (taskNode s.1) d
    -- all that a slave needs is its master, which is final
    have hneeds := needsOf_slave (n.seeded tasks) hs hmaster
    have hrequired : n.IsRequired (taskNode s.1) := required_task hs
    obtain ⟨-, known, -, hknown, -⟩ := known_of_required hn hall hb hrequired
    refine ⟨hb.resolve (n := taskNode s.1) ⟨hopen, ⟨hrequired, ?_⟩, ?_, ?_, ?_⟩,
      hsilent.trans ((FlowBoard.silent_contribute s.2 d hopen hknown).trans (silent_finalize _ _))⟩
    · intro y hy
      rw [hneeds, List.mem_singleton] at hy
      subst hy
      exact hm
    · intro y
      rw [isFinal_finalize, ha.final]
    · intro y hy
      rw [info?_finalize, ha.others y hy]
    · have hcontributions : n.contributions (n.seeded tasks) b (taskNode s.1) = [d] := by
        have hport : (taskNode m).port.isSome = false := rfl
        simp only [contributions, hneeds, toList_setOf_singleton, List.flatMap_singleton,
          settledDynamics, inputOf_taskNode, hd, Option.toList_some, List.map_singleton, hport,
          seen_of_task]
      rw [info?_finalize, FlowBoard.info?_contribute_of_known s.2 d hopen hknown, hknown]
      simp only [scheme, hcontributions, Option.map_some, List.foldl_cons, List.foldl_nil]

def absorbed (n : Network) (t : Task) (x : FlowNode) (needs : List FlowNode) (b c : FlowBoard) :
    FlowBoard :=
  (needs.flatMap fun y => (n.dynamicsOf b y).toList.map (y.port.isSome, ·)).foldl
    (absorb t x (n.rootPeriod t)) c

theorem unfolds_absorbed (hn : n.WellFormed) (hall : tasks.Perm n.taskNames) {b c c' : FlowBoard}
    {x : FlowNode} {t : Task} (ht : n.task? x.task = some t)
    (hb : (n.scheme (n.seeded tasks)).Unfolds (n.seeded tasks) b) (hc : SameFacts b c)
    (hopen : b.isFinal x = false) (hready : (n.scheme (n.seeded tasks)).ready b x)
    (hc' : c' = n.absorbed t x (setOf (n.needsOf (n.seeded tasks) x)).toList b c) :
    b.Later c' ∧ (n.scheme (n.seeded tasks)).Unfolds (n.seeded tasks) (c'.finalize x) ∧
      Silent c c' := by
  let needs := (setOf (n.needsOf (n.seeded tasks) x)).toList.flatMap fun y =>
    (n.dynamicsOf b y).toList.map (y.port.isSome, ·)
  obtain ⟨-, d, -, hd, -⟩ := known_of_required hn hall hb hready.1
  obtain ⟨ha, hsilent, hinfo⟩ := foldl_absorb t (n.rootPeriod t) needs ((hc.final x).trans hopen)
    ((hc.info x).trans hd)
  change c' = needs.foldl (absorb t x (n.rootPeriod t)) c at hc'
  rw [← hc'] at ha hsilent hinfo
  have hcontributions : (needs.map fun need => seen (n.rootPeriod t) need.1 need.2) =
      n.contributions (n.seeded tasks) b x := by
    simp only [needs, contributions, ht, Option.bind_some, List.map_flatMap, List.map_map,
      ← dynamicsOf_eq hn hall hb]
    rfl
  refine ⟨hc.later.trans ha.later,
    hb.resolve ⟨hopen, hready, fun y => ?_, fun y hy => ?_, ?_⟩, hsilent⟩
  · rw [isFinal_finalize, ha.final, hc.final]
  · rw [info?_finalize, ha.others y hy, hc.info]
  · rw [info?_finalize, hinfo, hcontributions, hd]
    rfl

inductive Attempted (n : Network) (x : FlowNode) (run : FlowRun) : Bool × FlowRun → Prop
  | undeployed : n.task? x.task = none → Attempted n x run (false, run)
  | waiting {y : FlowNode} {c : FlowBoard} : y ∈ run.memory.getD x ∅ →
      n.isSettled run.board y = false → SameFacts run.board c → Silent run.board c →
      Attempted n x run (false, ⟨run.memory, c⟩)
  | resolved {t : Task} {c c' : FlowBoard} : n.task? x.task = some t →
      (∀ y ∈ run.memory.getD x ∅, n.isSettled run.board y = true) →
      SameFacts run.board c → Silent run.board c →
      c' = n.absorbed t x (run.memory.getD x ∅).toList run.board c →
      Attempted n x run (true, ⟨run.memory, if x.port.isNone then n.finish x.task c' else c'⟩)

theorem attempted (n : Network) (x : FlowNode) (run : FlowRun) :
    n.Attempted x run (n.attempt x run) := by
  obtain ⟨hfacts, hsilent, hresult⟩ := gather_eq n x (run.memory.getD x ∅).toList run.board
  have hsettled : (run.memory.getD x ∅).toList.all (n.isSettled run.board) = true ↔
      ∀ y ∈ run.memory.getD x ∅, n.isSettled run.board y = true := by
    simp only [List.all_eq_true, Std.ExtTreeSet.mem_toList]
  unfold attempt
  split
  case h_1 hx => exact .undeployed hx
  case h_2 t ht =>
    split
    case h_1 c hgather =>
      rw [hgather] at hfacts hsilent hresult
      split at hresult
      case isTrue => simp at hresult
      case isFalse hwait =>
        rw [hsettled] at hwait
        obtain ⟨y, hy⟩ := not_forall.mp hwait
        obtain ⟨hmem, hopen⟩ := Classical.not_imp.mp hy
        exact .waiting hmem (by simpa using hopen) hfacts hsilent
    case h_2 needs c hgather =>
      rw [hgather] at hfacts hsilent hresult
      split at hresult
      case isFalse => simp at hresult
      case isTrue hready =>
        obtain rfl := Option.some.inj hresult
        exact .resolved ht (hsettled.mp hready) hfacts hsilent rfl

theorem attempt_iff (n : Network) (x : FlowNode) (run : FlowRun) : (n.attempt x run).1 = true ↔
    (∃ t, n.task? x.task = some t) ∧ ∀ y ∈ run.memory.getD x ∅, n.isSettled run.board y = true := by
  have h := attempted n x run
  generalize n.attempt x run = result at h
  cases h with
  | undeployed hx => simp [hx]
  | waiting hy hopen =>
    simp only [Bool.false_eq_true, false_iff, not_and]
    intro _ hall
    simp [hall _ hy] at hopen
  | resolved ht hready => exact ⟨fun _ => ⟨⟨_, ht⟩, hready⟩, fun _ => rfl⟩

theorem attempt_failed {x : FlowNode} {run r : FlowRun} (h : n.attempt x run = (false, r)) :
    r.memory = run.memory ∧ SameFacts run.board r.board ∧ Silent run.board r.board := by
  have hx := attempted n x run
  rw [h] at hx
  cases hx with
  | undeployed => exact ⟨rfl, .refl _, .refl _⟩
  | waiting _ _ hfacts hsilent => exact ⟨rfl, hfacts, hsilent⟩

theorem attempt_succeeded (hn : n.WellFormed) (hall : tasks.Perm n.taskNames) {run r : FlowRun}
    {x : FlowNode} (hx : n.IsRequired x) (hopen : run.board.isFinal x = false)
    (hb : (n.scheme (n.seeded tasks)).Unfolds (n.seeded tasks) run.board)
    (hneeds : run.memory.getD x ∅ = setOf (n.needsOf (n.seeded tasks) x))
    (h : n.attempt x run = (true, r)) :
    r.memory = run.memory ∧ run.board.Later r.board ∧
      (n.scheme (n.seeded tasks)).Unfolds (n.seeded tasks) (r.finalize x).board ∧
        Silent run.board r.board := by
  have htry := attempted n x run
  rw [h] at htry
  cases htry with
  | @resolved t c c' ht hready hfacts hquiet hc' =>
    have hsettled : (n.scheme (n.seeded tasks)).ready run.board x := by
      simp only [hneeds, mem_setOf, isSettled_iff hn hb] at hready
      exact ⟨hx, hready⟩
    rw [hneeds] at hc'
    obtain ⟨hlater, hu, habsorb⟩ := unfolds_absorbed hn hall ht hb hfacts hopen hsettled hc'
    have hsilent := hquiet.trans habsorb
    obtain ⟨task, port⟩ := x
    cases port with
    | some p => exact ⟨rfl, hlater, hu, hsilent⟩
    | none =>
      obtain ⟨k, hr⟩ := hn.ranked task t ht
      obtain ⟨⟨hj, hend⟩, hl⟩ := (hands_unfolds hn hall run.board).finish hr
        ⟨hu, hsilent.trans (silent_finalize _ _)⟩
      have hfinal := hl.final _ ((isFinal_finalize _ (taskNode task) _).mpr (.inl rfl))
      exact ⟨rfl, hlater.trans ((later_finalize _ _).trans hl),
        hj.congr (sameFacts_finalize hfinal), hend⟩

end Network

end FlowTiming
