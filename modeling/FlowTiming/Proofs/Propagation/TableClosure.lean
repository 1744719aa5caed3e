import FlowTiming.Propagation.Table
import FlowTiming.Proofs.Propagation.Passes
import FlowTiming.Proofs.Propagation.Unfolding
import Mathlib.Data.List.Basic
import Mathlib.Order.Bounds.Defs

/-!
Propagation by a table: the final nodes are the least set closed under the table, whatever the
order of the tasks and whatever the engine held before.
-/

set_option linter.unusedSectionVars false

namespace FlowTiming

namespace Table

variable {τ π α : Type} [Ord τ] [Ord π] [Ord α] [Std.TransOrd τ] [Std.TransOrd π] [Std.TransOrd α]

def seedsInUse (t : Table τ π α) : List (Seed τ π α) := if t.plain then [] else t.seeds

def marksInUse (t : Table τ π α) : List (Node τ π) := if t.plain then [] else t.marks

/-- Whether a set of nodes has all that the table gives to the tasks, and with what a derivation of
a required node needs also the node. -/
structure IsClosed (t : Table τ π α) (tasks : List τ) (F : Set (Node τ π)) : Prop where
  seeded : ∀ s ∈ t.seedsInUse, s.node.task ∈ tasks → s.final = true → s.node ∈ F
  marked : ∀ n ∈ t.marksInUse, n.task ∈ tasks → n ∈ F
  derived : ∀ n ∈ t.required, n.task ∈ tasks → ∀ d, t.derivation? n = some d →
    (∀ m ∈ d.needs, m ∈ F) → n ∈ F

/-- Whether the table makes a node final without deriving it. -/
def Gives (t : Table τ π α) (n : Node τ π) : Prop :=
  (∃ s ∈ t.seedsInUse, s.node = n ∧ s.final = true) ∨ n ∈ t.marksInUse

def Seeded (t : Table τ π α) (n : Node τ π) (x : α) : Prop :=
  ∃ s ∈ t.seedsInUse, s.node = n ∧ ∃ facts, s.facts = some facts ∧ x ∈ facts

/-! ### Seeds and marks -/

/-- What a seed makes of what is known about its node and of whether the node is final. -/
def plantAt (held : Option (Std.ExtTreeSet α) × Bool) (s : Seed τ π α) :
    Option (Std.ExtTreeSet α) × Bool :=
  (match s.facts with
    | some facts => if held.2 then held.1 else some (held.1.elim facts (· ∪ facts))
    | none => held.1,
   held.2 || s.final)

theorem foldl_plantAt_final (seeds : List (Seed τ π α)) (held : Option (Std.ExtTreeSet α) × Bool) :
    (seeds.foldl plantAt held).2 = true ↔ held.2 = true ∨ ∃ s ∈ seeds, s.final = true := by
  refine foldl_iff (f := plantAt) (fun held => held.2 = true) (fun s => s.final = true) ?_ seeds held
  intro held s
  simp [plantAt]

theorem foldl_plantAt_facts (seeds : List (Seed τ π α)) (held : Option (Std.ExtTreeSet α) × Bool)
    (h : (seeds.foldl plantAt held).2 = false) (x : α) :
    x ∈ (seeds.foldl plantAt held).1.getD ∅ ↔
      x ∈ held.1.getD ∅ ∨ ∃ s ∈ seeds, ∃ facts, s.facts = some facts ∧ x ∈ facts := by
  induction seeds generalizing held with
  | nil => simp
  | cons s seeds ih =>
    have hopen : held.2 = false := by
      by_contra hf
      rw [Bool.not_eq_false] at hf
      rw [(foldl_plantAt_final (s :: seeds) held).mpr (.inl hf)] at h
      contradiction
    have hhead : x ∈ (plantAt held s).1.getD ∅ ↔
        x ∈ held.1.getD ∅ ∨ ∃ facts, s.facts = some facts ∧ x ∈ facts := by
      cases hs : s.facts with
      | none => simp [plantAt, hs]
      | some facts => cases hk : held.1 <;> simp [plantAt, hs, hk, hopen]
    rw [List.foldl_cons] at h ⊢
    rw [ih _ h, hhead]
    simp only [List.mem_cons, exists_eq_or_imp, or_assoc]

variable [Shown τ] [Shown π] [Std.LawfulEqOrd τ] [Std.LawfulEqOrd π]

def held (b : Board τ π (Std.ExtTreeSet α)) (n : Node τ π) : Option (Std.ExtTreeSet α) × Bool :=
  (b.info? n, b.isFinal n)

theorem held_plant_of_ne (b : Board τ π (Std.ExtTreeSet α)) {s : Seed τ π α} {n : Node τ π}
    (h : n ≠ s.node) : held (plant b s) n = held b n := by
  unfold plant held
  cases s.facts <;> cases s.final <;>
    simp [Board.info?_extend_of_ne _ h, Board.isFinal_finalize_of_ne _ h]

theorem held_plant_self (b : Board τ π (Std.ExtTreeSet α)) (s : Seed τ π α) :
    held (plant b s) s.node = plantAt (held b s.node) s := by
  unfold plant held plantAt
  cases hfacts : s.facts with
  | none => cases s.final <;> simp
  | some facts =>
    cases hb : b.isFinal s.node with
    | true => cases s.final <;> simp [hb, (Board.later_extend b s.node facts).frozen _ hb]
    | false =>
      cases s.final <;> simp [hb, Board.info?_extend_self b hb facts] <;> rfl

theorem held_foldl_plant (seeds : List (Seed τ π α)) (b : Board τ π (Std.ExtTreeSet α))
    (n : Node τ π) : held (seeds.foldl plant b) n =
      (seeds.filter fun s => compare s.node n == .eq).foldl plantAt (held b n) := by
  induction seeds generalizing b with
  | nil => rfl
  | cons s seeds ih =>
    rw [List.foldl_cons, ih, List.filter_cons]
    by_cases h : s.node = n
    · subst h
      simp [held_plant_self]
    · simp [h, held_plant_of_ne b (Ne.symm h)]

def seedsOf (t : Table τ π α) (n : Node τ π) : List (Seed τ π α) :=
  t.seedsInUse.filter fun s => compare s.node n == .eq

theorem mem_seedsOf {t : Table τ π α} {n : Node τ π} {s : Seed τ π α} :
    s ∈ t.seedsOf n ↔ s ∈ t.seedsInUse ∧ s.node = n := by
  simp [seedsOf]

theorem held_seed_self (t : Table τ π α) (run : TableRun τ π α) (n : Node τ π) :
    held (t.seed n.task run).board n = (t.seedsOf n).foldl plantAt (held run.board n) := by
  unfold seed seedsOf seedsInUse
  cases t.plain with
  | true => rfl
  | false =>
    simp only [Bool.false_eq_true, ↓reduceIte, held_foldl_plant, List.filter_filter]
    congr 1
    apply List.filter_congr
    intro s _
    by_cases h : s.node = n <;> simp [h]

theorem held_seed_of_ne (t : Table τ π α) (run : TableRun τ π α) {task : τ} {n : Node τ π}
    (h : n.task ≠ task) : held (t.seed task run).board n = held run.board n := by
  unfold seed
  cases t.plain with
  | true => rfl
  | false =>
    simp only [Bool.false_eq_true, ↓reduceIte, held_foldl_plant, List.filter_filter]
    have hnone : (t.seeds.filter fun s =>
        compare s.node n == .eq && compare s.node.task task == .eq) = [] := by
      apply List.filter_eq_nil_iff.mpr
      intro s _
      simp only [Bool.and_eq_true, beq_iff_eq, Std.compare_eq_iff_eq, not_and]
      rintro rfl
      exact h
    rw [hnone]
    rfl

theorem held_seeds_of_not_mem (t : Table τ π α) {tasks : List τ} (run : TableRun τ π α)
    {n : Node τ π} (h : n.task ∉ tasks) :
    held (tasks.foldl (fun run task => t.seed task run) run).board n = held run.board n := by
  induction tasks generalizing run with
  | nil => rfl
  | cons task tasks ih =>
    rw [List.mem_cons, not_or] at h
    rw [List.foldl_cons, ih _ h.2, held_seed_of_ne t run h.1]

theorem held_seeds_of_mem (t : Table τ π α) {tasks : List τ} (hd : tasks.Nodup)
    (run : TableRun τ π α) {n : Node τ π} (h : n.task ∈ tasks) :
    held (tasks.foldl (fun run task => t.seed task run) run).board n =
      (t.seedsOf n).foldl plantAt (held run.board n) := by
  induction tasks generalizing run with
  | nil => simp at h
  | cons task tasks ih =>
    obtain ⟨hnot, hd⟩ := List.nodup_cons.mp hd
    rw [List.foldl_cons]
    by_cases he : n.task = task
    · subst he
      rw [held_seeds_of_not_mem t _ hnot, held_seed_self]
    · rw [ih hd _ ((List.mem_cons.mp h).resolve_left he), held_seed_of_ne t run he]

theorem info_marks (t : Table τ π α) (tasks : List τ) (run : TableRun τ π α) (n : Node τ π) :
    (tasks.foldl (fun run task => t.mark task run) run).board.info? n = run.board.info? n := by
  have one (nodes : List (Node τ π)) (b : Board τ π (Std.ExtTreeSet α)) :
      (nodes.foldl Board.finalize b).info? n = b.info? n := by
    induction nodes generalizing b with
    | nil => rfl
    | cons m nodes ih => rw [List.foldl_cons, ih, Board.info?_finalize]
  induction tasks generalizing run with
  | nil => rfl
  | cons task tasks ih =>
    rw [List.foldl_cons, ih]
    unfold mark
    split
    · rfl
    · exact one _ _

theorem isFinal_marks (t : Table τ π α) (tasks : List τ) (run : TableRun τ π α) (n : Node τ π) :
    (tasks.foldl (fun run task => t.mark task run) run).board.isFinal n = true ↔
      run.board.isFinal n = true ∨ n.task ∈ tasks ∧ n ∈ t.marksInUse := by
  have one (nodes : List (Node τ π)) (b : Board τ π (Std.ExtTreeSet α)) :
      (nodes.foldl Board.finalize b).isFinal n = true ↔ b.isFinal n = true ∨ n ∈ nodes := by
    have h := foldl_iff (f := Board.finalize) (fun b => b.isFinal n = true) (n = ·)
      (fun b m => (Board.isFinal_finalize b m n).trans or_comm) nodes b
    simpa using h
  have here (task : τ) (run : TableRun τ π α) : (t.mark task run).board.isFinal n = true ↔
      run.board.isFinal n = true ∨ n.task = task ∧ n ∈ t.marksInUse := by
    unfold mark marksInUse
    split
    · simp
    · simp only [one, List.mem_filter, beq_iff_eq, Std.compare_eq_iff_eq]
      tauto
  have h := foldl_iff (f := fun run task => t.mark task run) (fun run => run.board.isFinal n = true)
    (fun task => n.task = task ∧ n ∈ t.marksInUse) (fun run task => here task run) tasks run
  simpa using h

/-! ### The board before the first pass -/

theorem isFinal_prepare (t : Table τ π α) {tasks : List τ} (hd : tasks.Nodup)
    (memory : Trace τ π) (n : Node τ π) :
    (t.rules.prepare tasks ⟨memory, .empty⟩).board.isFinal n = true ↔
      n.task ∈ tasks ∧ t.Gives n := by
  change (tasks.foldl (fun run task => t.mark task run)
    (tasks.foldl (fun run task => t.seed task run) ⟨memory, .empty⟩)).board.isFinal n = true ↔ _
  rw [isFinal_marks]
  have hseeds : (tasks.foldl (fun run task => t.seed task run)
      (⟨memory, .empty⟩ : TableRun τ π α)).board.isFinal n = true ↔
        n.task ∈ tasks ∧ ∃ s ∈ t.seedsInUse, s.node = n ∧ s.final = true := by
    by_cases h : n.task ∈ tasks
    · have hheld := congrArg Prod.snd (held_seeds_of_mem t hd ⟨memory, .empty⟩ h)
      simp only [held] at hheld
      rw [hheld, foldl_plantAt_final]
      simp [mem_seedsOf, h, and_assoc]
    · have hheld := congrArg Prod.snd (held_seeds_of_not_mem t ⟨memory, .empty⟩ h)
      simp only [held] at hheld
      rw [hheld]
      simp [h]
  rw [hseeds]
  exact and_or_left.symm

theorem info_prepare (t : Table τ π α) {tasks : List τ} (hd : tasks.Nodup)
    (memory : Trace τ π) {n : Node τ π} (h : n.task ∈ tasks) :
    (t.rules.prepare tasks ⟨memory, .empty⟩).board.info? n =
      ((t.seedsOf n).foldl plantAt (none, false)).1 := by
  have hheld := congrArg Prod.fst (held_seeds_of_mem t hd ⟨memory, .empty⟩ h)
  simp only [held, Board.info?_empty, Board.isFinal_empty] at hheld
  rw [← hheld]
  exact info_marks t tasks _ n

theorem info_prepare_of_not_mem (t : Table τ π α) {tasks : List τ} (memory : Trace τ π)
    {n : Node τ π} (h : n.task ∉ tasks) :
    (t.rules.prepare tasks ⟨memory, .empty⟩).board.info? n = none := by
  have hheld := congrArg Prod.fst (held_seeds_of_not_mem t ⟨memory, .empty⟩ h)
  simp only [held, Board.info?_empty] at hheld
  rw [← hheld]
  exact info_marks t tasks _ n

theorem mem_info_prepare (t : Table τ π α) {tasks : List τ} (hd : tasks.Nodup)
    (memory : Trace τ π) {n : Node τ π} (h : n.task ∈ tasks) (hgives : ¬ t.Gives n) (x : α) :
    x ∈ ((t.rules.prepare tasks ⟨memory, .empty⟩).board.info? n).getD ∅ ↔ t.Seeded n x := by
  have hopen : ((t.seedsOf n).foldl plantAt (none, false)).2 = false := by
    by_contra hf
    rw [Bool.not_eq_false, foldl_plantAt_final] at hf
    obtain ⟨s, hs, hfinal⟩ := hf.resolve_left (by simp)
    rw [mem_seedsOf] at hs
    exact hgives (.inl ⟨s, hs.1, hs.2, hfinal⟩)
  rw [info_prepare t hd memory h, foldl_plantAt_facts _ _ hopen]
  simp [Seeded, mem_seedsOf, and_assoc]

theorem sameFacts_prepare (t : Table τ π α) {tasks tasks' : List τ} (hd : tasks.Nodup)
    (h : tasks'.Perm tasks) (memory memory' : Trace τ π) :
    (t.rules.prepare tasks ⟨memory, .empty⟩).board.SameFacts
      (t.rules.prepare tasks' ⟨memory', .empty⟩).board := by
  have hd' : tasks'.Nodup := h.nodup_iff.mpr hd
  refine ⟨fun n => ?_, fun n => ?_⟩
  · by_cases hn : n.task ∈ tasks
    · rw [info_prepare t hd memory hn, info_prepare t hd' memory' (h.mem_iff.mpr hn)]
    · rw [info_prepare_of_not_mem t memory hn,
        info_prepare_of_not_mem t memory' (fun hn' => hn (h.mem_iff.mp hn'))]
  · rw [Bool.eq_iff_iff, isFinal_prepare t hd, isFinal_prepare t hd', h.mem_iff]

/-! ### Derivations -/

theorem gathered_later {b b' : Board τ π (Std.ExtTreeSet α)} (h : b.Later b')
    {d : Derivation τ π α} (hd : ∀ m ∈ d.needs, b.isFinal m = true) :
    gathered b' d = gathered b d := by
  unfold gathered
  apply List.foldl_ext
  intro facts m hm
  rw [h.frozen m (hd m hm)]

theorem mem_gathered (b : Board τ π (Std.ExtTreeSet α)) (d : Derivation τ π α)
    (x : α) : x ∈ gathered b d ↔ x ∈ d.facts ∨ ∃ m ∈ d.needs, ∃ i, b.info? m = some i ∧ x ∈ i := by
  have general (needs : List (Node τ π)) (facts : Std.ExtTreeSet α) :
      x ∈ needs.foldl (fun s m => s ∪ (b.info? m).getD ∅) facts ↔
        x ∈ facts ∨ ∃ m ∈ needs, ∃ i, b.info? m = some i ∧ x ∈ i := by
    induction needs generalizing facts with
    | nil => simp
    | cons m needs ih =>
      rw [List.foldl_cons, ih, Std.ExtTreeSet.mem_union_iff]
      simp only [List.mem_cons, exists_eq_or_imp, or_assoc]
      cases b.info? m <;> simp
  exact general d.needs d.facts

def scheme (t : Table τ π α) (nodes : Std.ExtTreeSet (Node τ π)) :
    Scheme τ π (Std.ExtTreeSet α) where
  ready b n := n ∈ nodes ∧
    ∃ d, t.derivation? n = some d ∧ ∀ m ∈ d.needs, b.isFinal m = true
  value b n start := (t.derivation? n).map fun d => start.elim (gathered b d) (· ∪ gathered b d)
  ready_later h := fun ⟨hn, d, hd, hneeds⟩ => ⟨hn, d, hd, fun m hm => h.final m (hneeds m hm)⟩
  value_later h := fun ⟨_, d, hd, hneeds⟩ start => by
    simp only [hd, Option.map_some, gathered_later h hneeds]

theorem mem_requiredNodes (t : Table τ π α) (tasks : List τ) (n : Node τ π) :
    n ∈ t.rules.requiredNodes tasks ↔ n ∈ t.required ∧ n.task ∈ tasks := by
  have hport : n.port ∈ t.required? n.task ↔ n ∈ t.required := by
    unfold required?
    rw [mem_foldl_insert]
    simp only [List.mem_filter, beq_iff_eq, Std.compare_eq_iff_eq]
    constructor
    · rintro (h | ⟨⟨task, port⟩, ⟨hm, rfl⟩, rfl⟩)
      · simp at h
      · exact hm
    · exact fun h => .inr ⟨n, ⟨h, rfl⟩, rfl⟩
  rw [Rules.mem_requiredNodes]
  exact (and_congr_right fun _ => hport).trans and_comm

theorem derive_eq (t : Table τ π α) (n : Node τ π) (b : Board τ π (Std.ExtTreeSet α)) :
    (t.derive n b = (false, b) ∧ ∀ d, t.derivation? n = some d → ∃ m ∈ d.needs, b.isFinal m = false) ∨
      ∃ d, t.derivation? n = some d ∧ (∀ m ∈ d.needs, b.isFinal m = true) ∧
        t.derive n b = (true, b.extend n (gathered b d)) := by
  unfold derive
  cases hd : t.derivation? n with
  | none => exact .inl ⟨rfl, by simp⟩
  | some d =>
    by_cases h : d.needs.all b.isFinal = true
    · exact .inr ⟨d, rfl, List.all_eq_true.mp h, by simp [h]⟩
    · refine .inl ⟨by simp [h], ?_⟩
      rintro d' ⟨⟩
      simpa using h

theorem attempt_eq (t : Table τ π α) (n : Node τ π) (run : TableRun τ π α) :
    t.rules.attempt n run = ((t.derive n run.board).1,
      ⟨run.memory.push (n, (t.derive n run.board).1), (t.derive n run.board).2⟩) := rfl

theorem resolves_extend (t : Table τ π α) {tasks : List τ} {n : Node τ π}
    {b : Board τ π (Std.ExtTreeSet α)} {d : Derivation τ π α}
    (hn : n ∈ t.rules.requiredNodes tasks) (hopen : b.isFinal n = false)
    (hd : t.derivation? n = some d) (hneeds : ∀ m ∈ d.needs, b.isFinal m = true) :
    (t.scheme (t.rules.requiredNodes tasks)).Resolves n b ((b.extend n (gathered b d)).finalize n) where
  isOpen := hopen
  ready := ⟨hn, d, hd, hneeds⟩
  final m := by simp
  others m hm := by rw [Board.info?_finalize, Board.info?_extend_of_ne b hm]
  value := by
    rw [Board.info?_finalize, Board.info?_extend_self b hopen]
    simp only [scheme, hd, Option.map_some]
    rfl

theorem keeps (t : Table τ π α) (tasks : List τ) (b₀ : Board τ π (Std.ExtTreeSet α)) :
    t.rules.Keeps tasks fun run => (t.scheme (t.rules.requiredNodes tasks)).Unfolds b₀ run.board where
  success r r' n hr hn hopen ha := by
    rw [attempt_eq] at ha
    rcases derive_eq t n r.board with ⟨he, -⟩ | ⟨d, hd, hneeds, he⟩
    · simp [he] at ha
    · rw [he] at ha
      obtain ⟨-, rfl⟩ := Prod.mk.inj ha
      exact ⟨hr.resolve (resolves_extend t hn hopen hd hneeds), Board.later_extend _ _ _⟩
  failure r r' n hr ha := by
    rw [attempt_eq] at ha
    rcases derive_eq t n r.board with ⟨he, -⟩ | ⟨d, -, -, he⟩
    · rw [he] at ha
      obtain ⟨-, rfl⟩ := Prod.mk.inj ha
      exact ⟨hr, .refl _⟩
    · simp [he] at ha
  notes r e _ hr := hr.congr (Board.sameFacts_note r.board e)

def CanResolve (t : Table τ π α) (r : TableRun τ π α) (n : Node τ π) : Prop :=
  r.board.isFinal n = true ∨
    ∃ d, t.derivation? n = some d ∧ ∀ m ∈ d.needs, r.board.isFinal m = true

theorem tells (t : Table τ π α) : t.rules.Tells t.CanResolve where
  resolves r n h := by
    unfold Rules.resolve
    split
    case isTrue => rfl
    case isFalse hopen =>
      obtain ⟨d, hd, hneeds⟩ := h.resolve_left hopen
      rcases derive_eq t n r.board with ⟨-, hnot⟩ | ⟨d', -, -, he⟩
      · obtain ⟨m, hm, hf⟩ := hnot d hd
        simp [hneeds m hm] at hf
      · rw [attempt_eq, he]
  fails r n m h hm := by
    unfold Rules.resolve at h hm
    split at h
    case isTrue => simp at h
    case isFalse hopen =>
      rw [if_neg hopen] at hm
      rcases derive_eq t n r.board with ⟨he, -⟩ | ⟨d, -, -, he⟩
      · rw [attempt_eq, he] at hm
        exact hm
      · rw [attempt_eq, he] at h
        simp at h
  notes r e m hm := hm

theorem settled_unfolds (t : Table τ π α) (tasks : List τ) (memory : Trace τ π) :
    (t.scheme (t.rules.requiredNodes tasks)).Unfolds (t.rules.prepare tasks ⟨memory, .empty⟩).board
      (t.rules.settled tasks memory).run.board :=
  ((t.keeps tasks _).settled (.refl _ _)).1

theorem mem_missing_iff (t : Table τ π α) (tasks : List τ) (memory : Trace τ π) (n : Node τ π) :
    n ∈ (t.rules.settled tasks memory).missing ↔ n ∈ t.rules.requiredNodes tasks ∧
      (t.rules.settled tasks memory).run.board.isFinal n = false := by
  have hstart : (t.scheme (t.rules.requiredNodes tasks)).Unfolds
      (t.rules.prepare tasks ⟨memory, .empty⟩).board
      (t.rules.prepare tasks ⟨memory, .empty⟩).board := .refl _ _
  obtain ⟨-, hsub, hdone⟩ := (t.keeps tasks _).settled hstart
  constructor
  · intro hn
    have ht := ((mem_requiredNodes t tasks n).mp (hsub n hn)).2
    have hnot := Rules.not_ready_of_settle t.tells tasks 0 _ hn ht
    exact ⟨hsub n hn, Bool.not_eq_true _ ▸ fun hf => hnot (.inl hf)⟩
  · rintro ⟨hn, hopen⟩
    by_contra hm
    simp [hdone n hn hm] at hopen

theorem final_of_ready (t : Table τ π α) (tasks : List τ) (memory : Trace τ π) (n : Node τ π)
    (h : (t.scheme (t.rules.requiredNodes tasks)).ready (t.rules.settled tasks memory).run.board n) :
    (t.rules.settled tasks memory).run.board.isFinal n = true := by
  obtain ⟨hn, hready⟩ := h
  by_contra hf
  rw [Bool.not_eq_true] at hf
  have hm := (mem_missing_iff t tasks memory n).mpr ⟨hn, hf⟩
  exact Rules.not_ready_of_settle t.tells tasks 0 _ hm ((mem_requiredNodes t tasks n).mp hn).2
    (.inr hready)

theorem isLeast_settled (t : Table τ π α) {tasks : List τ} (hd : tasks.Nodup)
    (memory : Trace τ π) : IsLeast {F | t.IsClosed tasks F}
      {n | (t.rules.settled tasks memory).run.board.isFinal n = true} := by
  have hu := settled_unfolds t tasks memory
  have given (n : Node τ π) (hn : n.task ∈ tasks) (h : t.Gives n) :=
    hu.later.final n ((isFinal_prepare t hd memory n).mpr ⟨hn, h⟩)
  refine ⟨⟨?_, ?_, ?_⟩, ?_⟩
  · intro s hs ht hfinal
    exact given s.node ht (.inl ⟨s, hs, rfl, hfinal⟩)
  · intro n hn ht
    exact given n ht (.inr hn)
  · intro n hn ht d hd hneeds
    exact final_of_ready t tasks memory n
      ⟨(mem_requiredNodes t tasks n).mpr ⟨hn, ht⟩, d, hd, hneeds⟩
  · -- nodes enter a closed set in the order in which they are derived
    intro F hF n hn
    refine hu.induction (P := (· ∈ F)) ?_ ?_ hn
    · intro m hm
      obtain ⟨ht, ⟨s, hs, rfl, hfinal⟩ | hmark⟩ := (isFinal_prepare t hd memory m).mp hm
      · exact hF.seeded s hs ht hfinal
      · exact hF.marked m hmark ht
    · rintro c m - hc ⟨hm, d, hd, hneeds⟩ -
      obtain ⟨hm, ht⟩ := (mem_requiredNodes t tasks m).mp hm
      exact hF.derived m hm ht d hd fun k hk => hc k (hneeds k hk)

theorem info_of_derived (t : Table τ π α) {tasks : List τ} (hd : tasks.Nodup)
    (memory : Trace τ π) {n : Node τ π}
    (hn : (t.rules.settled tasks memory).run.board.isFinal n = true) (hgives : ¬ t.Gives n) :
    ∃ d facts, t.derivation? n = some d ∧
      (∀ m ∈ d.needs, (t.rules.settled tasks memory).run.board.isFinal m = true) ∧
      (t.rules.settled tasks memory).run.board.info? n = some facts ∧
      ∀ x, x ∈ facts ↔ t.Seeded n x ∨ x ∈ d.facts ∨
        ∃ m ∈ d.needs, ∃ i, (t.rules.settled tasks memory).run.board.info? m = some i ∧ x ∈ i := by
  have hu := settled_unfolds t tasks memory
  have hopen : (t.rules.prepare tasks ⟨memory, .empty⟩).board.isFinal n = false := by
    rw [← Bool.not_eq_true, isFinal_prepare t hd]
    exact fun h => hgives h.2
  obtain ⟨hrequired, d, hderive, hneeds⟩ := hu.ready_of_final hn hopen
  have ht := ((mem_requiredNodes t tasks n).mp hrequired).2
  have hvalue := hu.info_of_final hn hopen
  simp only [scheme, hderive, Option.map_some] at hvalue
  refine ⟨d, _, hderive, hneeds, hvalue, fun x => ?_⟩
  rw [← mem_gathered, ← mem_info_prepare t hd memory ht hgives]
  cases (t.rules.prepare tasks ⟨memory, .empty⟩).board.info? n <;> simp

/-- The final nodes are the least closed set, a derived node has the facts of its seeds, of its
derivation and of what that needs, and neither the order of the tasks nor the engine matters. -/
theorem propagate_confluent (t : Table τ π α) {tasks tasks' : List τ} (hd : tasks.Nodup)
    (h : tasks'.Perm tasks) (memory memory' : Trace τ π)
    (engine engine' : Engine τ π (Std.ExtTreeSet α)) :
    let ended := t.rules.propagate tasks memory engine
    let other := t.rules.propagate tasks' memory' engine'
    IsLeast {F | t.IsClosed tasks F} {n | ended.2.2.board.isFinal n = true} ∧
    (∀ n, ended.2.2.board.isFinal n = true → ¬ t.Gives n →
      ∃ d facts, t.derivation? n = some d ∧ (∀ m ∈ d.needs, ended.2.2.board.isFinal m = true) ∧
        ended.2.2.board.info? n = some facts ∧ ∀ x, x ∈ facts ↔ t.Seeded n x ∨ x ∈ d.facts ∨
          ∃ m ∈ d.needs, ∃ i, ended.2.2.board.info? m = some i ∧ x ∈ i) ∧
    (∀ n, n ∈ ended.1.unresolved ↔
      (n ∈ t.required ∧ n.task ∈ tasks) ∧ ended.2.2.board.isFinal n = false) ∧
    other.2.2.board.finals = ended.2.2.board.finals ∧
    other.2.2.board.info = ended.2.2.board.info ∧ other.1.unresolved = ended.1.unresolved := by
  intro ended other
  have hnodes : t.rules.requiredNodes tasks' = t.rules.requiredNodes tasks := by
    apply Std.ExtTreeSet.ext_mem
    intro n
    rw [mem_requiredNodes, mem_requiredNodes, h.mem_iff]
  have hsame : (t.rules.settled tasks memory).run.board.SameFacts
      (t.rules.settled tasks' memory').run.board :=
    (settled_unfolds t tasks memory).sameFacts (hnodes ▸ settled_unfolds t tasks' memory')
      (sameFacts_prepare t hd h memory memory') (final_of_ready t tasks memory)
      (hnodes ▸ final_of_ready t tasks' memory')
  refine ⟨isLeast_settled t hd memory, fun n => info_of_derived t hd memory, ?_, ?_, ?_, ?_⟩
  · intro n
    rw [← mem_requiredNodes]
    exact mem_missing_iff t tasks memory n
  · apply Std.ExtTreeSet.ext_contains
    exact hsame.final
  · apply Std.ExtTreeMap.ext_getElem?
    exact hsame.info
  · apply Std.ExtTreeSet.ext_mem
    intro n
    refine (mem_missing_iff t tasks' memory' n).trans ?_
    rw [hnodes, hsame.final]
    exact (mem_missing_iff t tasks memory n).symm

def chain : Table String String String where
  required := [⟨"a", none⟩, ⟨"b", none⟩]
  seeds := [⟨⟨"a", none⟩, some ((∅ : Std.ExtTreeSet String).insert "x"), true⟩]
  marks := []
  derivations := [⟨⟨"b", none⟩, [⟨"a", none⟩], (∅ : Std.ExtTreeSet String).insert "y"⟩]
  plain := false

theorem chain_confluent : ["b", "a"].Nodup ∧ ["a", "b"].Perm ["b", "a"] ∧
    IsLeast {F | chain.IsClosed ["b", "a"] F}
      {n | (chain.rules.propagate ["b", "a"] #[] .fresh).2.2.board.isFinal n = true} ∧
    (chain.rules.propagate ["a", "b"] #[] .fresh).2.2.board.info =
      (chain.rules.propagate ["b", "a"] #[] .fresh).2.2.board.info := by
  have hd : ["b", "a"].Nodup := by decide
  have h : ["a", "b"].Perm ["b", "a"] := by decide
  obtain ⟨hleast, -, -, -, hinfo, -⟩ := propagate_confluent chain hd h #[] #[] .fresh .fresh
  exact ⟨hd, h, hleast, hinfo⟩

end Table

end FlowTiming
