import FlowTiming.Proofs.Propagation.Board

/-!
What the passes of a propagation keep (`settle_induction`), and where they stop: no node that is
still missing can be resolved (`not_ready_of_settle`).
-/

namespace FlowTiming

namespace Rules

variable {τ π ι σ : Type} [Ord τ] [Ord π] [Std.TransOrd τ] [Std.TransOrd π]

section Idle

structure Idle (ready : Run τ π ι σ → Node τ π → Prop) (tried : Node τ π → Prop)
    (s s' : Sweep τ π ι σ) : Prop where
  missing : s'.missing = s.missing
  before : ∀ m, ready s'.run m → ready s.run m
  unready : ∀ n, tried n → n ∈ s.missing → ¬ ready s'.run n

variable {ready : Run τ π ι σ → Node τ π → Prop} {tried tried' : Node τ π → Prop}
  {s s' s'' : Sweep τ π ι σ}

theorem Idle.refl (h : ∀ n, ¬ tried n) : Idle ready tried s s :=
  ⟨rfl, fun _ hr => hr, fun n hn => absurd hn (h n)⟩

theorem Idle.trans (h : Idle ready tried s s') (h' : Idle ready tried' s' s'') :
    Idle ready (fun n => tried n ∨ tried' n) s s'' where
  missing := h'.missing.trans h.missing
  before m hm := h.before m (h'.before m hm)
  unready n hn hm hr := by
    rcases hn with hn | hn
    · exact h.unready n hn hm (h'.before n hr)
    · exact h'.unready n hn (h.missing ▸ hm) hr

theorem Idle.imp (himp : ∀ n, n ∈ s.missing → tried' n → tried n) (h : Idle ready tried s s') :
    Idle ready tried' s s' :=
  ⟨h.missing, h.before, fun n hn hm => h.unready n (himp n hm hn) hm⟩

end Idle

def missingOf (s : Sweep τ π ι σ) (t : τ) : List (Node τ π) :=
  s.missing.toList.filter fun n => compare n.task t == .eq

theorem nodup_missingOf (s : Sweep τ π ι σ) (t : τ) : (missingOf s t).Nodup :=
  (nodup_toList s.missing).filter _

theorem mem_missingOf [Std.LawfulEqOrd τ] [Std.LawfulEqOrd π] {s : Sweep τ π ι σ} {t : τ}
    {n : Node τ π} : n ∈ missingOf s t ↔ n ∈ s.missing ∧ n.task = t := by
  simp [missingOf]

variable [Shown τ] [Shown π] {rules : Rules τ π ι σ} {P : Sweep τ π ι σ → Prop}

/-- Whether `ready` tells which nodes can be resolved, and a failed try takes it from no node. -/
structure Tells (rules : Rules τ π ι σ) (ready : Run τ π ι σ → Node τ π → Prop) : Prop where
  resolves : ∀ r n, ready r n → (rules.resolve n r).1 = true
  fails : ∀ r n m, (rules.resolve n r).1 = false → ready (rules.resolve n r).2 m → ready r m
  notes : ∀ r e m, ready (r.note e) m → ready r m

theorem step_eq (rules : Rules τ π ι σ) (s : Sweep τ π ι σ) (n : Node τ π) :
    rules.step s n = ⟨(rules.resolve n s.run).2,
      if (rules.resolve n s.run).1 then s.missing.erase n else s.missing⟩ := by
  unfold step
  split <;> rename_i h <;> simp [h]

theorem size_step_le (rules : Rules τ π ι σ) (s : Sweep τ π ι σ) (n : Node τ π) :
    (rules.step s n).missing.size ≤ s.missing.size := by
  rw [step_eq]
  split
  · exact Std.ExtTreeSet.size_erase_le
  · exact Nat.le_refl _

theorem visit_cases (rules : Rules τ π ι σ) (s : Sweep τ π ι σ) (t : τ) :
    (missingOf s t = [] ∧ rules.visit s t = s) ∨
      ∃ e : Entry, e.speaker = .engine ∧
        rules.visit s t = (missingOf s t).foldl rules.step ⟨s.run.note e, s.missing⟩ := by
  unfold visit
  split
  case h_1 h => exact .inl ⟨h, rfl⟩
  case h_2 => exact .inr ⟨_, rfl, rfl⟩

def settled (rules : Rules τ π ι σ) (tasks : List τ) (memory : σ) : Sweep τ π ι σ :=
  (rules.settle tasks 0 ⟨rules.prepare tasks ⟨memory, .empty⟩, rules.requiredNodes tasks⟩).2

theorem propagate_board (rules : Rules τ π ι σ) (tasks : List τ) (memory : σ)
    (engine : Engine τ π ι) : (rules.settled tasks memory).run.board.SameFacts
      (rules.propagate tasks memory engine).2.2.board := ⟨fun _ => rfl, fun _ => rfl⟩

variable [Std.LawfulEqOrd τ] [Std.LawfulEqOrd π]

theorem mem_step_of_ne {s : Sweep τ π ι σ} {n m : Node τ π} (h : m ≠ n) (hm : m ∈ s.missing) :
    m ∈ (rules.step s n).missing := by
  rw [step_eq]
  split
  · rw [Std.ExtTreeSet.mem_erase]
    exact ⟨fun e => h (Std.compare_eq_iff_eq.mp e).symm, hm⟩
  · exact hm

theorem foldl_step_induction (hstep : ∀ s n, n ∈ s.missing → P s → P (rules.step s n))
    {nodes : List (Node τ π)} {s : Sweep τ π ι σ} (hd : nodes.Nodup)
    (hm : ∀ n ∈ nodes, n ∈ s.missing) (h : P s) : P (nodes.foldl rules.step s) := by
  induction nodes generalizing s with
  | nil => exact h
  | cons n nodes ih =>
    obtain ⟨hn, hd⟩ := List.nodup_cons.mp hd
    apply ih hd
    · intro m hmem
      have hne : m ≠ n := fun e => hn (e ▸ hmem)
      exact mem_step_of_ne hne (hm m (.tail _ hmem))
    · exact hstep s n (hm n (.head _)) h

theorem visit_induction (hstep : ∀ s n, n ∈ s.missing → P s → P (rules.step s n))
    (hnote : ∀ s (e : Entry), e.speaker = .engine → P s → P ⟨s.run.note e, s.missing⟩)
    {s : Sweep τ π ι σ} (t : τ) (h : P s) : P (rules.visit s t) := by
  rcases visit_cases rules s t with ⟨-, he⟩ | ⟨e, hspeaker, he⟩
  · rwa [he]
  · rw [he]
    exact foldl_step_induction hstep (nodup_missingOf s t) (fun n hn => (mem_missingOf.mp hn).1)
      (hnote s e hspeaker h)

theorem foldl_visit_induction (hstep : ∀ s n, n ∈ s.missing → P s → P (rules.step s n))
    (hnote : ∀ s (e : Entry), e.speaker = .engine → P s → P ⟨s.run.note e, s.missing⟩)
    (tasks : List τ) {s : Sweep τ π ι σ} (h : P s) : P (tasks.foldl rules.visit s) := by
  induction tasks generalizing s with
  | nil => exact h
  | cons t tasks ih => exact ih (visit_induction hstep hnote t h)

theorem settle_induction (hstep : ∀ s n, n ∈ s.missing → P s → P (rules.step s n))
    (hnote : ∀ s (e : Entry), e.speaker = .engine → P s → P ⟨s.run.note e, s.missing⟩)
    (tasks : List τ) (passes : Nat) {s : Sweep τ π ι σ} (h : P s) : P (rules.settle tasks passes s).2 := by
  have hpass (number : Nat) {s : Sweep τ π ι σ} (h : P s) : P (rules.pass tasks number s) :=
    hnote _ _ rfl (foldl_visit_induction hstep hnote tasks h)
  induction passes, s using Rules.settle.induct rules tasks with
  | case1 passes s he => rwa [settle, if_pos he]
  | case2 passes s he s' hlt ih =>
    rw [settle, if_neg he, if_pos hlt]
    exact ih (hpass _ h)
  | case3 passes s he s' hlt =>
    rw [settle, if_neg he, if_neg hlt]
    exact hpass _ h

section Stall

variable {ready : Run τ π ι σ → Node τ π → Prop}

omit [Std.LawfulEqOrd τ] [Std.LawfulEqOrd π] in
theorem idle_step (h : rules.Tells ready) {s : Sweep τ π ι σ} {n : Node τ π} (hn : n ∈ s.missing)
    (hsize : (rules.step s n).missing.size = s.missing.size) :
    Idle ready (· = n) s (rules.step s n) := by
  have hpos : s.missing.size ≠ 0 := fun h0 => by
    rw [← Std.ExtTreeSet.eq_empty_iff_size_eq_zero] at h0
    simp [h0] at hn
  rw [step_eq] at hsize ⊢
  cases hr : (rules.resolve n s.run).1 with
  | true =>
    have herase := Std.ExtTreeSet.size_erase (t := s.missing) (k := n)
    rw [if_pos (Std.ExtTreeSet.contains_iff_mem.mpr hn)] at herase
    simp only [hr, ↓reduceIte] at hsize
    omega
  | false =>
    refine ⟨rfl, fun m => h.fails _ _ m hr, ?_⟩
    rintro m rfl - hm
    simp [h.resolves _ _ (h.fails _ _ m hr hm)] at hr

theorem idle_foldl_step (h : rules.Tells ready) {nodes : List (Node τ π)} {s : Sweep τ π ι σ}
    (hd : nodes.Nodup) (hm : ∀ n ∈ nodes, n ∈ s.missing)
    (hsize : (nodes.foldl rules.step s).missing.size = s.missing.size) :
    Idle ready (· ∈ nodes) s (nodes.foldl rules.step s) := by
  induction nodes generalizing s with
  | nil => exact .refl (by simp)
  | cons n nodes ih =>
    obtain ⟨hn, hd⟩ := List.nodup_cons.mp hd
    have hm' (m : Node τ π) (hmem : m ∈ nodes) : m ∈ (rules.step s n).missing :=
      mem_step_of_ne (fun e => hn (e ▸ hmem)) (hm m (.tail _ hmem))
    have hle : (nodes.foldl rules.step (rules.step s n)).missing.size ≤
        (rules.step s n).missing.size :=
      foldl_step_induction (P := fun s' => s'.missing.size ≤ (rules.step s n).missing.size)
        (fun s' k _ hs' => Nat.le_trans (size_step_le rules s' k) hs') hd hm' (Nat.le_refl _)
    have hle' := size_step_le rules s n
    -- as no try adds a missing node, none of the tries took one away
    simp only [List.foldl_cons] at hsize ⊢
    have hfirst := idle_step h (hm n (.head _)) (by omega)
    have hrest := ih hd hm' (by omega)
    exact (hfirst.trans hrest).imp fun k _ hk => List.mem_cons.mp hk

theorem idle_visit (h : rules.Tells ready) {s : Sweep τ π ι σ} {t : τ}
    (hsize : (rules.visit s t).missing.size = s.missing.size) :
    Idle ready (·.task = t) s (rules.visit s t) := by
  rcases visit_cases rules s t with ⟨hnil, he⟩ | ⟨e, -, he⟩
  · rw [he]
    have hnone : Idle ready (fun _ => False) s s := .refl fun _ => id
    refine hnone.imp fun n hm hn => ?_
    have : n ∈ missingOf s t := mem_missingOf.mpr ⟨hm, hn⟩
    simp [hnil] at this
  · rw [he] at hsize ⊢
    have hi := idle_foldl_step h (nodup_missingOf s t)
      (s := ⟨s.run.note e, s.missing⟩) (fun n hn => (mem_missingOf.mp hn).1) hsize
    exact ⟨hi.missing, fun m hm => h.notes _ e m (hi.before m hm),
      fun n hn hm => hi.unready n (mem_missingOf.mpr ⟨hm, hn⟩) hm⟩

theorem size_visit_le (rules : Rules τ π ι σ) (s : Sweep τ π ι σ) (t : τ) :
    (rules.visit s t).missing.size ≤ s.missing.size :=
  visit_induction (P := fun s' => s'.missing.size ≤ s.missing.size)
    (fun s' k _ hs' => Nat.le_trans (size_step_le rules s' k) hs') (fun _ _ _ hs => hs) t (Nat.le_refl _)

theorem size_foldl_visit_le (rules : Rules τ π ι σ) (tasks : List τ) (s : Sweep τ π ι σ) :
    (tasks.foldl rules.visit s).missing.size ≤ s.missing.size :=
  foldl_visit_induction (P := fun s' => s'.missing.size ≤ s.missing.size)
    (fun s' k _ hs' => Nat.le_trans (size_step_le rules s' k) hs') (fun _ _ _ hs => hs) tasks (Nat.le_refl _)

theorem idle_foldl_visit (h : rules.Tells ready) (tasks : List τ) {s : Sweep τ π ι σ}
    (hsize : (tasks.foldl rules.visit s).missing.size = s.missing.size) :
    Idle ready (·.task ∈ tasks) s (tasks.foldl rules.visit s) := by
  induction tasks generalizing s with
  | nil => exact .refl (by simp)
  | cons t tasks ih =>
    have hle := size_foldl_visit_le rules tasks (rules.visit s t)
    have hle' := size_visit_le rules s t
    simp only [List.foldl_cons] at hsize ⊢
    have hfirst : Idle ready (·.task = t) s (rules.visit s t) := idle_visit h (by omega)
    have hrest := ih (s := rules.visit s t) (by omega)
    exact (hfirst.trans hrest).imp fun n _ hn => List.mem_cons.mp hn

theorem not_ready_of_settle (h : rules.Tells ready) (tasks : List τ) (passes : Nat)
    (s : Sweep τ π ι σ) {n : Node τ π} (hn : n ∈ (rules.settle tasks passes s).2.missing)
    (ht : n.task ∈ tasks) : ¬ ready (rules.settle tasks passes s).2.run n := by
  induction passes, s using Rules.settle.induct rules tasks with
  | case1 passes s he =>
    rw [settle, if_pos he, Std.ExtTreeSet.isEmpty_iff.mp he] at hn
    simp at hn
  | case2 passes s he s' hlt ih =>
    rw [settle, if_neg he, if_pos hlt] at hn ⊢
    exact ih hn
  | case3 passes s he s' hlt =>
    rw [settle, if_neg he, if_neg hlt] at hn ⊢
    -- the last pass resolved nothing
    have hle := size_foldl_visit_le rules tasks s
    have hi := idle_foldl_visit h tasks (s := s) (by
      have : ¬ (tasks.foldl rules.visit s).missing.size < s.missing.size := hlt
      omega)
    exact fun hr => hi.unready n ht (hi.missing ▸ hn) (h.notes _ _ n hr)

end Stall

omit [Shown τ] [Shown π] in
theorem mem_requiredNodes (rules : Rules τ π ι σ) (tasks : List τ) (n : Node τ π) :
    n ∈ rules.requiredNodes tasks ↔ n.task ∈ tasks ∧ n.port ∈ rules.required n.task := by
  have general (nodes : Std.ExtTreeSet (Node τ π)) :
      n ∈ tasks.foldl (fun s t => (rules.required t).toList.foldl (fun s p => s.insert ⟨t, p⟩) s)
        nodes ↔ n ∈ nodes ∨ n.task ∈ tasks ∧ n.port ∈ rules.required n.task := by
    induction tasks generalizing nodes with
    | nil => simp
    | cons t tasks ih =>
      have here : (∃ p ∈ (rules.required t).toList, (⟨t, p⟩ : Node τ π) = n) ↔
          n.task = t ∧ n.port ∈ rules.required n.task := by
        constructor
        · rintro ⟨p, hp, rfl⟩
          exact ⟨rfl, Std.ExtTreeSet.mem_toList.mp hp⟩
        · rintro ⟨rfl, hp⟩
          exact ⟨n.port, Std.ExtTreeSet.mem_toList.mpr hp, rfl⟩
      rw [List.foldl_cons, ih, mem_foldl_insert, here, List.mem_cons]
      tauto
  simpa [requiredNodes] using general ∅

/-- Whether trying open required nodes keeps a property of runs, and all that is final. -/
structure Keeps (rules : Rules τ π ι σ) (tasks : List τ) (U : Run τ π ι σ → Prop) : Prop where
  success : ∀ r r' n, U r → n ∈ rules.requiredNodes tasks → r.board.isFinal n = false →
    rules.attempt n r = (true, r') → U (r'.finalize n) ∧ r.board.Later r'.board
  failure : ∀ r r' n, U r → rules.attempt n r = (false, r') → U r' ∧ r.board.Later r'.board
  notes : ∀ r (e : Entry), e.speaker = .engine → U r → U (r.note e)

theorem Keeps.resolve {tasks : List τ} {U : Run τ π ι σ → Prop} (h : rules.Keeps tasks U)
    {r : Run τ π ι σ} {n : Node τ π} (hr : U r) (hn : n ∈ rules.requiredNodes tasks) :
    U (rules.resolve n r).2 ∧ r.board.Later (rules.resolve n r).2.board ∧
      ((rules.resolve n r).1 = true → (rules.resolve n r).2.board.isFinal n = true) := by
  unfold Rules.resolve
  split
  case isTrue hf => exact ⟨hr, .refl _, fun _ => hf⟩
  case isFalse hf =>
    split
    case h_1 r' ha =>
      obtain ⟨hu, hl⟩ := h.success r r' n hr hn (by simpa using hf) ha
      exact ⟨hu, hl.trans (Board.later_finalize _ n),
        fun _ => (Board.isFinal_finalize _ n n).mpr (.inl rfl)⟩
    case h_2 r' ha =>
      obtain ⟨hu, hl⟩ := h.failure r r' n hr ha
      exact ⟨h.notes r' _ rfl hu, hl.trans (Board.sameFacts_note _ _).later, fun h => by simp at h⟩

theorem Keeps.settled {tasks : List τ} {U : Run τ π ι σ → Prop} (h : rules.Keeps tasks U)
    {memory : σ} (hstart : U (rules.prepare tasks ⟨memory, .empty⟩)) :
    U (rules.settled tasks memory).run ∧
      (∀ n ∈ (rules.settled tasks memory).missing, n ∈ rules.requiredNodes tasks) ∧
      ∀ n ∈ rules.requiredNodes tasks, n ∉ (rules.settled tasks memory).missing →
        (rules.settled tasks memory).run.board.isFinal n = true := by
  refine settle_induction (P := fun s => U s.run ∧ (∀ n ∈ s.missing, n ∈ rules.requiredNodes tasks) ∧
    ∀ n ∈ rules.requiredNodes tasks, n ∉ s.missing → s.run.board.isFinal n = true) ?_ ?_ tasks 0
    ⟨hstart, fun n hn => hn, fun n hn hm => absurd hn hm⟩
  · rintro s n hn ⟨hu, hsub, hdone⟩
    obtain ⟨hu', hl, hfinal⟩ := h.resolve hu (hsub n hn)
    rw [step_eq]
    refine ⟨hu', fun m hm => ?_, fun m hm hm' => ?_⟩
    · split at hm
      · exact hsub m (Std.ExtTreeSet.mem_of_mem_erase hm)
      · exact hsub m hm
    · by_cases hmem : m ∈ s.missing
      · split at hm'
        case isTrue hr =>
          have hnm : n = m := by
            by_contra hne
            exact hm' (Std.ExtTreeSet.mem_erase.mpr
              ⟨fun e => hne (Std.compare_eq_iff_eq.mp e), hmem⟩)
          exact hnm ▸ hfinal hr
        case isFalse => exact absurd hmem hm'
      · exact hl.final m (hdone m hm hmem)
  · rintro s e he ⟨hu, hsub, hdone⟩
    exact ⟨h.notes s.run e he hu, hsub, hdone⟩

end Rules

end FlowTiming
