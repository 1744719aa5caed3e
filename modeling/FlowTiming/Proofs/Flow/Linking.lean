import FlowTiming.Proofs.Flow.Attempt

/-!
After linking, what is recorded for an open node is what it needs, and the board unfolds from the
seeded one.
-/

namespace FlowTiming

open Board

namespace Network

variable {n : Network} {tasks : List String} {run : FlowRun} {x : String} {t : Task}

def Linked (n : Network) (tasks : List String) (run : FlowRun) : Prop :=
  (n.scheme (n.seeded tasks)).Unfolds (n.seeded tasks) run.board

def Recorded (n : Network) (tasks : List String) (y : FlowNode) (run : FlowRun) : Prop :=
  run.memory[y]? = some (setOf (n.needsOf (n.seeded tasks) y)) ∨
    n.needsOf (n.seeded tasks) y = [] ∧ run.board.isFinal y = true

def RecordsOnly (n : Network) (tasks : List String) (run : FlowRun) : Prop :=
  ∀ y s, run.memory[y]? = some s → n.IsRequired y ∧ s = setOf (n.needsOf (n.seeded tasks) y)

theorem linked_seeded (n : Network) (tasks : List String) (needs : Dependencies) :
    n.Linked tasks ⟨needs, n.seeded tasks⟩ := Scheme.Unfolds.refl _ _

theorem Linked.needsOf (h : n.Linked tasks run) (hn : n.WellFormed) (y : FlowNode) :
    n.needsOf run.board y = n.needsOf (n.seeded tasks) y := by
  apply needsOf_congr hn
  intro t p ht hp
  apply isFinal_input hn h (e := ⟨y.task, p⟩)
  exact inputOf_eq_some.mpr ⟨rfl, hasInput_iff.mpr ⟨t, ht, hp⟩⟩

theorem Linked.finalize (h : n.Linked tasks run) {y : FlowNode} (hy : n.IsRequired y)
    (hnone : n.needsOf (n.seeded tasks) y = []) : n.Linked tasks (run.finalize y) := by
  cases hf : run.board.isFinal y with
  | true => exact Scheme.Unfolds.congr h (sameFacts_finalize hf)
  | false =>
    refine Scheme.Unfolds.resolve h ⟨hf, ⟨hy, by simp [hnone]⟩, fun z => ?_, fun z _ => ?_, ?_⟩
    · exact isFinal_finalize _ _ _
    · exact info?_finalize _ _ _
    · have hcontributions : n.contributions (n.seeded tasks) run.board y = [] := by
        rw [contributions, hnone]
        rfl
      simp only [Run.finalize, info?_finalize, scheme, hcontributions, List.foldl_nil, Option.map_id']

structure Records (n : Network) (tasks : List String) (y : FlowNode) (run run' : FlowRun) : Prop where
  linked : n.Linked tasks run'
  recorded : n.Recorded tasks y run'
  keeps : ∀ z, n.Recorded tasks z run → n.Recorded tasks z run'
  only : n.RecordsOnly tasks run → n.RecordsOnly tasks run'

theorem Linked.insert (h : n.Linked tasks run) {y : FlowNode} (hy : n.IsRequired y) :
    n.Records tasks y run
      { run with memory := run.memory.insert y (setOf (n.needsOf (n.seeded tasks) y)) } where
  linked := h
  recorded := .inl Std.ExtTreeMap.getElem?_insert_self
  keeps z hz := by
    refine hz.imp_left fun hz => ?_
    rw [Std.ExtTreeMap.getElem?_insert]
    split
    case isTrue he => rw [Std.compare_eq_iff_eq.mp he]
    case isFalse => exact hz
  only hrun z s hz := by
    rw [Std.ExtTreeMap.getElem?_insert] at hz
    split at hz
    case isTrue he =>
      obtain rfl := Std.compare_eq_iff_eq.mp he
      exact ⟨hy, (Option.some.inj hz).symm⟩
    case isFalse => exact hrun z s hz

theorem linkOutput_records (hn : n.WellFormed) (h : n.Linked tasks run) (ht : n.task? x = some t)
    {o : String × OutputPort} (ho : t.outputs[o.1]? = some o.2) :
    n.Records tasks ⟨x, some o.1⟩ run (n.linkOutput x run o) := by
  have hy : n.IsRequired ⟨x, some o.1⟩ := required_output ht (mem_of_getElem? ho)
  have hneeds : n.outputNeeds run.board x o.2 = n.needsOf (n.seeded tasks) ⟨x, some o.1⟩ := by
    rw [← h.needsOf hn, needsOf_output _ ht ho]
  unfold linkOutput
  rw [hneeds]
  split
  case h_1 hnone =>
    have hlater := later_finalize run.board ⟨x, some o.1⟩
    refine ⟨h.finalize hy hnone, .inr ⟨hnone, ?_⟩, fun z hz => ?_, fun hrun => hrun⟩
    · exact (isFinal_finalize _ _ _).mpr (.inl rfl)
    · exact hz.imp_right fun hz => ⟨hz.1, hlater.final z hz.2⟩
  case h_2 => exact h.insert hy

theorem link_records (hn : n.WellFormed) (h : n.Linked tasks run) (ht : n.task? x = some t)
    {q : Option String} (hq : ∀ p, q = some p → p ∈ t.outputs) :
    n.Records tasks ⟨x, q⟩ run (n.link x run) := by
  have hneeds : n.taskNeeds run.board x t = n.needsOf (n.seeded tasks) (taskNode x) := by
    rw [← h.needsOf hn, needsOf_task _ ht]
  have hstart := h.insert (y := taskNode x) (required_task ht)
  unfold link
  simp only [ht, hneeds]
  have houtput (run : FlowRun) (o : String × OutputPort) (ho : o ∈ t.outputs.toList)
      (h : n.Linked tasks run) := linkOutput_records hn h ht (mem_toList_iff.mp ho)
  have hlinked := List.foldlRecOn (motive := n.Linked tasks) t.outputs.toList (n.linkOutput x)
    hstart.linked fun run h o ho => (houtput run o ho h).linked
  have hkeep (z : FlowNode) (run : FlowRun) (o : String × OutputPort) (ho : o ∈ t.outputs.toList)
      (h : n.Linked tasks run ∧ n.Recorded tasks z run) :
      n.Linked tasks (n.linkOutput x run o) ∧ n.Recorded tasks z (n.linkOutput x run o) :=
    ⟨(houtput run o ho h.1).linked, (houtput run o ho h.1).keeps z h.2⟩
  refine ⟨hlinked, ?_, fun z hz => ?_, fun hrun => ?_⟩
  · cases q with
    | none =>
      exact (List.foldlRecOn (motive := fun run => n.Linked tasks run ∧ n.Recorded tasks (taskNode x) run)
        _ _ ⟨hstart.linked, hstart.recorded⟩ fun run h o ho => hkeep _ run o ho h).2
    | some p =>
      obtain ⟨o, ho⟩ := mem_iff_getElem?.mp (hq p rfl)
      refine (foldl_reaches_of_keeps (n.Linked tasks)
        (fun run => n.Linked tasks run ∧ n.Recorded tasks ⟨x, some p⟩ run)
        (mem_toList_iff (e := (p, o)).mpr ho) hstart.linked
        (fun run o ho h => (houtput run o ho h).linked) (hkeep _) fun run h => ?_).2
      have hrec := linkOutput_records (o := (p, o)) hn h ht ho
      exact ⟨hrec.linked, hrec.recorded⟩
  · exact (List.foldlRecOn (motive := fun run => n.Linked tasks run ∧ n.Recorded tasks z run)
      _ _ ⟨hstart.linked, hstart.keeps z hz⟩ fun run h o ho => hkeep z run o ho h).2
  · exact (List.foldlRecOn (motive := fun run => n.Linked tasks run ∧ n.RecordsOnly tasks run)
      _ _ ⟨hstart.linked, hstart.only hrun⟩ fun run h o ho =>
        ⟨(houtput run o ho h.1).linked, (houtput run o ho h.1).only h.2⟩).2

theorem link_linked (hn : n.WellFormed) (h : n.Linked tasks run) (x : String) :
    n.Linked tasks (n.link x run) ∧
      (∀ z, n.Recorded tasks z run → n.Recorded tasks z (n.link x run)) ∧
        (n.RecordsOnly tasks run → n.RecordsOnly tasks (n.link x run)) := by
  cases ht : n.task? x with
  | none =>
    have he : n.link x run = run := by simp only [link, ht]
    rw [he]
    exact ⟨h, fun _ hz => hz, fun hrun => hrun⟩
  | some t =>
    have hrec : n.Records tasks (taskNode x) run (n.link x run) := link_records hn h ht (by simp)
    exact ⟨hrec.linked, hrec.keeps, hrec.only⟩

def prepared (n : Network) (tasks : List String) (needs : Dependencies) : FlowRun :=
  n.rules.prepare tasks ⟨needs, .empty⟩

variable {needs : Dependencies}

theorem seeds_eq (n : Network) (tasks : List String) (needs : Dependencies) :
    tasks.foldl (fun run x => n.rules.seed x run) (⟨needs, .empty⟩ : FlowRun) =
      ⟨needs, n.seeded tasks⟩ := by
  have hseeds (names : List String) (b : FlowBoard) :
      names.foldl (fun run x => n.rules.seed x run) (⟨needs, b⟩ : FlowRun) =
        ⟨needs, names.foldl (fun b x => n.seed x b) b⟩ := by
    induction names generalizing b with
    | nil => rfl
    | cons x names ih => exact ih (n.seed x b)
  exact hseeds tasks .empty

theorem prepared_eq (n : Network) (tasks : List String) (needs : Dependencies) :
    n.prepared tasks needs = tasks.foldl (fun run x => n.link x run) ⟨needs, n.seeded tasks⟩ := by
  rw [prepared, Rules.prepare, seeds_eq]
  rfl

theorem prepared_linked (hn : n.WellFormed) (tasks : List String) (needs : Dependencies) :
    n.Linked tasks (n.prepared tasks needs) := by
  rw [prepared_eq]
  exact List.foldlRecOn _ _ (linked_seeded n tasks needs) fun run h x _ => (link_linked hn h x).1

theorem silent_link (n : Network) (x : String) (run : FlowRun) :
    Silent run.board (n.link x run).board := by
  unfold link
  split
  case h_1 => exact .refl _
  case h_2 t _ =>
    refine List.foldlRecOn (motive := fun r : FlowRun => Silent run.board r.board) _ _ (.refl _) ?_
    intro r hr o _
    unfold linkOutput
    split
    · exact hr.trans (silent_finalize _ _)
    · exact hr

theorem prepared_silent (n : Network) (tasks : List String) (needs : Dependencies) :
    Silent (n.seeded tasks) (n.prepared tasks needs).board := by
  rw [prepared_eq]
  exact List.foldlRecOn (motive := fun r : FlowRun => Silent (n.seeded tasks) r.board) _ _ (.refl _)
    fun run h x _ => h.trans (silent_link n x run)

theorem prepared_recorded (hn : n.WellFormed) (hall : tasks.Perm n.taskNames) (needs : Dependencies)
    {y : FlowNode} (hy : n.IsRequired y) : n.Recorded tasks y (n.prepared tasks needs) := by
  obtain ⟨t, ht, hq⟩ := hy
  have htask : y.task ∈ tasks := hall.mem_iff.mpr (mem_taskNames.mpr ⟨t, ht⟩)
  rw [prepared_eq]
  refine (foldl_reaches_of_keeps (n.Linked tasks)
    (fun run => n.Linked tasks run ∧ n.Recorded tasks y run) htask
    (linked_seeded n tasks needs)
    (fun run x _ h => (link_linked hn h x).1) (fun run x _ h => ?_) fun run h => ?_).2
  · obtain ⟨hl, hk, -⟩ := link_linked hn h.1 x
    exact ⟨hl, hk y h.2⟩
  · have hrec := link_records hn h ht hq
    exact ⟨hrec.linked, hrec.recorded⟩

theorem prepared_recordsOnly (hn : n.WellFormed) (tasks : List String) :
    n.RecordsOnly tasks (n.prepared tasks ∅) := by
  rw [prepared_eq]
  refine (List.foldlRecOn (motive := fun run => n.Linked tasks run ∧ n.RecordsOnly tasks run) _ _
    ⟨linked_seeded n tasks ∅, fun y s hs => by simp at hs⟩ fun run h x _ => ?_).2
  obtain ⟨hl, -, ho⟩ := link_linked hn h.1 x
  exact ⟨hl, ho h.2⟩

theorem Recorded.getD {y : FlowNode} (h : n.Recorded tasks y run) (hy : run.board.isFinal y = false) :
    run.memory.getD y ∅ = setOf (n.needsOf (n.seeded tasks) y) := by
  rw [Std.ExtTreeMap.getD_eq_getD_getElem?, h.resolve_right (by simp [hy]), Option.getD_some]

end Network

end FlowTiming
