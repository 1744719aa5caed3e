import FlowTiming.Proofs.Flow.SeededTasks

/-!
What nodes need, as it is computed from the seeded board, is what they depend on.
-/

namespace FlowTiming

open Board

namespace Network

/-! ### Inputs and outputs -/

section Ports

variable {n : Network}

theorem hasInput_iff {e : Endpoint} :
    n.hasInput e = true ↔ ∃ t, n.task? e.task = some t ∧ e.port ∈ t.inputs := by
  unfold hasInput
  cases n.task? e.task <;> simp

theorem inputOf_eq_some {y : FlowNode} {e : Endpoint} :
    n.inputOf y = some e ↔ y = e.node ∧ n.hasInput e = true := by
  obtain ⟨x, q⟩ := y
  unfold inputOf Endpoint.node
  rw [Option.filter_eq_some_iff, Option.map_eq_some_iff]
  constructor
  · rintro ⟨⟨p, rfl, rfl⟩, h⟩
    exact ⟨rfl, h⟩
  · rintro ⟨he, h⟩
    obtain ⟨rfl, rfl⟩ := Node.mk.inj he
    exact ⟨⟨e.port, rfl, rfl⟩, h⟩

theorem mem_wakingInputs {t : Task} {p : String} (h : p ∈ t.wakingInputs) : p ∈ t.inputs := by
  unfold Task.wakingInputs at h
  obtain ⟨e, he, rfl⟩ := List.mem_map.mp h
  exact mem_of_mem_toList (List.mem_filter.mp he).1

theorem inputOf_taskNode (n : Network) (x : String) : n.inputOf (taskNode x) = none := rfl

theorem inputOf_output (hn : n.WellFormed) {x p : String} {t : Task} (ht : n.task? x = some t)
    (hp : p ∈ t.outputs) : n.inputOf ⟨x, some p⟩ = none := by
  rw [Option.eq_none_iff_forall_ne_some]
  intro e he
  obtain ⟨he, hin⟩ := inputOf_eq_some.mp he
  obtain ⟨rfl, hport⟩ := Node.mk.inj he
  obtain rfl := Option.some.inj hport
  obtain ⟨t', ht', hin⟩ := hasInput_iff.mp hin
  obtain rfl := Option.some.inj (ht.symm.trans ht')
  exact hn.disjoint _ _ _ ht hin hp

theorem inputOf_required (hn : n.WellFormed) {x : FlowNode} (hx : n.IsRequired x) :
    n.inputOf x = none := by
  obtain ⟨x, q⟩ := x
  obtain ⟨t, ht, hq⟩ := hx
  cases q with
  | none => exact inputOf_taskNode n x
  | some p => exact inputOf_output hn ht (hq p rfl)

theorem required_source (hn : n.WellFormed) {e s : Endpoint} (hs : s ∈ n.links.sourcesOf e) :
    n.IsRequired s.node := by
  obtain ⟨t, ht, hp⟩ := hn.sources _ (Links.mem_sourcesOf.mp hs)
  exact required_output ht hp

end Ports

/-! ### What a node depends on -/

section Depends

variable {n : Network} {x y : FlowNode}

theorem depends_slave_iff {x m : String} {t : Task} (ht : n.task? x = some t)
    (hm : t.master = some m) (y : FlowNode) : n.Depends (taskNode x) y ↔ y = taskNode m := by
  constructor
  · intro h
    cases h with
    | master ht' hm' =>
      obtain rfl := Option.some.inj (ht.symm.trans ht')
      obtain rfl := Option.some.inj (hm.symm.trans hm')
      rfl
    | waking ht' hm' =>
      obtain rfl := Option.some.inj (ht.symm.trans ht')
      simp [hm] at hm'
  · rintro rfl
    exact .master ht hm

theorem depends_woken_iff {x : String} {t : Task} (ht : n.task? x = some t)
    (hm : t.master = none) (y : FlowNode) : n.Depends (taskNode x) y ↔
      ∃ p ∈ t.wakingInputs, n.CanArrive ⟨x, p⟩ ∧ y = ⟨x, some p⟩ := by
  constructor
  · intro h
    cases h with
    | master ht' hm' =>
      obtain rfl := Option.some.inj (ht.symm.trans ht')
      simp [hm] at hm'
    | waking ht' _ hp hc =>
      obtain rfl := Option.some.inj (ht.symm.trans ht')
      exact ⟨_, hp, hc, rfl⟩
  · rintro ⟨p, hp, hc, rfl⟩
    exact .waking ht hm hp hc

theorem depends_output_iff {x p : String} {t : Task} {o : OutputPort}
    (ht : n.task? x = some t) (ho : t.outputs[p]? = some o) (y : FlowNode) :
    n.Depends ⟨x, some p⟩ y ↔ o.onUpdate = true ∧ y = taskNode x ∨
      ∃ i ∈ o.triggers, n.CanArrive ⟨x, i⟩ ∧ y = ⟨x, some i⟩ := by
  constructor
  · intro h
    cases h with
    | update ht' ho' hup =>
      obtain rfl := Option.some.inj (ht.symm.trans ht')
      obtain rfl := Option.some.inj (ho.symm.trans ho')
      exact .inl ⟨hup, rfl⟩
    | cause ht' ho' hi hc =>
      obtain rfl := Option.some.inj (ht.symm.trans ht')
      obtain rfl := Option.some.inj (ho.symm.trans ho')
      exact .inr ⟨_, hi, hc, rfl⟩
  · rintro (⟨hup, rfl⟩ | ⟨i, hi, hc, rfl⟩)
    · exact .update ht ho hup
    · exact .cause ht ho hi hc

theorem Depends.required (h : n.Depends x y) : n.IsRequired x := by
  cases h with
  | master ht => exact required_task ht
  | waking ht => exact required_task ht
  | update ht ho => exact required_output ht (mem_of_getElem? ho)
  | cause ht ho => exact required_output ht (mem_of_getElem? ho)

theorem Depends.input (hn : n.WellFormed) {e : Endpoint} (h : n.Depends x e.node) :
    n.inputOf e.node = some e ∧ n.CanArrive e := by
  obtain ⟨x', p⟩ := e
  cases h with
  | waking ht _ hp hc =>
    exact ⟨inputOf_eq_some.mpr ⟨rfl, hasInput_iff.mpr ⟨_, ht, mem_wakingInputs hp⟩⟩, hc⟩
  | cause ht ho hi hc =>
    exact ⟨inputOf_eq_some.mpr ⟨rfl, hasInput_iff.mpr ⟨_, ht, hn.causes _ _ _ _ ht ho _ hi⟩⟩, hc⟩

theorem Depends.target (hn : n.WellFormed) (h : n.Depends x y) :
    n.IsRequired y ∨ ∃ e, n.inputOf y = some e := by
  obtain ⟨task, port⟩ := y
  cases port with
  | some p => exact .inr ⟨_, (h.input hn (e := ⟨task, p⟩)).1⟩
  | none =>
    cases h with
    | master ht hm =>
      obtain ⟨k, hr⟩ := hn.ranked _ _ ht
      obtain ⟨j, -, hr⟩ := hr.above ht hm
      obtain ⟨u, hu⟩ := hr.deployed
      exact .inl (required_task hu)
    | update ht => exact .inl (required_task ht)

end Depends

/-! ### What is computed -/

/-- What a node needs before it can be resolved, as far as a board tells which inputs are final. -/
def needsOf (n : Network) (b : FlowBoard) (x : FlowNode) : List FlowNode :=
  match n.task? x.task, x.port with
  | none, _ => []
  | some t, none => n.taskNeeds b x.task t
  | some t, some p => (t.outputs[p]?).elim [] (n.outputNeeds b x.task)

variable {n : Network} {b : FlowBoard} {x p : String} {t : Task} {o : OutputPort} {y : FlowNode}

theorem needsOf_task (b : FlowBoard) (ht : n.task? x = some t) :
    n.needsOf b (taskNode x) = n.taskNeeds b x t := by
  simp only [needsOf, taskNode, ht]

theorem needsOf_output (b : FlowBoard) (ht : n.task? x = some t) (ho : t.outputs[p]? = some o) :
    n.needsOf b ⟨x, some p⟩ = n.outputNeeds b x o := by
  simp only [needsOf, ht, ho, Option.elim_some]

theorem needsOf_slave (b : FlowBoard) {m : String} (ht : n.task? x = some t)
    (hm : t.master = some m) : n.needsOf b (taskNode x) = [taskNode m] := by
  simp only [needsOf_task b ht, taskNeeds, hm]

theorem canReceive_congr {b b' : FlowBoard} {e : Endpoint}
    (h : b'.isFinal e.node = b.isFinal e.node) : n.canReceive b' e = n.canReceive b e := by
  simp only [canReceive, h]

theorem needsOf_congr (hn : n.WellFormed) {b b' : FlowBoard} {x : FlowNode}
    (h : ∀ t p, n.task? x.task = some t → p ∈ t.inputs →
      b'.isFinal ⟨x.task, some p⟩ = b.isFinal ⟨x.task, some p⟩) :
    n.needsOf b' x = n.needsOf b x := by
  have ports (t : Task) (ht : n.task? x.task = some t) (inputs : List String)
      (hin : ∀ p ∈ inputs, p ∈ t.inputs) :
      (inputs.map (Endpoint.mk x.task)).filter (n.canReceive b') =
        (inputs.map (Endpoint.mk x.task)).filter (n.canReceive b) := by
    apply List.filter_congr
    intro e he
    obtain ⟨p, hp, rfl⟩ := List.mem_map.mp he
    exact canReceive_congr (h t p ht (hin p hp))
  unfold needsOf
  split
  case h_1 => rfl
  case h_2 t ht _ =>
    unfold taskNeeds
    split
    · rfl
    · rw [ports t ht _ fun p hp => mem_wakingInputs hp]
  case h_3 t p ht _ =>
    cases ho : t.outputs[p]? with
    | none => rfl
    | some o => simp only [Option.elim_some, outputNeeds, ports t ht _ (hn.causes _ t p o ht ho)]

variable {tasks : List String}

theorem isFinal_seeded_port (hn : n.WellFormed) (hall : tasks.Perm n.taskNames) (x p : String) :
    (n.seeded tasks).isFinal ⟨x, some p⟩ = true ↔ n.StartsFinal ⟨x, some p⟩ := by
  constructor
  · exact startsFinal_of_final hn tasks
  · rintro ⟨t, ht, hp⟩
    exact (stands_seeded hn hall ht).final (some p) hp

theorem canReceive_seeded (hn : n.WellFormed) (hall : tasks.Perm n.taskNames) (e : Endpoint) :
    n.canReceive (n.seeded tasks) e = true ↔ n.CanArrive e := by
  rw [canReceive, Bool.or_eq_true, Endpoint.node, isFinal_seeded_port hn hall]
  rfl

theorem mem_needsOf (hn : n.WellFormed) (hall : tasks.Perm n.taskNames) (x y : FlowNode) :
    y ∈ n.needsOf (n.seeded tasks) x ↔ n.Depends x y := by
  have ports (inputs : List String) :
      y ∈ ((inputs.map (Endpoint.mk x.task)).filter (n.canReceive (n.seeded tasks))).map Endpoint.node ↔
        ∃ p ∈ inputs, n.CanArrive ⟨x.task, p⟩ ∧ y = ⟨x.task, some p⟩ := by
    simp only [List.mem_map, List.mem_filter, canReceive_seeded hn hall]
    constructor
    · rintro ⟨-, ⟨⟨p, hp, rfl⟩, hc⟩, rfl⟩
      exact ⟨p, hp, hc, rfl⟩
    · rintro ⟨p, hp, hc, rfl⟩
      exact ⟨_, ⟨⟨p, hp, rfl⟩, hc⟩, rfl⟩
  obtain ⟨x, q⟩ := x
  cases ht : n.task? x with
  | none =>
    constructor
    · simp [needsOf, ht]
    · intro hy
      obtain ⟨t, ht', -⟩ := hy.required
      simp [ht] at ht'
  | some t =>
    cases q with
    | none =>
      rw [← taskNode, needsOf_task _ ht, taskNeeds]
      cases hm : t.master with
      | some m => rw [List.mem_singleton, depends_slave_iff ht hm]
      | none => exact (ports _).trans (depends_woken_iff ht hm y).symm
    | some p =>
      cases ho : t.outputs[p]? with
      | none =>
        constructor
        · simp [needsOf, ht, ho]
        · intro hy
          obtain ⟨t', ht', hp⟩ := hy.required
          obtain rfl := Option.some.inj (ht.symm.trans ht')
          obtain ⟨o, ho'⟩ := mem_iff_getElem?.mp (hp p rfl)
          simp [ho] at ho'
      | some o =>
        rw [needsOf_output _ ht ho, outputNeeds, List.mem_append, depends_output_iff ht ho]
        refine or_congr ?_ (ports _)
        cases o.onUpdate <;> simp

end Network

end FlowTiming
