import FlowTiming.Proofs.Flow.Attempt
import FlowTiming.Proofs.Propagation.Balance

/-!
What a network does to a board it does by updates (`rules_updates`), and most of it node by node:
what becomes of a node follows from what was known about that node alone (`ActsOn`).
-/

namespace FlowTiming

open Board

namespace FlowBoard

variable {b b' : FlowBoard} {x : String} {y : FlowNode}

theorem sameAt_apply_of_ne (b : FlowBoard) {z : FlowNode} (h : y ≠ z) (u : Update PortDynamics) :
    SameAt y b (b.apply z u) :=
  ⟨(apply_of_ne b h u).1, (apply_of_ne b h u).2⟩

theorem sameAt_apply (h : SameAt y b b') (z : FlowNode) (u : Update PortDynamics) :
    SameAt y (b.apply z u) (b'.apply z u) := by
  by_cases hyz : y = z
  · subst hyz
    cases hf : b.isFinal y with
    | true =>
      have kept (c : FlowBoard) (hc : c.isFinal y = true) : SameAt y c (c.apply y u) :=
        ⟨((later_apply c y u).final y hc).trans hc.symm, (later_apply c y u).frozen y hc⟩
      exact (kept b hf).symm.trans (h.trans (kept b' (h.final.trans hf)))
    | false =>
      have hf' : b'.isFinal y = false := h.final.trans hf
      cases u with
      | replace i =>
        exact ⟨by simp only [apply, isFinal_replace, h.final],
          by simp only [apply, info?_replace_self _ hf, info?_replace_self _ hf']⟩
      | extend i =>
        exact ⟨by simp only [apply, isFinal_extend, h.final],
          by simp only [apply, info?_extend_self _ hf, info?_extend_self _ hf', h.info]⟩
      | finalize =>
        have final (c : FlowBoard) : (c.finalize y).isFinal y = true := (isFinal_finalize c y y).mpr (.inl rfl)
        exact ⟨by simp only [apply, final], by simp only [apply, info?_finalize, h.info]⟩
  · exact (sameAt_apply_of_ne b hyz u).symm.trans (h.trans (sameAt_apply_of_ne b' hyz u))

/-- Whether a function updates nodes of a task only, and each of them by what is known about it alone. -/
structure ActsOn (x : String) (f : FlowBoard → FlowBoard) : Prop where
  updated : ∀ b : FlowBoard, b.Updated (f b)
  same : ∀ y b b', SameAt y b b' → SameAt y (f b) (f b')
  others : ∀ y b, y.task ≠ x → SameAt y b (f b)

namespace ActsOn

variable {f g : FlowBoard → FlowBoard}

theorem id (x : String) : ActsOn x fun b => b := ⟨fun _ => .refl, fun _ _ _ h => h, fun y b _ => .refl y b⟩

theorem comp (hf : ActsOn x f) (hg : ActsOn x g) : ActsOn x fun b => g (f b) where
  updated b := (hf.updated b).trans (hg.updated _)
  same y b b' h := hg.same y _ _ (hf.same y b b' h)
  others y b hy := (hf.others y b hy).trans (hg.others y _ hy)

theorem foldl {α : Type} {f : FlowBoard → α → FlowBoard} (h : ∀ a, ActsOn x fun b => f b a)
    (items : List α) : ActsOn x fun b => items.foldl f b := by
  induction items with
  | nil => exact .id x
  | cons a items ih => exact (h a).comp ih

theorem apply (x : String) (q : Option String) (u : Update PortDynamics) :
    ActsOn x fun b => b.apply ⟨x, q⟩ u where
  updated _ := .apply _ u .refl
  same _ _ _ h := sameAt_apply h _ u
  others _ b hy := sameAt_apply_of_ne b (fun h => hy (congrArg Node.task h)) u

theorem note (x : String) (e : Entry) : ActsOn x (Board.note · e) :=
  ⟨fun _ => .note e .refl, fun _ _ _ h => ⟨h.final, h.info⟩, fun _ _ _ => ⟨rfl, rfl⟩⟩

theorem noteAll (x : String) (entries : List Entry) : ActsOn x (Board.noteAll · entries) :=
  .foldl (note x) entries

theorem placeTask (x : String) : ActsOn x (placeTask · x) := .apply x none (.replace _)

theorem placeOutput (x p : String) (o : OutputPort) : ActsOn x (placeOutput · ⟨x, p⟩ o) :=
  (noteAll x _).comp (.apply x (some p) (.replace _))

/-- A function that changes one node only may be left out where that node is known. -/
theorem unlessKnown {q : Option String} (h : ActsOn x f) (ha : ∀ b, Alters ⟨x, q⟩ b (f b)) :
    ActsOn x fun b => if b.isKnown ⟨x, q⟩ then b else f b where
  updated b := by
    split
    · exact .refl
    · exact h.updated b
  same y b b' hs := by
    by_cases hy : y = ⟨x, q⟩
    · subst hy
      rw [isKnown_congr hs.info]
      split
      · exact hs
      · exact h.same _ b b' hs
    · have kept (c : FlowBoard) : SameAt y c (if c.isKnown ⟨x, q⟩ then c else f c) := by
        split
        · exact .refl y c
        · exact sameAt_of_alters (ha c) hy
      exact (kept b).symm.trans (hs.trans (kept b'))
  others y b hy := by
    split
    · exact .refl y b
    · exact h.others y b hy

theorem introduce (t : Task) (x : String) (q : Option String) : ActsOn x (introduce · t ⟨x, q⟩) := by
  cases q with
  | none => exact (placeTask x).unlessKnown fun b => alters_placeTask b x
  | some p =>
    unfold FlowBoard.introduce
    cases ho : t.outputs[p]? with
    | none => simpa only [ho, ite_self] using id x
    | some o => simpa only [ho] using (placeOutput x p o).unlessKnown fun b => alters_placeOutput b ⟨x, p⟩ o

theorem contribute (t : Task) (x : String) (q : Option String) (d : PortDynamics) :
    ActsOn x (contribute · t ⟨x, q⟩ d) :=
  (introduce t x q).comp (.apply x q (.extend d))

theorem contributeTriggers (t : Task) (x : String) (q : Option String) (name : String) (size : Count)
    (facts : List Trigger) : ActsOn x (contributeTriggers · t ⟨x, q⟩ name size facts) :=
  (noteAll x _).comp (contribute t x q _)

theorem finalize (x : String) (q : Option String) : ActsOn x (Board.finalize · ⟨x, q⟩) :=
  .apply x q .finalize

theorem seedModels (x : String) (t : Task) : ActsOn x (seedModels x t) :=
  (placeTask x).comp (foldl (f := fun b (o : String × OutputPort) => FlowBoard.placeOutput b ⟨x, o.1⟩ o.2)
    (fun o => placeOutput x o.1 o.2) t.outputs.toList)

theorem giveFinal (t : Task) (x : String) (q : Option String) (d : PortDynamics) :
    ActsOn x fun b => (FlowBoard.contribute b t ⟨x, q⟩ d).finalize ⟨x, q⟩ :=
  (contribute t x q d).comp (finalize x q)

theorem seedHints (x : String) (t : Task) : ActsOn x (seedHints x t) := by
  have hports := foldl (fun h : String × PortDynamics => giveFinal t x (some h.1) h.2) t.hints.ports.toList
  unfold FlowBoard.seedHints
  cases t.hints.task with
  | none => exact hports
  | some d => exact (contribute t x none d).comp hports

theorem seedDevice (x : String) (t : Task) (a : Attachment) : ActsOn x (seedDevice x t · a) := by
  have hnotes := (note x (a.device.note x)).comp
    (noteAll x (PortDynamics.additionNotes a.device.name a.device.triggers))
  have hpolled (period : Duration) := foldl (fun p : String => (noteAll x (PortDynamics.additionNotes
    a.device.name [a.device.polled period])).comp (giveFinal t x (some p) (.ofTriggers a.device.name 1
      [a.device.polled period]))) a.ports
  have hgiven := (contribute t x none a.device.dynamics).comp
    (foldl (fun p : String => giveFinal t x (some p) a.device.dynamics) a.ports)
  unfold FlowBoard.seedDevice
  simp only
  cases a.device.dynamics.isEmpty with
  | true => exact hnotes
  | false =>
    cases t.activity with
    | periodic period => exact hnotes.comp (hpolled period)
    | triggered => exact hnotes.comp hgiven
    | slave => exact hnotes.comp hgiven

theorem seedBus (x : String) (t : Task) (devices : List Attachment) : ActsOn x (seedBus x t · devices) := by
  have hdevice (a : Attachment) : ActsOn x (seedBusDevice x t · a) :=
    foldl (fun p : String => contributeTriggers t x (some p) _ _ _) a.ports
  exact (foldl hdevice devices).comp (foldl (fun p : String => finalize x (some p)) _)

theorem seedKind (x : String) (t : Task) : ActsOn x (seedKind x t) := by
  unfold FlowBoard.seedKind
  cases t.kind with
  | component => exact id x
  | driver devices => exact .foldl (seedDevice x t) devices
  | bus devices => exact seedBus x t devices

theorem absorb (t : Task) (x : String) (q : Option String) (period : Option Duration)
    (need : Bool × PortDynamics) : ActsOn x (Network.absorb t ⟨x, q⟩ period · need) := by
  obtain ⟨fromPort, d⟩ := need
  cases period with
  | none => exact contribute t x q d
  | some period =>
    cases fromPort with
    | false => exact contribute t x q d
    | true => exact (noteAll x _).comp (contribute t x q _)

end ActsOn

end FlowBoard

namespace Network

open FlowBoard

variable (n : Network) (x : String) (t : Task) (b : FlowBoard)

/-- What seeding does to a task before it looks at what triggers the task. -/
theorem actsOn_seeds : ActsOn x fun b => seedKind x t (seedHints x t (seedModels x t
    (b.note (resolverNote "initial port dynamics" [("task", x)])))) :=
  (((ActsOn.note x _).comp (.seedModels x t)).comp (.seedHints x t)).comp (.seedKind x t)

theorem updated_finishWithin (depth : Nat) : b.Updated (n.finishWithin depth x b) := by
  induction depth generalizing x b with
  | zero => exact .refl
  | succ depth ih =>
    have hfinal := (ActsOn.finalize x none).updated b
    rw [finishWithin]
    simp only
    split
    case h_1 => exact hfinal
    case h_2 d _ =>
      refine hfinal.trans (.foldl (fun c s => ?_) _ _)
      split
      · exact .refl
      · exact ((((ActsOn.note s.1 _).comp (.contribute s.2 s.1 none d)).updated c).trans (ih s.1 _))

theorem updated_seedTask : b.Updated (n.seedTask x t b) := by
  refine ((actsOn_seeds x t).updated b).trans ?_
  unfold seedTask seedActivity
  split
  · exact (((ActsOn.note x _).comp (.contributeTriggers t x none _ _ _)).updated _).trans
      (updated_finishWithin n x _ _)
  · split
    · exact updated_finishWithin n x _ _
    · exact .refl
  · exact .refl

theorem updated_seedWithin (depth : Nat) : b.Updated (n.seedWithin depth x t b) := by
  induction depth generalizing x t b with
  | zero => exact .refl
  | succ depth ih =>
    refine (Updated.foldl (fun c s => ?_) (n.slavesOf x) b).trans (updated_seedTask n x t _)
    split
    · exact .refl
    · exact ih s.1 s.2 c

theorem updated_linkOutput (run : FlowRun) (o : String × OutputPort) :
    run.board.Updated (n.linkOutput x run o).board := by
  unfold linkOutput
  split
  · exact .apply _ .finalize .refl
  · exact .refl

theorem updated_gather (y : FlowNode) (needs : List FlowNode) : b.Updated (n.gather y needs b).2 := by
  induction needs generalizing b with
  | nil => exact .refl
  | cons need needs ih =>
    rw [gather]
    split
    · exact ((ActsOn.noteAll y.task _).updated b).trans (ih _)
    · exact .note _ .refl

/-- The rules of every network, well-formed or not, change the board only by updates. -/
theorem rules_updates : n.rules.Updates where
  seed x run := by
    change run.board.Updated (n.seed x run.board)
    unfold seed
    split
    · exact .refl
    · split
      · exact .refl
      · exact updated_seedWithin n x _ _ _
  link x run := by
    change run.board.Updated (n.link x run).board
    unfold link
    split
    · exact .refl
    · exact List.foldlRecOn (motive := fun r : FlowRun => run.board.Updated r.board) _ _ .refl
        fun r hr o _ => hr.trans (updated_linkOutput n x r o)
  attempt y run := by
    change run.board.Updated (n.attempt y run).2.board
    have hgather := updated_gather n run.board y (run.memory.getD y ∅).toList
    unfold attempt
    split
    case h_1 => exact .refl
    case h_2 t _ =>
      split
      case h_1 he => rwa [he] at hgather
      case h_2 needs c he =>
        rw [he] at hgather
        have habsorb := hgather.trans
          ((ActsOn.foldl (ActsOn.absorb t y.task y.port (n.rootPeriod t)) needs).updated c)
        cases y.port.isNone with
        | true => exact habsorb.trans (updated_finishWithin n y.task _ _)
        | false => exact habsorb

end Network

end FlowTiming
