import FlowTiming.Flow.Basic
import FlowTiming.Proofs.Dynamics.Triggers
import FlowTiming.Proofs.Network.WellFormed
import FlowTiming.Proofs.Propagation.Refusals

/-!
What contributions do to a board, and what handing the dynamics of a task down to its slaves keeps
(`finish_induction`).
-/

namespace FlowTiming

namespace FlowBoard

open Board

theorem alters_placeTask (b : FlowBoard) (x : String) : Alters (taskNode x) b (b.placeTask x) :=
  alters_replace b _ _

theorem alters_placeOutput (b : FlowBoard) (e : Endpoint) (p : OutputPort) :
    Alters e.node b (b.placeOutput e p) :=
  ((sameFacts_noteAll b _).alters _).trans (alters_replace _ _ _)

theorem alters_introduce (b : FlowBoard) (t : Task) (x : FlowNode) :
    Alters x b (b.introduce t x) := by
  obtain ⟨task, port⟩ := x
  unfold introduce
  split
  · exact (SameFacts.refl b).alters _
  · cases port with
    | none => exact alters_placeTask b task
    | some port =>
      simp only
      split
      · exact alters_placeOutput b ⟨task, port⟩ _
      · exact (SameFacts.refl b).alters _

theorem alters_contribute (b : FlowBoard) (t : Task) (x : FlowNode) (d : PortDynamics) :
    Alters x b (b.contribute t x d) :=
  (alters_introduce b t x).trans (alters_extend _ x d)

@[simp] theorem isFinal_contribute (b : FlowBoard) (t : Task) (x y : FlowNode) (d : PortDynamics) :
    (b.contribute t x d).isFinal y = b.isFinal y := (alters_contribute b t x d).final y

@[simp] theorem isFinal_contributeTriggers (b : FlowBoard) (t : Task) (x y : FlowNode) (name : String)
    (size : Count) (facts : List Trigger) :
    (b.contributeTriggers t x name size facts).isFinal y = b.isFinal y := by
  rw [contributeTriggers, isFinal_contribute, isFinal_noteAll]

theorem info?_contribute_of_ne (b : FlowBoard) (t : Task) {x y : FlowNode} (h : y ≠ x)
    (d : PortDynamics) : (b.contribute t x d).info? y = b.info? y :=
  (alters_contribute b t x d).others y h

theorem later_contribute_finalize (b : FlowBoard) (t : Task) (x : FlowNode) (d : PortDynamics) :
    b.Later ((b.contribute t x d).finalize x) :=
  (alters_contribute b t x d).later.trans (later_finalize _ x)

/-- Whether nothing changes about a node. -/
structure SameAt (x : FlowNode) (b b' : FlowBoard) : Prop where
  final : b'.isFinal x = b.isFinal x
  info : b'.info? x = b.info? x

section SameAt

variable {x y : FlowNode} {b b' b'' : FlowBoard}

theorem SameAt.refl (x : FlowNode) (b : FlowBoard) : SameAt x b b := ⟨rfl, rfl⟩

theorem SameAt.trans (h : SameAt x b b') (h' : SameAt x b' b'') : SameAt x b b'' :=
  ⟨h'.final.trans h.final, h'.info.trans h.info⟩

theorem SameAt.symm (h : SameAt x b b') : SameAt x b' b := ⟨h.final.symm, h.info.symm⟩

theorem sameAt_of_same (h : SameFacts b b') (x : FlowNode) : SameAt x b b' := ⟨h.final x, h.info x⟩

theorem sameAt_of_alters (h : Alters y b b') (hne : x ≠ y) : SameAt x b b' :=
  ⟨h.final x, h.others x hne⟩

theorem sameAt_finalize (b : FlowBoard) (hne : x ≠ y) : SameAt x b (b.finalize y) :=
  ⟨isFinal_finalize_of_ne b hne, info?_finalize b y x⟩

theorem sameAt_contribute_finalize (b : FlowBoard) (t : Task) (d : PortDynamics) (hne : x ≠ y) :
    SameAt x b ((b.contribute t y d).finalize y) :=
  (sameAt_of_alters (alters_contribute b t y d) hne).trans (sameAt_finalize _ hne)

theorem sameAt_foldl {α : Type} {f : FlowBoard → α → FlowBoard} {items : List α} (b : FlowBoard)
    (h : ∀ c, ∀ a ∈ items, SameAt x c (f c a)) : SameAt x b (items.foldl f b) :=
  List.foldlRecOn (motive := SameAt x b) _ _ (.refl x b) fun c hc a ha => hc.trans (h c a ha)

theorem settled_foldl {α : Type} {f : FlowBoard → α → FlowBoard} {P : α → Prop} {items : List α}
    {d : PortDynamics} (later : ∀ (c : FlowBoard) a, c.Later (f c a))
    (other : ∀ c, ∀ a ∈ items, ¬ P a → SameAt x c (f c a))
    (settle : ∀ c, ∀ a ∈ items, P a → SameAt x b c →
      (f c a).isFinal x = true ∧ (f c a).info? x = some d)
    (hexists : ∃ a ∈ items, P a) :
    (items.foldl f b).isFinal x = true ∧ (items.foldl f b).info? x = some d := by
  induction items generalizing b with
  | nil => simp at hexists
  | cons a items ih =>
    rw [List.foldl_cons]
    by_cases ha : P a
    · obtain ⟨hfinal, hinfo⟩ := settle b a (.head _) ha (.refl x b)
      have hlater : (f b a).Later (items.foldl f (f b a)) :=
        List.foldlRecOn (motive := fun c : FlowBoard => (f b a).Later c) _ _ (.refl _)
          fun c hc a _ => hc.trans (later c a)
      exact ⟨hlater.final _ hfinal, (hlater.frozen _ hfinal).trans hinfo⟩
    · have hsame := other b a (.head _) ha
      obtain ⟨a', ha', hP⟩ := hexists
      rcases List.mem_cons.mp ha' with rfl | ha'
      · exact absurd hP ha
      · exact ih (fun c a ha => other c a (.tail _ ha))
          (fun c a ha hPa hc => settle c a (.tail _ ha) hPa (hsame.trans hc)) ⟨a', ha', hP⟩

end SameAt

def HasModel (o : OutputPort) (x : FlowNode) (b : FlowBoard) : Prop :=
  ∀ d, b.info? x = some d → d.sampleSize = max o.sampleSize 1 ∧
    (o.burst.count.toNat ≠ 0 → o.burst ∈ d.triggers)

structure Touches (t : Task) (x : FlowNode) (b b' : FlowBoard) : Prop extends Alters x b b' where
  model : ∀ p o, x.port = some p → t.outputs[p]? = some o → HasModel o x b → HasModel o x b'

theorem touches_of_same {b b' : FlowBoard} (h : SameFacts b b') (t : Task) (x : FlowNode) :
    Touches t x b b' :=
  ⟨h.alters x, fun _ _ _ _ hb d hd => hb d ((h.info x).symm.trans hd)⟩

theorem Touches.trans {t : Task} {x : FlowNode} {b b' b'' : FlowBoard} (h : Touches t x b b')
    (h' : Touches t x b' b'') : Touches t x b b'' :=
  ⟨h.toAlters.trans h'.toAlters, fun p o hp ho hb => h'.model p o hp ho (h.model p o hp ho hb)⟩

theorem touches_placeTask (b : FlowBoard) (t : Task) (x : String) :
    Touches t (taskNode x) b (b.placeTask x) :=
  ⟨alters_placeTask b x, fun _ _ hp => by simp [taskNode] at hp⟩

theorem touches_placeOutput (b : FlowBoard) {t : Task} (e : Endpoint) {o : OutputPort}
    (ho : t.outputs[e.port]? = some o) : Touches t e.node b (b.placeOutput e o) := by
  refine ⟨alters_placeOutput b e o, fun p o' hp ho' hb d hd => ?_⟩
  obtain rfl := Option.some.inj hp
  obtain rfl := Option.some.inj (ho.symm.trans ho')
  cases hf : b.isFinal e.node with
  | true => exact hb d (((alters_placeOutput b e o).frozen hf).symm.trans hd)
  | false =>
    rw [placeOutput, info?_replace_self _ ((isFinal_noteAll b _ _).trans hf)] at hd
    obtain rfl := Option.some.inj hd
    exact ⟨(PortDynamics.name_ofTriggers _ _ _).2, fun hc => PortDynamics.mem_ofTriggers.mpr ⟨.head _, hc⟩⟩

theorem touches_contribute (b : FlowBoard) (t : Task) (x : FlowNode) (d : PortDynamics) :
    Touches t x b (b.contribute t x d) := by
  refine ⟨alters_contribute b t x d, fun p o hp ho hb d' hd' => ?_⟩
  cases hf : b.isFinal x with
  | true => exact hb d' (((alters_contribute b t x d).frozen hf).symm.trans hd')
  | false =>
    have hintro : HasModel o x (b.introduce t x) ∧ ∃ i, (b.introduce t x).info? x = some i := by
      cases hk : b.isKnown x with
      | true =>
        rw [introduce, if_pos hk]
        exact ⟨hb, isKnown_iff.mp hk⟩
      | false =>
        have he : b.introduce t x = b.placeOutput ⟨x.task, p⟩ o := by
          simp only [introduce, hk, Bool.false_eq_true, ↓reduceIte, hp, ho]
        have hx : x = Endpoint.node ⟨x.task, p⟩ := by
          obtain ⟨task, port⟩ := x
          obtain rfl : port = some p := hp
          rfl
        rw [he]
        generalize hn : x.task = task at hx
        subst hx
        refine ⟨(touches_placeOutput b ⟨task, p⟩ ho).model p o rfl ho hb, ?_⟩
        exact ⟨_, info?_replace_self _ ((isFinal_noteAll b _ _).trans hf) _⟩
    obtain ⟨hmodel, i, hi⟩ := hintro
    rw [contribute, info?_extend_self _ (((alters_introduce b t x).final x).trans hf), hi] at hd'
    obtain rfl := Option.some.inj hd'
    exact ⟨(hmodel i hi).1, fun hc => PortDynamics.mem_merge.mpr (.inl ((hmodel i hi).2 hc))⟩

theorem touches_contributeTriggers (b : FlowBoard) (t : Task) (x : FlowNode) (name : String)
    (size : Count) (facts : List Trigger) :
    Touches t x b (b.contributeTriggers t x name size facts) :=
  (touches_of_same (sameFacts_noteAll b _) t x).trans (touches_contribute _ t x _)

theorem isKnown_contribute (b : FlowBoard) (t : Task) {x : FlowNode} (d : PortDynamics)
    (h : b.isFinal x = false) : (b.contribute t x d).isKnown x = true := by
  have hopen : (b.introduce t x).isFinal x = false := ((alters_introduce b t x).final x).trans h
  exact isKnown_iff.mpr ⟨_, info?_extend_self _ hopen d⟩

section Known

variable {b : FlowBoard} {x : FlowNode} {known : PortDynamics}

theorem contribute_of_known (t : Task) (d : PortDynamics) (hx : b.info? x = some known) :
    b.contribute t x d = b.extend x d := by
  rw [contribute, introduce, if_pos (isKnown_iff.mpr ⟨known, hx⟩)]

theorem info?_contribute_of_known (t : Task) (d : PortDynamics) (h : b.isFinal x = false)
    (hx : b.info? x = some known) : (b.contribute t x d).info? x = some (known.merge d) := by
  rw [contribute_of_known t d hx, info?_extend_self b h, hx]
  rfl

theorem silent_contribute (t : Task) (d : PortDynamics) (h : b.isFinal x = false)
    (hx : b.info? x = some known) : Silent b (b.contribute t x d) := by
  rw [contribute_of_known t d hx]
  refine (silent_extend_iff fun known e he => ?_).mpr h
  rw [List.mem_singleton.mp he]
  exact Entry.not_isRefusal (by simp [PortDynamics.mergeNote])

end Known

end FlowBoard

namespace Network

variable {n : Network} {J : FlowBoard → Prop}

/-- Whether a property of boards is kept when a task that is final hands its dynamics to a slave
that is not. -/
structure Hands (n : Network) (J : FlowBoard → Prop) : Prop where
  note : ∀ b message fields, J b → J (b.note (resolverNote message fields))
  hand : ∀ b m d s, J b → b.isFinal (taskNode m) = true → b.info? (taskNode m) = some d →
    s ∈ n.slavesOf m → b.isFinal (taskNode s.1) = false →
      J ((FlowBoard.contribute b s.2 (taskNode s.1) d).finalize (taskNode s.1))

theorem Hands.finishWithin (h : n.Hands J) {depth : Nat} : ∀ {k : Nat} {x : String} {b : FlowBoard},
    n.Rank x k → n.tasks.size ≤ depth + k → J (b.finalize (taskNode x)) →
      J (n.finishWithin depth x b) ∧ (b.finalize (taskNode x)).Later (n.finishWithin depth x b) := by
  induction depth with
  | zero =>
    intro k x b hr hsize
    have := hr.lt_size
    omega
  | succ depth ih =>
    intro k x b hr hsize hj
    rw [Network.finishWithin]
    simp only
    split
    case h_1 => exact ⟨hj, .refl _⟩
    case h_2 d hd =>
      have hfinal : (b.finalize (taskNode x)).isFinal (taskNode x) = true :=
        (Board.isFinal_finalize b _ _).mpr (.inl rfl)
      refine List.foldlRecOn (motive := fun c => J c ∧ (b.finalize (taskNode x)).Later c) _ _
        ⟨hj, .refl _⟩ ?_
      rintro c ⟨hc, hl⟩ s hs
      split
      case isTrue => exact ⟨hc, hl⟩
      case isFalse hopen =>
        rw [Bool.not_eq_true] at hopen
        have hinfo : c.info? (taskNode x) = some d := (hl.frozen _ hfinal).trans hd
        have hnote := h.note c "slave inherits task dynamics" [("master", x), ("slave", s.1)] hc
        have hstep := h.hand _ x d s hnote (hl.final _ hfinal) hinfo hs hopen
        obtain ⟨hj', hl'⟩ := ih (hr.ofSlave hs) (by omega) hstep
        refine ⟨hj', hl.trans (Board.Later.trans ?_ hl')⟩
        exact ((Board.sameFacts_note c _).later.trans
          (FlowBoard.alters_contribute _ s.2 _ d).later).trans (Board.later_finalize _ _)

theorem Hands.finish (h : n.Hands J) {k : Nat} {x : String} {b : FlowBoard} (hr : n.Rank x k)
    (hj : J (b.finalize (taskNode x))) :
    J (n.finish x b) ∧ (b.finalize (taskNode x)).Later (n.finish x b) :=
  h.finishWithin hr (Nat.le_add_right _ _) hj

end Network

end FlowTiming
