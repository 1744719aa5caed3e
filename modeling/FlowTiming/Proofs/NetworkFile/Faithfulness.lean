import FlowTiming.CommandLine.Run
import FlowTiming.Proofs.NetworkFile.Deployment

/-!
The network built from a validated file is the one that the file describes (`build_describes`).
-/

namespace FlowTiming

/-! ### Hints -/

namespace HintSection

variable {h : HintSection} {t : Trigger} {task : String} {usualSize : Count} {hints hints' : Hints}
  {outputs : Std.ExtTreeMap String OutputPort}

theorem gives_iff (ht : h.trigger = .ok t) (g : Trigger) : h.Gives g ↔ t.count.toNat ≠ 0 ∧ t = g := by
  simp only [trigger, bind_eq_ok, spanOf_eq_ok] at ht
  obtain ⟨period, hperiod, ht⟩ := ht
  obtain rfl := Except.ok.inj ht
  constructor
  · rintro ⟨hsource, hspan, hcount, hpos⟩
    have hspan := Binary64.rightUnique_spans hspan hperiod
    refine ⟨hpos.ne', ?_⟩
    cases g
    simp_all
  · rintro ⟨hpos, rfl⟩
    exact ⟨rfl, hperiod, rfl, Nat.pos_of_ne_zero hpos⟩

/-- Another entry adds its trigger to the hint, and starts it where there was no entry before. -/
theorem Merge.snoc {entries : List HintSection} {known : Option PortDynamics}
    (hm : Merge task usualSize entries known) (ht : h.trigger = .ok t)
    (hpositive : 1 ≤ (h.sampleSize.getD usualSize).toNat) :
    Merge task usualSize (entries ++ [h])
      (some ((known.getD (.empty (h.label task) (h.sampleSize.getD usualSize))).addTrigger t)) := by
  cases hm with
  | unhinted =>
    refine .hinted ?_ ?_ fun g => ?_
    · rw [Option.getD_none, PortDynamics.name_addTrigger, PortDynamics.empty]
    · rw [Option.getD_none, PortDynamics.sampleSize_addTrigger, PortDynamics.empty, Count.max_one hpositive]
    · rw [PortDynamics.mem_addTrigger, ← gives_iff ht]
      simp [PortDynamics.empty]
  | hinted hname hsize htriggers =>
    refine .hinted ?_ ?_ fun g => ?_
    · rw [Option.getD_some, PortDynamics.name_addTrigger, hname]
    · rw [Option.getD_some, PortDynamics.sampleSize_addTrigger, hsize]
    · rw [Option.getD_some, PortDynamics.mem_addTrigger, htriggers, ← gives_iff ht]
      simp [or_and_right, exists_or, or_assoc]

theorem get?_addTo (ha : addTo task outputs hints h = .ok hints') : ∃ t, h.trigger = .ok t ∧
    ∀ node, hints'.get? node = if h.port = node then
      some (((hints.get? node).getD (.empty (h.label task) (h.startSize outputs))).addTrigger t)
        else hints.get? node := by
  simp only [addTo, bind_eq_ok] at ha
  obtain ⟨t, ht, ha⟩ := ha
  obtain rfl := Except.ok.inj ha
  refine ⟨t, ht, fun node => ?_⟩
  cases hport : h.port with
  | none => cases node <;> simp [Hints.get?]
  | some port =>
    cases node with
    | none => simp [Hints.get?]
    | some p =>
      simp only [Hints.get?, Std.ExtTreeMap.getElem?_insert, Std.compare_eq_iff_eq, Option.some.injEq,
        Std.ExtTreeMap.getD_eq_getD_getElem?]
      split
      case isTrue he => rw [he]
      case isFalse => rfl

end HintSection

/-! ### Tasks -/

namespace TaskSection

variable {s : TaskSection} {x : String} {t : Task}

theorem describesKind_of_build (hb : s.build x = .ok t) : s.DescribesKind t.kind := by
  obtain ⟨-, -, -, ⟨devices, hdevices, hkind⟩, -⟩ := build_eq_ok hb
  have hall := (mapM_eq_ok.mp hdevices).imp fun _ _ => DeviceSection.describes_of_build
  rw [hkind, buildKind]
  cases hs : s.kind with
  | component => exact .component hs
  | driver => exact .driver hs hall
  | bus => exact .bus hs hall

theorem startSize_of_build (hb : s.build x = .ok t) (h : HintSection) :
    h.startSize t.outputs = h.sampleSize.getD (s.usualSize h.port) := by
  rw [HintSection.startSize]
  cases h.port with
  | none => rfl
  | some p =>
    have hout := outputs_of_build hb p
    simp only [usualSize, Option.bind_some]
    generalize s.outputs[p]? = q at hout
    generalize t.outputs[p]? = o at hout
    cases hout with
    | none => rfl
    | some hd => rw [Option.map_some, hd.sampleSize, Option.getD_some]

theorem one_le_usualSize (h : s.WellFormed) (node : Option String) : 1 ≤ (s.usualSize node).toNat := by
  cases node with
  | none => exact Nat.le_refl 1
  | some p =>
    simp only [usualSize]
    split
    case h_1 q hq => exact (h.outputs p q hq).sampleSize
    case h_2 => exact Nat.le_refl 1

theorem hints_of_build (h : s.WellFormed) (hb : s.build x = .ok t) (node : Option String) :
    HintSection.Merge x (s.usualSize node) (s.hintsFor node) (t.hints.get? node) := by
  have hhints := (build_eq_ok hb).2.2.2.2.1
  apply foldlM_along (fun passed hints => HintSection.Merge x (s.usualSize node) (passed.filter (·.port = node))
    (hints.get? node)) ?_ hhints
  · have hnone : Hints.get? {} node = none := by cases node <;> simp [Hints.get?]
    rw [hnone]
    exact .unhinted
  · intro passed e he hints hints' ha hm
    obtain ⟨g, hg, hget⟩ := HintSection.get?_addTo ha
    rw [hget, List.filter_append]
    split
    case isTrue hport =>
      have hpositive : 1 ≤ (e.sampleSize.getD (s.usualSize node)).toNat := by
        cases hsize : e.sampleSize with
        | none => exact one_le_usualSize h node
        | some size => exact (h.hints e he).sampleSize size hsize
      rw [startSize_of_build hb, hport, List.filter_cons_of_pos (by simpa using hport), List.filter_nil]
      exact hm.snoc hg hpositive
    case isFalse hport =>
      rw [List.filter_cons_of_neg (by simpa using hport), List.filter_nil, List.append_nil]
      exact hm

theorem describes_of_build (h : s.WellFormed) (hb : s.build x = .ok t) : s.Describes x t where
  activity := activity_of_build h hb
  latency := (build_eq_ok hb).2.2.2.2.2
  kind := describesKind_of_build hb
  inputs := (build_eq_ok hb).2.2.1
  outputs := outputs_of_build hb
  hints := hints_of_build h hb

end TaskSection

/-! ### Files -/

namespace NetworkFile

variable {f : NetworkFile} {n : Network}

theorem describes_of_build (h : f.WellFormed) (hn : f.build = .ok n) : f.Describes n where
  tasks x := by
    obtain ⟨bare, htasks, -, hbare, -⟩ := build_eq_ok hn
    have hrel := rel_of_filled Network.tasks Network.addTask (fun x s => TaskSection.build s x)
      (fun _ _ _ => rfl) rfl hbare x
    rw [htasks] at hrel
    exact rel_imp (fun s t hs _ => TaskSection.describes_of_build (h.sections x s hs)) hrel
  links := links_of_build hn

theorem WellFormed.perm {cs : List ConnectionSection} (h : f.WellFormed) (hperm : cs.Perm f.connections) :
    { f with connections := cs }.WellFormed where
  tasks := h.tasks
  margin := h.margin
  sections := h.sections
  masters := h.masters
  acyclic := h.acyclic
  sources c hc := h.sources c (hperm.mem_iff.mp hc)
  sinks c hc := h.sinks c (hperm.mem_iff.mp hc)
  policies c hc := h.policies c (hperm.mem_iff.mp hc)

end NetworkFile

/-- A run depends on a file no more than on its tasks, its margin and the network built from it. -/
theorem CommandLine.run_congr {v v' : ValidFile} {contents contents' : Except ReadFault String}
    (h : loadContents contents = .ok v) (h' : loadContents contents' = .ok v')
    (htasks : v'.file.tasks = v.file.tasks) (hmargin : v'.file.marginRatio = v.file.marginRatio)
    (hbuild : v'.file.build = v.file.build) (o : Options) : run o contents' = run o contents := by
  have hratio : marginOf o v'.file = marginOf o v.file := by
    unfold marginOf NetworkFile.margin
    rw [hmargin]
  have hnotes : v'.file.buildNotes = v.file.buildNotes := by
    unfold NetworkFile.buildNotes
    rw [htasks]
  unfold run
  simp only [h, h', hratio, hnotes, hbuild]

/-- Every validated file describes one network, the one that is built from it. Listed in another order,
connections between different ports make the same network and the same output. -/
theorem NetworkFile.build_describes (v : ValidFile) : ∃ n, v.file.build = .ok n ∧ v.file.Describes n ∧
    (∀ n', v.file.Describes n' → n' = n) ∧
    ∀ cs, cs.Perm v.file.connections → (v.file.connections.map ConnectionSection.ends).Nodup →
      ∃ v' : ValidFile, v'.file = { v.file with connections := cs } ∧ v'.file.build = .ok n ∧
        ∀ o contents contents', CommandLine.loadContents contents = .ok v →
          CommandLine.loadContents contents' = .ok v' →
            CommandLine.run o contents' = CommandLine.run o contents := by
  have h := check_eq_ok.mp v.checked
  obtain ⟨n, hn⟩ := exists_build h
  have hdescribes := describes_of_build h hn
  refine ⟨n, hn, hdescribes, fun n' hn' => rightUnique_describes hn' hdescribes, ?_⟩
  intro cs hperm hends
  have h' := h.perm hperm
  obtain ⟨n', hn'⟩ := exists_build h'
  -- both files describe the network built from either
  obtain rfl := rightUnique_describes (describes_of_build h' hn') (hdescribes.perm hperm hends)
  refine ⟨⟨_, check_eq_ok.mpr h'⟩, rfl, hn', ?_⟩
  intro o contents contents' hload hload'
  exact CommandLine.run_congr hload hload' rfl rfl (hn'.trans hn.symm) o

/-- Two links, and two hints for the same port with the same trigger. -/
def twiceHinted : ValidFile where
  file :=
    { tasks := ((∅ : Std.ExtTreeMap String TaskSection).insert "camera"
        { outputs := ((∅ : Std.ExtTreeMap String OutputSection).insert "left" { sampleSize := 2 }).insert "right" {}
          hints := [⟨some "left", "frame", .zero, 5, none⟩, ⟨some "left", "frame", .zero, 5, some 7⟩] }).insert
        "viewer" { inputs := ((∅ : Std.ExtTreeMap String InputPort).insert "first" {}).insert "second" {} }
      connections := [⟨"camera.right", "viewer.second", {}⟩, ⟨"camera.left", "viewer.first", {}⟩] }
  checked := by decide +kernel

theorem twiceHinted_described : ∃ n, twiceHinted.file.build = .ok n ∧ twiceHinted.file.Describes n ∧
    ((n.task? "camera").bind (·.hints.get? (some "left"))).map (fun d => (d.sampleSize, d.triggers.size)) =
      some (2, 1) ∧
    ∃ v' : ValidFile, v'.file.connections = twiceHinted.file.connections.reverse ∧ v'.file.build = .ok n := by
  have hhint : (twiceHinted.file.build.map fun n => ((n.task? "camera").bind
      (·.hints.get? (some "left"))).map fun d => (d.sampleSize, d.triggers.size)) = .ok (some (2, 1)) := by
    decide +kernel
  obtain ⟨n, hn, hdescribes, -, hperm⟩ := NetworkFile.build_describes twiceHinted
  obtain ⟨v', hfile, hbuild, -⟩ := hperm _ (List.reverse_perm _) (by decide)
  rw [hn] at hhint
  exact ⟨n, hn, hdescribes, Except.ok.inj hhint, v', by rw [hfile], hbuild⟩

end FlowTiming
