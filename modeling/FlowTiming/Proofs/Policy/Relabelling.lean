import FlowTiming.Proofs.Policy.Provision

/-!
Labels of links play no part in a propagation. So an analysis finds the policies of a network again
when they are laid down on its links (`analyze_fixing`).
-/

namespace FlowTiming

def LinkPolicy.fixed (policy : Policy) : LinkPolicy := { preset := some policy }

namespace Network

def relabel (n : Network) (f : Link → LinkPolicy → LinkPolicy) : Network :=
  { n with links := ⟨n.links.labels.map f⟩ }

/-- The network with the policies given laid down on its links. -/
def fixing (n : Network) (policies : Links Policy) : Network :=
  n.relabel fun l p => ((policies.get? l).map LinkPolicy.fixed).getD p

section Relabel

variable (n : Network) (f : Link → LinkPolicy → LinkPolicy)

theorem toList_relabel : (n.relabel f).links.toList = n.links.toList.map fun e => (e.1, f e.1 e.2) :=
  Std.ExtTreeMap.toList_map

theorem get?_relabel (l : Link) : (n.relabel f).links.get? l = (n.links.get? l).map (f l) :=
  Std.ExtTreeMap.getElem?_map

@[simp] theorem sourcesOf_relabel (sink : Endpoint) :
    (n.relabel f).links.sourcesOf sink = n.links.sourcesOf sink := by
  rw [Links.sourcesOf, toList_relabel, List.filter_map, List.map_map]
  rfl

@[simp] theorem feeds_relabel (port : Endpoint) :
    (n.relabel f).links.feeds port = n.links.feeds port := by
  rw [Links.feeds, toList_relabel, List.any_map]
  rfl

theorem finishWithin_relabel (depth : Nat) (task : String) (b : FlowBoard) :
    (n.relabel f).finishWithin depth task b = n.finishWithin depth task b := by
  induction depth generalizing task b with
  | zero => rfl
  | succ depth ih =>
    simp only [finishWithin, ih]
    rfl

theorem periodWithin_relabel (hops : Nat) (t : Task) :
    (n.relabel f).periodWithin hops t = n.periodWithin hops t := by
  induction hops generalizing t with
  | zero =>
    unfold periodWithin
    cases t.master <;> rfl
  | succ hops ih =>
    unfold periodWithin
    cases t.master with
    | none => rfl
    | some master => exact Option.bind_congr fun t _ => ih t

theorem seedActivity_relabel (task : String) (t : Task) (b : FlowBoard) :
    (n.relabel f).seedActivity task t b = n.seedActivity task t b := by
  unfold seedActivity finish
  simp only [finishWithin_relabel]
  rfl

theorem seedWithin_relabel (depth : Nat) (task : String) (t : Task) (b : FlowBoard) :
    (n.relabel f).seedWithin depth task t b = n.seedWithin depth task t b := by
  induction depth generalizing task t b with
  | zero => rfl
  | succ depth ih =>
    simp only [seedWithin, seedTask, seedActivity_relabel, ih]
    rfl

theorem link_relabel (task : String) (run : FlowRun) : (n.relabel f).link task run = n.link task run := by
  have hreceive (b : FlowBoard) (port : Endpoint) :
      (n.relabel f).canReceive b port = n.canReceive b port := by
    rw [canReceive, feeds_relabel, canReceive]
  have houtput : (n.relabel f).linkOutput task = n.linkOutput task := by
    funext run p
    unfold linkOutput outputNeeds
    simp only [funext₂ hreceive]
  unfold link taskNeeds
  simp only [funext₂ hreceive, houtput]
  rfl

theorem isSettled_relabel (b : FlowBoard) (x : FlowNode) :
    (n.relabel f).isSettled b x = n.isSettled b x := by
  unfold isSettled
  simp only [sourcesOf_relabel]
  rfl

theorem gather_relabel (x : FlowNode) (needs : List FlowNode) (b : FlowBoard) :
    (n.relabel f).gather x needs b = n.gather x needs b := by
  induction needs generalizing b with
  | nil => rfl
  | cons need needs ih =>
    unfold gather
    simp only [isSettled_relabel, ih]
    unfold dynamicsOf dynamicsNotes inputStart sourceDynamics
    simp only [sourcesOf_relabel]
    rfl

theorem attempt_relabel (x : FlowNode) (run : FlowRun) :
    (n.relabel f).attempt x run = n.attempt x run := by
  unfold attempt rootPeriod finish
  simp only [gather_relabel, periodWithin_relabel, finishWithin_relabel]
  rfl

theorem seed_relabel (task : String) (b : FlowBoard) : (n.relabel f).seed task b = n.seed task b := by
  unfold seed
  simp only [seedWithin_relabel]
  rfl

theorem rules_relabel : (n.relabel f).rules = n.rules := by
  unfold rules
  rw [funext₂ (link_relabel n f), funext₂ (attempt_relabel n f), funext₂ (seed_relabel n f)]
  rfl

theorem stalledCycles_relabel (b : FlowBoard) (needs : Dependencies) :
    (n.relabel f).stalledCycles b needs = n.stalledCycles b needs := by
  unfold stalledCycles stalledEdges
  simp only [isSettled_relabel, sourcesOf_relabel]
  rfl

theorem propagate_relabel (engine engine' : FlowEngine) :
    (n.relabel f).propagate engine' = n.propagate engine := by
  unfold propagate
  rw [rules_relabel]
  rfl

theorem synthesis_relabel (margin margin' : Margin) (engine engine' : FlowEngine) :
    (n.relabel f).synthesis margin' engine' =
      { n.synthesis margin engine with network := n.relabel f, margin := margin' } := by
  unfold synthesis reportedCycles
  simp only [propagate_relabel n f engine engine', stalledCycles_relabel]

variable {n f} {margin margin' : Margin} {engine engine' : FlowEngine} {r r' : Report}

/-- Two analyses of networks that differ in labels only report the same but for policies. -/
theorem report_relabel (h : (n.analyze margin engine).result = .ok r)
    (h' : ((n.relabel f).analyze margin' engine').result = .ok r') :
    r' = { r with policies := r'.policies, warnings := r'.warnings } := by
  rw [result_analyze] at h h'
  obtain ⟨ds, -, rfl⟩ := map_eq_ok.mp h
  obtain ⟨ds', -, rfl⟩ := map_eq_ok.mp h'
  rw [propagate_relabel n f engine engine', synthesis_relabel n f margin margin' engine engine']
  rfl

end Relabel

section Fixing

variable {n : Network} {margin : Margin} {engine : FlowEngine} {r : Report} {l : Link} {p : LinkPolicy}
  (h : (n.analyze margin engine).result = .ok r)
include h

theorem get?_fixing : (n.fixing r.policies).links.get? l = some p ↔
    ∃ policy, r.policy l = some policy ∧ p = .fixed policy := by
  rw [result_analyze] at h
  rw [fixing, get?_relabel, Report.policy]
  cases hl : n.links.get? l with
  | none =>
    have hnone : r.policies.get? l = none := Synthesis.policy_eq_none h hl
    simp [hnone]
  | some p' =>
    obtain ⟨ds, hds, -⟩ := map_eq_ok.mp h
    obtain ⟨d, hd⟩ := Synthesis.decided hds hl
    have hpolicy : r.policies.get? l = some d.policy := Synthesis.policy_report h hl hd
    simp [hpolicy, eq_comm]

theorem policyFor_fixing {s : Synthesis} (hl : (n.fixing r.policies).links.get? l = some p) :
    ∃ policy, r.policy l = some policy ∧ s.policyFor l p = .ok ⟨policy, .preset⟩ := by
  obtain ⟨policy, hpolicy, rfl⟩ := (get?_fixing h).mp hl
  exact ⟨policy, hpolicy, Synthesis.policyFor_preset rfl⟩

theorem exists_report_fixing (margin' : Margin) (engine' : FlowEngine) :
    ∃ r', ((n.fixing r.policies).analyze margin' engine').result = .ok r' := by
  obtain ⟨ds, hds⟩ := (Synthesis.succeeds_iff (s := (n.fixing r.policies).synthesis margin' engine')).mpr
    fun l p hl => let ⟨policy, _, hd⟩ := policyFor_fixing h hl; ⟨⟨policy, .preset⟩, hd⟩
  exact ⟨_, (result_analyze ..).trans (map_eq_ok.mpr ⟨ds, hds, rfl⟩)⟩

variable {margin' : Margin} {engine' : FlowEngine} {r' : Report}
  (h' : ((n.fixing r.policies).analyze margin' engine').result = .ok r')
include h'

theorem policy_fixing {policy : Policy} : r'.policy l = some policy ↔ r.policy l = some policy := by
  rw [result_analyze] at h'
  rw [Synthesis.policy_iff h']
  constructor
  · rintro ⟨p, d, hl, hd, rfl⟩
    obtain ⟨policy, hpolicy, hd'⟩ := policyFor_fixing h hl
    obtain rfl := Except.ok.inj (hd.symm.trans hd')
    exact hpolicy
  · intro hpolicy
    exact ⟨_, _, (get?_fixing h).mpr ⟨policy, hpolicy, rfl⟩, Synthesis.policyFor_preset rfl, rfl⟩

theorem policies_fixing : r'.policies = r.policies := by
  have hlabels : r'.policies.labels = r.policies.labels :=
    Std.ExtTreeMap.ext_getElem? fun _ => Option.ext fun _ => policy_fixing h h'
  exact congrArg Links.mk hlabels

theorem warnings_fixing : r'.warnings = [] := by
  rw [result_analyze] at h'
  refine List.eq_nil_iff_forall_not_mem.mpr fun w hw => ?_
  obtain ⟨l, p, d, hl, hd, hfallback⟩ := (Synthesis.warning_iff h').mp hw
  obtain ⟨policy, -, hd'⟩ := policyFor_fixing h hl
  obtain rfl := Except.ok.inj (hd.symm.trans hd')
  cases hfallback

omit h' in
/-- Laying down the policies of a successful analysis gives a network whose analyses all succeed, warn
of nothing and report the same otherwise, whatever margin they are made with. -/
theorem analyze_fixing (margin' : Margin) (engine' : FlowEngine) :
    (∀ l p, (n.fixing r.policies).links.get? l = some p ↔
      ∃ policy, r.policy l = some policy ∧ p = .fixed policy) ∧
    ((n.fixing r.policies).analyze margin' engine').result = .ok { r with warnings := [] } := by
  refine ⟨fun l p => get?_fixing h, ?_⟩
  obtain ⟨r', h'⟩ := exists_report_fixing h margin' engine'
  rw [h', report_relabel h h', policies_fixing h h', warnings_fixing h h']

end Fixing

/-- A sensor whose samples are read twice, and two tasks that wait for each other, on links with and
without policies laid down. -/
def mixed : Network where
  tasks := ((((∅ : Std.ExtTreeMap String Task).insert "sensor"
      { activity := .periodic ⟨100000000, by decide⟩,
        outputs := (∅ : Std.ExtTreeMap String OutputPort).insert "out" {} }).insert "reader"
      { activity := .periodic ⟨500000000, by decide⟩,
        inputs := ((∅ : Std.ExtTreeMap String InputPort).insert "in"
          { wakes := false, reliable := true }).insert "last" { wakes := false } }).insert "x"
      { activity := .triggered,
        inputs := (∅ : Std.ExtTreeMap String InputPort).insert "in" { reliable := true },
        outputs := (∅ : Std.ExtTreeMap String OutputPort).insert "out" {} }).insert "y"
      { activity := .triggered,
        inputs := (∅ : Std.ExtTreeMap String InputPort).insert "in" { reliable := true },
        outputs := (∅ : Std.ExtTreeMap String OutputPort).insert "out" {} }
  links := ⟨((((∅ : Std.ExtTreeMap Link LinkPolicy).insert ⟨⟨"sensor", "out"⟩, ⟨"reader", "in"⟩⟩ {}).insert
    ⟨⟨"sensor", "out"⟩, ⟨"reader", "last"⟩⟩ {}).insert
    ⟨⟨"x", "out"⟩, ⟨"y", "in"⟩⟩ { fallback := some .singleSlot }).insert
    ⟨⟨"y", "out"⟩, ⟨"x", "in"⟩⟩ (.fixed .passThrough)⟩

def quarter : Margin := ⟨.signed false ⟨4598175219545276416, by decide⟩, by decide, by decide⟩

theorem mixed_fixing : ∃ r, (mixed.analyze .standard .fresh).result = .ok r ∧
    (∀ l p, (mixed.fixing r.policies).links.get? l = some p ↔
      ∃ policy, r.policy l = some policy ∧ p = .fixed policy) ∧
    ((mixed.fixing r.policies).analyze quarter .fresh).result = .ok { r with warnings := [] } ∧
    r.warnings.length = 1 ∧ r.cycles.length = 1 ∧
    r.policies.toList.map (·.2) = [.buffer 8, .passThrough, .singleSlot, .passThrough] := by
  have hrun : ((mixed.analyze .standard .fresh).result.map fun r =>
      (r.warnings.length, r.cycles.length, r.policies.toList.map (·.2))) =
        .ok (1, 1, [.buffer 8, .passThrough, .singleSlot, .passThrough]) := by decide +kernel
  obtain ⟨r, h, hr⟩ := map_eq_ok.mp hrun
  obtain ⟨hlinks, hresult⟩ := analyze_fixing h quarter .fresh
  simp only [Prod.mk.injEq] at hr
  exact ⟨r, h, hlinks, hresult, hr⟩

end Network

end FlowTiming
