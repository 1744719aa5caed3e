import FlowTiming.Proofs.Network.Links
import FlowTiming.Proofs.Policy.Judgement

/-!
The policies of all links, each as it is found for that link alone, and the warnings of those that fall
back, in the order of the links. The first link without a policy decides how the whole fails.
-/

namespace FlowTiming

namespace Link

def Before (a b : Link) : Prop :=
  a.source.task < b.source.task ∨ a.source.task = b.source.task ∧
    (a.sink.task < b.sink.task ∨ a.sink.task = b.sink.task ∧
      (a.source.port < b.source.port ∨ a.source.port = b.source.port ∧ a.sink.port < b.sink.port))

theorem before_iff {a b : Link} : a.Before b ↔ compare a b = .lt := by
  have hlt (x y : String) : compare x y = .lt ↔ x < y := compareOfLessAndEq_eq_lt
  simp only [compare_def, Ordering.then_eq_lt, hlt, Std.compare_eq_iff_eq, Before]

theorem Before.irrefl {a : Link} : ¬ a.Before a := by
  rw [before_iff, Std.compare_eq_iff_eq.mpr rfl]
  exact nofun

theorem Before.ne {a b : Link} (h : a.Before b) : a ≠ b := by
  rintro rfl
  exact irrefl h

theorem Before.asymm {a b : Link} (h : a.Before b) : ¬ b.Before a := by
  rw [before_iff] at h ⊢
  rw [Std.OrientedOrd.eq_swap, h]
  exact nofun

end Link

theorem Decision.warning?_eq_some {d : Decision} {w : Warning} :
    d.warning? = some w ↔ d.origin = .fallback w := by
  unfold warning?
  cases d.origin <;> simp

namespace Synthesis

variable {s : Synthesis} {l : Link} {p : LinkPolicy} {d : Decision} {ds : List (Link × Decision)}

/-- How the policies of all links come out, given those of single links. -/
structure Decides (s : Synthesis) (result : Except Failure Report) : Prop where
  succeeds_iff : (∃ r, result = .ok r) ↔
    ∀ l p, s.network.links.get? l = some p → ∃ d, s.policyFor l p = .ok d
  policy_iff : ∀ r l policy, result = .ok r → (r.policy l = some policy ↔
    ∃ p d, s.network.links.get? l = some p ∧ s.policyFor l p = .ok d ∧ d.policy = policy)
  warning_iff : ∀ r w, result = .ok r → (w ∈ r.warnings ↔
    ∃ l p d, s.network.links.get? l = some p ∧ s.policyFor l p = .ok d ∧ d.origin = .fallback w)
  named : ∀ l p d w, s.policyFor l p = .ok d → d.origin = .fallback w → w.link = l
  ordered : ∀ r, result = .ok r → r.warnings.Pairwise fun w w' => w.link.Before w'.link
  failure : ∀ e, result = .error e → ∃ l p, s.network.links.get? l = some p ∧ s.policyFor l p = .error e ∧
    ∀ l' p', s.network.links.get? l' = some p' → l'.Before l → ∃ d, s.policyFor l' p' = .ok d

theorem links_before (n : Network) : n.links.toList.Pairwise fun e e' => e.1.Before e'.1 :=
  List.Pairwise.imp Link.before_iff.mpr Std.ExtTreeMap.ordered_keys_toList

/-! ### Decisions -/

theorem mem_decisions (h : s.decisions = .ok ds) :
    (l, d) ∈ ds ↔ ∃ p, s.network.links.get? l = some p ∧ s.policyFor l p = .ok d := by
  constructor
  · intro hd
    obtain ⟨e, he, hmap⟩ := mem_of_mapM h hd
    obtain ⟨d', hd', hpair⟩ := map_eq_ok.mp hmap
    obtain ⟨rfl, rfl⟩ := Prod.mk.inj hpair
    exact ⟨e.2, Links.mem_toList.mp he, hd'⟩
  · rintro ⟨p, hl, hd⟩
    have hlink : (l, p) ∈ s.network.links.toList := Links.mem_toList.mpr hl
    obtain ⟨x, hx, hmap⟩ := ok_of_mapM h hlink
    obtain ⟨d', hd', rfl⟩ := map_eq_ok.mp hmap
    obtain rfl := Except.ok.inj (hd.symm.trans hd')
    exact hx

theorem decided (h : s.decisions = .ok ds) (hl : s.network.links.get? l = some p) :
    ∃ d, s.policyFor l p = .ok d := by
  have hlink : (l, p) ∈ s.network.links.toList := Links.mem_toList.mpr hl
  obtain ⟨x, -, hmap⟩ := ok_of_mapM h hlink
  obtain ⟨d, hd, -⟩ := map_eq_ok.mp hmap
  exact ⟨d, hd⟩

theorem map_fst_decisions (h : s.decisions = .ok ds) :
    ds.map Prod.fst = s.network.links.toList.map Prod.fst := by
  have hall := mapM_eq_ok.mp h
  generalize s.network.links.toList = links at hall
  clear h
  induction hall with
  | nil => rfl
  | cons hx _ ih =>
    obtain ⟨d, -, rfl⟩ := map_eq_ok.mp hx
    rw [List.map_cons, List.map_cons, ih]

theorem decisions_before (h : s.decisions = .ok ds) : ds.Pairwise fun x x' => x.1.Before x'.1 := by
  have hlinks := links_before s.network
  rwa [← List.pairwise_map (R := Link.Before), ← map_fst_decisions h, List.pairwise_map] at hlinks

theorem failing_of_decisions {e : Failure} (h : s.decisions = .error e) :
    ∃ l p, s.network.links.get? l = some p ∧ s.policyFor l p = .error e ∧
      ∀ l' p', s.network.links.get? l' = some p' → l'.Before l → ∃ d, s.policyFor l' p' = .ok d := by
  obtain ⟨before, a, after, hlinks, hbefore, ha⟩ := mapM_eq_error.mp h
  have hmem : a ∈ s.network.links.toList := hlinks ▸ by simp
  refine ⟨a.1, a.2, Links.mem_toList.mp hmem, map_eq_error.mp ha, fun l' p' hl' hlt => ?_⟩
  have hmem' : (l', p') ∈ before ++ a :: after := hlinks ▸ Links.mem_toList.mpr hl'
  rcases List.mem_append.mp hmem' with hb | hrest
  · obtain ⟨x, hx⟩ := hbefore _ hb
    obtain ⟨d, hd, -⟩ := map_eq_ok.mp hx
    exact ⟨d, hd⟩
  · -- neither the failing link itself nor a later one stands before it
    rcases List.mem_cons.mp hrest with rfl | hafter
    · exact absurd hlt Link.Before.irrefl
    · have hordered := links_before s.network
      rw [hlinks, List.pairwise_append, List.pairwise_cons] at hordered
      exact absurd hlt (hordered.2.1.1 _ hafter).asymm

theorem succeeds_iff : (∃ ds, s.decisions = .ok ds) ↔
    ∀ l p, s.network.links.get? l = some p → ∃ d, s.policyFor l p = .ok d := by
  constructor
  · rintro ⟨ds, h⟩ l p hl
    exact decided h hl
  · intro hall
    cases h : s.decisions with
    | ok ds => exact ⟨ds, rfl⟩
    | error e =>
      obtain ⟨l, p, hl, he, -⟩ := failing_of_decisions h
      obtain ⟨d, hd⟩ := hall l p hl
      rw [he] at hd
      contradiction

/-! ### What is reported of them -/

section Report

variable {outcome : Outcome String String} {r : Report}

theorem policy_iff {policy : Policy}
    (hr : s.decisions.map (Network.report outcome s.board s.cycles) = .ok r) :
    r.policy l = some policy ↔
      ∃ p d, s.network.links.get? l = some p ∧ s.policyFor l p = .ok d ∧ d.policy = policy := by
  obtain ⟨ds, hds, rfl⟩ := map_eq_ok.mp hr
  have hdistinct : ds.Pairwise fun x x' => x.1 ≠ x'.1 := (decisions_before hds).imp Link.Before.ne
  have hlabels : ds.foldl (fun links x => links.insert x.1 x.2.policy) Links.empty =
      ⟨ds.foldl (fun m x => m.insert x.1 x.2.policy) ∅⟩ := List.foldl_hom Links.mk fun _ _ => rfl
  rw [Report.policy, Network.report, hlabels, Links.get?,
    getElem?_foldl_insert Decision.policy hdistinct]
  constructor
  · rintro ⟨⟨l, d⟩, hmem, rfl, rfl⟩
    obtain ⟨p, hl, hd⟩ := (mem_decisions hds).mp hmem
    exact ⟨p, d, hl, hd, rfl⟩
  · rintro ⟨p, d, hl, hd, rfl⟩
    exact ⟨(l, d), (mem_decisions hds).mpr ⟨p, hl, hd⟩, rfl, rfl⟩

theorem policy_report (hr : s.decisions.map (Network.report outcome s.board s.cycles) = .ok r)
    (hl : s.network.links.get? l = some p) (hd : s.policyFor l p = .ok d) :
    r.policy l = some d.policy := (policy_iff hr).mpr ⟨p, d, hl, hd, rfl⟩

theorem policy_eq_none (hr : s.decisions.map (Network.report outcome s.board s.cycles) = .ok r)
    (hl : s.network.links.get? l = none) : r.policy l = none := by
  by_contra hne
  obtain ⟨policy, hpolicy⟩ := Option.ne_none_iff_exists'.mp hne
  obtain ⟨p, -, hp, -⟩ := (policy_iff hr).mp hpolicy
  exact absurd (hl.symm.trans hp) nofun

theorem warning_iff {w : Warning}
    (hr : s.decisions.map (Network.report outcome s.board s.cycles) = .ok r) : w ∈ r.warnings ↔
      ∃ l p d, s.network.links.get? l = some p ∧ s.policyFor l p = .ok d ∧ d.origin = .fallback w := by
  obtain ⟨ds, hds, rfl⟩ := map_eq_ok.mp hr
  simp only [Network.report, List.mem_filterMap, Decision.warning?_eq_some]
  constructor
  · rintro ⟨⟨l, d⟩, hmem, hd⟩
    obtain ⟨p, hl, hpolicy⟩ := (mem_decisions hds).mp hmem
    exact ⟨l, p, d, hl, hpolicy, hd⟩
  · rintro ⟨l, p, d, hl, hpolicy, hd⟩
    exact ⟨(l, d), (mem_decisions hds).mpr ⟨p, hl, hpolicy⟩, hd⟩

theorem link_of_fallback {w : Warning} (h : s.policyFor l p = .ok d) (hd : d.origin = .fallback w) :
    w.link = l := by
  have hj := judged s l p
  rw [h] at hj
  generalize hresult : (.ok d : Except Failure Decision) = result at hj
  cases hj with
  | unmodelled | overflow => simp at hresult
  | preset | unreliable | sized =>
    obtain rfl := Except.ok.inj hresult
    simp [sized] at hd
  | lacking =>
    unfold fallBack at hresult
    split at hresult
    case h_1 =>
      obtain rfl := Except.ok.inj hresult
      obtain rfl := Origin.fallback.inj hd
      rfl
    case h_2 => simp at hresult

theorem warnings_before (hr : s.decisions.map (Network.report outcome s.board s.cycles) = .ok r) :
    r.warnings.Pairwise fun w w' => w.link.Before w'.link := by
  obtain ⟨ds, hds, rfl⟩ := map_eq_ok.mp hr
  refine List.pairwise_filterMap.mpr ((decisions_before hds).imp_of_mem ?_)
  rintro ⟨l, d⟩ ⟨l', d'⟩ hmem hmem' hlt w hw w' hw'
  obtain ⟨p, -, hpolicy⟩ := (mem_decisions hds).mp hmem
  obtain ⟨p', -, hpolicy'⟩ := (mem_decisions hds).mp hmem'
  rw [link_of_fallback hpolicy (Decision.warning?_eq_some.mp hw),
    link_of_fallback hpolicy' (Decision.warning?_eq_some.mp hw')]
  exact hlt

end Report

/-- The policies of all links are those of the links for themselves. There are none just if some link
has none, and the first one without tells why. Every link that falls back is warned of once, in order. -/
theorem report_decides (s : Synthesis) (outcome : Outcome String String) :
    s.Decides (s.decisions.map (Network.report outcome s.board s.cycles)) where
  succeeds_iff := by
    rw [← succeeds_iff]
    constructor
    · rintro ⟨r, hr⟩
      obtain ⟨ds, hds, -⟩ := map_eq_ok.mp hr
      exact ⟨ds, hds⟩
    · rintro ⟨ds, hds⟩
      exact ⟨_, map_eq_ok.mpr ⟨ds, hds, rfl⟩⟩
  policy_iff _ _ _ hr := policy_iff hr
  warning_iff _ _ hr := warning_iff hr
  named _ _ _ _ := link_of_fallback
  ordered _ hr := warnings_before hr
  failure _ he := failing_of_decisions (map_eq_error.mp he)

end Synthesis

end FlowTiming
