import FlowTiming.Proofs.Network.Links
import Mathlib.Algebra.BigOperators.Group.List.Basic
import Mathlib.Algebra.GroupWithZero.Nat

/-!
Links in bundles: for each two tasks the links between them, by their ports. Kept so or in one row, the
same links give the same answers.
-/

namespace FlowTiming

/-- Where something starts and ends: a bundle at tasks, a link within its bundle at ports. -/
structure Ends where
  source : String
  sink : String
deriving DecidableEq

namespace Ends

instance : Ord Ends := ⟨compareLex (compareOn source) (compareOn sink)⟩

theorem compare_def (a b : Ends) :
    compare a b = (compare a.source b.source).then (compare a.sink b.sink) := rfl

instance : Std.TransOrd Ends :=
  inferInstanceAs (Std.TransCmp (compareLex (compareOn source) (compareOn sink)))

instance : Std.LawfulEqOrd Ends where
  eq_of_compare {a b} h := by
    rw [compare_def, Ordering.then_eq_eq] at h
    cases a
    cases b
    simp_all

end Ends

namespace Link

def tasks (l : Link) : Ends := ⟨l.source.task, l.sink.task⟩

def ports (l : Link) : Ends := ⟨l.source.port, l.sink.port⟩

def ofEnds (tasks ports : Ends) : Link := ⟨⟨tasks.source, ports.source⟩, ⟨tasks.sink, ports.sink⟩⟩

theorem eq_ofEnds_iff {l : Link} {tasks ports : Ends} :
    l = ofEnds tasks ports ↔ l.tasks = tasks ∧ l.ports = ports := by
  constructor
  · rintro rfl
    exact ⟨rfl, rfl⟩
  · rintro ⟨rfl, rfl⟩
    rfl

theorem compare_ofEnds (tasks ports tasks' ports' : Ends) :
    compare (ofEnds tasks ports) (ofEnds tasks' ports') =
      (compare tasks tasks').then (compare ports ports') := by
  simp only [compare_def, Ends.compare_def, ofEnds, Ordering.then_assoc]

end Link

structure Bundles (ε : Type) where
  bundles : Std.ExtTreeMap Ends (Std.ExtTreeMap Ends ε)

namespace Bundles

variable {ε : Type}

def empty : Bundles ε := ⟨∅⟩

def insert (b : Bundles ε) (link : Link) (label : ε) : Bundles ε :=
  ⟨b.bundles.insert link.tasks ((b.bundles.getD link.tasks ∅).insert link.ports label)⟩

def ofList (additions : List (Link × ε)) : Bundles ε :=
  additions.foldl (fun b entry => b.insert entry.1 entry.2) empty

def between? (b : Bundles ε) (source sink : String) : Option (Std.ExtTreeMap Ends ε) :=
  b.bundles[(⟨source, sink⟩ : Ends)]?

def get? (b : Bundles ε) (link : Link) : Option ε :=
  (b.between? link.source.task link.sink.task).bind (·[link.ports]?)

def feeds (b : Bundles ε) (sink : Endpoint) : Bool :=
  (b.bundles.toList.filter (·.1.sink == sink.task)).any fun e => e.2.keys.any (·.sink == sink.port)

def sourcesOf (b : Bundles ε) (sink : Endpoint) : List Endpoint :=
  (b.bundles.toList.filter (·.1.sink == sink.task)).flatMap fun e =>
    (e.2.keys.filter (·.sink == sink.port)).map fun ports => ⟨e.1.source, ports.source⟩

def size (b : Bundles ε) : Nat := (b.bundles.toList.map (·.2.size)).sum

def isEmpty (b : Bundles ε) : Bool := b.bundles.toList.all (·.2.isEmpty)

/-- The links of a bundle between two tasks. -/
def unbundled (tasks : Ends) (bundle : Std.ExtTreeMap Ends ε) : List (Link × ε) :=
  bundle.toList.map fun entry => (Link.ofEnds tasks entry.1, entry.2)

def toList (b : Bundles ε) : List (Link × ε) := b.bundles.toList.flatMap fun e => unbundled e.1 e.2

variable {b : Bundles ε} {l : Links ε} {link : Link} {label : ε} {tasks : Ends}
  {bundle : Std.ExtTreeMap Ends ε}

theorem mem_unbundled {entry : Link × ε} : entry ∈ unbundled tasks bundle ↔
    entry.1.tasks = tasks ∧ bundle[entry.1.ports]? = some entry.2 := by
  obtain ⟨link, label⟩ := entry
  simp only [unbundled, List.mem_map, Prod.mk.injEq, mem_toList_iff]
  constructor
  · rintro ⟨entry, hentry, rfl, rfl⟩
    exact ⟨rfl, hentry⟩
  · rintro ⟨htasks, hlabel⟩
    exact ⟨(link.ports, label), hlabel, (Link.eq_ofEnds_iff.mpr ⟨htasks, rfl⟩).symm, rfl⟩

theorem ordered_unbundled (tasks : Ends) (bundle : Std.ExtTreeMap Ends ε) :
    (unbundled tasks bundle).Pairwise fun e e' => compare e.1 e'.1 = .lt := by
  have hself : compare tasks tasks = .eq := Std.ReflCmp.compare_self
  rw [unbundled, List.pairwise_map]
  refine Std.ExtTreeMap.ordered_keys_toList.imp fun {p p'} hlt => ?_
  rw [Link.compare_ofEnds, hself, hlt]
  rfl

theorem ordered_toList (b : Bundles ε) : b.toList.Pairwise fun e e' => compare e.1 e'.1 = .lt := by
  apply List.pairwise_flatMap.mpr
  refine ⟨fun e _ => ordered_unbundled e.1 e.2, ?_⟩
  refine Std.ExtTreeMap.ordered_keys_toList.imp fun {e e'} hlt x hx x' hx' => ?_
  obtain ⟨p, -, rfl⟩ := List.mem_map.mp hx
  obtain ⟨p', -, rfl⟩ := List.mem_map.mp hx'
  rw [Link.compare_ofEnds, hlt]
  rfl

theorem get?_eq (b : Bundles ε) (link : Link) :
    b.get? link = (b.bundles.getD link.tasks ∅)[link.ports]? := by
  change (b.bundles[link.tasks]?).bind (·[link.ports]?) = _
  rw [Std.ExtTreeMap.getD_eq_getD_getElem?]
  cases b.bundles[link.tasks]? <;> simp

theorem mem_toList {entry : Link × ε} : entry ∈ b.toList ↔ b.get? entry.1 = some entry.2 := by
  have hget : b.get? entry.1 = some entry.2 ↔
      ∃ bundle, b.bundles[entry.1.tasks]? = some bundle ∧ bundle[entry.1.ports]? = some entry.2 :=
    Option.bind_eq_some_iff
  rw [toList, List.mem_flatMap, hget]
  constructor
  · rintro ⟨e, he, hentry⟩
    obtain ⟨htasks, hlabel⟩ := mem_unbundled.mp hentry
    exact ⟨e.2, htasks ▸ mem_toList_iff.mp he, hlabel⟩
  · rintro ⟨bundle, hbundle, hlabel⟩
    exact ⟨(entry.1.tasks, bundle), mem_toList_iff.mpr hbundle, mem_unbundled.mpr ⟨rfl, hlabel⟩⟩

theorem get?_insert (b : Bundles ε) (link link' : Link) (label : ε) :
    (b.insert link label).get? link' = if link = link' then some label else b.get? link' := by
  have hsame : link = link' ↔ link.tasks = link'.tasks ∧ link.ports = link'.ports :=
    @Link.eq_ofEnds_iff link link'.tasks link'.ports
  simp only [get?_eq, insert, Std.ExtTreeMap.getD_insert, Std.compare_eq_iff_eq, hsame]
  by_cases htasks : link.tasks = link'.tasks
  case neg => simp only [htasks, false_and, ↓reduceIte]
  -- the other link is in the bundle that was added to
  simp only [htasks, true_and, ↓reduceIte, Std.ExtTreeMap.getElem?_insert, Std.compare_eq_iff_eq]

theorem bundle_ne_empty (additions : List (Link × ε)) (tasks : Ends) :
    (ofList additions).bundles[tasks]? ≠ some ∅ := by
  refine List.foldlRecOn (motive := fun b : Bundles ε => b.bundles[tasks]? ≠ some ∅) additions _
    (by simp [empty]) fun b hb entry _ => ?_
  rw [insert, Std.ExtTreeMap.getElem?_insert]
  split
  case isTrue => exact fun h => Std.ExtTreeMap.insert_ne_empty (Option.some.inj h)
  case isFalse => exact hb

/-! ### One row -/

def Holds (b : Bundles ε) (l : Links ε) : Prop := ∀ link, b.get? link = l.get? link

theorem Holds.insert (h : b.Holds l) (link : Link) (label : ε) :
    (b.insert link label).Holds (l.insert link label) := by
  intro link'
  rw [get?_insert, Links.get?_insert, h link']

theorem holds_ofList (additions : List (Link × ε)) : (ofList additions).Holds (Links.ofList additions) := by
  refine List.foldl_rel (fun _ => ?_) fun entry _ b l h => Holds.insert h entry.1 entry.2
  simp [empty, Links.empty, get?, between?, Links.get?]

theorem sources_unbundled (tasks : Ends) (bundle : Std.ExtTreeMap Ends ε) (sink : Endpoint) :
    ((unbundled tasks bundle).filter (·.1.sink == sink)).map (·.1.source) =
      if tasks.sink == sink.task then
        (bundle.keys.filter (·.sink == sink.port)).map fun ports => ⟨tasks.source, ports.source⟩
      else [] := by
  have hsink (ports : Ends) : ((Link.ofEnds tasks ports).sink == sink) =
      (tasks.sink == sink.task && ports.sink == sink.port) := by
    obtain ⟨task, port⟩ := sink
    rw [Bool.eq_iff_iff]
    simp [Link.ofEnds]
  rw [unbundled, ← Std.ExtTreeMap.map_fst_toList_eq_keys, List.filter_map, List.filter_map]
  simp only [Function.comp_def, hsink, List.map_map]
  cases tasks.sink == sink.task <;> simp [Link.ofEnds]

namespace Holds

variable (h : b.Holds l)
include h

theorem toList_eq : b.toList = l.toList := by
  apply eq_of_ordered_on Prod.fst b.ordered_toList l.ordered_toList
  intro entry
  rw [mem_toList, Links.mem_toList, h]

theorem size_eq : b.size = l.size := by
  rw [Links.size, ← Std.ExtTreeMap.length_toList, ← Links.toList, ← h.toList_eq, toList, List.length_flatMap]
  simp only [unbundled, List.length_map, Std.ExtTreeMap.length_toList, size]

theorem isEmpty_eq : b.isEmpty = l.isEmpty := by
  rw [Links.isEmpty, ← Std.ExtTreeMap.isEmpty_toList, ← Links.toList, ← h.toList_eq, Bool.eq_iff_iff]
  simp [toList, isEmpty, unbundled]

theorem sourcesOf_eq (sink : Endpoint) : b.sourcesOf sink = l.sourcesOf sink := by
  rw [Links.sourcesOf, ← h.toList_eq, toList, sourcesOf, List.filter_flatMap, List.map_flatMap]
  simp only [sources_unbundled]
  induction b.bundles.toList with
  | nil => rfl
  | cons e rest ih =>
    rw [List.filter_cons, List.flatMap_cons, ← ih]
    split <;> rfl

theorem feeds_eq (sink : Endpoint) : b.feeds sink = l.feeds sink := by
  rw [Bool.eq_iff_iff, Links.feeds_iff, ← h.sourcesOf_eq]
  simp only [feeds, sourcesOf, List.any_eq_true, List.mem_flatMap, List.mem_map, List.mem_filter]
  constructor
  · rintro ⟨e, he, ports, hports, hsink⟩
    exact ⟨_, e, he, ports, ⟨hports, hsink⟩, rfl⟩
  · rintro ⟨_, e, he, ports, ⟨hports, hsink⟩, -⟩
    exact ⟨e, he, ports, hports, hsink⟩

theorem between_eq (x y : String) : unbundled ⟨x, y⟩ ((b.between? x y).getD ∅) = l.between x y := by
  apply eq_of_ordered_on Prod.fst (ordered_unbundled _ _) (l.ordered_between x y)
  intro entry
  rw [mem_unbundled, Links.mem_between, ← h, get?_eq, Std.ExtTreeMap.getD_eq_getD_getElem?]
  constructor
  · rintro ⟨htasks, hlabel⟩
    obtain ⟨rfl, rfl⟩ := Ends.mk.inj htasks
    exact ⟨rfl, rfl, hlabel⟩
  · rintro ⟨rfl, rfl, hlabel⟩
    exact ⟨rfl, hlabel⟩

end Holds

structure Agrees (b : Bundles ε) (l : Links ε) : Prop where
  label : ∀ link, b.get? link = l.get? link
  size : b.size = l.size
  isEmpty : b.isEmpty = l.isEmpty
  between : ∀ x y, unbundled ⟨x, y⟩ ((b.between? x y).getD ∅) = l.between x y
  unlinked : ∀ x y, b.between? x y = none ↔ l.between x y = []
  sources : ∀ sink, b.sourcesOf sink = l.sourcesOf sink
  feeds : ∀ sink, b.feeds sink = l.feeds sink

theorem Holds.agrees (h : b.Holds l) (hbundles : ∀ tasks : Ends, b.bundles[tasks]? ≠ some ∅) :
    b.Agrees l where
  label := h
  size := h.size_eq
  isEmpty := h.isEmpty_eq
  between := h.between_eq
  unlinked x y := by
    rw [← h.between_eq, unbundled, List.map_eq_nil_iff, ← List.isEmpty_iff, Std.ExtTreeMap.isEmpty_toList,
      Std.ExtTreeMap.isEmpty_iff]
    cases hbundle : b.between? x y with
    | none => simp
    | some bundle =>
      have hne : bundle ≠ ∅ := fun he => hbundles ⟨x, y⟩ (he ▸ hbundle)
      simp [hne]
  sources := h.sourcesOf_eq
  feeds := h.feeds_eq

/-- Added one after the other, links answer for those that were added, whether they are kept in one row or
in bundles. -/
theorem ofList_answers (additions : List (Link × ε)) : (Links.ofList additions).Answers additions ∧
    (ofList additions).Agrees (Links.ofList additions) :=
  ⟨Links.answers_ofList additions, (holds_ofList additions).agrees (bundle_ne_empty additions)⟩

end Bundles

end FlowTiming
