import FlowTiming.Network.Endpoint
import Mathlib.Data.List.TakeWhile

/-!
Which ports texts name. A text names at most one, and a port whose name has no dot has its own text.
-/

namespace FlowTiming

namespace Endpoint

variable {e e' : Endpoint} {text : String}

theorem reverse_text (e : Endpoint) :
    e.text.toList.reverse = e.port.toList.reverse ++ '.' :: e.task.toList.reverse := by
  simp [Endpoint.text]

theorem cut?_eq_some : cut? text = some e ↔ e.text = text ∧ '.' ∉ e.port.toList := by
  unfold cut?
  simp only
  constructor
  · intro h
    split at h
    case h_1 => simp at h
    case h_2 c task hdrop =>
      obtain rfl := Option.some.inj h
      have hc : c = '.' := by
        have hhead := List.head?_dropWhile_not (· != '.') text.toList.reverse
        simpa [hdrop] using hhead
      have hport : '.' ∉ text.toList.reverse.takeWhile (· != '.') := by
        intro hmem
        simpa using List.mem_takeWhile_imp hmem
      have hsplit := List.takeWhile_append_dropWhile (p := (· != '.')) (l := text.toList.reverse)
      rw [hdrop, hc] at hsplit
      refine ⟨String.toList_inj.mp (List.reverse_inj.mp ?_), by simpa using hport⟩
      rw [reverse_text]
      simpa using hsplit
  · rintro ⟨rfl, hport⟩
    have hport : ∀ c ∈ e.port.toList.reverse, (c != '.') = true := by
      intro c hc
      rw [List.mem_reverse] at hc
      simpa using fun he : c = '.' => hport (he ▸ hc)
    rw [reverse_text, List.dropWhile_append_of_pos hport, List.takeWhile_append_of_pos hport]
    simp

theorem exists_cut (h : '.' ∈ text.toList) : ∃ e : Endpoint, e.text = text ∧ '.' ∉ e.port.toList := by
  cases hcut : cut? text with
  | some e => exact ⟨e, cut?_eq_some.mp hcut⟩
  | none =>
    unfold cut? at hcut
    simp only at hcut
    split at hcut
    case h_1 hdrop =>
      have hall := List.dropWhile_eq_nil_iff.mp hdrop '.' (List.mem_reverse.mpr h)
      simp at hall
    case h_2 => contradiction

theorem read?_eq_some : read? text = some e ↔
    e.text = text ∧ '.' ∉ e.port.toList ∧ e.task ≠ "" ∧ e.port ≠ "" := by
  rw [read?, Option.filter_eq_some_iff, cut?_eq_some]
  simp [and_assoc]

theorem text_inj (hport : '.' ∉ e.port.toList) (hport' : '.' ∉ e'.port.toList) :
    e.text = e'.text ↔ e = e' := by
  constructor
  · intro h
    have hcut := cut?_eq_some.mpr ⟨h, hport⟩
    exact Option.some.inj (hcut.symm.trans (cut?_eq_some.mpr ⟨rfl, hport'⟩))
  · rintro rfl
    rfl

end Endpoint

/-- A node with the text of a port is the port itself, or the task that is named like the text. -/
theorem Node.text_eq_iff {x : Node String String} {e : Endpoint} (hport : '.' ∉ e.port.toList)
    (hx : ∀ p, x.port = some p → '.' ∉ p.toList) : x.text = e.text ↔ x = e.node ∨ x = taskNode e.text := by
  obtain ⟨task, port⟩ := x
  cases port with
  | none => simp [Node.text, Endpoint.node, taskNode]
  | some p =>
    obtain ⟨task', port'⟩ := e
    have h := Endpoint.text_inj (e := ⟨task, p⟩) (hx p rfl) hport
    simp [Node.text, h, Endpoint.node, taskNode]

end FlowTiming
