import FlowTiming.Proofs.NetworkFile.Validation

/-!
How ports are read from a network file: a text names one port at most, and one that names none is refused.
-/

namespace FlowTiming

namespace Endpoint

variable {e e' : Endpoint} {text : String}

theorem NamedBy.unique (h : e.NamedBy text) (h' : e'.NamedBy text) : e = e' :=
  (text_inj h.2.1 h'.2.1).mp (h.1.trans h'.1.symm)

theorem not_namedBy_iff : (∀ e : Endpoint, ¬ e.NamedBy text) ↔ '.' ∉ text.toList ∨
    (∃ task, text = task ++ ".") ∨ ∃ port, text = "." ++ port ∧ '.' ∉ port.toList := by
  constructor
  · intro h
    by_cases hdot : '.' ∈ text.toList
    case neg => exact .inl hdot
    -- cut at its last dot, the text lacks one of the two names
    obtain ⟨⟨task, port⟩, rfl, hport⟩ := exists_cut hdot
    by_cases hnoPort : port = ""
    · subst hnoPort
      exact .inr (.inl ⟨task, by simp [Endpoint.text]⟩)
    by_cases hnoTask : task = ""
    · subst hnoTask
      exact .inr (.inr ⟨port, by simp [Endpoint.text], hport⟩)
    · exact absurd ⟨rfl, hport, hnoTask, hnoPort⟩ (h ⟨task, port⟩)
  · rintro hshape e ⟨rfl, hport, htask, hnonempty⟩
    rcases hshape with hdot | ⟨task, he⟩ | ⟨port, he, hport'⟩
    · exact hdot (by simp [Endpoint.text])
    · have hsame : e = ⟨task, ""⟩ := (text_inj hport (by simp)).mp (by simpa [Endpoint.text] using he)
      exact hnonempty (congrArg Endpoint.port hsame)
    · have hsame : e = ⟨"", port⟩ := (text_inj hport hport').mp (by simpa [Endpoint.text] using he)
      exact htask (congrArg Endpoint.task hsame)

end Endpoint

theorem endpointOf_eq_error {text : String} {failure : Failure} : endpointOf text = .error failure ↔
    failure = .badFile (.badEndpoint text) ∧ ∀ e : Endpoint, ¬ e.NamedBy text := by
  simp only [← endpointOf_eq_ok]
  unfold endpointOf
  cases Endpoint.read? text with
  | none => simp [eq_comm]
  | some e => simp

theorem endpointOf_text (e : Endpoint) :
    endpointOf e.text = .ok e ↔ e.task ≠ "" ∧ e.port ≠ "" ∧ '.' ∉ e.port.toList := by
  rw [endpointOf_eq_ok, Endpoint.NamedBy, eq_self_iff_true, true_and, and_comm, and_assoc]

/-- A text is read as the one port that it names, and refused if it names none: without a dot, with nothing
after its last dot, or with nothing before its only one. Ports are read back from their own texts. -/
theorem endpointOf_reads (text : String) : (∀ e, endpointOf text = .ok e ↔ e.NamedBy text) ∧
    (∀ failure, endpointOf text = .error failure ↔
      failure = .badFile (.badEndpoint text) ∧ ∀ e : Endpoint, ¬ e.NamedBy text) ∧
    ((∀ e : Endpoint, ¬ e.NamedBy text) ↔ '.' ∉ text.toList ∨ (∃ task, text = task ++ ".") ∨
      ∃ port, text = "." ++ port ∧ '.' ∉ port.toList) ∧
    (∀ e e' : Endpoint, e.NamedBy text ∧ e'.NamedBy text → e = e') ∧
    ∀ e : Endpoint, endpointOf e.text = .ok e ↔ e.task ≠ "" ∧ e.port ≠ "" ∧ '.' ∉ e.port.toList :=
  ⟨fun _ => endpointOf_eq_ok, fun _ => endpointOf_eq_error, Endpoint.not_namedBy_iff,
    fun _ _ h => h.1.unique h.2, endpointOf_text⟩

end FlowTiming
