import FlowTiming.Proofs.Propagation.Board

/-!
Which updates a journal tells were refused, because their node was final already.
-/

namespace FlowTiming

def Entry.IsRefusal (e : Entry) : Prop :=
  e.speaker = .board ∧
    (e.message = "ignoring set on final node" ∨ e.message = "ignoring new information on final node")

instance (e : Entry) : Decidable e.IsRefusal := inferInstanceAs (Decidable (_ ∧ _))

theorem Entry.not_isRefusal {e : Entry} (h : e.speaker ≠ .board) : ¬ e.IsRefusal := fun he => h he.1

namespace Board

variable {τ π ι : Type} [Ord τ] [Ord π]

def refusals (b : Board τ π ι) : List Entry := b.journal.toList.filter fun e => e.IsRefusal

def Silent (b b' : Board τ π ι) : Prop := b'.refusals = b.refusals

theorem Silent.refl (b : Board τ π ι) : Silent b b := rfl

theorem Silent.trans {b b' b'' : Board τ π ι} (h : Silent b b') (h' : Silent b' b'') : Silent b b'' :=
  Eq.trans h' h

theorem refusals_note (b : Board τ π ι) (e : Entry) :
    (b.note e).refusals = if e.IsRefusal then b.refusals ++ [e] else b.refusals := by
  simp only [refusals, note, Array.toList_push, List.filter_append]
  by_cases he : e.IsRefusal
  · simp [he]
  · simp [he]

theorem silent_note_iff {b : Board τ π ι} {e : Entry} : Silent b (b.note e) ↔ ¬ e.IsRefusal := by
  rw [Silent, refusals_note]
  by_cases he : e.IsRefusal
  · simp [he]
  · simp [he]

theorem silent_noteAll {b : Board τ π ι} {entries : List Entry} (h : ∀ e ∈ entries, ¬ e.IsRefusal) :
    Silent b (b.noteAll entries) := by
  refine List.foldlRecOn (motive := Silent b) entries note (.refl b) fun c hc e he => ?_
  exact hc.trans (silent_note_iff.mpr (h e he))

variable [Std.TransOrd τ] [Std.TransOrd π] [Shown τ] [Shown π]

theorem silent_finalize (b : Board τ π ι) (n : Node τ π) : Silent b (b.finalize n) := by
  unfold finalize
  split
  case isTrue => exact .refl b
  case isFalse =>
    have hnote := silent_note_iff (b := { b with finals := b.finals.insert n })
      (e := { level := .debug, speaker := .board, message := "node is final", fields := n.fields })
    exact hnote.mpr (by simp [Entry.IsRefusal])

variable [Information ι]

theorem silent_extend_iff {b : Board τ π ι} {n : Node τ π} {i : ι}
    (hnotes : ∀ known : ι, ∀ e ∈ Information.mergeNotes known i, ¬ e.IsRefusal) :
    Silent b (b.extend n i) ↔ b.isFinal n = false := by
  unfold extend
  split
  case isTrue h => simp [silent_note_iff, Entry.IsRefusal, h]
  case isFalse h =>
    simp only [h, iff_true]
    split
    case h_1 known _ =>
      exact silent_noteAll (b := { b with info := b.info.insert n (Information.merge known i) }) (hnotes known)
    case h_2 => rfl

end Board

end FlowTiming
