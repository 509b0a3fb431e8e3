import Mathlib.Data.List.Perm.Basic
import Mathlib.Logic.Hydra

/-! Messages that wait to be handled, in any order. Handling one takes it out and puts in others
of lower rank, however many, and this comes to an end. -/

namespace Draining

variable {M : Type*} (rank : M → Nat)

/-- One message is taken out, and others of lower rank come in. -/
def Handles (after before : List M) : Prop :=
  ∃ i message sent, before[i]? = some message ∧ after = before.eraseIdx i ++ sent ∧
    ∀ other ∈ sent, rank other < rank message

variable {rank}

theorem Handles.cutExpand {after before : List M} (handles : Handles rank after before) :
    Relation.CutExpand (InvImage (· < ·) rank) (after : Multiset M) before := by
  obtain ⟨i, message, sent, found, rfl, falls⟩ := handles
  refine ⟨sent, message, falls, ?_⟩
  obtain ⟨inside, rfl⟩ := List.getElem?_eq_some_iff.mp found
  have taken := List.getElem_cons_eraseIdx_perm inside
  rw [← Multiset.coe_singleton, Multiset.coe_add, Multiset.coe_add, Multiset.coe_eq_coe]
  refine List.perm_append_comm.trans ?_
  rw [List.singleton_append, ← List.cons_append]
  exact taken.append_right sent

theorem wellFounded_handles : WellFounded (Handles rank) := by
  refine Subrelation.wf (fun handles => handles.cutExpand) ?_
  exact InvImage.wf (fun waiting : List M => (waiting : Multiset M))
    (InvImage.wf rank Nat.lt_wfRel.wf).cutExpand

theorem exists_forall_not_handles {waiting : Nat → List M}
    (steps : ∀ n, waiting (n + 1) = waiting n ∨ Handles rank (waiting (n + 1)) (waiting n)) :
    ∃ m, ∀ n, m ≤ n → ¬Handles rank (waiting (n + 1)) (waiting n) := by
  obtain ⟨least, ⟨m, rfl⟩, minimal⟩ := wellFounded_handles.has_min (Set.range waiting) ⟨_, 0, rfl⟩
  have still (n : Nat) (later : m ≤ n) : waiting n = waiting m := by
    induction later with
    | refl => rfl
    | @step n later ih =>
        rcases steps n with same | handles
        · exact same.trans ih
        · rw [ih] at handles
          exact absurd handles (minimal _ ⟨n + 1, rfl⟩)
  refine ⟨m, fun n later handles => minimal _ ⟨n + 1, rfl⟩ ?_⟩
  rwa [← still n later]

end Draining
