import Mathlib.Data.List.Nodup

/-! Messages that are handled in any order, where handling one sends others that depend on it
alone. What is handled in the end is the same for all orders. -/

namespace Cascade

variable {M : Type*}

/-- From the messages `start` on: those that are handled, and those that wait. -/
inductive Run (emits : M → List M) (start : List M) : List M → List M → Prop
  | start : Run emits start [] start
  | handle {handled before after : List M} {message : M} :
      Run emits start handled (before ++ message :: after) →
      Run emits start (handled ++ [message]) (before ++ after ++ emits message)

def expand (emits : M → List M) : Nat → M → List M
  | 0, message => [message]
  | fuel + 1, message => message :: (emits message).flatMap (expand emits fuel)

def cascade (emits : M → List M) (rank : M → Nat) (message : M) : List M :=
  expand emits (rank message) message

section Falls

variable {emits : M → List M} {rank : M → Nat}
  (falls : ∀ message, ∀ sent ∈ emits message, rank sent < rank message)
include falls

theorem expand_succ {fuel : Nat} {message : M} (enough : rank message ≤ fuel) :
    expand emits (fuel + 1) message = expand emits fuel message := by
  induction fuel generalizing message with
  | zero =>
      have silent : emits message = [] := by
        refine List.eq_nil_iff_forall_not_mem.mpr fun sent member => ?_
        exact Nat.not_lt_zero _ (Nat.lt_of_lt_of_le (falls message sent member) enough)
      simp only [expand, silent, List.flatMap_nil]
  | succ fuel ih =>
      rw [expand, expand]
      refine congrArg _ (List.flatMap_congr fun sent member => ?_)
      exact ih (Nat.le_of_lt_succ (Nat.lt_of_lt_of_le (falls message sent member) enough))

theorem expand_eq {fuel : Nat} {message : M} (enough : rank message ≤ fuel) :
    expand emits fuel message = cascade emits rank message := by
  induction enough with
  | refl => rfl
  | step enough ih => rw [expand_succ falls enough, ih]

theorem cascade_eq (message : M) :
    cascade emits rank message = message :: (emits message).flatMap (cascade emits rank) := by
  rw [cascade, ← expand_succ falls (Nat.le_refl _), expand]
  refine congrArg _ (List.flatMap_congr fun sent member => ?_)
  exact expand_eq falls (Nat.le_of_lt (falls message sent member))

theorem cascade_induction {Holds : M → Prop}
    (each : ∀ message, (∀ sent ∈ emits message, Holds sent) → Holds message) (message : M) :
    Holds message := by
  induction ranked : rank message using Nat.strongRecOn generalizing message with
  | ind size ih =>
      refine each message fun sent member => ih (rank sent) ?_ sent rfl
      exact ranked ▸ falls message sent member

theorem forall_mem_cascade {Holds : M → Prop}
    (keeps : ∀ message, Holds message → ∀ sent ∈ emits message, Holds sent) {message : M}
    (holds : Holds message) : ∀ follower ∈ cascade emits rank message, Holds follower := by
  induction message using cascade_induction falls with
  | each message ih =>
      rw [cascade_eq falls]
      refine List.forall_mem_cons.mpr ⟨holds, fun follower member => ?_⟩
      obtain ⟨sent, sentMember, follows⟩ := List.mem_flatMap.mp member
      exact ih sent sentMember (keeps message holds sent sentMember) follower follows

theorem mem_cascade_self (message : M) : message ∈ cascade emits rank message := by
  rw [cascade_eq falls]
  exact List.mem_cons_self

theorem mem_cascade_of_emits {message follower sent : M}
    (follows : follower ∈ cascade emits rank message) (member : sent ∈ emits follower) :
    sent ∈ cascade emits rank message := by
  induction message using cascade_induction falls with
  | each message ih =>
      rw [cascade_eq falls] at follows ⊢
      rcases List.mem_cons.mp follows with rfl | later
      · exact List.mem_cons_of_mem _
          (List.mem_flatMap.mpr ⟨sent, member, mem_cascade_self falls sent⟩)
      · obtain ⟨first, firstMember, inside⟩ := List.mem_flatMap.mp later
        exact List.mem_cons_of_mem _
          (List.mem_flatMap.mpr ⟨first, firstMember, ih first firstMember inside⟩)

variable {start handled waiting : List M}

/-- What is handled, and what follows from the messages that wait, is always the same. -/
theorem Run.perm (run : Run emits start handled waiting) :
    (handled ++ waiting.flatMap (cascade emits rank)).Perm
      (start.flatMap (cascade emits rank)) := by
  induction run with
  | start => exact List.Perm.refl _
  | @handle handled before after message run ih =>
      refine List.Perm.trans ?_ ih
      rw [List.append_assoc, List.append_assoc]
      refine List.Perm.append_left handled ?_
      simp only [List.flatMap_append, List.flatMap_cons, cascade_eq falls message,
        List.singleton_append]
      refine List.Perm.trans ?_ List.perm_middle.symm
      refine List.Perm.cons message ?_
      exact List.Perm.append_left _ List.perm_append_comm

theorem Run.length_le (run : Run emits start handled waiting) :
    handled.length ≤ (start.flatMap (cascade emits rank)).length := by
  have length := (run.perm falls).length_eq
  rw [List.length_append] at length
  omega

theorem Run.mem_of_quiet (run : Run emits start handled []) (message : M) :
    message ∈ handled ↔ ∃ first ∈ start, message ∈ cascade emits rank first := by
  have all := run.perm falls
  rw [List.flatMap_nil, List.append_nil] at all
  rw [all.mem_iff, List.mem_flatMap]

theorem Run.nodup_image {α : Type*} (run : Run emits start handled waiting) (kept : M → Bool)
    (name : M → α) (unique : (((start.flatMap (cascade emits rank)).filter kept).map name).Nodup) :
    ((handled.filter kept).map name).Nodup := by
  have all := (((run.perm falls).filter kept).map name).nodup_iff.mpr unique
  rw [List.filter_append, List.map_append] at all
  exact (List.nodup_append.mp all).1

end Falls

end Cascade
