import Veil.Library.Transition

/-! Runs along a clock, state by state, and events that keep coming back within a time. -/

structure TimedRun {State Action : Type} (step : State → Action → State → Prop) where
  length : Nat
  state : Nat → State
  action : Nat → Action
  moves : ∀ n < length, step (state n) (action n) (state (n + 1))

namespace TimedRun

section Run

variable {State Action : Type} {step : State → Action → State → Prop} (run : TimedRun step)

theorem keeps (holds : Nat → Prop) {start n : Nat} (first : holds start)
    (next : ∀ k, start ≤ k → k < n → holds k → holds (k + 1)) (order : start ≤ n) : holds n := by
  induction order with
  | refl => exact first
  | step order ih =>
      exact next _ order (Nat.lt_succ_self _)
        (ih fun k later earlier => next k later (Nat.lt_succ_of_lt earlier))

theorem reaches_from {initial : State → Prop} {allowed : State → Action → Prop} {n : Nat}
    (begins : Transition.Reaches initial step allowed (run.state 0)) (within : n ≤ run.length)
    (guarded : ∀ k < n, allowed (run.state k) (run.action k)) :
    Transition.Reaches initial step allowed (run.state n) :=
  keeps (fun k => Transition.Reaches initial step allowed (run.state k)) begins
    (fun k _ earlier before =>
      .next before (guarded k earlier) (run.moves k (Nat.lt_of_lt_of_le earlier within)))
    (Nat.zero_le n)

theorem reaches {initial : State → Prop} {allowed : State → Action → Prop} {n : Nat}
    (begins : initial (run.state 0)) (within : n ≤ run.length)
    (guarded : ∀ k < n, allowed (run.state k) (run.action k)) :
    Transition.Reaches initial step allowed (run.state n) :=
  run.reaches_from (.start begins) within guarded

theorem exists_last (holds : Nat → Prop) {n : Nat} (first : ¬holds 0) (now : holds n) :
    ∃ k < n, ¬holds k ∧ ∀ l, k < l → l ≤ n → holds l := by
  induction n with
  | zero => exact absurd now first
  | succ n ih =>
      by_cases before : holds n
      · obtain ⟨k, earlier, missing, since⟩ := ih before
        refine ⟨k, Nat.lt_succ_of_lt earlier, missing, fun l later bound => ?_⟩
        rcases Nat.lt_or_eq_of_le bound with inside | rfl
        · exact since l later (Nat.le_of_lt_succ inside)
        · exact now
      · refine ⟨n, Nat.lt_succ_self n, before, fun l later bound => ?_⟩
        obtain rfl : l = n + 1 := by omega
        exact now

end Run

def ofActions {State Action : Type} (perform : State → Action → Option State) (first : State)
    (idle : Action) (actions : List Action) (possible : (actions.foldlM perform first).isSome) :
    TimedRun fun before action after => perform before action = some after where
  length := actions.length
  state := fun n => ((actions.take n).foldlM perform first).getD first
  action := fun n => actions.getD n idle
  moves := by
    intro n inside
    have split : actions = actions.take (n + 1) ++ actions.drop (n + 1) :=
      (List.take_append_drop _ _).symm
    rw [split, List.foldlM_append, List.take_succ_eq_append_getElem inside,
      List.foldlM_append] at possible
    have named : actions.getD n idle = actions[n] := by
      rw [List.getD_eq_getElem?_getD, List.getElem?_eq_getElem inside, Option.getD_some]
    rw [List.take_succ_eq_append_getElem inside, List.foldlM_append, named]
    cases before : (actions.take n).foldlM perform first with
    | none =>
        rw [before] at possible
        cases possible
    | some state =>
        rw [before] at possible
        cases after : perform state actions[n] with
        | none =>
            simp [after] at possible
        | some next => simp [after]

section Clock

variable {time : Nat → Nat} {length gap : Nat} {event : Nat → Prop}

/-- From the step `start` on, whenever `gap` has gone by, the event has come, and within the gap. -/
def Recurs (time : Nat → Nat) (start length gap : Nat) (event : Nat → Prop) : Prop :=
  ∀ n m, start ≤ n → n ≤ m → m ≤ length → time n + gap ≤ time m →
    ∃ k, n ≤ k ∧ k < m ∧ time k ≤ time n + gap ∧ event k

theorem Recurs.later {start other : Nat} (recurs : Recurs time start length gap event)
    (order : start ≤ other) : Recurs time other length gap event :=
  fun n m after => recurs n m (Nat.le_trans order after)

theorem Recurs.recent {start n : Nat} (recurs : Recurs time start length gap event)
    (instant : ∀ k < length, event k → time (k + 1) = time k) (first : event start)
    (order : start < n) (within : n ≤ length) :
    ∃ k, start ≤ k ∧ k < n ∧ event k ∧ time n < time k + gap := by
  -- each event found leaves a shorter rest of the run to look at
  induction left : n - start using Nat.strongRecOn generalizing start with
  | ind rest ih =>
      by_cases young : time n < time start + gap
      · exact ⟨start, Nat.le_refl _, order, first, young⟩
      · have still := instant start (by omega) first
        obtain ⟨k, later, earlier, -, again⟩ :=
          recurs (start + 1) n (Nat.le_succ _) order within (by omega)
        have shorter : n - k < rest := by omega
        obtain ⟨l, after, before, came, recent⟩ :=
          ih (n - k) shorter (recurs.later (by omega)) again earlier rfl
        exact ⟨l, by omega, before, came, recent⟩

theorem exists_moment {bound : Nat} (begins : time 0 ≤ bound) (n : Nat) :
    ∃ k ≤ n, time k ≤ bound ∧ ∀ l, k < l → l ≤ n → bound < time l := by
  induction n with
  | zero => exact ⟨0, Nat.le_refl _, begins, fun l later before => by omega⟩
  | succ n ih =>
      by_cases early : time (n + 1) ≤ bound
      · exact ⟨n + 1, Nat.le_refl _, early, fun l later before => by omega⟩
      · obtain ⟨k, order, before, after⟩ := ih
        refine ⟨k, Nat.le_succ_of_le order, before, fun l later inside => ?_⟩
        rcases Nat.le_succ_iff.mp inside with earlier | rfl
        · exact after l later earlier
        · exact Nat.lt_of_not_le early

end Clock

end TimedRun
