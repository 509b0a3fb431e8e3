/-! Runs of a transition system. A guard on the steps singles out the runs whose every step is
allowed in the state it starts from; the unguarded system is the one that allows every step. -/

namespace Transition

variable {State Action : Type}

inductive Reaches (initial : State → Prop) (step : State → Action → State → Prop)
    (allowed : State → Action → Prop) : State → Prop
  | start {state} : initial state → Reaches initial step allowed state
  | next {state action after} : Reaches initial step allowed state → allowed state action →
      step state action after → Reaches initial step allowed after

abbrev Reachable (initial : State → Prop) (step : State → Action → State → Prop) : State → Prop :=
  Reaches initial step fun _ _ => True

variable {initial : State → Prop} {step : State → Action → State → Prop}
  {allowed : State → Action → Prop}

theorem Reaches.invariant (holds : State → Prop) (first : ∀ state, initial state → holds state)
    (preserved : ∀ state action after, holds state → allowed state action →
      step state action after → holds after)
    {state : State} (run : Reaches initial step allowed state) : holds state := by
  induction run with
  | start begins => exact first _ begins
  | next _ guarded moves ih => exact preserved _ _ _ ih guarded moves

theorem Reaches.foldl (apply : State → Action → State) (actions : List Action) {state : State}
    (run : Reachable initial (fun before action after => after = apply before action) state) :
    Reachable initial (fun before action after => after = apply before action)
      (actions.foldl apply state) := by
  induction actions generalizing state with
  | nil => exact run
  | cons action rest ih => exact ih (.next run trivial rfl)

theorem Reaches.foldlM (perform : State → Action → Option State) (actions : List Action)
    (moves : ∀ action ∈ actions, ∀ before after, perform before action = some after →
      allowed before action ∧ step before action after)
    {state final : State} (run : Reaches initial step allowed state)
    (result : actions.foldlM perform state = some final) : Reaches initial step allowed final := by
  induction actions generalizing state with
  | nil =>
      cases result
      exact run
  | cons action rest ih =>
      rw [List.foldlM_cons] at result
      obtain ⟨after, performed, remaining⟩ := Option.bind_eq_some_iff.mp result
      have later := fun other member => moves other (List.mem_cons_of_mem action member)
      obtain ⟨may, does⟩ := moves action List.mem_cons_self state after performed
      exact ih later (.next run may does) remaining

end Transition
