import Mathlib.Logic.Function.Iterate

/-! While loops over a state, as iterates of their body. -/

namespace WhileLoop

variable {σ : Type*} {guard : σ → Prop} {body : σ → σ}

/-- The loop ends after so many rounds: the guard holds before each of them and not after the
last. -/
structure EndsAfter (guard : σ → Prop) (body : σ → σ) (start : σ) (rounds : Nat) : Prop where
  continues : ∀ i < rounds, guard (body^[i] start)
  ends : ¬guard (body^[rounds] start)

namespace EndsAfter

variable {start : σ} {rounds : Nat}

theorem zero (done : ¬guard start) : EndsAfter guard body start 0 :=
  ⟨fun i before => absurd before (Nat.not_lt_zero i), done⟩

theorem succ (goes : guard start) (rest : EndsAfter guard body (body start) rounds) :
    EndsAfter guard body start (rounds + 1) := by
  refine ⟨fun i before => ?_, rest.ends⟩
  cases i with
  | zero => exact goes
  | succ i => exact rest.continues i (Nat.lt_of_succ_lt_succ before)

theorem of_succ (loop : EndsAfter guard body start (rounds + 1)) :
    guard start ∧ EndsAfter guard body (body start) rounds :=
  ⟨loop.continues 0 (Nat.succ_pos rounds),
      fun i before => loop.continues (i + 1) (Nat.succ_lt_succ before),
    loop.ends⟩

theorem invariant {Holds : σ → Prop} (loop : EndsAfter guard body start rounds)
    (starts : Holds start) (keeps : ∀ state, Holds state → guard state → Holds (body state)) :
    ∀ i ≤ rounds, Holds (body^[i] start) := by
  intro i within
  induction i with
  | zero => exact starts
  | succ i ih =>
      rw [Function.iterate_succ_apply']
      exact keeps _ (ih (Nat.le_of_succ_le within)) (loop.continues i within)

end EndsAfter

/-- A loop ends when a measure falls in every round and the guard fails below a bound. -/
theorem exists_endsAfter {Holds : σ → Prop} (measure : σ → Nat) (bound : Nat)
    (keeps : ∀ state, Holds state → guard state → Holds (body state))
    (falls : ∀ state, Holds state → guard state → measure (body state) < measure state)
    (above : ∀ state, Holds state → guard state → bound < measure state) {start : σ}
    (starts : Holds start) :
    ∃ rounds ≤ measure start - bound, EndsAfter guard body start rounds := by
  induction sized : measure start using Nat.strongRecOn generalizing start with
  | ind size ih =>
      by_cases goes : guard start
      · have less := falls start starts goes
        have far := above start starts goes
        obtain ⟨rounds, few, loop⟩ := ih _ (sized ▸ less) (keeps start starts goes) rfl
        exact ⟨rounds + 1, by omega, loop.succ goes⟩
      · exact ⟨0, Nat.zero_le _, .zero goes⟩

end WhileLoop
