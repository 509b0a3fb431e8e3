import Mathlib.Data.List.Basic

/-! Calls that change a state, may stop with an exception and run on fuel. What they log stays, so
that a call with less fuel shows the first part of what it does with more. -/

namespace FuelledCall

inductive Ended (ε α : Type*)
  | returned (result : α)
  | stopped (why : ε)
  | unfinished
deriving DecidableEq

abbrev Call (σ ε α : Type*) := σ → Ended ε α × σ

variable {σ ε α β event : Type*}

def give (result : α) : Call σ ε α := fun state => (.returned result, state)

def andThen (first : Call σ ε α) (next : α → Call σ ε β) : Call σ ε β := fun state =>
  match first state with
  | (.returned result, after) => next result after
  | (.stopped why, after) => (.stopped why, after)
  | (.unfinished, after) => (.unfinished, after)

theorem andThen_returned {first : Call σ ε α} {next : α → Call σ ε β} {state middle : σ}
    {result : α} (returns : first state = (.returned result, middle)) :
    andThen first next state = next result middle := by
  rw [andThen, returns]

theorem returned_of_andThen {first : Call σ ε α} {next : α → Call σ ε β} {state after : σ}
    {result : β} (returns : andThen first next state = (.returned result, after)) :
    ∃ earlier middle, first state = (.returned earlier, middle) ∧
      next earlier middle = (.returned result, after) := by
  rw [andThen] at returns
  split at returns
  · exact ⟨_, _, ‹_›, returns⟩
  · cases returns
  · cases returns

def Keeps (holds : σ → Prop) (call : Call σ ε α) : Prop :=
  ∀ state result after, holds state → call state = (.returned result, after) → holds after

section Keeps

variable {holds : σ → Prop}

theorem Keeps.give (result : α) : Keeps holds (give result : Call σ ε α) := by
  intro state other after before returns
  cases returns
  exact before

theorem Keeps.andThen {first : Call σ ε α} {next : α → Call σ ε β} (keeps : Keeps holds first)
    (later : ∀ result, Keeps holds (next result)) : Keeps holds (andThen first next) := by
  intro state result after before returns
  obtain ⟨earlier, middle, start, rest⟩ := returned_of_andThen returns
  exact later earlier middle result after (keeps state earlier middle before start) rest

end Keeps

def Preserves (holds : σ → Prop) (call : Call σ ε α) : Prop :=
  ∀ state, holds state → holds (call state).2

section Preserves

variable {holds : σ → Prop}

theorem Preserves.give (result : α) : Preserves holds (give result : Call σ ε α) :=
  fun _ before => before

theorem Preserves.andThen {first : Call σ ε α} {next : α → Call σ ε β}
    (preserves : Preserves holds first) (later : ∀ result, Preserves holds (next result)) :
    Preserves holds (andThen first next) := by
  intro state before
  have middle := preserves state before
  rw [FuelledCall.andThen]
  split
  · rename_i result after returns
    rw [returns] at middle
    exact later result after middle
  · rename_i why after stops
    rwa [stops] at middle
  · rename_i after stops
    rwa [stops] at middle

end Preserves

section Log

variable (log : σ → List event)

def Grows (call : Call σ ε α) : Prop := ∀ state, log state <:+ log (call state).2

def Refines (less more : Call σ ε α) : Prop :=
  ∀ state, less state = more state ∨
    (less state).1 = .unfinished ∧ log (less state).2 <:+ log (more state).2

variable {log}

theorem grows_iff_preserves {call : Call σ ε α} :
    Grows log call ↔ ∀ early, Preserves (fun state => early <:+ log state) call :=
  ⟨fun grows _ state before => before.trans (grows state),
    fun preserves state => preserves (log state) state (List.suffix_refl _)⟩

theorem Grows.give (result : α) : Grows log (give result : Call σ ε α) :=
  fun _ => List.suffix_refl _

theorem log_andThen {first : Call σ ε α} {next : α → Call σ ε β}
    (grows : ∀ result, Grows log (next result)) (state : σ) :
    log (first state).2 <:+ log (andThen first next state).2 := by
  rw [andThen]
  split
  · rename_i result after returns
    rw [returns]
    exact grows result after
  · rename_i why after stops
    exact stops ▸ List.suffix_refl _
  · rename_i after stops
    exact stops ▸ List.suffix_refl _

theorem Grows.andThen {first : Call σ ε α} {next : α → Call σ ε β} (grows : Grows log first)
    (later : ∀ result, Grows log (next result)) : Grows log (andThen first next) := fun state =>
  (grows state).trans (log_andThen later state)

theorem Refines.refl (call : Call σ ε α) : Refines log call call := fun _ => Or.inl rfl

theorem Refines.trans {less more most : Call σ ε α} (first : Refines log less more)
    (second : Refines log more most) : Refines log less most := by
  intro state
  rcases first state with same | ⟨open_end, shorter⟩
  · rw [same]
    exact second state
  · refine Or.inr ⟨open_end, shorter.trans ?_⟩
    rcases second state with same | ⟨-, longer⟩
    · exact same ▸ List.suffix_refl _
    · exact longer

theorem Refines.andThen {less more : Call σ ε α} {next later : α → Call σ ε β}
    (first : Refines log less more) (second : ∀ result, Refines log (next result) (later result))
    (grows : ∀ result, Grows log (later result)) :
    Refines log (andThen less next) (andThen more later) := by
  intro state
  rcases first state with same | ⟨open_end, shorter⟩
  · cases ended : more state with
    | mk outcome middle =>
        cases outcome with
        | returned result =>
            rw [andThen_returned (same.trans ended), andThen_returned ended]
            exact second result middle
        | stopped why =>
            exact Or.inl (by rw [FuelledCall.andThen, FuelledCall.andThen, same, ended])
        | unfinished => exact Or.inl (by rw [FuelledCall.andThen, FuelledCall.andThen, same, ended])
  · have ended : less state = (.unfinished, (less state).2) := Prod.ext open_end rfl
    have stays : FuelledCall.andThen less next state = (.unfinished, (less state).2) := by
      rw [FuelledCall.andThen, ended]
    rw [stays]
    exact Or.inr ⟨rfl, shorter.trans (log_andThen grows state)⟩

theorem Refines.of_le {run : Nat → Call σ ε α}
    (step : ∀ fuel, Refines log (run fuel) (run (fuel + 1))) {fuel more : Nat}
    (enough : fuel ≤ more) : Refines log (run fuel) (run more) := by
  induction enough with
  | refl => exact .refl _
  | step _ ih => exact ih.trans (step _)

theorem Refines.returned {less more : Call σ ε α} (refines : Refines log less more)
    {state after : σ} {result : α} (returns : less state = (.returned result, after)) :
    more state = (.returned result, after) := by
  rcases refines state with same | ⟨open_end, -⟩
  · rw [← same, returns]
  · rw [returns] at open_end
    cases open_end

theorem Refines.suffix {less more : Call σ ε α} (refines : Refines log less more) (state : σ) :
    log (less state).2 <:+ log (more state).2 := by
  rcases refines state with same | ⟨-, shorter⟩
  · exact same ▸ List.suffix_refl _
  · exact shorter

theorem Keeps.mem {holds : σ → Prop} {call : Call σ ε α} (keeps : Keeps holds call)
    (grows : Grows log call) (occurred : event) :
    Keeps (fun state => holds state ∧ occurred ∈ log state) call := by
  intro state result after before returns
  have later := grows state
  rw [returns] at later
  exact ⟨keeps state result after before.1 returns, later.subset before.2⟩

section Ensures

variable (log) (good : List event → Prop)

def Ensures (call : Call σ ε α) (state : σ) (post : α → σ → Prop) : Prop :=
  good (log (call state).2) → ∃ result after, call state = (.returned result, after) ∧
    post result after

variable {log good}

theorem Ensures.of_returned {call : Call σ ε α} {state after : σ} {result : α} {post : α → σ → Prop}
    (returns : call state = (.returned result, after)) (holds : post result after) :
    Ensures log good call state post := fun _ => ⟨result, after, returns, holds⟩

theorem Ensures.mono {call : Call σ ε α} {state : σ} {post weaker : α → σ → Prop}
    (ensures : Ensures log good call state post)
    (weaken : ∀ result after, post result after → weaker result after) :
    Ensures log good call state weaker := fun stays => by
  obtain ⟨result, after, returns, holds⟩ := ensures stays
  exact ⟨result, after, returns, weaken result after holds⟩

theorem Ensures.andThen {first : Call σ ε α} {next : α → Call σ ε β} {state : σ}
    {middle : α → σ → Prop} {post : β → σ → Prop}
    (closed : ∀ {early late : List event}, early <:+ late → good late → good early)
    (grows : ∀ result, Grows log (next result)) (starts : Ensures log good first state middle)
    (continues : ∀ result after, middle result after → Ensures log good (next result) after post) :
    Ensures log good (FuelledCall.andThen first next) state post := by
  intro stays
  obtain ⟨result, between, returns, holds⟩ := starts (closed (log_andThen grows state) stays)
  rw [andThen_returned returns] at stays ⊢
  exact continues result between holds stays

end Ensures

end Log

end FuelledCall
