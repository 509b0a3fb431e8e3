import Mathlib.Logic.Function.Basic
import Veil.Library.HashTable
import Veil.Library.Transition

/-! Tables that forget. Every entry holds a timer with the entry's key for data; an update gives
the entry a new term, and a timer that is due erases the key it names. Timers have names that are
never used twice. An update may replace the entry's timer by a new one or reschedule the one it
has. -/

namespace Lease

structure Timer (κ : Type) where
  data : κ
  due : Nat
deriving DecidableEq

structure Table (κ ν : Type) where
  now : Nat
  entries : HashTable κ (ν × Nat)
  timers : HashTable Nat (Timer κ)
  nextTimer : Nat

inductive Action (κ ν : Type) where
  | pass (msec : Nat)
  | update (key : κ) (value : ν)
  | fire (timer : Nat)

variable {κ ν : Type} [DecidableEq κ]

namespace Table

open HashTable

def empty : Table κ ν := ⟨0, ∅, ∅, 0⟩

def plain (table : Table κ ν) : HashTable κ ν := mapValues Prod.fst table.entries

def lookup (table : Table κ ν) (key : κ) : Option ν := (table.entries.lookup key).map Prod.fst

/-- A timer of its own for every update; that of an older entry is unscheduled and deleted. -/
def replace (term : Nat) (table : Table κ ν) (key : κ) (value : ν) : Table κ ν :=
  { table with
    entries := table.entries.insert key (value, table.nextTimer)
    timers := (match table.entries.lookup key with
      | some old => table.timers.erase old.2
      | none => table.timers).insert table.nextTimer ⟨key, table.now + term⟩
    nextTimer := table.nextTimer + 1 }

/-- An entry that exists keeps its timer, with the data it has, and the timer is rescheduled. -/
def renew (term : Nat) (table : Table κ ν) (key : κ) (value : ν) : Table κ ν :=
  match table.entries.lookup key with
  | some old =>
      { table with
        entries := table.entries.insert key (value, old.2)
        timers := match table.timers.lookup old.2 with
          | some timer => table.timers.insert old.2 { timer with due := table.now + term }
          | none => table.timers }
  | none =>
      { table with
        entries := table.entries.insert key (value, table.nextTimer)
        timers := table.timers.insert table.nextTimer ⟨key, table.now + term⟩
        nextTimer := table.nextTimer + 1 }

def fire (table : Table κ ν) (timer : Nat) : Option (Table κ ν) :=
  match table.timers.lookup timer with
  | none => none
  | some pending =>
      if pending.due ≤ table.now then
        some { table with
          entries := table.entries.erase pending.data
          timers := table.timers.erase timer }
      else none

/-- The step of a table whose updates are `update`. A timer fires at some time after it is due. -/
def perform (update : Table κ ν → κ → ν → Table κ ν) (table : Table κ ν) :
    Action κ ν → Option (Table κ ν)
  | .pass msec => some { table with now := table.now + msec }
  | .update key value => some (update table key value)
  | .fire timer => table.fire timer

/-- Entries and pending timers belong together one by one. -/
structure Paired (table : Table κ ν) : Prop where
  timed : ∀ key value name, table.entries.lookup key = some (value, name) →
    ∃ due, table.timers.lookup name = some ⟨key, due⟩
  owned : ∀ name timer, table.timers.lookup name = some timer →
    ∃ value, table.entries.lookup timer.data = some (value, name)
  named : ∀ name timer, table.timers.lookup name = some timer → name < table.nextTimer

def due (table : Table κ ν) (key : κ) : Option Nat :=
  (table.entries.lookup key).bind fun entry => (table.timers.lookup entry.2).map Timer.due

theorem lookup_plain (table : Table κ ν) (key : κ) : table.plain.lookup key = table.lookup key :=
  lookup_mapValues Prod.fst table.entries key

theorem empty_paired : Paired (empty : Table κ ν) where
  timed := by
    intro key value name found
    cases found
  owned := by
    intro name timer found
    cases found
  named := by
    intro name timer found
    cases found

theorem Paired.data_eq {table : Table κ ν} (paired : table.Paired) {key : κ} {value : ν}
    {name : Nat} {timer : Timer κ} (found : table.entries.lookup key = some (value, name))
    (pending : table.timers.lookup name = some timer) : timer.data = key := by
  obtain ⟨due, own⟩ := paired.timed key value name found
  rw [pending, Option.some.injEq] at own
  rw [own]

theorem Paired.name_inj {table : Table κ ν} (paired : table.Paired) {key other : κ}
    {value stored : ν} {name : Nat} (found : table.entries.lookup key = some (value, name))
    (again : table.entries.lookup other = some (stored, name)) : key = other := by
  obtain ⟨due, pending⟩ := paired.timed key value name found
  exact paired.data_eq again pending

/-- What an update of `key` comes to, whichever timer it uses. -/
structure Grants (term : Nat) (before after : Table κ ν) (key : κ) (value : ν) : Prop where
  paired : after.Paired
  now : after.now = before.now
  lookup : ∀ other, after.lookup other = if other = key then some value else before.lookup other
  due : ∀ other, after.due other =
    if other = key then some (before.now + term) else before.due other

theorem lookup_replace (term : Nat) (table : Table κ ν) (key : κ) (value : ν) (other : κ) :
    (table.replace term key value).entries.lookup other =
      if other = key then some (value, table.nextTimer) else table.entries.lookup other :=
  lookup_insert_ite _ _ _ _

theorem timer_replace (term : Nat) (table : Table κ ν) (key : κ) (value : ν) (name : Nat) :
    (table.replace term key value).timers.lookup name =
      if name = table.nextTimer then some ⟨key, table.now + term⟩
      else if (table.entries.lookup key).map Prod.snd = some name then none
      else table.timers.lookup name := by
  rw [replace, lookup_insert_ite]
  by_cases new : name = table.nextTimer
  · rw [if_pos new, if_pos new]
  · rw [if_neg new, if_neg new]
    cases found : table.entries.lookup key with
    | none => rfl
    | some old =>
        simp only [lookup_erase_ite, Option.map_some, Option.some.injEq, eq_comm]

theorem Paired.replaced_name {table : Table κ ν} (paired : table.Paired) {key other : κ} {value : ν}
    {name : Nat} (found : table.entries.lookup other = some (value, name)) :
    (table.entries.lookup key).map Prod.snd = some name ↔ other = key := by
  constructor
  · intro own
    obtain ⟨⟨stored, label⟩, again, rfl⟩ := Option.map_eq_some_iff.mp own
    exact paired.name_inj found again
  · rintro rfl
    rw [found, Option.map_some]

theorem Paired.replace_paired {table : Table κ ν} (paired : table.Paired) (term : Nat) (key : κ)
    (value : ν) :
    (table.replace term key value).Paired where
  timed := by
    intro other stored name found
    rw [lookup_replace] at found
    rw [timer_replace]
    split at found
    · rename_i same
      cases found
      exact ⟨_, by rw [if_pos rfl, same]⟩
    · rename_i different
      obtain ⟨due, pending⟩ := paired.timed other stored name found
      have old := paired.named name _ pending
      refine ⟨due, ?_⟩
      rw [if_neg (by omega), if_neg, pending]
      exact fun own => different ((paired.replaced_name found).mp own)
  owned := by
    intro name timer pending
    rw [timer_replace] at pending
    split at pending
    · rename_i new
      cases pending
      exact ⟨value, by rw [lookup_replace, if_pos rfl, new]⟩
    · split at pending
      · cases pending
      · rename_i kept
        obtain ⟨stored, found⟩ := paired.owned name timer pending
        have different : timer.data ≠ key :=
          fun same => kept ((paired.replaced_name found).mpr same)
        exact ⟨stored, by rw [lookup_replace, if_neg different, found]⟩
  named := by
    intro name timer pending
    rw [timer_replace] at pending
    split at pending
    · rename_i new
      exact new ▸ Nat.lt_succ_self _
    · split at pending
      · cases pending
      · exact Nat.lt_succ_of_lt (paired.named name timer pending)

theorem Paired.replace_grants {table : Table κ ν} (paired : table.Paired) (term : Nat) (key : κ)
    (value : ν) : Grants term table (table.replace term key value) key value where
  paired := paired.replace_paired term key value
  now := rfl
  lookup := by
    intro other
    simp only [lookup, lookup_replace]
    split <;> rfl
  due := by
    intro other
    rw [due, lookup_replace]
    by_cases same : other = key
    · rw [if_pos same, if_pos same, Option.bind_some, timer_replace, if_pos rfl, Option.map_some]
    · rw [if_neg same, if_neg same]
      cases found : table.entries.lookup other with
      | none => rw [due, found]; rfl
      | some entry =>
          obtain ⟨term, pending⟩ := paired.timed other entry.1 entry.2 found
          have old := paired.named entry.2 _ pending
          rw [Option.bind_some, timer_replace, if_neg (by omega),
            if_neg fun own => same ((paired.replaced_name found).mp own), due, found,
              Option.bind_some]

theorem lookup_renew (term : Nat) (table : Table κ ν) (key : κ) (value : ν) (other : κ) :
    (table.renew term key value).entries.lookup other =
      if other = key then
        some (value, ((table.entries.lookup key).map Prod.snd).getD table.nextTimer)
      else table.entries.lookup other := by
  unfold renew
  cases found : table.entries.lookup key with
  | none => exact lookup_insert_ite _ _ _ _
  | some old => exact lookup_insert_ite _ _ _ _

theorem Paired.timer_renew {table : Table κ ν} (paired : table.Paired) (term : Nat) (key : κ)
    (value : ν) (name : Nat) : (table.renew term key value).timers.lookup name =
      if name = ((table.entries.lookup key).map Prod.snd).getD table.nextTimer then
        some ⟨key, table.now + term⟩
      else table.timers.lookup name := by
  unfold renew
  cases found : table.entries.lookup key with
  | none => exact lookup_insert_ite _ _ _ _
  | some old =>
      obtain ⟨due, pending⟩ := paired.timed key old.1 old.2 found
      simp only [pending, Option.map_some, Option.getD_some]
      exact lookup_insert_ite _ _ _ _

theorem Paired.renewed_name {table : Table κ ν} (paired : table.Paired) {key other : κ} {value : ν}
    {name : Nat} (found : table.entries.lookup other = some (value, name)) :
    name = ((table.entries.lookup key).map Prod.snd).getD table.nextTimer ↔ other = key := by
  constructor
  · intro same
    cases own : table.entries.lookup key with
    | none =>
        obtain ⟨due, pending⟩ := paired.timed other value name found
        have old := paired.named name _ pending
        rw [own, Option.map_none, Option.getD_none] at same
        omega
    | some entry =>
        rw [own, Option.map_some, Option.getD_some] at same
        exact paired.name_inj (found.trans (by rw [same])) own
  · rintro rfl
    rw [found, Option.map_some, Option.getD_some]

theorem nextTimer_le_renew (term : Nat) (table : Table κ ν) (key : κ) (value : ν) :
    table.nextTimer ≤ (table.renew term key value).nextTimer := by
  unfold renew
  split
  · exact le_rfl
  · exact Nat.le_succ _

theorem Paired.renewed_lt {table : Table κ ν} (paired : table.Paired) (term : Nat) (key : κ)
    (value : ν) :
    ((table.entries.lookup key).map Prod.snd).getD table.nextTimer <
      (table.renew term key value).nextTimer := by
  unfold renew
  cases found : table.entries.lookup key with
  | none => exact Nat.lt_succ_self _
  | some old =>
      obtain ⟨due, pending⟩ := paired.timed key old.1 old.2 found
      exact paired.named old.2 _ pending

theorem Paired.renew_paired {table : Table κ ν} (paired : table.Paired) (term : Nat) (key : κ)
    (value : ν) :
    (table.renew term key value).Paired where
  timed := by
    intro other stored name found
    rw [lookup_renew] at found
    rw [paired.timer_renew]
    split at found
    · rename_i same
      cases found
      exact ⟨_, by rw [if_pos rfl, same]⟩
    · rename_i different
      obtain ⟨due, pending⟩ := paired.timed other stored name found
      exact ⟨due,
        by rw [if_neg fun same => different ((paired.renewed_name found).mp same), pending]⟩
  owned := by
    intro name timer pending
    rw [paired.timer_renew] at pending
    split at pending
    · rename_i same
      cases pending
      exact ⟨value, by rw [lookup_renew, if_pos rfl, same]⟩
    · rename_i kept
      obtain ⟨stored, found⟩ := paired.owned name timer pending
      exact ⟨stored, by
        rw [lookup_renew, if_neg fun same => kept ((paired.renewed_name found).mpr same), found]⟩
  named := by
    intro name timer pending
    rw [paired.timer_renew] at pending
    split at pending
    · rename_i same
      exact same ▸ paired.renewed_lt term key value
    · exact lt_of_lt_of_le (paired.named name timer pending)
        (nextTimer_le_renew term table key value)

theorem Paired.renew_grants {table : Table κ ν} (paired : table.Paired) (term : Nat) (key : κ)
    (value : ν) : Grants term table (table.renew term key value) key value where
  paired := paired.renew_paired term key value
  now := by
    unfold renew
    split <;> rfl
  lookup := by
    intro other
    simp only [lookup, lookup_renew]
    split <;> rfl
  due := by
    intro other
    rw [due, lookup_renew]
    by_cases same : other = key
    · rw [if_pos same, if_pos same, Option.bind_some, paired.timer_renew, if_pos rfl,
        Option.map_some]
    · rw [if_neg same, if_neg same]
      cases found : table.entries.lookup other with
      | none => rw [due, found]; rfl
      | some entry =>
          rw [Option.bind_some, paired.timer_renew,
            if_neg fun again => same ((paired.renewed_name found).mp again), due, found,
              Option.bind_some]

structure Lapses (before after : Table κ ν) (key : κ) : Prop where
  overdue : ∃ due ≤ before.now, before.due key = some due
  paired : after.Paired
  now : after.now = before.now
  lookup : ∀ other, after.lookup other = if other = key then none else before.lookup other
  due : ∀ other, after.due other = if other = key then none else before.due other

theorem Paired.fire_lapses {table after : Table κ ν} (paired : table.Paired) {name : Nat}
    (fires : table.fire name = some after) : ∃ key, Lapses table after key := by
  unfold fire at fires
  split at fires
  · cases fires
  rename_i timer pending
  split at fires
  · rename_i overdue
    cases fires
    obtain ⟨value, found⟩ := paired.owned name timer pending
    have other_name {key : κ} {stored : ν} {label : Nat}
        (own : table.entries.lookup key = some (stored, label)) (different : key ≠ timer.data) :
        label ≠ name := by
      rintro rfl
      exact different (paired.name_inj own found)
    refine ⟨timer.data, ⟨timer.due, overdue, ?_⟩, ⟨?_, ?_, ?_⟩, rfl, ?_, ?_⟩
    · simp [due, found, pending]
    · intro key stored label own
      dsimp only at own ⊢
      rw [lookup_erase_ite] at own
      split at own
      · cases own
      · rename_i different
        rw [lookup_erase_ite, if_neg (other_name own different)]
        exact paired.timed key stored label own
    · intro label other own
      dsimp only at own ⊢
      rw [lookup_erase_ite] at own
      split at own
      · cases own
      · rename_i different
        obtain ⟨stored, kept⟩ := paired.owned label other own
        refine ⟨stored, ?_⟩
        rw [lookup_erase_ite, if_neg, kept]
        intro same
        rw [same, found] at kept
        exact different (congrArg Prod.snd (Option.some.inj kept)).symm
    · intro label other own
      dsimp only at own
      rw [lookup_erase_ite] at own
      split at own
      · cases own
      · exact paired.named label other own
    · intro other
      simp only [lookup, lookup_erase_ite]
      split <;> rfl
    · intro other
      simp only [due, lookup_erase_ite]
      by_cases same : other = timer.data
      · rw [if_pos same, if_pos same]
        rfl
      · rw [if_neg same, if_neg same]
        cases own : table.entries.lookup other with
        | none => rfl
        | some entry => rw [Option.bind_some, Option.bind_some, if_neg (other_name own same)]
  · cases fires

end Table

/-! ### Runs -/

/-- A table, and for every key its last update and when that was. -/
structure Traced (κ ν : Type) where
  table : Table κ ν
  last : κ → Option (ν × Nat)

namespace Traced

def empty : Traced κ ν := ⟨.empty, fun _ => none⟩

def note (state : Traced κ ν) : Action κ ν → κ → Option (ν × Nat)
  | .update key value => Function.update state.last key (some (value, state.table.now))
  | _ => state.last

def Step (update : Table κ ν → κ → ν → Table κ ν) (before : Traced κ ν) (action : Action κ ν)
    (after : Traced κ ν) : Prop :=
  before.table.perform update action = some after.table ∧ after.last = before.note action

def Prompt (state : Traced κ ν) : Action κ ν → Prop
  | .pass msec => ∀ key due, state.table.due key = some due → state.table.now + msec ≤ due
  | _ => True

/-- Time does not pass a pending timer by, as can be read off the list of timers. -/
def InTime (state : Traced κ ν) : Action κ ν → Prop
  | .pass msec => ∀ timer ∈ state.table.timers.entries, state.table.now + msec ≤ timer.2.due
  | _ => True

instance (state : Traced κ ν) (action : Action κ ν) : Decidable (state.InTime action) :=
  match action with
  | .pass _ => inferInstanceAs (Decidable (∀ timer ∈ _, _))
  | .update _ _ | .fire _ => .isTrue trivial

def perform (update : Table κ ν → κ → ν → Table κ ν) (state : Traced κ ν) (action : Action κ ν) :
    Option (Traced κ ν) :=
  if state.InTime action then
    (state.table.perform update action).map fun table => ⟨table, state.note action⟩
  else none

theorem InTime.prompt {state : Traced κ ν} {action : Action κ ν} (inTime : state.InTime action) :
    state.Prompt action := by
  cases action with
  | pass msec =>
      intro key due pending
      obtain ⟨entry, -, scheduled⟩ := Option.bind_eq_some_iff.mp pending
      obtain ⟨timer, listed, rfl⟩ := Option.map_eq_some_iff.mp scheduled
      exact inTime _ (AList.mem_lookup_iff.mp listed)
  | update key value => trivial
  | fire timer => trivial

theorem reaches_of_foldlM (update : Table κ ν → κ → ν → Table κ ν) {actions : List (Action κ ν)}
    {state : Traced κ ν} (result : actions.foldlM (perform update) empty = some state) :
    Transition.Reaches (· = empty) (Step update) Prompt state := by
  refine .foldlM (perform update) actions (fun action _ before after performed => ?_)
    (.start rfl) result
  rw [perform] at performed
  split at performed
  · rename_i inTime
    obtain ⟨table, moved, rfl⟩ := Option.map_eq_some_iff.mp performed
    exact ⟨inTime.prompt, moved, rfl⟩
  · cases performed

structure Remembers (term : Nat) (state : Traced κ ν) : Prop where
  paired : state.table.Paired
  stored : ∀ key value, state.table.lookup key = some value → ∃ since,
    state.last key = some (value, since) ∧ state.table.due key = some (since + term)
  recent : ∀ key value since, state.last key = some (value, since) →
    state.table.now < since + term → state.table.lookup key = some value

variable {term : Nat} {update : Table κ ν → κ → ν → Table κ ν}

theorem empty_remembers : (empty : Traced κ ν).Remembers term where
  paired := Table.empty_paired
  stored := by
    intro key value found
    cases found
  recent := by
    intro key value since updated
    cases updated

theorem step_cases {before after : Traced κ ν} {action : Action κ ν}
    (moves : before.Step update action after) :
    (∃ msec, action = .pass msec ∧ after = { before with
      table := { before.table with now := before.table.now + msec } }) ∨
    (∃ key value, action = .update key value ∧ after = ⟨update before.table key value,
      Function.update before.last key (some (value, before.table.now))⟩) ∨
    (∃ name, action = .fire name ∧ before.table.fire name = some after.table ∧
      after.last = before.last) := by
  obtain ⟨performed, noted⟩ := moves
  obtain ⟨table, last⟩ := after
  subst noted
  cases action with
  | pass msec =>
      cases performed
      exact Or.inl ⟨msec, rfl, rfl⟩
  | update key value =>
      cases performed
      exact Or.inr (Or.inl ⟨key, value, rfl, rfl⟩)
  | fire name => exact Or.inr (Or.inr ⟨name, rfl, performed, rfl⟩)

theorem Remembers.granted {before : Traced κ ν} (remembers : before.Remembers term)
    {after : Table κ ν} {key : κ} {value : ν}
    (grants : Table.Grants term before.table after key value) :
    Remembers term ⟨after, Function.update before.last key (some (value, before.table.now))⟩ where
  paired := grants.paired
  stored := by
    intro other stored found
    dsimp only at found ⊢
    rw [grants.lookup] at found
    rw [grants.due]
    by_cases same : other = key
    · subst other
      rw [if_pos rfl] at found
      cases found
      exact ⟨before.table.now, Function.update_self .., if_pos rfl⟩
    · rw [if_neg same] at found
      rw [if_neg same, Function.update_of_ne same]
      exact remembers.stored other stored found
  recent := by
    intro other stored since updated young
    dsimp only at updated young ⊢
    rw [grants.now] at young
    rw [grants.lookup]
    by_cases same : other = key
    · subst other
      rw [Function.update_self, Option.some.injEq, Prod.mk.injEq] at updated
      rw [if_pos rfl, updated.1]
    · rw [Function.update_of_ne same] at updated
      rw [if_neg same]
      exact remembers.recent other stored since updated young

theorem Remembers.lapsed {before : Traced κ ν} (remembers : before.Remembers term)
    {after : Table κ ν} {key : κ} (lapses : Table.Lapses before.table after key) :
    Remembers term ⟨after, before.last⟩ where
  paired := lapses.paired
  stored := by
    intro other stored found
    dsimp only at found ⊢
    rw [lapses.lookup] at found
    rw [lapses.due]
    split at found
    · cases found
    · rename_i different
      rw [if_neg different]
      exact remembers.stored other stored found
  recent := by
    intro other stored since updated young
    dsimp only at updated young ⊢
    rw [lapses.now] at young
    have found := remembers.recent other stored since updated young
    rw [lapses.lookup, if_neg, found]
    rintro rfl
    obtain ⟨due, overdue, own⟩ := lapses.overdue
    obtain ⟨start, again, ends⟩ := remembers.stored other stored found
    rw [updated, Option.some.injEq, Prod.mk.injEq] at again
    rw [own, Option.some.injEq] at ends
    omega

theorem Remembers.step (grants : ∀ (table : Table κ ν) key value, table.Paired →
      Table.Grants term table (update table key value) key value)
    {before after : Traced κ ν} {action : Action κ ν} (remembers : before.Remembers term)
    (moves : before.Step update action after) : after.Remembers term := by
  rcases step_cases moves with ⟨msec, -, rfl⟩ | ⟨key, value, -, rfl⟩ | ⟨name, -, fires, kept⟩
  · refine ⟨⟨remembers.paired.timed, remembers.paired.owned, remembers.paired.named⟩,
      remembers.stored, ?_⟩
    intro key value since updated young
    exact remembers.recent key value since updated (lt_of_le_of_lt (Nat.le_add_right _ _) young)
  · exact remembers.granted (grants _ key value remembers.paired)
  · obtain ⟨key, lapses⟩ := remembers.paired.fire_lapses fires
    obtain ⟨table, last⟩ := after
    subst kept
    exact remembers.lapsed lapses

theorem Remembers.now_le (grants : ∀ (table : Table κ ν) key value, table.Paired →
      Table.Grants term table (update table key value) key value)
    {before after : Traced κ ν} {action : Action κ ν} (remembers : before.Remembers term)
    (moves : before.Step update action after) : before.table.now ≤ after.table.now := by
  rcases step_cases moves with ⟨msec, -, rfl⟩ | ⟨key, value, -, rfl⟩ | ⟨name, -, fires, -⟩
  · exact Nat.le_add_right _ _
  · exact Nat.le_of_eq (grants _ key value remembers.paired).now.symm
  · obtain ⟨key, lapses⟩ := remembers.paired.fire_lapses fires
    exact Nat.le_of_eq lapses.now.symm

theorem Step.last_since {before after : Traced κ ν} {action : Action κ ν}
    (moves : before.Step update action after) {key : κ} {bound : Nat}
    (begun : bound ≤ before.table.now)
    (updated : ∃ value since, before.last key = some (value, since) ∧ bound ≤ since) :
    ∃ value since, after.last key = some (value, since) ∧ bound ≤ since := by
  rcases step_cases moves with ⟨msec, -, rfl⟩ | ⟨other, value, -, rfl⟩ | ⟨name, -, -, kept⟩
  · exact updated
  · by_cases same : key = other
    · subst other
      exact ⟨value, before.table.now, Function.update_self .., begun⟩
    · dsimp only
      rw [Function.update_of_ne same]
      exact updated
  · rw [kept]
    exact updated

theorem remembers_of_reaches (grants : ∀ (table : Table κ ν) key value, table.Paired →
      Table.Grants term table (update table key value) key value)
    {allowed : Traced κ ν → Action κ ν → Prop} {state : Traced κ ν}
    (run : Transition.Reaches (· = empty) (Step update) allowed state) : state.Remembers term := by
  refine run.invariant (Remembers term) ?_ fun before action after remembers _ moves => ?_
  · rintro _ rfl
    exact empty_remembers
  · exact remembers.step grants moves

theorem due_of_prompt (grants : ∀ (table : Table κ ν) key value, table.Paired →
      Table.Grants term table (update table key value) key value) {state : Traced κ ν}
    (run : Transition.Reaches (· = empty) (Step update) Prompt state) :
    ∀ key due, state.table.due key = some due → state.table.now ≤ due := by
  refine (run.invariant (fun state => state.Remembers term ∧
    ∀ key due, state.table.due key = some due → state.table.now ≤ due) ?_ ?_).2
  · rintro _ rfl
    exact ⟨empty_remembers, fun key due pending => nomatch pending⟩
  · rintro before action after ⟨remembers, current⟩ prompt moves
    refine ⟨remembers.step grants moves, ?_⟩
    rcases step_cases moves with ⟨msec, rfl, rfl⟩ | ⟨key, value, -, rfl⟩ | ⟨name, -, fires, -⟩
    · exact prompt
    · intro other due pending
      have granted := grants before.table key value remembers.paired
      rw [granted.due] at pending
      rw [granted.now]
      split at pending
      · cases pending
        exact Nat.le_add_right _ _
      · exact current other due pending
    · obtain ⟨key, lapses⟩ := remembers.paired.fire_lapses fires
      intro other due pending
      rw [lapses.due] at pending
      rw [lapses.now]
      split at pending
      · cases pending
      · exact current other due pending

/-- What a table shows its reader: exactly the updates of the last term, as far as every timer
fires in time, and a timer for each entry. -/
structure Current (term : Nat) (state : Traced κ ν) : Prop where
  paired : state.table.Paired
  recent : ∀ key value since, state.last key = some (value, since) →
    state.table.now < since + term → state.table.lookup key = some value
  expires : ∀ key value, state.table.lookup key = some value → ∃ since,
    state.last key = some (value, since) ∧ state.table.now ≤ since + term

theorem current_of_prompt (grants : ∀ (table : Table κ ν) key value, table.Paired →
      Table.Grants term table (update table key value) key value) {state : Traced κ ν}
    (run : Transition.Reaches (· = empty) (Step update) Prompt state) : state.Current term := by
  have remembers := remembers_of_reaches grants run
  refine ⟨remembers.paired, remembers.recent, fun key value found => ?_⟩
  obtain ⟨since, updated, pending⟩ := remembers.stored key value found
  exact ⟨since, updated, due_of_prompt grants run key _ pending⟩

end Traced

end Lease
