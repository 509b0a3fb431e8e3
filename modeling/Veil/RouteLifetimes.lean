import Mathlib.Logic.Function.Basic
import Veil.Library.Transition
import Veil.RouteSlots
import Veil.SoftState

/-! How long routes live, from `routetable.cc`. A bucket has one timer for all its routes, which
every write reschedules and which invalidates them all; the timer and the bucket stay. -/

namespace Veil

/-- The routes of a bucket as they were written since it was last cleared, each with its time. -/
abbrev WrittenRoutes := List (RoutingEntry × Nat)

namespace WrittenRoutes

/-- A default route takes the place of all others, and another is added as long as there is room. -/
def write (written : WrittenRoutes) (now : Nat) (nh g : VID) (isDefault : Bool) : WrittenRoutes :=
  if isDefault then [(⟨nh, g, true, true⟩, now)]
  else if written.length < maxGwPerBucket then written ++ [(⟨nh, g, false, true⟩, now)]
  else written

def due (written : WrittenRoutes) : Option Nat :=
  written.getLast?.map fun entry => entry.2 + veilTblEntryExpiry

/-- No write has come later than a term after the one before it, and none is yet to come. -/
structure Aged (written : WrittenRoutes) (now : Nat) : Prop where
  room : written.length ≤ maxGwPerBucket
  valid : ∀ entry ∈ written, entry.1.isValid = true
  past : ∀ entry ∈ written, entry.2 ≤ now
  ordered : ∀ entry ∈ written, ∀ last, written.getLast? = some last → entry.2 ≤ last.2
  age : ∀ j entry, written[j]? = some entry → ∀ last, written.getLast? = some last →
    last.2 ≤ entry.2 + (written.length - 1 - j) * veilTblEntryExpiry

theorem aged_nil (now : Nat) : Aged [] now where
  room := Nat.zero_le _
  valid := by simp
  past := by simp
  ordered := by simp
  age := by simp

theorem Aged.later {written : WrittenRoutes} {now later : Nat} (aged : written.Aged now)
    (order : now ≤ later) : written.Aged later :=
  ⟨aged.room, aged.valid, fun entry member => (aged.past entry member).trans order,
    aged.ordered, aged.age⟩

theorem due_write (written : WrittenRoutes) (now : Nat) (nh g : VID) (isDefault : Bool) :
    (written.write now nh g isDefault).due =
      if isDefault = true ∨ written.length < maxGwPerBucket then some (now + veilTblEntryExpiry)
      else written.due := by
  cases isDefault with
  | true => rfl
  | false =>
      by_cases free : written.length < maxGwPerBucket
      · have added : written.write now nh g false = written ++ [(⟨nh, g, false, true⟩, now)] :=
          if_pos free
        rw [added, due, List.getLast?_concat, if_pos (Or.inr free)]
        rfl
      · have kept : written.write now nh g false = written := if_neg free
        rw [kept, if_neg (by simp [free])]

theorem write_head (written : WrittenRoutes) (now : Nat) (nh g : VID) {first : RoutingEntry × Nat}
    (headed : ∃ rest, written = first :: rest) :
    ∃ rest, written.write now nh g false = first :: rest := by
  obtain ⟨rest, rfl⟩ := headed
  rw [write, if_neg Bool.false_ne_true]
  split
  · exact ⟨_, rfl⟩
  · exact ⟨rest, rfl⟩

/-- A route is never older than a term for itself and one for each route after it. -/
theorem Aged.le {written : WrittenRoutes} {now : Nat} (aged : written.Aged now)
    (current : ∀ due, written.due = some due → now ≤ due) {j : Nat} {entry : RoutingEntry × Nat}
    (found : written[j]? = some entry) :
    now ≤ entry.2 + (written.length - j) * veilTblEntryExpiry := by
  obtain ⟨inside, -⟩ := List.getElem?_eq_some_iff.mp found
  obtain ⟨newest, ends⟩ := Option.ne_none_iff_exists'.mp
    (mt List.getLast?_eq_none_iff.mp (List.ne_nil_of_length_pos (Nat.zero_lt_of_lt inside)))
  have bound := aged.age j entry found newest ends
  have recent := current (newest.2 + veilTblEntryExpiry) (by rw [due, ends, Option.map_some])
  have terms : written.length - j = written.length - 1 - j + 1 := by omega
  rw [terms, Nat.succ_mul]
  omega

theorem aged_single (entry : RoutingEntry) (now : Nat) (valid : entry.isValid = true) :
    Aged [(entry, now)] now where
  room := Nat.succ_pos 3
  valid other member := by rwa [List.mem_singleton.mp member]
  past other member := by rw [List.mem_singleton.mp member]
  ordered other member last same := by
    cases same
    rw [List.mem_singleton.mp member]
    exact Nat.le_refl now
  age j other found last same := by
    cases same
    obtain rfl := List.mem_singleton.mp (List.mem_of_getElem? found)
    exact Nat.le_add_right _ _

theorem Aged.concat {written : WrittenRoutes} {now : Nat} (aged : written.Aged now)
    (current : ∀ due, written.due = some due → now ≤ due)
    (free : written.length < maxGwPerBucket) (entry : RoutingEntry) (valid : entry.isValid = true) :
    Aged (written ++ [(entry, now)]) now := by
  have past : ∀ other ∈ written ++ [(entry, now)], other.2 ≤ now := by
    intro other member
    rcases List.mem_append.mp member with before | new
    · exact aged.past other before
    · rw [List.mem_singleton.mp new]
  refine ⟨?_, ?_, past, ?_, ?_⟩
  · rw [List.length_append]
    exact free
  · intro other member
    rcases List.mem_append.mp member with before | new
    · exact aged.valid other before
    · rwa [List.mem_singleton.mp new]
  · intro other member last same
    rw [List.getLast?_concat] at same
    cases same
    exact past other member
  · intro j other found last same
    rw [List.getLast?_concat] at same
    cases same
    rw [List.length_append, List.length_singleton, Nat.add_sub_cancel]
    by_cases before : j < written.length
    · rw [List.getElem?_append_left before] at found
      exact aged.le current found
    · rw [List.getElem?_append_right (Nat.not_lt.mp before)] at found
      obtain rfl := List.mem_singleton.mp (List.mem_of_getElem? found)
      exact Nat.le_add_right _ _

theorem Aged.write {written : WrittenRoutes} {now : Nat} (aged : written.Aged now)
    (current : ∀ due, written.due = some due → now ≤ due) (nh g : VID) (isDefault : Bool) :
    (written.write now nh g isDefault).Aged now := by
  cases isDefault with
  | true => exact aged_single _ now rfl
  | false =>
      by_cases free : written.length < maxGwPerBucket
      · have added : written.write now nh g false = written ++ [(⟨nh, g, false, true⟩, now)] :=
          if_pos free
        rw [added]
        exact aged.concat current free _ rfl
      · have kept : written.write now nh g false = written := if_neg free
        rw [kept]
        exact aged

end WrittenRoutes

namespace Bucket

def Holds (bucket : Bucket) (written : WrittenRoutes) : Prop :=
  ∃ rest, bucket.toList = written.map Prod.fst ++ rest ∧ ∀ entry ∈ rest, entry.isValid = false

theorem empty_holds : empty.Holds [] := ⟨empty.toList, rfl, fun _ member => not_mem_empty member⟩

theorem invalidate_holds (bucket : Bucket) : bucket.invalidate.Holds [] :=
  ⟨bucket.invalidate.toList, rfl, fun _ member => not_mem_invalidate member⟩

theorem Holds.filter_valid {bucket : Bucket} {written : WrittenRoutes}
    (holds : bucket.Holds written) (valid : ∀ entry ∈ written, entry.1.isValid = true) :
    bucket.toList.filter (·.isValid) = written.map Prod.fst := by
  obtain ⟨rest, slots, unused⟩ := holds
  have used : (written.map Prod.fst).filter (·.isValid) = written.map Prod.fst := by
    rw [List.filter_eq_self]
    intro entry member
    obtain ⟨stamped, listed, rfl⟩ := List.mem_map.mp member
    exact valid stamped listed
  have out : rest.filter (·.isValid) = [] := by
    rw [List.filter_eq_nil_iff]
    intro entry member
    rw [unused entry member]
    exact Bool.false_ne_true
  rw [slots, List.filter_append, used, out, List.append_nil]

theorem setDefault_holds (bucket : Bucket) (now : Nat) (nh g : VID) :
    (bucket.setDefault nh g).Holds [(⟨nh, g, true, true⟩, now)] := by
  refine ⟨((bucket.map fun entry => { entry with isValid := false }).toList).drop 1, ?_, ?_⟩
  · rw [setDefault, Vector.toList_set, List.set_eq_take_append_cons_drop,
      if_pos (by simp [maxGwPerBucket])]
    rfl
  · intro entry member
    have listed := List.mem_of_mem_drop member
    rw [Vector.toList_map] at listed
    obtain ⟨slot, -, rfl⟩ := List.mem_map.mp listed
    rfl

theorem Holds.any_invalid {bucket : Bucket} {written : WrittenRoutes} (holds : bucket.Holds written)
    (valid : ∀ entry ∈ written, entry.1.isValid = true) :
    (bucket.toList.any fun entry => !entry.isValid) = decide (written.length < maxGwPerBucket) := by
  obtain ⟨rest, slots, unused⟩ := holds
  have total : written.length + rest.length = maxGwPerBucket := by
    rw [← bucket.length_toList, slots, List.length_append, List.length_map]
  rw [Bool.eq_iff_iff, List.any_eq_true, decide_eq_true_eq]
  constructor
  · rintro ⟨entry, member, invalid⟩
    rw [slots] at member
    rcases List.mem_append.mp member with used | spare
    · obtain ⟨stamped, listed, rfl⟩ := List.mem_map.mp used
      rw [valid stamped listed] at invalid
      cases invalid
    · have positive := List.length_pos_of_mem spare
      omega
  · intro free
    cases rest with
    | nil =>
        rw [List.length_nil] at total
        omega
    | cons first rest =>
        exact ⟨first, by rw [slots]; simp, by rw [unused first List.mem_cons_self]; rfl⟩

theorem Holds.addAlternate {bucket : Bucket} {written : WrittenRoutes}
    (holds : bucket.Holds written) (valid : ∀ entry ∈ written, entry.1.isValid = true) (now : Nat)
    (nh g : VID) :
    (bucket.addAlternate nh g).Holds (written.write now nh g false) := by
  obtain ⟨rest, slots, unused⟩ := holds
  have total : written.length + rest.length = maxGwPerBucket := by
    rw [← bucket.length_toList, slots, List.length_append, List.length_map]
  have used : (written.map Prod.fst).findIdx? (fun entry => !entry.isValid) = none := by
    rw [List.findIdx?_eq_none_iff]
    intro entry member
    obtain ⟨stamped, listed, rfl⟩ := List.mem_map.mp member
    rw [valid stamped listed]
    rfl
  cases rest with
  | nil =>
      have full : ¬written.length < maxGwPerBucket := by
        rw [List.length_nil] at total
        omega
      have kept : written.write now nh g false = written := if_neg full
      rw [kept, Bucket.addAlternate, slots, List.append_nil, used]
      exact ⟨[], slots, unused⟩
  | cons first rest =>
      have free : written.length < maxGwPerBucket := by
        rw [List.length_cons] at total
        omega
      have added : written.write now nh g false = written ++ [(⟨nh, g, false, true⟩, now)] :=
        if_pos free
      have place : bucket.toList.findIdx? (fun entry => !entry.isValid) = some written.length := by
        rw [slots, List.findIdx?_append, used, List.findIdx?_cons, unused first List.mem_cons_self]
        simp
      rw [added, Bucket.addAlternate, place]
      refine ⟨rest, ?_, fun entry member => unused entry (List.mem_cons_of_mem _ member)⟩
      rw [Vector.toList_setIfInBounds, slots, List.set_append_right _ _ (by simp)]
      simp

end Bucket

/-- A route table with a clock, and for every bucket whose timer is scheduled the time it is due. -/
structure TimedRouteTable where
  now : Nat
  table : RouteTable
  expiries : HashTable (Nat × Nat) Nat

namespace TimedRouteTable

open HashTable

def empty : TimedRouteTable := ⟨0, .empty, ∅⟩

/-- A new bucket schedules its timer, and so does every write; a route that finds the bucket full is
dropped, and the timer is left alone. -/
def updateEntry (timed : TimedRouteTable) (interfaces : InterfaceTable) (i : VID) (b : Nat)
    (nh g : VID) (isDefault : Bool) : TimedRouteTable :=
  match interfaces.interfaces.lookup i with
  | none => timed
  | some intId =>
      let bucket := timed.table.slots intId b
      let written := isDefault || bucket.toList.any fun entry => !entry.isValid
      { timed with
        table := timed.table.updateEntry interfaces i b nh g isDefault
        expiries :=
          if written then timed.expiries.insert (intId, b) (timed.now + veilTblEntryExpiry)
          else timed.expiries }

def expire (timed : TimedRouteTable) (interfaceId b : Nat) : Option TimedRouteTable :=
  match timed.expiries.lookup (interfaceId, b) with
  | none => none
  | some due =>
      if due ≤ timed.now then
        some { timed with
          table := timed.table.expire interfaceId b
          expiries := timed.expiries.erase (interfaceId, b) }
      else none

def getRoute (timed : TimedRouteTable) (interfaces : InterfaceTable) (dst myinterface g : VID)
    (isDefault : Bool) : TimedRouteTable × Option (VID × VID) :=
  let (table, found) := timed.table.getRoute interfaces dst myinterface g isDefault
  ({ timed with table }, found)

inductive Action where
  | pass (msec : Nat)
  | updateEntry (interfaces : InterfaceTable) (i : VID) (b : Nat) (nh g : VID) (isDefault : Bool)
  | getRoute (interfaces : InterfaceTable) (dst myinterface g : VID) (isDefault : Bool)
  | expire (interfaceId b : Nat)

def perform (timed : TimedRouteTable) : Action → Option TimedRouteTable
  | .pass msec => some { timed with now := timed.now + msec }
  | .updateEntry interfaces i b nh g isDefault =>
      some (timed.updateEntry interfaces i b nh g isDefault)
  | .getRoute interfaces dst myinterface g isDefault =>
      some (timed.getRoute interfaces dst myinterface g isDefault).1
  | .expire interfaceId b => timed.expire interfaceId b

end TimedRouteTable

/-- A route table, the routes written to each bucket since it was cleared, and the last default
route ever written to each. -/
structure TracedRoutes where
  timed : TimedRouteTable
  written : Nat × Nat → WrittenRoutes
  latest : Nat × Nat → Option ((VID × VID) × Nat)

namespace TracedRoutes

open TimedRouteTable HashTable

def empty : TracedRoutes := ⟨.empty, fun _ => [], fun _ => none⟩

def note (state : TracedRoutes) (timed : TimedRouteTable) : Action → TracedRoutes
  | .updateEntry interfaces i b nh g isDefault =>
      match interfaces.interfaces.lookup i with
      | none => { state with timed }
      | some intId => ⟨timed,
          Function.update state.written (intId, b)
            ((state.written (intId, b)).write state.timed.now nh g isDefault),
          if isDefault then
            Function.update state.latest (intId, b) (some ((nh, g), state.timed.now))
          else state.latest⟩
  | .expire interfaceId b =>
      { state with timed, written := Function.update state.written (interfaceId, b) [] }
  | _ => { state with timed }

def Step (before : TracedRoutes) (action : Action) (after : TracedRoutes) : Prop :=
  ∃ timed, before.timed.perform action = some timed ∧ after = before.note timed action

def Prompt (state : TracedRoutes) : Action → Prop
  | .pass msec =>
      ∀ key due, state.timed.expiries.lookup key = some due → state.timed.now + msec ≤ due
  | _ => True

structure Tracks (state : TracedRoutes) : Prop where
  holds : ∀ key, (state.timed.table.slots key.1 key.2).Holds (state.written key)
  aged : ∀ key, (state.written key).Aged state.timed.now
  timer : ∀ key, state.timed.expiries.lookup key = (state.written key).due
  current : ∀ key due, (state.written key).due = some due → state.timed.now ≤ due
  default : ∀ key route since, state.latest key = some (route, since) →
    state.timed.now < since + veilTblEntryExpiry →
      ∃ rest, state.written key = (⟨route.1, route.2, true, true⟩, since) :: rest

theorem empty_tracks : empty.Tracks where
  holds := fun _ => Bucket.empty_holds
  aged := fun _ => WrittenRoutes.aged_nil 0
  timer := fun _ => rfl
  current := by
    intro key due none
    cases none
  default := by
    intro key route since none
    cases none

theorem slots_updateEntry {interfaces : InterfaceTable} {i : VID} {intId : Nat}
    (known : interfaces.interfaces.lookup i = some intId) (table : RouteTable) (b : Nat)
    (nh g : VID) (isDefault : Bool) (key : Nat × Nat) :
    (table.updateEntry interfaces i b nh g isDefault).slots key.1 key.2 =
      if key = (intId, b) then (if isDefault then (table.slots intId b).setDefault nh g
        else (table.slots intId b).addAlternate nh g)
      else table.slots key.1 key.2 := by
  rw [RouteTable.updateEntry, known]
  dsimp only
  rw [RouteTable.slots_setBucket]
  by_cases same : key = (intId, b)
  · subst key
    rw [if_pos ⟨rfl, rfl⟩, if_pos rfl]
    rfl
  · rw [if_neg fun both => same (Prod.ext both.1 both.2), if_neg same]

theorem slots_expire_ne (table : RouteTable) {interfaceId b : Nat} {key : Nat × Nat}
    (other : key ≠ (interfaceId, b)) :
    (table.expire interfaceId b).slots key.1 key.2 = table.slots key.1 key.2 := by
  rw [RouteTable.expire]
  split
  · rfl
  · rw [RouteTable.slots_setBucket, if_neg fun same => other (Prod.ext same.1 same.2)]

theorem expire_holds (table : RouteTable) (interfaceId b : Nat) :
    ((table.expire interfaceId b).slots interfaceId b).Holds [] := by
  rw [RouteTable.expire]
  split
  · rename_i absent
    rw [RouteTable.slots, absent, Option.getD_none]
    exact Bucket.empty_holds
  · rename_i bucket _
    rw [RouteTable.slots_setBucket, if_pos ⟨rfl, rfl⟩]
    exact Bucket.invalidate_holds bucket

/-- The bucket is as it was, and so are its timer and what is noted for it. -/
structure Untouched (before after : TracedRoutes) (key : Nat × Nat) : Prop where
  slots : after.timed.table.slots key.1 key.2 = before.timed.table.slots key.1 key.2
  timer : after.timed.expiries.lookup key = before.timed.expiries.lookup key
  written : after.written key = before.written key
  latest : after.latest key = before.latest key

/-- A step that takes no time and touches one bucket has only that one to answer for. -/
theorem Tracks.touch {before after : TracedRoutes} (tracks : before.Tracks) (key : Nat × Nat)
    (now : after.timed.now = before.timed.now)
    (others : ∀ other, other ≠ key → before.Untouched after other)
    (holds : (after.timed.table.slots key.1 key.2).Holds (after.written key))
    (aged : (after.written key).Aged before.timed.now)
    (timer : after.timed.expiries.lookup key = (after.written key).due)
    (current : ∀ due, (after.written key).due = some due → before.timed.now ≤ due)
    (default : ∀ route since, after.latest key = some (route, since) →
      before.timed.now < since + veilTblEntryExpiry →
        ∃ rest, after.written key = (⟨route.1, route.2, true, true⟩, since) :: rest) :
    after.Tracks := by
  refine ⟨fun other => ?_, fun other => ?_, fun other => ?_, fun other => ?_, fun other => ?_⟩
  · rcases eq_or_ne other key with rfl | apart
    · exact holds
    · rw [(others other apart).slots, (others other apart).written]
      exact tracks.holds other
  · rw [now]
    rcases eq_or_ne other key with rfl | apart
    · exact aged
    · rw [(others other apart).written]
      exact tracks.aged other
  · rcases eq_or_ne other key with rfl | apart
    · exact timer
    · rw [(others other apart).timer, (others other apart).written]
      exact tracks.timer other
  · rw [now]
    rcases eq_or_ne other key with rfl | apart
    · exact current
    · rw [(others other apart).written]
      exact tracks.current other
  · rw [now]
    rcases eq_or_ne other key with rfl | apart
    · exact default
    · rw [(others other apart).latest, (others other apart).written]
      exact tracks.default other

theorem Tracks.expiries_updateEntry {state : TracedRoutes} (tracks : state.Tracks)
    {interfaces : InterfaceTable} {i : VID} {intId : Nat}
    (known : interfaces.interfaces.lookup i = some intId) (b : Nat) (nh g : VID) (isDefault : Bool)
    (key : Nat × Nat) :
    (state.timed.updateEntry interfaces i b nh g isDefault).expiries.lookup key =
      if key = (intId, b) then ((state.written key).write state.timed.now nh g isDefault).due
      else state.timed.expiries.lookup key := by
  have own := tracks.aged (intId, b)
  have spare :
      (isDefault || (state.timed.table.slots intId b).toList.any fun entry => !entry.isValid) =
      decide (isDefault = true ∨ (state.written (intId, b)).length < maxGwPerBucket) := by
    rw [(tracks.holds (intId, b)).any_invalid own.valid, Bool.decide_or, Bool.decide_eq_true]
  rw [TimedRouteTable.updateEntry, known]
  dsimp only
  rw [spare]
  by_cases same : key = (intId, b)
  · subst key
    rw [if_pos rfl, WrittenRoutes.due_write]
    split
    · rename_i scheduled
      rw [if_pos (of_decide_eq_true scheduled), lookup_insert_ite, if_pos rfl]
    · rename_i unscheduled
      rw [if_neg fun scheduled => unscheduled (decide_eq_true scheduled)]
      exact tracks.timer (intId, b)
  · rw [if_neg same]
    split
    · rw [lookup_insert_ite, if_neg same]
    · rfl

theorem note_updateEntry (state : TracedRoutes) {interfaces : InterfaceTable} {i : VID}
    {intId : Nat} (known : interfaces.interfaces.lookup i = some intId) (b : Nat) (nh g : VID)
    (isDefault : Bool) (timed : TimedRouteTable) :
    state.note timed (.updateEntry interfaces i b nh g isDefault) = ⟨timed,
      Function.update state.written (intId, b)
        ((state.written (intId, b)).write state.timed.now nh g isDefault),
      if isDefault then Function.update state.latest (intId, b) (some ((nh, g), state.timed.now))
      else state.latest⟩ := by
  rw [note, known]

theorem Tracks.wrote {state : TracedRoutes} (tracks : state.Tracks) {interfaces : InterfaceTable}
    {i : VID} {intId : Nat} (known : interfaces.interfaces.lookup i = some intId) (b : Nat)
    (nh g : VID) (isDefault : Bool) :
    (state.note (state.timed.updateEntry interfaces i b nh g isDefault)
      (.updateEntry interfaces i b nh g isDefault)).Tracks := by
  have now : (state.timed.updateEntry interfaces i b nh g isDefault).now = state.timed.now := by
    rw [TimedRouteTable.updateEntry, known]
  have table : (state.timed.updateEntry interfaces i b nh g isDefault).table =
      state.timed.table.updateEntry interfaces i b nh g isDefault := by
    rw [TimedRouteTable.updateEntry, known]
  have own := tracks.aged (intId, b)
  have due := tracks.current (intId, b)
  rw [note_updateEntry state known]
  refine tracks.touch (intId, b) now (fun key apart => ⟨?_, ?_, ?_, ?_⟩) ?_ ?_ ?_ ?_ ?_
  · exact table ▸ (slots_updateEntry known _ b nh g isDefault key).trans (if_neg apart)
  · dsimp only
    rw [tracks.expiries_updateEntry known, if_neg apart]
  · exact Function.update_of_ne apart ..
  · cases isDefault with
    | true => exact Function.update_of_ne apart ..
    | false => rfl
  · have slots := slots_updateEntry known state.timed.table b nh g isDefault (intId, b)
    rw [if_pos rfl] at slots
    dsimp only at slots ⊢
    rw [table, slots, Function.update_self]
    cases isDefault with
    | true => exact Bucket.setDefault_holds _ _ _ _
    | false => exact (tracks.holds (intId, b)).addAlternate own.valid _ _ _
  · dsimp only
    rw [Function.update_self]
    exact own.write due nh g isDefault
  · dsimp only
    rw [tracks.expiries_updateEntry known, if_pos rfl, Function.update_self]
  · intro later pending
    dsimp only at pending
    rw [Function.update_self, WrittenRoutes.due_write] at pending
    split at pending
    · cases pending
      exact Nat.le_add_right _ _
    · exact due later pending
  · intro route since last young
    dsimp only at last ⊢
    rw [Function.update_self]
    cases isDefault with
    | true =>
        rw [if_pos rfl, Function.update_self, Option.some.injEq, Prod.mk.injEq] at last
        obtain ⟨rfl, rfl⟩ := last
        exact ⟨[], rfl⟩
    | false =>
        exact WrittenRoutes.write_head _ _ _ _ (tracks.default (intId, b) route since last young)

theorem Tracks.expired {state : TracedRoutes} (tracks : state.Tracks) {interfaceId b : Nat}
    {timed : TimedRouteTable} (fires : state.timed.expire interfaceId b = some timed) :
    (state.note timed (.expire interfaceId b)).Tracks := by
  rw [TimedRouteTable.expire] at fires
  split at fires
  · cases fires
  rename_i due pending
  split at fires
  · rename_i overdue
    cases fires
    rw [tracks.timer] at pending
    refine tracks.touch (interfaceId, b) rfl (fun key apart => ⟨?_, ?_, ?_, rfl⟩) ?_ ?_ ?_ ?_ ?_
    · exact slots_expire_ne _ apart
    · dsimp only [note]
      rw [lookup_erase_ite, if_neg apart]
    · exact Function.update_of_ne apart ..
    all_goals dsimp only [note]
    all_goals rw [Function.update_self]
    · exact expire_holds _ _ _
    · exact WrittenRoutes.aged_nil _
    · rw [lookup_erase_ite, if_pos rfl]
      rfl
    · intro later scheduled
      cases scheduled
    · -- the default route is not older than the write that has scheduled the timer
      intro route since last young
      obtain ⟨rest, headed⟩ := tracks.default (interfaceId, b) route since last young
      obtain ⟨newest, ends, rfl⟩ := Option.map_eq_some_iff.mp pending
      have order := (tracks.aged (interfaceId, b)).ordered _
        (headed ▸ List.mem_cons_self) newest ends
      dsimp only at order
      omega
  · cases fires

theorem Tracks.step {before after : TracedRoutes} {action : Action} (tracks : before.Tracks)
    (prompt : before.Prompt action) (moves : before.Step action after) : after.Tracks := by
  obtain ⟨timed, performed, rfl⟩ := moves
  cases action with
  | pass msec =>
      cases performed
      refine ⟨tracks.holds, fun key => (tracks.aged key).later (Nat.le_add_right _ _),
        tracks.timer, ?_, ?_⟩
      · intro key due pending
        exact prompt key due ((tracks.timer key).trans pending)
      · intro key route since last young
        exact tracks.default key route since last (Nat.lt_of_le_of_lt (Nat.le_add_right _ _) young)
  | updateEntry interfaces i b nh g isDefault =>
      cases performed
      cases known : interfaces.interfaces.lookup i with
      | none =>
          have same : before.note (before.timed.updateEntry interfaces i b nh g isDefault)
              (.updateEntry interfaces i b nh g isDefault) = before := by
            rw [note, known, TimedRouteTable.updateEntry, known]
          rw [same]
          exact tracks
      | some intId => exact tracks.wrote known b nh g isDefault
  | getRoute interfaces dst myinterface g isDefault =>
      cases performed
      have same := RouteTable.slots_congr
        (before.timed.table.getRoute_routes interfaces dst myinterface g isDefault)
      exact ⟨fun key => (same key.1 key.2).symm ▸ tracks.holds key, tracks.aged, tracks.timer,
        tracks.current, tracks.default⟩
  | expire interfaceId b => exact tracks.expired performed

theorem tracks_of_prompt {state : TracedRoutes}
    (run : Transition.Reaches (· = empty) Step Prompt state) : state.Tracks := by
  refine run.invariant Tracks ?_ fun before action after tracks prompt moves =>
    tracks.step prompt moves
  rintro _ rfl
  exact empty_tracks

/-- Where timers fire in time, the valid routes of a bucket are those written since it was
cleared, the oldest at most four terms ago, and a default route is found for a term after it was
written, unless another has been written since. -/
theorem routes_live {state : TracedRoutes} (run : Transition.Reaches (· = empty) Step Prompt state)
    (interfaceId b : Nat) :
    (state.timed.table.slots interfaceId b).toList.filter (·.isValid) =
        (state.written (interfaceId, b)).map Prod.fst ∧
      (∀ entry ∈ state.written (interfaceId, b), entry.2 ≤ state.timed.now ∧
        state.timed.now ≤ entry.2 + maxGwPerBucket * veilTblEntryExpiry) ∧
      (∀ nh g since, state.latest (interfaceId, b) = some ((nh, g), since) →
        state.timed.now < since + veilTblEntryExpiry →
          state.timed.table.defaultRoute interfaceId b = some (nh, g)) ∧
      state.timed.expiries.lookup (interfaceId, b) = (state.written (interfaceId, b)).due := by
  have tracks := tracks_of_prompt run
  have aged := tracks.aged (interfaceId, b)
  have holds := tracks.holds (interfaceId, b)
  refine ⟨holds.filter_valid aged.valid, ?_, ?_, tracks.timer (interfaceId, b)⟩
  · intro entry member
    obtain ⟨j, found⟩ := List.mem_iff_getElem?.mp member
    have bound := aged.le (tracks.current (interfaceId, b)) found
    have terms : ((state.written (interfaceId, b)).length - j) * veilTblEntryExpiry ≤
        maxGwPerBucket * veilTblEntryExpiry :=
      Nat.mul_le_mul_right _ ((Nat.sub_le _ _).trans aged.room)
    exact ⟨aged.past entry member, by omega⟩
  · intro nh g since last young
    obtain ⟨rest, headed⟩ := tracks.default (interfaceId, b) (nh, g) since last young
    obtain ⟨spare, slots, -⟩ := holds
    have chosen : (state.timed.table.slots interfaceId b).defaultEntry =
        some ⟨nh, g, true, true⟩ := by
      rw [Bucket.defaultEntry, slots, headed]
      rfl
    cases stored : state.timed.table.bucket? interfaceId b with
    | none =>
        rw [RouteTable.slots, stored] at chosen
        cases chosen
    | some bucket =>
        rw [RouteTable.slots, stored, Option.getD_some] at chosen
        rw [RouteTable.defaultRoute, stored, Option.bind_some, chosen]
        rfl

/-- Time does not pass a scheduled timer by, as can be read off the list of timers. -/
def InTime (state : TracedRoutes) : Action → Prop
  | .pass msec => ∀ expiry ∈ state.timed.expiries.entries, state.timed.now + msec ≤ expiry.2
  | _ => True

instance (state : TracedRoutes) (action : Action) : Decidable (state.InTime action) :=
  match action with
  | .pass _ => inferInstanceAs (Decidable (∀ expiry ∈ _, _))
  | .updateEntry .. | .getRoute .. | .expire .. => .isTrue trivial

def perform (state : TracedRoutes) (action : Action) : Option TracedRoutes :=
  if state.InTime action then
    (state.timed.perform action).map fun timed => state.note timed action
  else none

theorem reaches_of_foldlM {actions : List Action} {state : TracedRoutes}
    (result : actions.foldlM perform empty = some state) :
    Transition.Reaches (· = empty) Step Prompt state := by
  refine .foldlM perform actions (fun action _ before after performed => ?_) (.start rfl) result
  rw [perform] at performed
  split at performed
  · rename_i inTime
    obtain ⟨timed, moved, rfl⟩ := Option.map_eq_some_iff.mp performed
    refine ⟨?_, timed, moved, rfl⟩
    cases action with
    | pass msec => exact fun key due pending => inTime ⟨key, due⟩ (AList.mem_lookup_iff.mp pending)
    | updateEntry | getRoute | expire => trivial
  · cases performed

/-- A default route and an alternate are cleared together, and then a default route is written
again. -/
def rewritten : List Action :=
  [.updateEntry (.single 0x10000 1) 0x10000 34 0x300000000 0x10000 true, .pass 20000,
    .updateEntry (.single 0x10000 1) 0x10000 34 0x500000000 0x20000 false,
      .pass 60000, .expire 0 34,
    .updateEntry (.single 0x10000 1) 0x10000 34 0x500000000 0x10000 true, .pass 30000,
    .updateEntry (.single 0x10000 1) 0x10000 34 0x300000000 0x20000 false, .pass 20000]

theorem routes_live_rewritten :
    ∃ state, rewritten.foldlM perform empty = some state ∧ state.timed.now = 130000 ∧
      state.written (0, 34) = [(⟨0x500000000, 0x10000, true, true⟩, 80000),
        (⟨0x300000000, 0x20000, false, true⟩, 110000)] ∧
      (state.timed.table.slots 0 34).toList.filter (·.isValid) =
        (state.written (0, 34)).map Prod.fst ∧
      state.timed.table.defaultRoute 0 34 = some (0x500000000, 0x10000) ∧
      state.timed.expiries.lookup (0, 34) = some 170000 := by
  have values : (rewritten.foldlM perform empty).map (fun state =>
      (state.timed.now, state.written (0, 34), state.latest (0, 34))) =
      some (130000, [(⟨0x500000000, 0x10000, true, true⟩, 80000),
        (⟨0x300000000, 0x20000, false, true⟩, 110000)], some ((0x500000000, 0x10000), 80000)) := by
    decide +kernel
  obtain ⟨state, result, same⟩ := Option.map_eq_some_iff.mp values
  simp only [Prod.mk.injEq] at same
  obtain ⟨now, written, latest⟩ := same
  obtain ⟨slots, -, default, timer⟩ := routes_live (reaches_of_foldlM result) 0 34
  have young : state.timed.now < 80000 + veilTblEntryExpiry := by
    rw [now]
    decide
  refine ⟨state, result, now, written, slots, default _ _ _ latest young, timer.trans ?_⟩
  rw [written]
  decide

end TracedRoutes

end Veil
