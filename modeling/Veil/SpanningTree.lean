import Mathlib.Logic.Function.Basic
import Mathlib.Logic.Relation
import Veil.Library.Transition
import Veil.SpanningTreeState

/-! The parent pointers of a network of switches towards its controller, while advertisements are
under way and entries expire. -/

namespace Veil

open HashTable
open Relation (TransGen)

structure SpanningNetwork (Switch : Type) where
  vcc : Switch
  vccmac : EtherAddress
  interfaces : Switch → List EtherAddress
  owner : EtherAddress → Option Switch
  hears : EtherAddress → List Switch
  owner_iff : ∀ mac s, owner mac = some s ↔ mac ∈ interfaces s
  vcc_owns : owner vccmac = some vcc
  symmetric : ∀ s mac t, mac ∈ interfaces s → t ∈ hears mac →
    ∃ back, back ∈ interfaces t ∧ s ∈ hears back

structure NetworkState (Switch : Type) where
  now : Nat
  tables : Switch → SpanningTreeState
  flight : List (Switch × Frame)

inductive NetworkAction (Switch : Type) where
  | pass (msec : Nat)
  | broadcast (s : Switch)
  | deliver (i : Nat)
  | expire (s : Switch)

namespace SpanningNetwork

variable {Switch : Type} (net : SpanningNetwork Switch)

def entry (state : NetworkState Switch) (s : Switch) : Option ParentEntry :=
  (state.tables s).forwardingTableToVCC.lookup net.vccmac

def Follows (state : NetworkState Switch) (s t : Switch) : Prop :=
  ∃ mac, (state.tables s).getParentNodeToVCC net.vccmac = some mac ∧ net.owner mac = some t

def Acyclic (state : NetworkState Switch) : Prop :=
  ∀ s, s ≠ net.vcc → ¬TransGen (net.Follows state) s s

def announced (state : NetworkState Switch) (s : Switch) : NetworkState Switch :=
  { state with
    flight := state.flight ++ ((state.tables s).advertisements (net.interfaces s)).flatMap
      fun frame => (net.hears frame.shost).map fun t => (t, frame) }

def Accepts (state : NetworkState Switch) (t : Switch) (frame : Frame) : Prop :=
  ∀ pe, net.entry state t = some pe → (frame.shortAt 6).toNat + 1 ≤ pe.hopsToVcc.toNat

def Within (state : NetworkState Switch) (s : Switch) (hops : Nat) : Prop :=
  ∃ pe, net.entry state s = some pe ∧ pe.hopsToVcc.toNat ≤ hops

/-- A step that leaves no switch behind with a parent that has nothing to pass its reports on
with: an entry expires only when no other switch has its owner for a parent, and an advertisement
is accepted only while its sender still has an entry, no more hops from the controller than it
says; the largest cost, for which the next one has no room, is not accepted at all. -/
def Settled (state : NetworkState Switch) : NetworkAction Switch → Prop
  | .pass _ => True
  | .broadcast _ => True
  | .deliver i => ∀ t frame, state.flight[i]? = some (t, frame) → t ≠ net.vcc →
      net.Accepts state t frame → (frame.shortAt 6).toNat < 0xFFFF ∧
        ∃ s, net.owner frame.shost = some s ∧ net.Within state s (frame.shortAt 6).toNat
  | .expire s => ∀ t, ¬net.Follows state t s

/-- Every entry is farther from the controller than its parent's, and every advertisement under way
comes from a neighbour. -/
structure CountsDown (state : NetworkState Switch) : Prop where
  controller : ∃ pe, net.entry state net.vcc = some pe ∧ net.owner pe.parentMac = some net.vcc ∧
    pe.hopsToVcc = 1
  positive : ∀ s pe, net.entry state s = some pe → 0 < pe.hopsToVcc.toNat
  parent : ∀ s pe, s ≠ net.vcc → net.entry state s = some pe →
    ∃ t, net.owner pe.parentMac = some t ∧
    s ∈ net.hears pe.parentMac ∧ ∃ hops < pe.hopsToVcc.toNat, net.Within state t hops
  underway : ∀ t frame, (t, frame) ∈ state.flight → frame.vidAt 0 = net.vccmac ∧
    0 < (frame.shortAt 6).toNat ∧ t ∈ net.hears frame.shost
  keys : ∀ s vccmac pe, (state.tables s).forwardingTableToVCC.lookup vccmac = some pe →
    vccmac = net.vccmac

variable {net}

theorem follows_iff {state : NetworkState Switch} {s t : Switch} : net.Follows state s t ↔
    ∃ pe, net.entry state s = some pe ∧ net.owner pe.parentMac = some t := by
  simp only [Follows, entry, SpanningTreeState.getParentNodeToVCC, Option.map_eq_some_iff]
  constructor
  · rintro ⟨mac, ⟨pe, found, rfl⟩, owned⟩
    exact ⟨pe, found, owned⟩
  · rintro ⟨pe, found, owned⟩
    exact ⟨pe.parentMac, ⟨pe, found, rfl⟩, owned⟩

theorem CountsDown.descends {state : NetworkState Switch} (counts : net.CountsDown state)
    {s t : Switch} (other : s ≠ net.vcc) (way : TransGen (net.Follows state) s t) :
    t = net.vcc ∨ ∃ pe, net.entry state s = some pe ∧
      ∃ hops < pe.hopsToVcc.toNat, net.Within state t hops := by
  -- the hops of the way's last switch stay below those of the first
  induction way with
  | single step =>
      obtain ⟨pe, found, owned⟩ := follows_iff.mp step
      obtain ⟨t, same, -, lower⟩ := counts.parent s pe other found
      rw [owned, Option.some.injEq] at same
      exact Or.inr ⟨pe, found, same ▸ lower⟩
  | @tail middle last _ step ih =>
      obtain ⟨pe, found, owned⟩ := follows_iff.mp step
      by_cases atController : middle = net.vcc
      · obtain ⟨own, ownFound, ownOwned, -⟩ := counts.controller
        subst middle
        rw [ownFound, Option.some.injEq] at found
        subst own
        rw [owned, Option.some.injEq] at ownOwned
        exact Or.inl ownOwned
      · obtain ⟨first, firstFound, hops, lower, between, betweenFound, bound⟩ :=
          ih.resolve_left atController
        rw [found, Option.some.injEq] at betweenFound
        subst between
        obtain ⟨t, same, -, further, below, within⟩ := counts.parent middle pe atController found
        rw [owned, Option.some.injEq] at same
        subst t
        exact Or.inr ⟨first, firstFound, further, by omega, within⟩

theorem CountsDown.acyclic {state : NetworkState Switch} (counts : net.CountsDown state) :
    net.Acyclic state := by
  intro s other way
  rcases counts.descends other way with
    atController | ⟨pe, found, hops, lower, again, againFound, bound⟩
  · exact other atController
  · rw [found, Option.some.injEq] at againFound
    subst again
    omega

theorem CountsDown.announced {state : NetworkState Switch} (counts : net.CountsDown state)
    (s : Switch) :
    net.CountsDown (net.announced state s) where
  controller := counts.controller
  positive := counts.positive
  parent := counts.parent
  underway := by
    intro t frame member
    rcases List.mem_append.mp member with before | sent
    · exact counts.underway t frame before
    · obtain ⟨sentFrame, advertised, delivered⟩ := List.mem_flatMap.mp sent
      obtain ⟨receiver, heard, same⟩ := List.mem_map.mp delivered
      cases same
      obtain ⟨vccmac, pe, ethsrc, found, interface, rfl⟩ :=
        SpanningTreeState.mem_advertisements.mp advertised
      obtain rfl := counts.keys s vccmac pe found
      rw [SpanningTreeState.advertisement_vccmac, SpanningTreeState.advertisement_cost]
      exact ⟨rfl, counts.positive s pe found, heard⟩
  keys := counts.keys

section Steps

variable [DecidableEq Switch] (net)

def initial : NetworkState Switch where
  now := 0
  tables := fun s =>
    if s = net.vcc then (SpanningTreeState.empty.updateCostToVCC 0 net.vccmac net.vccmac 0).1
    else SpanningTreeState.empty
  flight := []

def delivered (state : NetworkState Switch) (i : Nat) (t : Switch) (frame : Frame) :
    NetworkState Switch :=
  { state with
    tables := Function.update state.tables t ((state.tables t).processAD state.now frame)
    flight := state.flight.eraseIdx i }

def expired (state : NetworkState Switch) (s : Switch) : NetworkState Switch :=
  { state with
    tables := Function.update state.tables s ((state.tables s).expireParent net.vccmac) }

/-- The step an action takes, where it is possible: a switch with an entry sends advertisements to
all its neighbours, any of those under way arrives, and a due entry of another switch than the
controller is erased. -/
def perform (state : NetworkState Switch) : NetworkAction Switch → Option (NetworkState Switch)
  | .pass msec => some { state with now := state.now + msec }
  | .broadcast s => if (net.entry state s).isSome then some (net.announced state s) else none
  | .deliver i => state.flight[i]?.map fun sent => delivered state i sent.1 sent.2
  | .expire s =>
      -- the controller advertises itself to itself, so that its own entry is always refreshed
      if s = net.vcc then none
      else match net.entry state s with
        | none => none
        | some pe => if pe.expiry ≤ state.now then some (net.expired state s) else none

def Step (state : NetworkState Switch) (action : NetworkAction Switch)
    (after : NetworkState Switch) : Prop :=
  net.perform state action = some after

variable {net}

theorem entry_initial (s : Switch) : net.entry net.initial s =
    if s = net.vcc then some ⟨net.vccmac, 1, veilSpanningTreeEntryExpiry⟩ else none := by
  simp only [entry, initial]
  by_cases controller : s = net.vcc
  · rw [if_pos controller, if_pos controller, SpanningTreeState.updateCostToVCC_lookup,
      if_pos ⟨rfl, fun _ found => nomatch found⟩]
    rfl
  · rw [if_neg controller, if_neg controller]
    rfl

theorem initial_countsDown : net.CountsDown net.initial where
  controller := ⟨_, by rw [entry_initial, if_pos rfl], net.vcc_owns, rfl⟩
  positive := by
    intro s pe found
    rw [entry_initial] at found
    split at found
    · cases found
      exact Nat.one_pos
    · cases found
  parent := by
    intro s pe other found
    rw [entry_initial, if_neg other] at found
    cases found
  underway := by
    intro t frame member
    cases member
  keys := by
    intro s vccmac pe found
    simp only [initial] at found
    split at found
    · rw [SpanningTreeState.updateCostToVCC_lookup] at found
      split at found
      · rename_i same
        exact same.1
      · cases found
    · cases found

theorem entry_delivered (state : NetworkState Switch) (i : Nat) (t : Switch) {frame : Frame}
    (forController : frame.vidAt 0 = net.vccmac) (s : Switch) :
    net.entry (delivered state i t frame) s =
      open Classical in if s = t ∧ net.Accepts state t frame then
        some ⟨frame.shost, frame.shortAt 6 + 1, state.now + veilSpanningTreeEntryExpiry⟩
      else net.entry state s := by
  by_cases receiver : s = t
  · subst s
    simp only [entry, Accepts, delivered, Function.update_self, SpanningTreeState.processAD,
      forController, SpanningTreeState.updateCostToVCC_lookup, true_and]
  · rw [if_neg fun accepted => receiver accepted.1]
    simp only [entry, delivered, Function.update_of_ne receiver]

theorem entry_expired (state : NetworkState Switch) (s other : Switch) :
    net.entry (net.expired state s) other = if other = s then none else net.entry state other := by
  by_cases same : other = s
  · subst other
    simp [entry, expired, SpanningTreeState.expireParent]
  · simp only [entry, expired, Function.update_of_ne same, if_neg same]

theorem step_cases {state after : NetworkState Switch} {action : NetworkAction Switch}
    (moves : net.Step state action after) :
    (∃ msec, action = .pass msec ∧ after = { state with now := state.now + msec }) ∨
    (∃ s, action = .broadcast s ∧ (net.entry state s).isSome ∧ after = net.announced state s) ∨
    (∃ i t frame, action = .deliver i ∧ state.flight[i]? = some (t, frame) ∧
      after = delivered state i t frame) ∨
    (∃ s pe, action = .expire s ∧ s ≠ net.vcc ∧ net.entry state s = some pe ∧
      pe.expiry ≤ state.now ∧ after = net.expired state s) := by
  cases action with
  | pass msec =>
      simp only [Step, perform, Option.some.injEq] at moves
      exact Or.inl ⟨msec, rfl, moves.symm⟩
  | broadcast s =>
      simp only [Step, perform] at moves
      split at moves
      · rename_i present
        rw [Option.some.injEq] at moves
        exact Or.inr (Or.inl ⟨s, rfl, present, moves.symm⟩)
      · cases moves
  | deliver i =>
      simp only [Step, perform, Option.map_eq_some_iff] at moves
      obtain ⟨⟨t, frame⟩, underway, arrives⟩ := moves
      exact Or.inr (Or.inr (Or.inl ⟨i, t, frame, rfl, underway, arrives.symm⟩))
  | expire s =>
      simp only [Step, perform] at moves
      split at moves
      · cases moves
      · rename_i other
        split at moves
        · cases moves
        · rename_i pe found
          split at moves
          · rename_i due
            rw [Option.some.injEq] at moves
            exact Or.inr (Or.inr (Or.inr ⟨s, pe, rfl, other, found, due, moves.symm⟩))
          · cases moves

theorem Within.delivered {state : NetworkState Switch} {i : Nat} {t : Switch} {frame : Frame}
    (forController : frame.vidAt 0 = net.vccmac) {s : Switch} {hops : Nat}
    (within : net.Within state s hops) :
    net.Within (delivered state i t frame) s hops := by
  obtain ⟨pe, found, bound⟩ := within
  by_cases accepted : s = t ∧ net.Accepts state t frame
  · refine ⟨_, by rw [entry_delivered state i t forController, if_pos accepted], ?_⟩
    have closer := accepted.2 pe (accepted.1 ▸ found)
    have small := pe.hopsToVcc.isLt
    rw [SpanningTreeState.toNat_cost_succ (by omega)]
    omega
  · exact ⟨pe, by rw [entry_delivered state i t forController, if_neg accepted]; exact found, bound⟩

theorem CountsDown.delivered {state : NetworkState Switch} (counts : net.CountsDown state) {i : Nat}
    {t : Switch} {frame : Frame} (sent : state.flight[i]? = some (t, frame))
    (settled : net.Settled state (.deliver i)) : net.CountsDown (delivered state i t frame) := by
  obtain ⟨forController, away, heard⟩ := counts.underway t frame (List.mem_of_getElem? sent)
  have entries := entry_delivered state i t forController
  have used (s : Switch) (accepted : s = t ∧ net.Accepts state t frame) :
      t ≠ net.vcc ∧ (frame.shortAt 6).toNat < 0xFFFF ∧ ∃ sender,
        net.owner frame.shost = some sender ∧ net.Within state sender (frame.shortAt 6).toNat := by
    have other : t ≠ net.vcc := by
      rintro rfl
      obtain ⟨own, found, -, one⟩ := counts.controller
      have closer := accepted.2 own found
      rw [one] at closer
      have : (1 : BitVec 16).toNat = 1 := rfl
      omega
    exact ⟨other, settled t frame sent other accepted.2⟩
  refine ⟨?_, ?_, ?_, ?_, ?_⟩
  · rw [entries, if_neg fun accepted => (used _ accepted).1 accepted.1.symm]
    exact counts.controller
  · intro s pe found
    rw [entries] at found
    split at found
    · rename_i accepted
      cases found
      rw [SpanningTreeState.toNat_cost_succ (used s accepted).2.1]
      exact Nat.succ_pos _
    · exact counts.positive s pe found
  · intro s pe other found
    rw [entries] at found
    split at found
    · rename_i accepted
      obtain ⟨-, room, sender, owned, within⟩ := used s accepted
      cases found
      refine ⟨sender, owned, accepted.1 ▸ heard, _, ?_, within.delivered forController⟩
      rw [SpanningTreeState.toNat_cost_succ room]
      exact Nat.lt_succ_self _
    · obtain ⟨parent, owned, hearing, hops, lower, within⟩ := counts.parent s pe other found
      exact ⟨parent, owned, hearing, hops, lower, within.delivered forController⟩
  · intro other another member
    exact counts.underway other another (List.mem_of_mem_eraseIdx member)
  · intro s vccmac pe found
    by_cases receiver : s = t
    · subst s
      simp only [SpanningNetwork.delivered, Function.update_self, SpanningTreeState.processAD,
        forController, SpanningTreeState.updateCostToVCC_lookup] at found
      split at found
      · rename_i accepted
        exact accepted.1
      · exact counts.keys t vccmac pe found
    · simp only [SpanningNetwork.delivered, Function.update_of_ne receiver] at found
      exact counts.keys s vccmac pe found

theorem CountsDown.expired {state : NetworkState Switch} (counts : net.CountsDown state)
    {s : Switch} (other : s ≠ net.vcc) (settled : net.Settled state (.expire s)) :
    net.CountsDown (net.expired state s) := by
  have entries (t : Switch) : net.entry (net.expired state s) t =
      if t = s then none else net.entry state t := entry_expired state s t
  refine ⟨?_, ?_, ?_, counts.underway, ?_⟩
  · rw [entries, if_neg other.symm]
    exact counts.controller
  · intro t pe found
    rw [entries] at found
    split at found
    · cases found
    · exact counts.positive t pe found
  · intro t pe elsewhere found
    rw [entries] at found
    split at found
    · cases found
    · obtain ⟨parent, owned, hearing, hops, lower, own, ownFound, bound⟩ :=
        counts.parent t pe elsewhere found
      have kept : parent ≠ s := by
        rintro rfl
        exact settled t (follows_iff.mpr ⟨pe, found, owned⟩)
      exact ⟨parent, owned, hearing, hops, lower, own,
        by rw [entries, if_neg kept, ownFound], bound⟩
  · intro t vccmac pe found
    by_cases same : t = s
    · subst t
      simp only [SpanningNetwork.expired, Function.update_self,
        SpanningTreeState.expireParent] at found
      by_cases controller : vccmac = net.vccmac
      · exact controller
      · rw [AList.lookup_erase_ne controller] at found
        exact counts.keys s vccmac pe found
    · simp only [SpanningNetwork.expired, Function.update_of_ne same] at found
      exact counts.keys t vccmac pe found

theorem CountsDown.step {state after : NetworkState Switch} {action : NetworkAction Switch}
    (counts : net.CountsDown state) (settled : net.Settled state action)
    (moves : net.Step state action after) : net.CountsDown after := by
  rcases step_cases moves with ⟨msec, rfl, rfl⟩ | ⟨s, rfl, -, rfl⟩ | ⟨i, t, frame, rfl, sent, rfl⟩ |
    ⟨s, pe, rfl, other, -, -, rfl⟩
  · exact ⟨counts.controller, counts.positive, counts.parent, counts.underway, counts.keys⟩
  · exact counts.announced s
  · exact counts.delivered sent settled
  · exact counts.expired other settled

/-- In every state of a run of settled steps the parents lead away from where they start. -/
theorem settled_acyclic {state : NetworkState Switch}
    (run : Transition.Reaches (· = net.initial) net.Step net.Settled state) :
    net.Acyclic state := by
  refine CountsDown.acyclic (run.invariant net.CountsDown ?_ ?_)
  · rintro _ rfl
    exact initial_countsDown
  · intro before action after counts settled moves
    exact counts.step settled moves

theorem orphan_cycle {state : NetworkState Switch} {s t : Switch} {pe : ParentEntry}
    (different : t ≠ s) (found : net.entry state t = some pe)
    (owned : net.owner pe.parentMac = some s) (heard : t ∈ net.hears pe.parentMac)
    (orphan : net.entry state s = none) :
    ∃ i after, net.Step state (.broadcast t) (net.announced state t) ∧
      net.Step (net.announced state t) (.deliver i) after ∧
      net.Follows after s t ∧ net.Follows after t s := by
  obtain ⟨back, interface, hearing⟩ :=
    net.symmetric s pe.parentMac t ((net.owner_iff _ _).mp owned) heard
  have sent : (s, SpanningTreeState.advertisement back net.vccmac pe.hopsToVcc) ∈
      (net.announced state t).flight := by
    refine List.mem_append_right _ (List.mem_flatMap.mpr ⟨_, ?_,
      List.mem_map.mpr ⟨s, hearing, rfl⟩⟩)
    exact SpanningTreeState.mem_advertisements.mpr ⟨net.vccmac, pe, back, found, interface, rfl⟩
  obtain ⟨i, place⟩ := List.mem_iff_getElem?.mp sent
  have entries := entry_delivered (net.announced state t) i s
    (SpanningTreeState.advertisement_vccmac back net.vccmac pe.hopsToVcc)
  have accepted : net.Accepts (net.announced state t) s
      (SpanningTreeState.advertisement back net.vccmac pe.hopsToVcc) :=
    fun own ownFound => nomatch orphan.symm.trans ownFound
  refine ⟨i, _, if_pos (by rw [found]; rfl), by rw [Step, perform, place]; rfl, ?_, ?_⟩
  · exact follows_iff.mpr ⟨_, by rw [entries, if_pos ⟨rfl, accepted⟩],
      (net.owner_iff back t).mpr interface⟩
  · exact follows_iff.mpr ⟨pe, by rw [entries, if_neg fun both => different both.1]; exact found,
      owned⟩

theorem CountsDown.expired_cycle {state : NetworkState Switch} (counts : net.CountsDown state)
    {s t : Switch} (other : s ≠ net.vcc) (child : net.Follows state t s) :
    ∃ i before after, net.Step (net.expired state s) (.broadcast t) before ∧
      net.Step before (.deliver i) after ∧ ¬net.Acyclic after := by
  obtain ⟨pe, found, owned⟩ := follows_iff.mp child
  have different : t ≠ s := by
    rintro rfl
    exact counts.acyclic t other (.single child)
  have elsewhere : t ≠ net.vcc := by
    rintro rfl
    obtain ⟨own, ownFound, ownOwned, -⟩ := counts.controller
    rw [found, Option.some.injEq] at ownFound
    subst own
    rw [owned, Option.some.injEq] at ownOwned
    exact other ownOwned
  obtain ⟨-, -, heard, -⟩ := counts.parent t pe elsewhere found
  obtain ⟨i, after, sends, arrives, back, forth⟩ := orphan_cycle different
    (by rw [entry_expired, if_neg different, found]) owned heard (by rw [entry_expired, if_pos rfl])
  exact ⟨i, _, after, sends, arrives, fun acyclic => acyclic s other (.head back (.single forth))⟩

end Steps

/-! ### The controller, a neighbour of it and a neighbour of that -/

def lineMac (s : Fin 3) : EtherAddress := BitVec.ofNat 48 s

def lineOwner (mac : EtherAddress) : Option (Fin 3) :=
  if inside : mac.toNat < 3 then some ⟨mac.toNat, inside⟩ else none

def lineNeighbors : Fin 3 → List (Fin 3)
  | 0 => [1]
  | 1 => [0, 2]
  | 2 => [1]

theorem lineOwner_iff (mac : EtherAddress) (s : Fin 3) :
    lineOwner mac = some s ↔ mac ∈ [lineMac s] := by
  have small := s.isLt
  simp only [lineOwner, lineMac, List.mem_singleton, Option.dite_none_right_eq_some,
    Option.some.injEq,
    Fin.ext_iff]
  constructor
  · rintro ⟨inside, same⟩
    bv_omega
  · rintro rfl
    have same : (BitVec.ofNat 48 s.val).toNat = s.val := Nat.mod_eq_of_lt (by omega)
    exact ⟨by omega, same⟩

theorem lineNeighbors_symm : ∀ s t : Fin 3, t ∈ lineNeighbors s → s ∈ lineNeighbors t := by decide

def lineSwitches : SpanningNetwork (Fin 3) where
  vcc := 0
  vccmac := 0
  interfaces := fun s => [lineMac s]
  owner := lineOwner
  hears := fun mac => (lineOwner mac).elim [] lineNeighbors
  owner_iff := lineOwner_iff
  vcc_owns := rfl
  symmetric := by
    intro s mac t interface heard
    rw [(lineOwner_iff mac s).mpr interface] at heard
    refine ⟨lineMac t, List.mem_singleton_self _, ?_⟩
    rw [(lineOwner_iff (lineMac t) t).mpr (List.mem_singleton_self _)]
    exact lineNeighbors_symm s t heard

def lineRun : List (NetworkAction (Fin 3)) :=
  [.broadcast 0, .deliver 0, .pass 1, .broadcast 1, .deliver 1, .broadcast 2,
      .pass 59999, .expire 1,
    .deliver 1]

/-- The middle switch's entry expires while an advertisement of its child is under way to it. -/
theorem reachable_not_acyclic :
    ¬∀ state, Transition.Reachable (· = lineSwitches.initial) lineSwitches.Step state →
      lineSwitches.Acyclic state := by
  intro always
  cases final : lineRun.foldlM lineSwitches.perform lineSwitches.initial with
  | none => exact absurd final (by decide +kernel)
  | some state =>
      have parents : (lineRun.foldlM lineSwitches.perform lineSwitches.initial).map (fun state =>
          ((state.tables 1).getParentNodeToVCC 0, (state.tables 2).getParentNodeToVCC 0)) =
          some (some (lineMac 2), some (lineMac 1)) := by decide +kernel
      rw [final, Option.map_some, Option.some.injEq, Prod.mk.injEq] at parents
      exact always state
        (.foldlM _ _ (fun _ _ _ _ moves => ⟨trivial, moves⟩) (.start rfl) final) 1 (by decide)
        (.head ⟨_, parents.1, rfl⟩ (.single ⟨_, parents.2, rfl⟩))

def lineArrived : NetworkState (Fin 3) :=
  delivered (lineSwitches.announced lineSwitches.initial 0) 0 1
    (SpanningTreeState.advertisement 0 0 1)

theorem settled_acyclic_line :
    lineSwitches.Acyclic (lineSwitches.expired { lineArrived with now := 60000 } 1) := by
  have sends : lineSwitches.Step lineSwitches.initial (.broadcast 0)
      (lineSwitches.announced lineSwitches.initial 0) := by rfl
  have arrives : lineSwitches.Step (lineSwitches.announced lineSwitches.initial 0) (.deliver 0)
      lineArrived := by rfl
  have waits : lineSwitches.Step lineArrived (.pass 60000) { lineArrived with
      now := 60000 } := by rfl
  have ends : lineSwitches.Step { lineArrived with now := 60000 } (.expire 1)
      (lineSwitches.expired { lineArrived with now := 60000 } 1) := by rfl
  refine settled_acyclic
    (.next (.next (.next (.next (.start rfl) ?_ sends) ?_ arrives) ?_ waits) ?_ ends)
  · trivial
  · intro t frame underway other accepted
    cases underway
    exact ⟨by decide +kernel, 0, by decide +kernel, _, by rfl, by decide +kernel⟩
  · trivial
  · rintro t ⟨mac, parent, owned⟩
    have childless :
        ∀ t, ((lineArrived.tables t).getParentNodeToVCC 0).bind lineOwner ≠ some 1 := by
      decide +kernel
    exact childless t (Option.bind_eq_some_iff.mpr ⟨mac, parent, owned⟩)

end SpanningNetwork

end Veil
