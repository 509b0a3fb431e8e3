import Mathlib.Logic.Function.Basic
import Veil.Library.Transition
import Veil.ProcessAccessInfo

/-! A host that moves once: the switch it leaves, the switch it comes to, the access switch of its
IP, and the messages between the three. -/

namespace Veil

inductive Place where
  | old
  | new
  | access
deriving DecidableEq

structure HostMove where
  ip : IPAddress
  mac : EtherAddress
  vid : Place → VID
  interfaces : Place → InterfaceTable
  port : Place → Int
  startrand : Place → BitVec 16
  switchVid : ∀ place, (vid place).IsSwitchVID
  distinct : Function.Injective vid
  owns : ∀ place, ((interfaces place).lookupVidEntry (vid place)).1 = true

structure MoveState where
  tables : Place → ProcessAccessInfo
  registered : Bool
  flight : List Frame

inductive MoveAction where
  | publish (place : Place)
  | register
  | deliver (i : Nat)

namespace HostMove

open HashTable

variable (move : HostMove)

def initial : MoveState where
  tables := fun place =>
    ⟨if place = .old then
        (HostTable.empty.registerHost move.ip move.mac (move.port .old) (move.vid .old)
          (move.startrand .old)).1
      else HostTable.empty, move.interfaces place, ∅⟩
  registered := false
  flight := []

def receiver (frame : Frame) : Place :=
  if frame.veilType = veilMapPublish then .access
  else if frame.dvid = move.vid .old then .old
  else if frame.dvid = move.vid .new then .new
  else .access

/-- The frame as it reaches its destination, where forwarding has put the destination's VID. -/
def arriving (place : Place) (frame : Frame) : Frame :=
  { frame with dhost := move.vid place, dvid := move.vid place }

def perform (state : MoveState) : MoveAction → Option MoveState
  | .publish place =>
      some { state with flight := state.flight ++ (state.tables place).hosts.publishAccessInfo }
  | .register =>
      if state.registered then none
      else
        let (hosts, sent) := (state.tables .new).hosts.registerHost move.ip move.mac
          (move.port .new)
          (move.vid .new) (move.startrand .new)
        some {
          tables := Function.update state.tables .new { state.tables .new with hosts }
          registered := true
          flight := state.flight ++ sent }
  | .deliver i =>
      match state.flight[i]? with
      | none => none
      | some frame =>
          let place := move.receiver frame
          let (tables, pushed, returned) :=
            (state.tables place).smaction (move.arriving place frame)
          some { state with
            tables := Function.update state.tables place tables
            flight := state.flight.eraseIdx i ++ pushed ++ returned.toList }

def Step (state : MoveState) (action : MoveAction) (after : MoveState) : Prop :=
  move.perform state action = some after

def hostVid (place : Place) : VID := HostTable.hostVid (move.vid place) (move.startrand place)

def Moved (state : MoveState) : Prop :=
  ∃ entry, (state.tables .access).map.lookup move.ip = some entry ∧ entry.ipVid = move.hostVid .new

/-- Once registered, the host keeps its entry at the new switch; and when nothing is under way and
the old switch has no entry, the access switch knows the new VID. -/
structure LosesNothing (state : MoveState) : Prop where
  kept : state.registered = true → ((state.tables .new).hosts.lookupIP move.ip).isSome = true
  settled : state.flight = [] → (state.tables .old).hosts.lookupIP move.ip = none → move.Moved state

/-- The access switch does not take up the old VID again, once it knows the new one. -/
def InOrder (state : MoveState) : MoveAction → Prop
  | .publish _ => True
  | .register => True
  | .deliver i => ∀ frame, state.flight[i]? = some frame → frame.veilType = veilMapPublish →
      frame.vidAt 10 = move.hostVid .old → ¬move.Moved state

def Publishes (vid : VID) (frame : Frame) : Prop :=
  frame.veilType = veilMapPublish ∧ frame.payload = mapPayload move.ip move.mac vid

def Updates (frame : Frame) : Prop :=
  frame.veilType = veilMapUpdate ∧ frame.dvid = move.vid .old ∧
    frame.payload = mapPayload move.ip move.mac (move.hostVid .new)

def hosting (place : Place) : HostTable :=
  HostTable.hosting move.ip move.mac (move.hostVid place) (move.port place)

structure Following (state : MoveState) : Prop where
  interfaces : ∀ place, (state.tables place).interfaces = move.interfaces place
  old : (state.tables .old).hosts = move.hosting .old ∨
    (state.tables .old).hosts.iphosts = ∅ ∧ move.Moved state
  new : (state.tables .new).hosts = if state.registered then move.hosting .new else HostTable.empty
  access : (state.tables .access).hosts = HostTable.empty
  mapped : ∀ entry, (state.tables .access).map.lookup move.ip = some entry →
    entry.ipVid = move.hostVid .old ∨ state.registered = true ∧ entry.ipVid = move.hostVid .new
  underway : ∀ frame ∈ state.flight, move.Publishes (move.hostVid .old) frame ∨
    state.registered = true ∧ move.Publishes (move.hostVid .new) frame ∨
    move.Updates frame ∧ move.Moved state

variable {move}

theorem getSwitchVID_hostVid (place : Place) : (move.hostVid place).getSwitchVID = move.vid place :=
  HostTable.getSwitchVID_hostVid (move.switchVid place) _

theorem hostVid_ne {first second : Place} (different : first ≠ second) :
    move.hostVid first ≠ move.hostVid second := by
  intro same
  have switches := congrArg VID.getSwitchVID same
  rw [getSwitchVID_hostVid, getSwitchVID_hostVid] at switches
  exact different (move.distinct switches)

theorem receiver_of_update {frame : Frame} {place : Place} (update : frame.veilType = veilMapUpdate)
    (addressed : frame.dvid = move.vid place) : move.receiver frame = place := by
  have noPublish : veilMapUpdate ≠ veilMapPublish := by decide
  rw [receiver, update, addressed, if_neg noPublish]
  cases place with
  | old => exact if_pos rfl
  | new => rw [if_neg fun same => Place.noConfusion (move.distinct same), if_pos rfl]
  | access =>
      rw [if_neg fun same => Place.noConfusion (move.distinct same),
        if_neg fun same => Place.noConfusion (move.distinct same)]

/-! ### What a delivery does -/

def myVid (move : HostMove) (frame : Frame) : VID :=
  ((move.interfaces .access).lookupIntEntry frame.port).getD 0

def corrections (move : HostMove) (state : MoveState) (vid myVid : VID) : List Frame :=
  match (state.tables .access).map.lookup move.ip with
  | none => []
  | some old =>
      if old.ipVid ≠ vid then
        [updateAccessInfoPacket move.ip move.mac vid old.ipVid.getSwitchVID myVid]
      else []

def takenUp (move : HostMove) (state : MoveState) (i : Nat) (vid myVid : VID) : MoveState :=
  { state with
    tables := Function.update state.tables .access { state.tables .access with
      map := (state.tables .access).map.updateEntry move.ip vid myVid move.mac }
    flight := state.flight.eraseIdx i ++ move.corrections state vid myVid }

def told (move : HostMove) (state : MoveState) (i : Nat) (place : Place) (vid : VID) : MoveState :=
  { state with
    tables := Function.update state.tables place { state.tables place with
      hosts :=
        if ((state.tables place).hosts.lookupIP move.ip).getD 0 ≠ vid then
          (state.tables place).hosts.deleteIP move.ip
        else (state.tables place).hosts }
    flight := state.flight.eraseIdx i }

theorem interfaces_update {tables : Place → ProcessAccessInfo}
    (interfaces : ∀ place, (tables place).interfaces = move.interfaces place) {changed : Place}
    {table : ProcessAccessInfo} (same : table.interfaces = (tables changed).interfaces)
    (place : Place) :
    (Function.update tables changed table place).interfaces = move.interfaces place := by
  by_cases here : place = changed
  · rw [here, Function.update_self, same, interfaces]
  · rw [Function.update_of_ne here, interfaces]

section Deliveries

variable {state : MoveState} {i : Nat} {frame : Frame}

theorem deliver_publication
    (interfaces : ∀ place, (state.tables place).interfaces = move.interfaces place)
    (sent : state.flight[i]? = some frame) {vid : VID} (publishes : move.Publishes vid frame) :
    move.perform state (.deliver i) = some (move.takenUp state i vid (move.myVid frame)) := by
  have place : move.receiver frame = .access := if_pos publishes.1
  have owns : ((state.tables .access).interfaces.lookupVidEntry (move.vid .access)).1 = true := by
    rw [interfaces]
    exact move.owns .access
  simp only [perform, sent, place]
  rw [ProcessAccessInfo.smaction_mapPublish _ (move.arriving .access frame) owns rfl
    rfl publishes.1,
    ProcessAccessInfo.mapPublish_eq _ (move.arriving .access frame) publishes.2]
  simp only [takenUp, corrections, myVid, interfaces, Option.toList_none, List.append_nil]
  rfl

theorem deliver_update
    (interfaces : ∀ place, (state.tables place).interfaces = move.interfaces place)
    (sent : state.flight[i]? = some frame) {place : Place} {vid : VID}
    (update : frame.veilType = veilMapUpdate) (addressed : frame.dvid = move.vid place)
    (carried : frame.payload = mapPayload move.ip move.mac vid) :
    move.perform state (.deliver i) = some (move.told state i place vid) := by
  have owns : ((state.tables place).interfaces.lookupVidEntry (move.vid place)).1 = true := by
    rw [interfaces]
    exact move.owns place
  simp only [perform, sent, receiver_of_update update addressed]
  rw [ProcessAccessInfo.smaction_mapUpdate _ (move.arriving place frame) owns rfl rfl update,
    ProcessAccessInfo.mapUpdate_eq _ (move.arriving place frame) carried]
  simp only [told, Option.toList_none, List.append_nil]

theorem moved_takenUp (vid myVid : VID) :
    move.Moved (move.takenUp state i vid myVid) ↔ vid = move.hostVid .new := by
  simp only [Moved, takenUp, Function.update_self, MappingTable.updateEntry, AList.lookup_insert,
    Option.some.injEq, exists_eq_left']

theorem moved_told {place : Place} (elsewhere : place ≠ .access) (vid : VID) :
    move.Moved (move.told state i place vid) ↔ move.Moved state := by
  simp only [Moved, told, Function.update_of_ne elsewhere.symm]

end Deliveries

/-! ### Steps in order -/

theorem Following.lookupIP_new {state : MoveState} (follows : move.Following state)
    (registered : state.registered = true) :
    (state.tables .new).hosts.lookupIP move.ip = some (move.hostVid .new) := by
  rw [follows.new, if_pos registered]
  exact HostTable.hosting_lookupIP _ _ _ _

theorem Following.losesNothing {state : MoveState} (follows : move.Following state) :
    move.LosesNothing state where
  kept := by
    intro registered
    rw [follows.lookupIP_new registered]
    rfl
  settled := by
    intro _ erased
    rcases follows.old with hosting | ⟨-, moved⟩
    · rw [hosting, HostMove.hosting, HostTable.hosting_lookupIP] at erased
      cases erased
    · exact moved

theorem initial_following : move.Following move.initial where
  interfaces := fun _ => rfl
  old := Or.inl (by
    simp only [initial, if_true, HostTable.registerHost_empty]
    rfl)
  new := rfl
  access := rfl
  mapped := by
    intro entry found
    cases found
  underway := by
    intro frame member
    cases member

theorem publishes_publishAccessInfoPacket (vid : VID) :
    move.Publishes vid (publishAccessInfoPacket move.ip move.mac vid) := ⟨rfl, rfl⟩

theorem Following.published {state : MoveState} (follows : move.Following state) {place : Place}
    {frame : Frame} (member : frame ∈ (state.tables place).hosts.publishAccessInfo) :
    move.Publishes (move.hostVid .old) frame ∨
      state.registered = true ∧ move.Publishes (move.hostVid .new) frame := by
  cases place with
  | old =>
      rcases follows.old with hosting | ⟨erased, -⟩
      · rw [hosting, HostMove.hosting, HostTable.hosting_publishAccessInfo,
          List.mem_singleton] at member
        exact Or.inl (member ▸ publishes_publishAccessInfoPacket _)
      · rw [HostTable.publishAccessInfo_nil erased] at member
        cases member
  | new =>
      rw [follows.new] at member
      split at member
      · rename_i registered
        rw [HostMove.hosting, HostTable.hosting_publishAccessInfo, List.mem_singleton] at member
        exact Or.inr ⟨registered, member ▸ publishes_publishAccessInfoPacket _⟩
      · cases member
  | access =>
      rw [follows.access] at member
      cases member

theorem Following.publish {state : MoveState} (follows : move.Following state) (place : Place) :
    move.Following { state with
      flight := state.flight ++ (state.tables place).hosts.publishAccessInfo } where
  interfaces := follows.interfaces
  old := follows.old
  new := follows.new
  access := follows.access
  mapped := follows.mapped
  underway := by
    intro frame member
    rcases List.mem_append.mp member with before | sent
    · exact follows.underway frame before
    · rcases follows.published sent with old | new
      · exact Or.inl old
      · exact Or.inr (Or.inl new)

def arrived (move : HostMove) (state : MoveState) : MoveState where
  tables := Function.update state.tables .new { state.tables .new with hosts := move.hosting .new }
  registered := true
  flight := state.flight ++ [publishAccessInfoPacket move.ip move.mac (move.hostVid .new)]

theorem Following.register {state after : MoveState} (follows : move.Following state)
    (moves : move.perform state .register = some after) :
    state.registered = false ∧ after = move.arrived state := by
  simp only [perform] at moves
  split at moves
  · cases moves
  · rename_i unregistered
    rw [follows.new, if_neg unregistered, HostTable.registerHost_empty, Option.some.injEq] at moves
    exact ⟨Bool.eq_false_iff.mpr unregistered, moves.symm⟩

theorem Following.arrived {state : MoveState} (follows : move.Following state) :
    move.Following (move.arrived state) where
  interfaces := interfaces_update follows.interfaces rfl
  old := follows.old
  new := rfl
  access := follows.access
  mapped := by
    intro entry found
    rcases follows.mapped entry found with old | ⟨-, new⟩
    · exact Or.inl old
    · exact Or.inr ⟨rfl, new⟩
  underway := by
    intro frame member
    rcases List.mem_append.mp member with before | sent
    · rcases follows.underway frame before with old | ⟨-, new⟩ | update
      · exact Or.inl old
      · exact Or.inr (Or.inl ⟨rfl, new⟩)
      · exact Or.inr (Or.inr update)
    · rw [List.mem_singleton.mp sent]
      exact Or.inr (Or.inl ⟨rfl, publishes_publishAccessInfoPacket _⟩)

theorem mem_corrections {state : MoveState} {vid myVid : VID} {frame : Frame}
    (member : frame ∈ move.corrections state vid myVid) :
    ∃ entry, (state.tables .access).map.lookup move.ip = some entry ∧ entry.ipVid ≠ vid ∧
      frame = updateAccessInfoPacket move.ip move.mac vid entry.ipVid.getSwitchVID myVid := by
  rw [corrections] at member
  split at member
  · cases member
  · rename_i entry found
    split at member
    · rename_i different
      exact ⟨entry, found, different, List.mem_singleton.mp member⟩
    · cases member

theorem Following.takenUp {state : MoveState} (follows : move.Following state) (i : Nat) {vid : VID}
    (myVid : VID) (inOrder : vid = move.hostVid .old ∧ ¬move.Moved state ∨
      state.registered = true ∧ vid = move.hostVid .new) :
    move.Following (move.takenUp state i vid myVid) where
  interfaces := interfaces_update follows.interfaces rfl
  old := by
    rcases follows.old with hosting | ⟨erased, moved⟩
    · exact Or.inl hosting
    · rcases inOrder with ⟨-, unmoved⟩ | ⟨-, new⟩
      · exact (unmoved moved).elim
      · exact Or.inr ⟨erased, (moved_takenUp vid myVid).mpr new⟩
  new := follows.new
  access := follows.access
  mapped := by
    intro entry found
    simp only [HostMove.takenUp, Function.update_self, MappingTable.updateEntry,
      AList.lookup_insert,
      Option.some.injEq] at found
    subst entry
    rcases inOrder with ⟨old, -⟩ | ⟨registered, new⟩
    · exact Or.inl old
    · exact Or.inr ⟨registered, new⟩
  underway := by
    intro frame member
    rcases List.mem_append.mp member with before | sent
    · rcases follows.underway frame (List.mem_of_mem_eraseIdx before) with
        old | new | ⟨update, moved⟩
      · exact Or.inl old
      · exact Or.inr (Or.inl new)
      -- an update under way means that the access switch knows the new VID already
      · rcases inOrder with ⟨-, unmoved⟩ | ⟨-, new⟩
        · exact (unmoved moved).elim
        · exact Or.inr (Or.inr ⟨update, (moved_takenUp vid myVid).mpr new⟩)
    · obtain ⟨entry, found, different, rfl⟩ := mem_corrections sent
      rcases inOrder with ⟨rfl, unmoved⟩ | ⟨-, rfl⟩
      · rcases follows.mapped entry found with old | ⟨-, new⟩
        · exact (different old).elim
        · exact (unmoved ⟨entry, found, new⟩).elim
      · rcases follows.mapped entry found with old | ⟨-, new⟩
        · rw [old, getSwitchVID_hostVid]
          exact Or.inr (Or.inr ⟨⟨rfl, rfl, rfl⟩, (moved_takenUp _ myVid).mpr rfl⟩)
        · exact (different new).elim

theorem Following.told {state : MoveState} (follows : move.Following state) (i : Nat)
    (moved : move.Moved state) : move.Following (move.told state i .old (move.hostVid .new)) where
  interfaces := interfaces_update follows.interfaces rfl
  old := by
    refine Or.inr ⟨?_, (moved_told (by decide) _).mpr moved⟩
    simp only [HostMove.told, Function.update_self]
    rcases follows.old with hosting | ⟨erased, -⟩
    · rw [hosting, HostMove.hosting, HostTable.hosting_lookupIP, Option.getD_some,
        if_pos (hostVid_ne (by decide))]
      exact HostTable.hosting_deleteIP _ _ _ _
    · split
      · exact HostTable.deleteIP_unmapped erased _
      · exact erased
  new := follows.new
  access := follows.access
  mapped := follows.mapped
  underway := by
    intro frame member
    rcases follows.underway frame (List.mem_of_mem_eraseIdx member) with old | new | ⟨update, -⟩
    · exact Or.inl old
    · exact Or.inr (Or.inl new)
    · exact Or.inr (Or.inr ⟨update, (moved_told (by decide) _).mpr moved⟩)

theorem Following.step {state after : MoveState} {action : MoveAction}
    (follows : move.Following state) (inOrder : move.InOrder state action)
    (moves : move.Step state action after) :
    move.Following after := by
  cases action with
  | publish place =>
      rw [Step, perform, Option.some.injEq] at moves
      exact moves ▸ follows.publish place
  | register =>
      obtain ⟨-, rfl⟩ := follows.register moves
      exact follows.arrived
  | deliver i =>
      cases sent : state.flight[i]? with
      | none => simp only [Step, perform, sent, reduceCtorEq] at moves
      | some frame =>
          rcases follows.underway frame (List.mem_of_getElem? sent) with old | ⟨registered, new⟩ |
            ⟨⟨update, addressed, carried⟩, moved⟩
          · rw [Step, deliver_publication follows.interfaces sent old, Option.some.injEq] at moves
            have unmoved := inOrder frame sent old.1 (mapPayload_vid frame _ _ _ old.2)
            exact moves ▸ follows.takenUp i (move.myVid frame) (Or.inl ⟨rfl, unmoved⟩)
          · rw [Step, deliver_publication follows.interfaces sent new, Option.some.injEq] at moves
            exact moves ▸ follows.takenUp i (move.myVid frame) (Or.inr ⟨registered, rfl⟩)
          · rw [Step, deliver_update follows.interfaces sent update addressed carried,
              Option.some.injEq] at moves
            exact moves ▸ follows.told i moved

/-- A run whose every step is in order loses nothing. -/
theorem inOrder_losesNothing {state : MoveState}
    (run : Transition.Reaches (· = move.initial) move.Step move.InOrder state) :
    move.LosesNothing state := by
  refine Following.losesNothing (run.invariant move.Following ?_ ?_)
  · rintro _ rfl
    exact initial_following
  · intro before action after follows inOrder moves
    exact follows.step inOrder moves

/-! ### Steps out of order -/

/-- A publication of the old VID that the access switch takes up after the new one makes it send an
update to the new switch, which erases the host there. -/
theorem Following.overtaken {state : MoveState} (follows : move.Following state)
    (moved : move.Moved state) {i : Nat} {frame : Frame} (sent : state.flight[i]? = some frame)
    (publishes : move.Publishes (move.hostVid .old) frame) :
    ∃ before j after, move.Step state (.deliver i) before ∧ move.Step before (.deliver j) after ∧
      ¬move.LosesNothing after := by
  obtain ⟨entry, found, new⟩ := moved
  have different : move.hostVid .new ≠ move.hostVid .old := hostVid_ne (by decide)
  have registered : state.registered = true := by
    rcases follows.mapped entry found with old | both
    · exact (different (new.symm.trans old)).elim
    · exact both.1
  have taken := deliver_publication follows.interfaces sent publishes
  have corrected : move.corrections state (move.hostVid .old) (move.myVid frame) =
      [updateAccessInfoPacket move.ip move.mac (move.hostVid .old) (move.vid .new)
        (move.myVid frame)] := by
    simp only [corrections, found, new, getSwitchVID_hostVid]
    rw [if_pos different]
  have interfaces : ∀ place, ((move.takenUp state i (move.hostVid .old)
      (move.myVid frame)).tables place).interfaces = move.interfaces place :=
    interfaces_update follows.interfaces rfl
  obtain ⟨j, underway⟩ := List.mem_iff_getElem?.mp (List.mem_append_right (state.flight.eraseIdx i)
    (corrected ▸ List.mem_singleton_self _))
  refine ⟨_, j, _, taken, deliver_update interfaces underway rfl rfl rfl, ?_⟩
  intro nothing
  have kept := nothing.kept registered
  simp only [HostMove.told, Function.update_self] at kept
  change ((if ((state.tables .new).hosts.lookupIP move.ip).getD 0 ≠ move.hostVid .old
      then (state.tables .new).hosts.deleteIP move.ip
      else (state.tables .new).hosts).lookupIP move.ip).isSome = true at kept
  rw [follows.lookupIP_new registered, Option.getD_some, if_pos different, follows.new,
    if_pos registered, HostTable.lookupIP, HostMove.hosting, HostTable.hosting_deleteIP] at kept
  cases kept

def announced (move : HostMove) : MoveState :=
  { move.initial with flight := [publishAccessInfoPacket move.ip move.mac (move.hostVid .old)] }

theorem publish_initial : move.Step move.initial (.publish .old) move.announced := by
  have entry : (move.initial.tables .old).hosts = move.hosting .old := by
    simp only [initial, if_true, HostTable.registerHost_empty]
    rfl
  rw [Step, perform, entry, HostMove.hosting, HostTable.hosting_publishAccessInfo]
  rfl

theorem register_announced : move.Step move.announced .register (move.arrived move.announced) := by
  have empty : (move.announced.tables .new).hosts = HostTable.empty := rfl
  have unregistered : move.announced.registered = false := rfl
  simp only [Step, perform, empty, unregistered, HostTable.registerHost_empty, Bool.false_eq_true,
    if_false]
  rfl

theorem exists_lost (move : HostMove) :
    ∃ state, Transition.Reachable (· = move.initial) move.Step state ∧
      ¬move.LosesNothing state := by
  have announced : move.Following move.announced := by
    refine initial_following.step ?_ publish_initial
    trivial
  have taken : move.perform (move.arrived move.announced) (.deliver 1) =
      some (move.takenUp (move.arrived move.announced) 1 (move.hostVid .new) _) :=
    deliver_publication announced.arrived.interfaces rfl (publishes_publishAccessInfoPacket _)
  obtain ⟨before, j, after, late, corrected, lost⟩ :=
    Following.overtaken (announced.arrived.takenUp 1 (move.myVid _) (Or.inr ⟨rfl, rfl⟩))
      (i := 0) ((moved_takenUp _ _).mpr rfl) rfl (publishes_publishAccessInfoPacket _)
  exact ⟨after, .next (.next (.next (.next (.next (.start rfl) trivial publish_initial) trivial
    register_announced) trivial taken) trivial late) trivial corrected, lost⟩

def exampleMove : HostMove where
  ip := 0x0A000001
  mac := 7
  vid := fun
    | .old => 0x010100000000
    | .new => 0x010200000000
    | .access => 0x020100000000
  interfaces := fun
    | .old => .single 0x010100000000 1
    | .new => .single 0x010200000000 2
    | .access => .single 0x020100000000 3
  port := fun _ => 0
  startrand := fun _ => 0
  switchVid := by
    intro place
    cases place <;> decide
  distinct := by
    intro first second
    cases first <;> cases second <;> decide
  owns := by
    intro place
    cases place <;> decide

theorem reachable_loses :
    ¬∀ state, Transition.Reachable (· = exampleMove.initial) exampleMove.Step state →
      exampleMove.LosesNothing state := by
  intro always
  obtain ⟨state, run, lost⟩ := exampleMove.exists_lost
  exact lost (always state run)

theorem inOrder_losesNothing_example :
    exampleMove.LosesNothing (exampleMove.takenUp (exampleMove.arrived exampleMove.announced) 0
      (exampleMove.hostVid .old) (exampleMove.vid .access)) := by
  refine inOrder_losesNothing (.next (.next (.next (.start rfl) ?_ publish_initial) ?_
    register_announced) ?_ (deliver_publication ?_ rfl (publishes_publishAccessInfoPacket _)))
  · trivial
  · trivial
  · rintro frame - - - ⟨entry, found, -⟩
    cases found
  · intro place
    cases place <;> rfl

end HostMove

end Veil
