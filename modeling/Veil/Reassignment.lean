import Veil.BuildRouteTable
import Veil.Library.Transition
import Veil.ProcessVCCSTAdSub

/-! A switch while the controller assigns VIDs to its interfaces and changes them: the packets
from the controller and from the neighbours, the periodic rounds and the expiry of entries, in any
order. -/

namespace Veil

namespace InterfaceTable

def MutuallyInverse (table : InterfaceTable) : Prop :=
  ∀ vid i, table.interfaces.lookup vid = some i ↔
    table.isvidset.lookup i = some true ∧ table.lookupIntEntry i = some vid

def DoneWhenSet (table : InterfaceTable) : Prop :=
  table.isVIDAssignmentDone = true → ∀ i < table.numInterfaces, table.isvidset.lookup i = some true

theorem configure_marks (conf : List (VID × EtherAddress)) (i : Nat) :
    (configure conf false).isvidset.lookup i ≠ some true := by
  rw [configure, HashTable.lookup_mapValues]
  cases (configureFrom 0 conf empty).isvidset.lookup i <;> nofun

theorem configure_mutuallyInverse (conf : List (VID × EtherAddress)) :
    (configure conf false).MutuallyInverse :=
  fun _ i => iff_of_false nofun fun marked => configure_marks conf i marked.1

variable {table : InterfaceTable} {i : Nat} {myvid : VID}

theorem DoneWhenSet.assignVID : (table.assignVID i myvid).DoneWhenSet :=
  (assignVID_done table i myvid).mp

/-- An assignment keeps the two tables inverse exactly when no other interface has the VID. -/
theorem MutuallyInverse.assignVID_iff (inverse : table.MutuallyInverse) :
    (table.assignVID i myvid).MutuallyInverse ↔
      ∀ j ≠ i, table.isvidset.lookup j = some true → table.lookupIntEntry j ≠ some myvid := by
  constructor
  · intro after j other marked named
    have back : (table.assignVID i myvid).interfaces.lookup myvid = some j := by
      rw [after, assignVID_isvidset, lookupIntEntry, assignVID_rinterfaces, if_neg other]
      exact ⟨Or.inr marked, named⟩
    rw [assignVID_interfaces, if_pos rfl] at back
    exact other back
  · intro unused vid k
    rw [assignVID_interfaces, assignVID_isvidset, lookupIntEntry, assignVID_rinterfaces]
    by_cases same : vid = myvid
    · subst vid
      rw [if_pos rfl]
      by_cases own : k = i
      · simp [own]
      · simp only [own, false_or, if_false, false_iff, not_and]
        exact unused k own
    · rw [if_neg same, inverse]
      by_cases own : k = i
      · simp [own, Ne.symm same]
      · simp [own, lookupIntEntry]

theorem MutuallyInverse.lookup (inverse : table.MutuallyInverse) (configured : table.Configured)
    (set : table.DoneWhenSet) (done : table.isVIDAssignmentDone = true)
    (named : table.lookupIntEntry i = some myvid) :
    table.lookupVidEntry myvid = (true, some i) := by
  have inside : i < table.numInterfaces := by
    refine Nat.lt_of_not_le fun beyond => ?_
    rw [(configured.vids i).mpr beyond] at named
    cases named
  have found := (inverse myvid i).mpr ⟨set done i inside, named⟩
  rw [lookupIntEntry] at named
  simp [lookupVidEntry, found, named]

end InterfaceTable

structure SwitchState where
  tables : BuildRouteTable
  rdvs : RendezvousTable
  ststate : SpanningTreeState
  topo : NetworkTopo
  assigned : HashTable EtherAddress VID

inductive SwitchAction
  | decide (assigned : HashTable EtherAddress VID)
  | vcc (now : Nat) (frame : Frame)
  | hello (frame : Frame)
  | round
  | rendezvous (frame : Frame)
  | expireBucket (interfaceId b : Nat)
  | expireNeighbor (neighbormac : EtherAddress)
  | rehash (interfaces : HashTable VID Nat) (neighbors : NeighborTable)

namespace SwitchState

def start (conf : List (VID × EtherAddress)) : SwitchState where
  tables := ⟨∅, RouteTable.empty, InterfaceTable.configure conf false⟩
  rdvs := ∅
  ststate := SpanningTreeState.empty
  topo := NetworkTopo.empty
  assigned := ∅

def Initial (state : SwitchState) : Prop :=
  ∃ conf, (conf.map (·.2)).Nodup ∧ state = start conf

def interfaces (state : SwitchState) : InterfaceTable := state.tables.interfaces

def apply (state : SwitchState) : SwitchAction → SwitchState
  | .decide assigned => { state with assigned }
  | .vcc now frame =>
      let p := (ProcessVCCSTAdSub.smaction
        ⟨state.interfaces, state.tables.neighbors, state.ststate, state.topo⟩ now frame).1
      { state with
        tables := ⟨p.neighbors, state.tables.routes, p.interfaces⟩
        ststate := p.ststate
        topo := p.topo }
  | .hello frame =>
      { state with
        tables.neighbors := ProcessHello.simpleAction state.interfaces
          state.tables.neighbors frame }
  | .round => { state with tables := state.tables.runTimer.1 }
  | .rendezvous frame =>
      let p := (ProcessRDV.smaction ⟨state.tables.routes, state.rdvs, state.interfaces⟩ frame).1
      { state with tables.routes := p.routes, rdvs := p.rdvs }
  | .expireBucket interfaceId b =>
      { state with tables.routes := state.tables.routes.expire interfaceId b }
  | .expireNeighbor neighbormac =>
      { state with tables.neighbors := state.tables.neighbors.expire neighbormac }
  | .rehash interfaces neighbors =>
      { state with
        tables.interfaces.interfaces := interfaces
        tables.neighbors := neighbors }

def Possible (state : SwitchState) : SwitchAction → Prop
  | .rehash interfaces neighbors =>
      HashTable.Same interfaces state.interfaces.interfaces ∧
        HashTable.Same neighbors state.tables.neighbors
  | _ => True

def Step (before : SwitchState) (action : SwitchAction) (after : SwitchState) : Prop :=
  before.Possible action ∧ after = before.apply action

def Received (state : SwitchState) : SwitchAction → Prop
  | .hello frame => frame.port < state.interfaces.numInterfaces
  | .rendezvous frame =>
      frame.veilType = veilRdvReply → ∃ (rdvs : RendezvousTable) (k : Bytes.Byte),
        frame.payload = rdvReplyPayload k (rdvs.getRdvPoint k.toNat frame.dvid)
  | _ => True

/-- A VID packet carries what the controller assigns at present, which never gives one VID twice. -/
def Promised (state : SwitchState) : SwitchAction → Prop
  | .decide assigned =>
      ∀ first second vid, assigned.lookup first = some vid → assigned.lookup second = some vid →
        first = second
  | .vcc _ frame =>
      (ProcessVCCSTAdSub.assignedInterface state.interfaces frame).isSome →
        state.assigned.lookup frame.dvid = some (frame.vidAt 0)
  | action => state.Received action

/-- A VID is assigned only when no other interface has it, and a round is run only when every
neighbour entry names the VID of an interface. -/
def KeepsInverse (state : SwitchState) : SwitchAction → Prop
  | .vcc _ frame =>
      ∀ i, ProcessVCCSTAdSub.assignedInterface state.interfaces frame = some i →
        ∀ j ≠ i, state.interfaces.isvidset.lookup j = some true →
          state.interfaces.lookupIntEntry j ≠ some (frame.vidAt 0)
  | .round =>
      state.interfaces.isVIDAssignmentDone = true → ∀ mac nte,
        state.tables.neighbors.lookup mac = some nte →
          (state.interfaces.interfaces.lookup nte.myVid).isSome
  | _ => True

theorem reaches_apply {initial : SwitchState → Prop} {allowed : SwitchState → SwitchAction → Prop}
    {state : SwitchState} (run : Transition.Reaches initial Step allowed state)
    (action : SwitchAction) (guarded : allowed state action) (possible : state.Possible action) :
    Transition.Reaches initial Step allowed (state.apply action) :=
  .next run guarded ⟨possible, rfl⟩

theorem apply_vcc_interfaces (state : SwitchState) (now : Nat) (frame : Frame) :
    (state.apply (.vcc now frame)).interfaces =
      match ProcessVCCSTAdSub.assignedInterface state.interfaces frame with
      | some i => state.interfaces.assignVID i (frame.vidAt 0)
      | none => state.interfaces :=
  ProcessVCCSTAdSub.smaction_interfaces _ now frame

theorem round_interfaces {state : SwitchState} (inverse : state.interfaces.MutuallyInverse)
    (attached : state.interfaces.isVIDAssignmentDone = true → ∀ mac nte,
      state.tables.neighbors.lookup mac = some nte →
        (state.interfaces.interfaces.lookup nte.myVid).isSome) :
    (state.apply .round).interfaces = state.interfaces := by
  have marked (vid : VID) (i : Nat) (found : state.interfaces.interfaces.lookup vid = some i) :
      state.interfaces.isvidset.lookup i = some true := ((inverse vid i).mp found).1
  refine (BuildRouteTable.runTimer_invariant (fun _ => True) marked ?_ (fun _ _ _ _ _ _ => trivial)
    trivial).1
  intro done mac nte found
  obtain ⟨i, reached⟩ := Option.isSome_iff_exists.mp (attached done mac nte found)
  exact ⟨i, reached, marked nte.myVid i reached⟩

structure Sound (state : SwitchState) : Prop where
  configured : state.interfaces.Configured
  inverse : state.interfaces.MutuallyInverse
  set : state.interfaces.DoneWhenSet

theorem start_sound {conf : List (VID × EtherAddress)} (distinct : (conf.map (·.2)).Nodup) :
    (start conf).Sound where
  configured := InterfaceTable.configure_configured false distinct
  inverse := InterfaceTable.configure_mutuallyInverse conf
  set := nofun

theorem Sound.step {before after : SwitchState} {action : SwitchAction} (sound : before.Sound)
    (kept : before.KeepsInverse action) (moves : Step before action after) : after.Sound := by
  obtain ⟨possible, rfl⟩ := moves
  cases action with
  | vcc now frame =>
      have assigned := before.apply_vcc_interfaces now frame
      cases addressed : ProcessVCCSTAdSub.assignedInterface before.interfaces frame with
      | none =>
          rw [addressed] at assigned
          exact ⟨assigned ▸ sound.configured, assigned ▸ sound.inverse, assigned ▸ sound.set⟩
      | some i =>
          rw [addressed] at assigned
          have inside := ProcessVCCSTAdSub.assignedInterface_lt sound.configured addressed
          constructor
          · rw [assigned]
            exact sound.configured.assignVID _ inside
          · rw [assigned]
            exact sound.inverse.assignVID_iff.mpr (kept i addressed)
          · rw [assigned]
            exact InterfaceTable.DoneWhenSet.assignVID
  | round =>
      have same := round_interfaces sound.inverse kept
      exact ⟨same ▸ sound.configured, same ▸ sound.inverse, same ▸ sound.set⟩
  | rehash interfaces neighbors =>
      refine ⟨⟨sound.configured.inverse, sound.configured.ports, sound.configured.vids⟩,
        ?_, sound.set⟩
      intro vid i
      exact possible.1 vid ▸ sound.inverse vid i
  | decide _ => exact ⟨sound.configured, sound.inverse, sound.set⟩
  | hello _ => exact ⟨sound.configured, sound.inverse, sound.set⟩
  | rendezvous _ => exact ⟨sound.configured, sound.inverse, sound.set⟩
  | expireBucket _ _ => exact ⟨sound.configured, sound.inverse, sound.set⟩
  | expireNeighbor _ => exact ⟨sound.configured, sound.inverse, sound.set⟩

theorem Sound.step_iff {before : SwitchState} {action : SwitchAction} (sound : before.Sound)
    (possible : before.Possible action) :
    (before.apply action).interfaces.MutuallyInverse ↔ before.KeepsInverse action := by
  refine ⟨fun after => ?_, fun kept => (sound.step kept ⟨possible, rfl⟩).inverse⟩
  cases action with
  | vcc now frame =>
      intro i addressed
      rw [before.apply_vcc_interfaces, addressed] at after
      exact sound.inverse.assignVID_iff.mp after
  | round =>
      intro done mac nte found
      have extended := BuildRouteTable.runTimer_extends done
      obtain ⟨i, reached⟩ := Option.isSome_iff_exists.mp (extended.2 mac nte found)
      obtain ⟨mark, named⟩ := (after nte.myVid i).mp reached
      have sameVid : before.interfaces.lookupIntEntry i = some nte.myVid :=
        (congrArg (AList.lookup i) extended.1.rinterfaces).symm.trans named
      have earlier := (sound.inverse nte.myVid i).mpr ⟨(extended.1.marks i).mp mark, sameVid⟩
      exact Option.isSome_iff_exists.mpr ⟨i, earlier⟩
  | decide _ => trivial
  | hello _ => trivial
  | rendezvous _ => trivial
  | expireBucket _ _ => trivial
  | expireNeighbor _ => trivial
  | rehash _ _ => trivial

theorem reachable_mutuallyInverse {state : SwitchState}
    (run : Transition.Reaches Initial Step KeepsInverse state) :
    state.interfaces.MutuallyInverse ∧ (state.interfaces.isVIDAssignmentDone = true → ∀ i vid,
      state.interfaces.lookupIntEntry i = some vid →
        state.interfaces.lookupVidEntry vid = (true, some i)) := by
  have sound : state.Sound := by
    refine run.invariant Sound ?_ fun _ _ _ sound kept moves => sound.step kept moves
    rintro first ⟨conf, distinct, rfl⟩
    exact start_sound distinct
  exact ⟨sound.inverse, fun done _ _ named =>
    sound.inverse.lookup sound.configured sound.set done named⟩

def twoInterfaces : List SwitchAction → SwitchState :=
  List.foldl apply (start [(0, 1), (0, 2)])

def bothVids (first second : VID) : HashTable EtherAddress VID :=
  ((∅ : HashTable EtherAddress VID).insert 1 first).insert 2 second

def firstAssignment : List SwitchAction :=
  [.decide (bothVids 0x000100000000 0x000200000000),
      .vcc 0 (dispatchOneVidMacPair 1 1 0x000100000000),
    .vcc 0 (dispatchOneVidMacPair 1 2 0x000200000000)]

theorem bothVids_injective {first second : VID} (apart : first ≠ second) (mac other : EtherAddress)
    (vid : VID) (assigned : (bothVids first second).lookup mac = some vid)
    (alike : (bothVids first second).lookup other = some vid) : mac = other := by
  simp only [bothVids, HashTable.lookup_insert_ite, AList.lookup_empty] at assigned alike
  split_ifs at assigned alike with isSecond isFirst otherSecond otherFirst
  all_goals simp_all

theorem twoInterfaces_initial : Initial (twoInterfaces []) := ⟨[(0, 1), (0, 2)], by simp, rfl⟩

theorem reachable_mutuallyInverse_twoInterfaces :
    (twoInterfaces firstAssignment).interfaces.MutuallyInverse ∧
      ((twoInterfaces firstAssignment).interfaces.isVIDAssignmentDone = true → ∀ i vid,
        (twoInterfaces firstAssignment).interfaces.lookupIntEntry i = some vid →
          (twoInterfaces firstAssignment).interfaces.lookupVidEntry vid = (true, some i)) := by
  have decided := reaches_apply (.start twoInterfaces_initial)
    (.decide (bothVids 0x000100000000 0x000200000000)) (show KeepsInverse _ _ from trivial) trivial
  have half := reaches_apply decided (.vcc 0 (dispatchOneVidMacPair 1 1 0x000100000000))
    (fun i _ j _ marked => (InterfaceTable.configure_marks _ j marked).elim) trivial
  refine reachable_mutuallyInverse
    (reaches_apply half (.vcc 0 (dispatchOneVidMacPair 1 2 0x000200000000)) ?_ trivial)
  intro i addressed j other marked named
  rcases (InterfaceTable.assignVID_isvidset _ 0 0x000100000000 j).mp marked with rfl | configured
  · have zeroth : (twoInterfaces (firstAssignment.take 2)).interfaces.lookupIntEntry 0 ≠
        some 0x000200000000 := by decide +kernel
    exact zeroth named
  · exact InterfaceTable.configure_marks _ j configured

/-- The neighbour was heard before the assignment, so its entry names the configured VID. The
first round stores that VID again, for the first interface. -/
theorem reachable_not_mutuallyInverse :
    ¬∀ state, Transition.Reaches Initial Step Promised state →
      state.interfaces.MutuallyInverse := by
  intro always
  have inside : 0 < (twoInterfaces []).interfaces.numInterfaces := by decide
  have heard := reaches_apply (.start twoInterfaces_initial) (.hello (helloPacket 7 0 false 0))
    (show Promised _ _ from inside) trivial
  have decided := reaches_apply heard (.decide (bothVids 0x000100000000 0x000200000000))
    (show Promised _ _ from bothVids_injective (by decide)) trivial
  have half := reaches_apply decided (.vcc 0 (dispatchOneVidMacPair 1 1 0x000100000000))
    (fun _ => by decide +kernel) trivial
  have assigned := reaches_apply half (.vcc 0 (dispatchOneVidMacPair 1 2 0x000200000000))
    (fun _ => by decide +kernel) trivial
  have stale := reaches_apply assigned .round (show Promised _ _ from trivial) trivial
  have first := ((always _ stale 0 0).mp (by decide +kernel)).2
  have zeroth : (twoInterfaces (.hello (helloPacket 7 0 false 0) :: firstAssignment ++
      [.round])).interfaces.lookupIntEntry 0 = some 0x000100000000 := by decide +kernel
  exact absurd (first.symm.trans zeroth) (by decide)

end SwitchState

end Veil
