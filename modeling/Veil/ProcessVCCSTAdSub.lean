import Veil.NeighborTable
import Veil.InterfaceTable
import Veil.NetworkTopo
import Veil.SpanningTreeState

/-! The packets between a switch and the controller, from `processVCCSTAdSub.hh`,
`processVCCSTAdSub.cc` and `generateVIDAssignmentPackets.cc`, and the hello packets of the
neighbours, from `generatehelloNew.cc` and `processhello.cc`. -/

namespace Veil

namespace InterfaceTable

/-- The check whether every interface has its VID. It stops at the first one that has none, and
stores a mark that is missing as not set. -/
def allSet : List Nat → HashTable Nat Bool → HashTable Nat Bool × Bool
  | [], isvidset => (isvidset, true)
  | i :: rest, isvidset =>
      match isvidset.lookup i with
      | some true => allSet rest isvidset
      | some false => (isvidset, false)
      | none => (isvidset.insert i false, false)

def assignVID (table : InterfaceTable) (i : Nat) (myvid : VID) : InterfaceTable :=
  let isvidset := allSet (List.range table.numInterfaces) (table.isvidset.insert i true)
  { table with
    rinterfaces := table.rinterfaces.insert i myvid
    interfaces := HashTable.retain (fun cvid int_id => !(cvid != myvid && int_id == i))
      (table.interfaces.insert myvid i)
    isvidset := isvidset.1
    isVIDAssignmentDone := isvidset.2 }

theorem allSet_lookup (indices : List Nat) (isvidset : HashTable Nat Bool) (k : Nat) :
    (allSet indices isvidset).1.lookup k = some true ↔ isvidset.lookup k = some true := by
  induction indices with
  | nil => rfl
  | cons i rest ih =>
      simp only [allSet]
      split
      · exact ih
      · rfl
      · rename_i missing
        rw [HashTable.lookup_insert_ite]
        split
        · rename_i same
          subst k
          exact iff_of_false nofun (by simp [missing])
        · rfl

theorem allSet_iff (indices : List Nat) (isvidset : HashTable Nat Bool) :
    (allSet indices isvidset).2 = true ↔ ∀ i ∈ indices, isvidset.lookup i = some true := by
  induction indices with
  | nil => exact iff_of_true rfl nofun
  | cons i rest ih =>
      rw [List.forall_mem_cons, ← ih, allSet]
      split
      · rename_i marked
        exact (and_iff_right marked).symm
      · rename_i unmarked
        exact iff_of_false nofun fun marked => by simp [unmarked] at marked
      · rename_i missing
        exact iff_of_false nofun fun marked => by simp [missing] at marked

section AssignVID

variable (table : InterfaceTable) (i : Nat) (myvid : VID)

theorem assignVID_interfaces (vid : VID) (k : Nat) :
    (table.assignVID i myvid).interfaces.lookup vid = some k ↔
      if vid = myvid then k = i else k ≠ i ∧ table.interfaces.lookup vid = some k := by
  rw [assignVID, HashTable.lookup_retain_eq_some, HashTable.lookup_insert_ite]
  by_cases same : vid = myvid
  · simp [same, eq_comm]
  · simp [same, and_comm]

theorem assignVID_rinterfaces (k : Nat) :
    (table.assignVID i myvid).rinterfaces.lookup k =
      if k = i then some myvid else table.rinterfaces.lookup k :=
  HashTable.lookup_insert_ite _ _ _ _

theorem assignVID_isvidset (k : Nat) :
    (table.assignVID i myvid).isvidset.lookup k = some true ↔
      k = i ∨ table.isvidset.lookup k = some true := by
  rw [assignVID, allSet_lookup, HashTable.lookup_insert_ite]
  by_cases same : k = i <;> simp [same]

theorem assignVID_done :
    (table.assignVID i myvid).isVIDAssignmentDone = true ↔
      ∀ k < table.numInterfaces, (table.assignVID i myvid).isvidset.lookup k = some true := by
  simp only [assignVID, allSet_iff, allSet_lookup, List.mem_range]

variable {table i}

theorem Configured.assignVID (configured : table.Configured) (inside : i < table.numInterfaces) :
    (table.assignVID i myvid).Configured where
  inverse := configured.inverse
  ports := configured.ports
  vids := by
    intro k
    change (table.assignVID i myvid).rinterfaces.lookup k = none ↔ table.numInterfaces ≤ k
    rw [assignVID_rinterfaces]
    split
    · rename_i same
      subst k
      exact iff_of_false nofun (Nat.not_le.mpr inside)
    · exact configured.vids k

theorem Configured.index_lt (configured : table.Configured) {mac : EtherAddress}
    (found : table.etheraddToInterfaceIndex.lookup mac = some i) : i < table.numInterfaces := by
  have named : table.getMacAddr i = some mac := (configured.inverse mac i).mp found
  refine Nat.lt_of_not_le fun beyond => ?_
  rw [(configured.ports i).mpr beyond] at named
  cases named

end AssignVID

end InterfaceTable

structure ProcessVCCSTAdSub where
  interfaces : InterfaceTable
  neighbors : NeighborTable
  ststate : SpanningTreeState
  topo : NetworkTopo

namespace ProcessVCCSTAdSub

def processLocalTopo (p : ProcessVCCSTAdSub) (now : Nat) (frame : Frame) :
    ProcessVCCSTAdSub × List (Nat × Frame) :=
  match p.interfaces.etheraddToInterfaceIndex.lookup frame.dvid with
  | some _ => ({ p with topo := p.topo.processLocalTopo now frame }, [])
  | none =>
      match p.ststate.getParentNodeToVCC frame.dvid with
      | none => (p, [])
      | some parent =>
          match p.neighbors.lookup parent with
          | none => (p, [])
          | some nte =>
              if frame.ttl = 0 then (p, [])
              else
                -- an address without an interface reads as index zero
                let interface2parent :=
                  (p.interfaces.etheraddToInterfaceIndex.lookup nte.myMac).getD 0
                if interface2parent < p.interfaces.numInterfaces then
                  (p, [(interface2parent,
                    { frame with shost := nte.myMac, dhost := parent, ttl := frame.ttl - 1 })])
                else (p, [])

def toChild (p : ProcessVCCSTAdSub) (frame : Frame) (childmac : EtherAddress) :
    Option (Nat × Frame) :=
  match p.neighbors.lookup childmac with
  | none => none
  | some nte =>
      (p.interfaces.etheraddToInterfaceIndex.lookup nte.myMac).map fun myinterfaceid =>
        (myinterfaceid,
          { frame with
            dhost := childmac
            shost := nte.myMac
            ttl := frame.ttl - 1
            reroute := false
            port := 0 })

def processSwitchVID (p : ProcessVCCSTAdSub) (frame : Frame) :
    ProcessVCCSTAdSub × List (Nat × Frame) :=
  if frame.ttl = 0 then (p, [])
  else
    match p.interfaces.etheraddToInterfaceIndex.lookup frame.dvid with
    | some myintindex =>
        ({ p with interfaces := p.interfaces.assignVID myintindex (frame.vidAt 0) }, [])
    | none =>
        (p, p.ststate.forwardingTableFromVCC.entries.filterMap fun child =>
          if child.2.vccMac = frame.svid then p.toChild frame child.1 else none)

/-- The tables after the call, and the frames that are sent with their ports. Only advertisements
are handled whatever address they have come to. -/
def smaction (p : ProcessVCCSTAdSub) (now : Nat) (frame : Frame) :
    ProcessVCCSTAdSub × List (Nat × Frame) :=
  if frame.etherType ≠ etherTypeVeil then (p, [])
  else if frame.veilType ≠ veilVccSpanningTreeAd ∧
      p.interfaces.etheraddToInterfaceIndex.lookup frame.dhost = none then (p, [])
  else if frame.veilType = veilVccSpanningTreeAd then
    ({ p with ststate := p.ststate.processAD now frame }, [])
  else if frame.veilType = veilVccSpanningTreeSubs then
    ({ p with ststate := p.ststate.processSUBS now frame }, [])
  else if frame.veilType = veilLocalTopoToVcc then p.processLocalTopo now frame
  else if frame.veilType = veilSwitchVidFromVcc then p.processSwitchVID frame
  else (p, [])

def assignedInterface (interfaces : InterfaceTable) (frame : Frame) : Option Nat :=
  if frame.etherType = etherTypeVeil ∧ frame.veilType = veilSwitchVidFromVcc ∧
      (interfaces.etheraddToInterfaceIndex.lookup frame.dhost).isSome ∧ frame.ttl ≠ 0 then
    interfaces.etheraddToInterfaceIndex.lookup frame.dvid
  else none

theorem assignedInterface_lt {interfaces : InterfaceTable} {frame : Frame} {i : Nat}
    (configured : interfaces.Configured) (addressed : assignedInterface interfaces frame = some i) :
    i < interfaces.numInterfaces := by
  rw [assignedInterface] at addressed
  split at addressed
  · exact configured.index_lt addressed
  · cases addressed

theorem processLocalTopo_fst (p : ProcessVCCSTAdSub) (now : Nat) (frame : Frame) :
    ∃ topo, (p.processLocalTopo now frame).1 = { p with topo } := by
  rw [processLocalTopo]
  cases p.interfaces.etheraddToInterfaceIndex.lookup frame.dvid with
  | some i => exact ⟨_, rfl⟩
  | none =>
      refine ⟨p.topo, ?_⟩
      cases p.ststate.getParentNodeToVCC frame.dvid with
      | none => rfl
      | some parent =>
          simp only
          cases p.neighbors.lookup parent with
          | none => rfl
          | some nte =>
              simp only
              split
              · rfl
              split <;> rfl

theorem processLocalTopo_interfaces (p : ProcessVCCSTAdSub) (now : Nat) (frame : Frame) :
    (p.processLocalTopo now frame).1.interfaces = p.interfaces := by
  obtain ⟨topo, after⟩ := p.processLocalTopo_fst now frame
  rw [after]

theorem processSwitchVID_neighbors (p : ProcessVCCSTAdSub) (frame : Frame) :
    (p.processSwitchVID frame).1.neighbors = p.neighbors := by
  rw [processSwitchVID]
  split
  · rfl
  · cases p.interfaces.etheraddToInterfaceIndex.lookup frame.dvid <;> rfl

theorem smaction_neighbors (p : ProcessVCCSTAdSub) (now : Nat) (frame : Frame) :
    (p.smaction now frame).1.neighbors = p.neighbors := by
  rw [smaction]
  split
  · rfl
  split
  · rfl
  split
  · rfl
  split
  · rfl
  split
  · obtain ⟨topo, after⟩ := p.processLocalTopo_fst now frame
    rw [after]
  split
  · exact p.processSwitchVID_neighbors frame
  · rfl

theorem processSwitchVID_interfaces (p : ProcessVCCSTAdSub) {frame : Frame}
    (alive : frame.ttl ≠ 0) :
    (p.processSwitchVID frame).1.interfaces =
      match p.interfaces.etheraddToInterfaceIndex.lookup frame.dvid with
      | some i => p.interfaces.assignVID i (frame.vidAt 0)
      | none => p.interfaces := by
  rw [processSwitchVID, if_neg alive]
  cases p.interfaces.etheraddToInterfaceIndex.lookup frame.dvid <;> rfl

theorem smaction_interfaces (p : ProcessVCCSTAdSub) (now : Nat) (frame : Frame) :
    (p.smaction now frame).1.interfaces =
      match assignedInterface p.interfaces frame with
      | some i => p.interfaces.assignVID i (frame.vidAt 0)
      | none => p.interfaces := by
  by_cases veil : frame.etherType = etherTypeVeil
  swap
  · rw [smaction, if_pos veil, assignedInterface, if_neg fun addressed => veil addressed.1]
  rw [smaction, if_neg (not_not_intro veil)]
  by_cases assignment : frame.veilType = veilSwitchVidFromVcc
  swap
  · have unassigned : assignedInterface p.interfaces frame = none :=
      if_neg fun addressed => assignment addressed.2.1
    rw [unassigned]
    split
    · rfl
    split
    · rfl
    split
    · rfl
    split
    · exact p.processLocalTopo_interfaces now frame
    split
    · contradiction
    · rfl
  have noAd : frame.veilType ≠ veilVccSpanningTreeAd := by
    rw [assignment]
    decide
  have noSubs : frame.veilType ≠ veilVccSpanningTreeSubs := by
    rw [assignment]
    decide
  have noTopo : frame.veilType ≠ veilLocalTopoToVcc := by
    rw [assignment]
    decide
  cases own : p.interfaces.etheraddToInterfaceIndex.lookup frame.dhost with
  | none =>
      have elsewhere : assignedInterface p.interfaces frame = none := by
        rw [assignedInterface, own]
        exact if_neg fun addressed => Bool.false_ne_true addressed.2.2.1
      rw [if_pos ⟨noAd, rfl⟩, elsewhere]
  | some myintindex =>
      have handled : ¬(frame.veilType ≠ veilVccSpanningTreeAd ∧ some myintindex = none) := nofun
      rw [if_neg handled, if_neg noAd, if_neg noSubs, if_neg noTopo, if_pos assignment]
      by_cases expired : frame.ttl = 0
      · rw [processSwitchVID, if_pos expired, assignedInterface,
          if_neg fun addressed => addressed.2.2.2 expired]
      · rw [p.processSwitchVID_interfaces expired, assignedInterface, own,
          if_pos ⟨veil, assignment, rfl, expired⟩]

end ProcessVCCSTAdSub

/-- The packet that tells the interface `dstmac` its VID, as the controller sends it to one of its
own interfaces and to a neighbour that leads to no other. -/
def dispatchOneVidMacPair (vccmac dstmac : EtherAddress) (dstvid : VID) : Frame where
  dhost := dstmac
  shost := 0
  etherType := etherTypeVeil
  svid := vccmac
  dvid := dstmac
  veilType := veilSwitchVidFromVcc
  ttl := maxTtl
  optional := 0
  payload := Bytes.ofWord 6 dstvid
  reroute := false
  port := 0

theorem dispatchOneVidMacPair_vid (vccmac dstmac : EtherAddress) (dstvid : VID) :
    (dispatchOneVidMacPair vccmac dstmac dstvid).vidAt 0 = dstvid :=
  Bytes.toWord_ofWord dstvid (by decide)

def helloPacket (macadd : EtherAddress) (vid : VID) (isset : Bool) (port : Nat) : Frame where
  dhost := BitVec.allOnes 48
  shost := macadd
  etherType := etherTypeVeil
  svid := if isset then vid else 0
  dvid := 0
  veilType := veilHello
  ttl := 0
  optional := 0
  payload := []
  reroute := false
  port := port

namespace ProcessHello

def simpleAction (interfaces : InterfaceTable) (neighbors : NeighborTable) (frame : Frame) :
    NeighborTable :=
  let myvid := (interfaces.lookupIntEntry frame.port).getD 0
  let mymac := (interfaces.getMacAddr frame.port).getD 0
  (neighbors.updateEntry frame.shost frame.svid mymac myvid).1

end ProcessHello

end Veil
