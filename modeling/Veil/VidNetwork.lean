import Veil.Library.Cascade
import Veil.Library.Transition
import Veil.Reassignment

/-! The way of the VIDs from the controller to the interfaces, from
`generateVIDAssignmentPackets.cc` and `processVCCSTAdSub.cc`, down a tree of switches. -/

namespace Veil

namespace ProcessVCCSTAdSub

def toNeighbor (p : ProcessVCCSTAdSub) (packet : Frame) (mac : EtherAddress) :
    Option (Nat × Frame) :=
  match p.neighbors.lookup mac with
  | none => none
  | some nte =>
      (p.interfaces.etheraddToInterfaceIndex.lookup nte.myMac).map fun myinterfaceid =>
        (myinterfaceid, { packet with dhost := mac, shost := nte.myMac })

def flood (p : ProcessVCCSTAdSub) (vccmac : EtherAddress) (packet : Frame) : List (Nat × Frame) :=
  p.ststate.forwardingTableFromVCC.entries.flatMap fun child =>
    if child.2.vccMac = vccmac then (p.toNeighbor packet child.1).toList else []

def dispatchVidMacPair (p : ProcessVCCSTAdSub) (vccmac dstmac : EtherAddress) (dstvid : VID) :
    List (Nat × Frame) :=
  let packet := dispatchOneVidMacPair vccmac dstmac dstvid
  match p.interfaces.etheraddToInterfaceIndex.lookup dstmac with
  | some _ => [(p.interfaces.numInterfaces, packet)]
  | none =>
      match p.ststate.forwardingTableFromVCC.lookup dstmac with
      | some _ => (p.toNeighbor packet dstmac).toList
      | none => p.flood vccmac packet

def dispatchVid (p : ProcessVCCSTAdSub) (vccmac : EtherAddress)
    (ether2vid : HashTable EtherAddress VID) :
    List (Nat × Frame) :=
  ether2vid.entries.flatMap fun entry => p.dispatchVidMacPair vccmac entry.1 entry.2

theorem toChild_eq (p : ProcessVCCSTAdSub) (frame : Frame) (childmac : EtherAddress) :
    p.toChild frame childmac =
      p.toNeighbor { frame with ttl := frame.ttl - 1, reroute := false, port := 0 } childmac := by
  unfold toChild toNeighbor
  cases p.neighbors.lookup childmac with
  | none => rfl
  | some nte => rfl

theorem processSwitchVID_sent (p : ProcessVCCSTAdSub) (frame : Frame) :
    (p.processSwitchVID frame).2 =
      if frame.ttl = 0 ∨ (p.interfaces.etheraddToInterfaceIndex.lookup frame.dvid).isSome =
        true then []
      else p.flood frame.svid { frame with ttl := frame.ttl - 1, reroute := false, port := 0 } := by
  rw [processSwitchVID]
  by_cases expired : frame.ttl = 0
  · simp [expired]
  · rw [if_neg expired]
    cases own : p.interfaces.etheraddToInterfaceIndex.lookup frame.dvid with
    | some i => simp
    | none =>
        simp only [expired, Option.isSome_none, Bool.false_eq_true, or_self, if_false, flood]
        rw [List.filterMap_eq_flatMap_toList]
        refine List.flatMap_congr fun child _ => ?_
        rw [toChild_eq]
        split
        · rfl
        · rfl

theorem smaction_sent (p : ProcessVCCSTAdSub) (now : Nat) (frame : Frame)
    (veil : frame.etherType = etherTypeVeil) (kind : frame.veilType = veilSwitchVidFromVcc) :
    (p.smaction now frame).2 =
      if (p.interfaces.etheraddToInterfaceIndex.lookup frame.dhost).isSome = true then
        (p.processSwitchVID frame).2
      else [] := by
  have kinds : veilSwitchVidFromVcc ≠ veilVccSpanningTreeAd ∧
      veilSwitchVidFromVcc ≠ veilVccSpanningTreeSubs ∧
      veilSwitchVidFromVcc ≠ veilLocalTopoToVcc := by decide
  simp only [smaction, veil, kind, kinds, ne_eq, not_true_eq_false, not_false_eq_true,
    if_false, if_true,
    true_and]
  cases p.interfaces.etheraddToInterfaceIndex.lookup frame.dhost with
  | none => simp
  | some i => simp

theorem smaction_ttl (p : ProcessVCCSTAdSub) (now : Nat) (frame : Frame) {out : Nat × Frame}
    (sent : out ∈ (p.smaction now frame).2) : out.2.ttl.toNat < frame.ttl.toNat := by
  have less (hops : frame.ttl ≠ 0) : (frame.ttl - 1).toNat < frame.ttl.toNat := by bv_omega
  have switchVID (sent : out ∈ (p.processSwitchVID frame).2) : out.2.ttl.toNat <
      frame.ttl.toNat := by
    rw [processSwitchVID_sent] at sent
    split at sent
    · cases sent
    · rename_i goes
      obtain ⟨child, -, copy⟩ := List.mem_flatMap.mp sent
      split at copy
      · rw [Option.mem_toList, toNeighbor] at copy
        split at copy
        · cases copy
        · obtain ⟨i, -, rfl⟩ := Option.map_eq_some_iff.mp copy
          exact less fun none => goes (Or.inl none)
      · cases copy
  have localTopo (sent : out ∈ (p.processLocalTopo now frame).2) : out.2.ttl.toNat <
      frame.ttl.toNat := by
    simp only [processLocalTopo] at sent
    split at sent
    · cases sent
    split at sent
    · cases sent
    split at sent
    · cases sent
    split at sent
    · cases sent
    split at sent
    · rename_i hops _
      rw [List.mem_singleton] at sent
      subst out
      exact less hops
    · cases sent
  simp only [smaction] at sent
  split at sent
  · cases sent
  split at sent
  · cases sent
  split at sent
  · cases sent
  split at sent
  · cases sent
  split at sent
  · exact localTopo sent
  split at sent
  · exact switchVID sent
  · cases sent

end ProcessVCCSTAdSub

structure VidPacket (vccmac : EtherAddress) (ether2vid : HashTable EtherAddress VID)
    (frame : Frame) : Prop where
  etherType : frame.etherType = etherTypeVeil
  veilType : frame.veilType = veilSwitchVidFromVcc
  source : frame.svid = vccmac
  assigned : ether2vid.lookup frame.dvid = some (frame.vidAt 0)

section VidPacket

variable {vccmac : EtherAddress} {ether2vid : HashTable EtherAddress VID} {frame : Frame}

theorem VidPacket.copy (vid : VidPacket vccmac ether2vid frame) (mac shost : EtherAddress) :
    VidPacket vccmac ether2vid { frame with dhost := mac, shost := shost } :=
  ⟨vid.etherType, vid.veilType, vid.source, vid.assigned⟩

theorem VidPacket.onward (vid : VidPacket vccmac ether2vid frame) (ttl : BitVec 8) (reroute : Bool)
    (port : Nat) :
    VidPacket vccmac ether2vid { frame with ttl := ttl, reroute := reroute, port := port } :=
  ⟨vid.etherType, vid.veilType, vid.source, vid.assigned⟩

theorem VidPacket.dispatch {vid : VID} {dstmac : EtherAddress}
    (assigned : ether2vid.lookup dstmac = some vid) :
    VidPacket vccmac ether2vid (dispatchOneVidMacPair vccmac dstmac vid) :=
  ⟨rfl, rfl, rfl, by rw [dispatchOneVidMacPair_vid]; exact assigned⟩

end VidPacket

/-- Switches on their cables: who hears what a switch sends on one of its interfaces, and whose
child each switch is. -/
structure VidNetwork (ι : Type) where
  root : ι
  parent : ι → Option ι
  hears : ι → Nat → List ι
  vccmac : EtherAddress
  switches : ι → ProcessVCCSTAdSub

structure VidDelivery (ι : Type) where
  switches : ι → ProcessVCCSTAdSub
  inFlight : List (ι × Frame)
  delivered : List (ι × Frame)

namespace VidNetwork

variable {ι : Type} (net : VidNetwork ι)

def Owns (s : ι) (mac : EtherAddress) : Prop :=
  ((net.switches s).interfaces.etheraddToInterfaceIndex.lookup mac).isSome = true

instance (s : ι) (mac : EtherAddress) : Decidable (net.Owns s mac) :=
  inferInstanceAs (Decidable (_ = true))

/-- What is sent on the port after the last interface comes back to the switch itself. -/
def receivers (s : ι) (sent : List (Nat × Frame)) : List (ι × Frame) :=
  sent.flatMap fun out =>
    (if out.1 = (net.switches s).interfaces.numInterfaces then [s]
      else net.hears s out.1).map (·, out.2)

def dispatched (ether2vid : HashTable EtherAddress VID) : VidDelivery ι where
  switches := net.switches
  inFlight := net.receivers net.root ((net.switches net.root).dispatchVid net.vccmac ether2vid)
  delivered := []

def deliver [DecidableEq ι] (state : VidDelivery ι) (now : Nat) (before after : List (ι × Frame))
    (s : ι) (frame : Frame) :
    VidDelivery ι :=
  let handled := (state.switches s).smaction now frame
  { switches := Function.update state.switches s handled.1
    inFlight := before ++ after ++ net.receivers s handled.2
    delivered := state.delivered ++ [(s, frame)] }

def Step [DecidableEq ι] (state : VidDelivery ι) (now : Nat) (next : VidDelivery ι) : Prop :=
  ∃ before after s frame, state.inFlight = before ++ (s, frame) :: after ∧
    next = net.deliver state now before after s frame

def Reached [DecidableEq ι] (ether2vid : HashTable EtherAddress VID) : VidDelivery ι → Prop :=
  Transition.Reachable (· = net.dispatched ether2vid) net.Step

/-- The packets that a switch has taken because they have come to one of its own addresses, each
with the address whose VID it carries. -/
def taken (packets : List (ι × Frame)) : List (ι × EtherAddress) :=
  (packets.filter fun packet => net.Owns packet.1 packet.2.dhost).map fun packet =>
    (packet.1, packet.2.dvid)

/-- A tree of configured switches that have no VIDs yet. The table of each switch holds addresses
of its children only, at least one of each, with the cables to them. -/
structure Ready (depth : ι → Nat) : Prop where
  top : ∀ s, net.parent s = none ↔ s = net.root
  depth_root : depth net.root = 0
  depth_child : ∀ s p, net.parent s = some p → depth s = depth p + 1
  low : ∀ s, depth s ≤ maxTtl.toNat
  configured : ∀ s, (net.switches s).interfaces.Configured
  unassigned : ∀ s i, (net.switches s).interfaces.isvidset.lookup i ≠ some true
  undone : ∀ s, (net.switches s).interfaces.isVIDAssignmentDone = false
  distinct : ∀ s t mac, net.Owns s mac → net.Owns t mac → s = t
  controller : net.Owns net.root net.vccmac
  children : ∀ s mac child, (net.switches s).ststate.forwardingTableFromVCC.lookup
      mac = some child →
    child.vccMac = net.vccmac ∧ ∃ c, net.parent c = some s ∧ net.Owns c mac
  known : ∀ s c, net.parent c = some s →
    ∃ mac ∈ (net.switches s).ststate.forwardingTableFromVCC, net.Owns c mac
  cabled : ∀ s c, ∀ mac ∈ (net.switches s).ststate.forwardingTableFromVCC, net.Owns c mac →
    ∃ nte i, (net.switches s).neighbors.lookup mac = some nte ∧
      (net.switches s).interfaces.etheraddToInterfaceIndex.lookup nte.myMac = some i ∧
        c ∈ net.hears s i
  heard : ∀ s i, (net.hears s i).Nodup

def Single : Prop :=
  ∀ s c, ∀ mac ∈ (net.switches s).ststate.forwardingTableFromVCC,
    ∀ other ∈ (net.switches s).ststate.forwardingTableFromVCC, net.Owns c mac →
      net.Owns c other → mac = other

def Whole : Prop :=
  ∀ s mac, mac ∈ (net.switches s).ststate.forwardingTableFromVCC ↔
    ∃ c, net.parent c = some s ∧ net.Owns c mac

/-- Every interface with a VID among the assigned ones has it, and no other interface has
changed. -/
structure Assigned (ether2vid : HashTable EtherAddress VID) (state : VidDelivery ι) : Prop where
  given : ∀ s i mac vid, (net.switches s).interfaces.etheraddToInterfaceIndex.lookup mac = some i →
    ether2vid.lookup mac = some vid → (state.switches s).interfaces.rinterfaces.lookup i = some vid
  kept : ∀ s i, (∀ mac ∈ ether2vid,
      (net.switches s).interfaces.etheraddToInterfaceIndex.lookup mac ≠ some i) →
    (state.switches s).interfaces.rinterfaces.lookup i =
      (net.switches s).interfaces.rinterfaces.lookup i
  done : ∀ s, (state.switches s).interfaces.isVIDAssignmentDone = true ↔
    ∀ mac, net.Owns s mac → mac ∈ ether2vid

/-- However the packets travel, they come to an end, and then every interface has its VID. -/
structure Delivers [DecidableEq ι] (ether2vid : HashTable EtherAddress VID) : Prop where
  ends : ∃ steps, ∀ state, net.Reached ether2vid state → state.delivered.length ≤ steps
  goes : ∀ state, net.Reached ether2vid state → state.inFlight ≠ [] →
    ∀ now, ∃ next, net.Step state now next
  assigned : ∀ state, net.Reached ether2vid state → state.inFlight = [] →
    net.Assigned ether2vid state

def emits (packet : ι × Frame) : List (ι × Frame) :=
  net.receivers packet.1 ((net.switches packet.1).smaction 0 packet.2).2

def hops (packet : ι × Frame) : Nat := packet.2.ttl.toNat

def followers (packet : ι × Frame) : List (ι × Frame) := Cascade.cascade net.emits hops packet

theorem mem_receivers (s : ι) (sent : List (Nat × Frame)) (r : ι) (frame : Frame) :
    (r, frame) ∈ net.receivers s sent ↔ ∃ port, (port, frame) ∈ sent ∧
      r ∈ if port = (net.switches s).interfaces.numInterfaces then [s] else net.hears s port := by
  simp only [receivers, List.mem_flatMap, List.mem_map, Prod.mk.injEq]
  constructor
  · rintro ⟨⟨port, _⟩, member, _, heard, rfl, rfl⟩
    exact ⟨port, member, heard⟩
  · rintro ⟨port, member, heard⟩
    exact ⟨(port, frame), member, r, heard, rfl, rfl⟩

theorem hops_emits (packet : ι × Frame) : ∀ sent ∈ net.emits packet, hops sent < hops packet := by
  rintro ⟨r, frame⟩ member
  obtain ⟨port, out, -⟩ := (net.mem_receivers _ _ r frame).mp member
  exact (net.switches packet.1).smaction_ttl 0 packet.2 out

theorem taken_append (first second : List (ι × Frame)) :
    net.taken (first ++ second) = net.taken first ++ net.taken second := by
  rw [taken, List.filter_append, List.map_append]
  rfl

theorem taken_flatMap {α : Type} (elements : List α) (packets : α → List (ι × Frame)) :
    net.taken (elements.flatMap packets) = elements.flatMap fun x => net.taken (packets x) := by
  rw [taken, List.filter_flatMap, List.map_flatMap]
  rfl

theorem taken_followers (packet : ι × Frame) :
    net.taken (net.followers packet) =
      (if net.Owns packet.1 packet.2.dhost then [(packet.1, packet.2.dvid)] else []) ++
        (net.emits packet).flatMap fun sent => net.taken (net.followers sent) := by
  rw [followers, Cascade.cascade_eq net.hops_emits, ← List.singleton_append, taken_append,
    taken_flatMap]
  refine congrArg₂ _ ?_ rfl
  by_cases own : net.Owns packet.1 packet.2.dhost
  · simp [taken, own]
  · simp [taken, own]

section Emits

variable {vccmac : EtherAddress} {ether2vid : HashTable EtherAddress VID} {s : ι} {frame : Frame}
  (vid : VidPacket vccmac ether2vid frame)
include vid

theorem emits_eq :
    net.emits (s, frame) =
      if net.Owns s frame.dhost ∧ frame.ttl ≠ 0 ∧ ¬net.Owns s frame.dvid then
        net.receivers s ((net.switches s).flood vccmac
          { frame with ttl := frame.ttl - 1, reroute := false, port := 0 })
      else [] := by
  rw [emits, ProcessVCCSTAdSub.smaction_sent _ _ _ vid.etherType vid.veilType,
    ProcessVCCSTAdSub.processSwitchVID_sent, ← vid.source]
  by_cases taken : net.Owns s frame.dhost
  · by_cases stays : frame.ttl = 0 ∨ net.Owns s frame.dvid
    · rw [if_pos (show _ = true from taken), if_pos (show _ ∨ _ = true from stays), if_neg]
      · rfl
      · rintro ⟨-, hops, away⟩
        exact stays.elim hops away
    · rw [if_pos (show _ = true from taken), if_neg (show ¬(_ ∨ _ = true) from stays), if_pos]
      exact ⟨taken, fun none => stays (Or.inl none), fun own => stays (Or.inr own)⟩
  · rw [if_neg (show ¬_ = true from taken), if_neg fun all => taken all.1]
    rfl

end Emits

def Below (s t : ι) : Prop := Relation.ReflTransGen (fun p c => net.parent c = some p) s t

section Ready

variable {net} {depth : ι → Nat} (ready : net.Ready depth)
include ready

theorem Ready.depth_le {s t : ι} (below : net.Below s t) : depth s ≤ depth t := by
  induction below with
  | refl => exact Nat.le_refl _
  | tail _ edge ih =>
      rw [ready.depth_child _ _ edge]
      exact Nat.le_succ_of_le ih

theorem Ready.eq_of_below {c d t : ι} (below : net.Below c t) (otherBelow : net.Below d t)
    (level : depth c = depth d) : c = d := by
  have end_ {c d t p : ι} (below : net.Below c p) (edge : net.parent t = some p) (same : d = t)
      (level : depth c = depth d) : False := by
    have high := ready.depth_le below
    rw [level, same, ready.depth_child _ _ edge] at high
    exact Nat.not_succ_le_self _ high
  induction below with
  | refl =>
      rcases Relation.ReflTransGen.cases_tail otherBelow with same | ⟨p, before, edge⟩
      · exact same
      · exact (end_ before edge rfl level.symm).elim
  | tail before edge ih =>
      rcases Relation.ReflTransGen.cases_tail otherBelow with same | ⟨p, otherBefore, otherEdge⟩
      · exact (end_ before edge same.symm level).elim
      · rw [edge, Option.some.injEq] at otherEdge
        exact ih (otherEdge ▸ otherBefore)

theorem Ready.child_eq {s c d t : ι} (child : net.parent c = some s) (other : net.parent d = some s)
    (below : net.Below c t) (otherBelow : net.Below d t) : c = d :=
  ready.eq_of_below below otherBelow
    (by rw [ready.depth_child _ _ child, ready.depth_child _ _ other])

end Ready

end VidNetwork

end Veil
