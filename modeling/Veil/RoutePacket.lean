import Veil.Frame
import Veil.HostTable
import Veil.NeighborTable
import Veil.RouteTable

/-! Forwarding at a switch, from `routepacket.hh` and `routepacket.cc`. -/

namespace Veil

structure RoutePacket where
  hosts : HostTable
  routes : RouteTable
  interfaces : InterfaceTable
  neighbors : NeighborTable

/-- What `getPort` returns and leaves in its reference arguments, with the destination address of
the frame, which it overwrites when the frame is for the switch itself. -/
structure PortLookup where
  port : Int
  k : Nat
  nexthop : VID
  myVid : VID
  dhost : EtherAddress

namespace RoutePacket

def numinterfaces (r : RoutePacket) : Nat := r.interfaces.numInterfaces % 256

def portOf (r : RoutePacket) (vid : VID) : Int :=
  match (r.interfaces.lookupVidEntry vid).2 with
  | some i => i
  | none => -1

def getPort (r : RoutePacket) (dstvid : VID) (dhost : EtherAddress) (nexthop myVid : VID) :
    PortLookup :=
  -- the host part does not count: the frame is for this switch
  let k := myVid.logicalDistance dstvid
  if k ≤ 16 then ⟨r.numinterfaces, k, myVid, myVid, myVid⟩
  else
    let swvid := dstvid.getSwitchVID
    match r.neighbors.lookupEntry swvid with
    | some myInterfacevid => ⟨r.portOf myInterfacevid, k, swvid, myVid, dhost⟩
    | none =>
        match r.routes.getRouteDefault r.interfaces dstvid myVid 0 with
        | none => ⟨-1, k, nexthop, myVid, dhost⟩
        | some (nh, _) =>
            match r.neighbors.lookupEntry nh with
            | some myInterfacevid => ⟨r.portOf myInterfacevid, k, nh, myVid, dhost⟩
            | none =>
                if (r.interfaces.lookupVidEntry nh).1 then
                  ⟨r.numinterfaces, nh.logicalDistance dstvid, nh, nh, dhost⟩
                else ⟨-1, k, nh, myVid, dhost⟩

/-- The bit-flip loop: as long as there is no port, the bit of the destination at the distance
found is flipped. 48 rounds are enough. -/
def reroute (r : RoutePacket) : Nat → VID → PortLookup → VID × PortLookup
  | 0, dstvid, looked => (dstvid, looked)
  | fuel + 1, dstvid, looked =>
      if looked.port < 0 then
        let flipped := dstvid.flipBit looked.k
        r.reroute fuel flipped (r.getPort flipped looked.dhost looked.nexthop looked.myVid)
      else (dstvid, looked)

def ownVid (r : RoutePacket) (dstvidmac srcvidmac : VID) (dstmac srcmac : EtherAddress)
    (srcvid : VID) : Option VID :=
  if (r.interfaces.interfaces.lookup dstvidmac).isSome then some dstvidmac.getSwitchVID
  else if (r.interfaces.interfaces.lookup srcvidmac).isSome then some srcvidmac.getSwitchVID
  else
    match r.interfaces.etheraddToInterfaceIndex.lookup dstmac with
    | some i => some ((r.interfaces.rinterfaces.lookup i).getD 0)
    | none =>
        match r.interfaces.etheraddToInterfaceIndex.lookup srcmac with
        | some i => some ((r.interfaces.rinterfaces.lookup i).getD 0)
        | none => if (r.interfaces.interfaces.lookup srcvid).isSome then some srcvid else none

def rerouted (frame : Frame) : Bool :=
  frame.reroute || frame.veilType == veilRdvQuery || frame.veilType == veilRdvPublish ||
    frame.veilType == veilMapPublish || frame.veilType == noVidToAccessSwitch

/-- The multipath step: at the gateway the final destination is put back, and towards the final
destination another gateway is chosen. The lookup keeps `nexthop` and `myVid` for the next one. -/
def multipath (r : RoutePacket) (frame : Frame) (myVid : VID) : RoutePacket × Frame × PortLookup :=
  let looked := r.getPort frame.dvid frame.dhost 0 myVid
  let finalvid := frame.vidAt 0
  let frame := { frame with dhost := looked.dhost }
  let frame :=
    if (r.interfaces.lookupVidEntry frame.dvid).1 then { frame with dvid := finalvid } else frame
  if finalvid.getSwitchVID = frame.dvid.getSwitchVID ∧ looked.port ≤ r.numinterfaces ∧
      0 ≤ looked.port then
    match r.routes.getRoute r.interfaces frame.dvid looked.myVid 0 false with
    | (routes, some (nh, newgw)) =>
        if newgw ≠ looked.myVid then
          let again := { r with routes }.getPort newgw frame.dhost nh looked.myVid
          ({ r with routes }, { frame with dvid := newgw, dhost := again.dhost }, again)
        else ({ r with routes }, frame, { looked with nexthop := nh })
    | (routes, none) => ({ r with routes }, frame, looked)
  else (r, frame, looked)

def forwardVeil (r : RoutePacket) (frame : Frame) (myVid : VID) : RoutePacket × Frame × Int :=
  let (r, frame, nextvid, myVid) :=
    if frame.veilType = veilEncapMultipathIp then
      let (r, frame, looked) := r.multipath frame myVid
      (r, frame, looked.nexthop, looked.myVid)
    else (r, frame, 0, myVid)
  let first := r.getPort frame.dvid frame.dhost nextvid myVid
  let (dstvid, looked) := if rerouted frame then r.reroute 48 frame.dvid first
    else (frame.dvid, first)
  let ttl := frame.ttl
  -- the ttl is decremented first; the value checked below is the old one
  let frame := { frame with
    dvid := dstvid
    dhost := looked.nexthop
    shost := looked.myVid
    ttl := ttl - 1 }
  if ttl = 0 then (r, frame, r.numinterfaces + 1)
  else
    let port := if 0 ≤ looked.port then looked.port else r.numinterfaces + 1
    if r.numinterfaces < port ∧
        (frame.veilType = veilEncapMultipathIp ∨ frame.veilType = veilEncapIp) then
      (r, createAnEncapsulatedPacketToAccessSwitch frame, r.numinterfaces)
    else (r, frame, port)

/-- The tables after the call, the frame, and the output port: -1 to drop the frame, `numinterfaces`
when it is for the switch itself, `numinterfaces + 1` for errors. -/
def smaction (r : RoutePacket) (frame : Frame) : RoutePacket × Frame × Int :=
  if frame.etherType = etherTypeVeil then
    match r.ownVid frame.dhost frame.shost frame.dhost frame.shost frame.svid.getSwitchVID with
    | none => (r, frame, -1)
    | some myVid => r.forwardVeil frame myVid
  else if frame.etherType = etherTypeArp ∨ frame.etherType = etherTypeIp then
    let dstvid := (r.hosts.lookupMAC frame.dhost).getD 0
    let port := r.interfaces.lookupVidEntry dstvid.getSwitchVID
    (r, frame, if port.1 then r.portOf dstvid.getSwitchVID else r.numinterfaces + 1)
  else if frame.etherType = etherTypeVeilIp then
    match r.ownVid frame.dhost (VID.getSwitchVID frame.shost) frame.dhost frame.shost
        frame.svid.getSwitchVID with
    | none => (r, frame, -1)
    | some myVid =>
        let looked := r.getPort frame.dhost frame.dhost 0 myVid
        (r, { frame with dhost := looked.dhost },
          if 0 ≤ looked.port then looked.port else r.numinterfaces + 1)
  else (r, frame, r.numinterfaces + 1)

theorem getPort_self (r : RoutePacket) {dstvid myVid : VID} (dhost : EtherAddress) (nexthop : VID)
    (close : myVid.logicalDistance dstvid ≤ 16) :
    r.getPort dstvid dhost nexthop myVid =
      ⟨r.numinterfaces, myVid.logicalDistance dstvid, myVid, myVid, myVid⟩ := by
  simp only [getPort, close, if_true]

theorem getPort_of_neg (r : RoutePacket) {dstvid myVid nexthop : VID} {dhost : EtherAddress}
    (none : (r.getPort dstvid dhost nexthop myVid).port < 0) :
    let looked := r.getPort dstvid dhost nexthop myVid
    looked.myVid = myVid ∧ looked.k = myVid.logicalDistance dstvid ∧ 16 < looked.k ∧
      looked.dhost = dhost := by
  revert none
  simp only [getPort]
  split
  · intro none
    simp at none
    omega
  · rename_i far
    have above : 16 < myVid.logicalDistance dstvid := by omega
    split
    · intro _
      exact ⟨rfl, rfl, above, rfl⟩
    · split
      · intro _
        exact ⟨rfl, rfl, above, rfl⟩
      · split
        · intro _
          exact ⟨rfl, rfl, above, rfl⟩
        · split
          · intro none
            simp at none
            omega
          · intro _
            exact ⟨rfl, rfl, above, rfl⟩

theorem multipath_frame (r : RoutePacket) (frame : Frame) (myVid : VID) :
    (r.multipath frame myVid).1.numinterfaces = r.numinterfaces ∧
      ∃ dhost dvid, (r.multipath frame myVid).2.1 = { frame with dhost, dvid } := by
  simp only [multipath]
  repeat' split
  all_goals exact ⟨rfl, _, _, rfl⟩

/-- What a switch does to a frame of the overlay: it drops it, or it rewrites its addresses and
counts its `ttl` down, and then may send an IP packet to an access switch. -/
theorem smaction_veil (r : RoutePacket) {frame : Frame} (veil : frame.etherType = etherTypeVeil) :
    (r.smaction frame).2 = (frame, -1) ∨
    ∃ dhost shost dvid,
      let sent := { frame with dhost, shost, dvid, ttl := frame.ttl - 1 }
      ((r.smaction frame).2.1 = sent ∨
        (frame.veilType = veilEncapMultipathIp ∨ frame.veilType = veilEncapIp) ∧
          (r.smaction frame).2.1 = createAnEncapsulatedPacketToAccessSwitch sent) ∧
      (frame.ttl = 0 → (r.smaction frame).2.2 = r.numinterfaces + 1) := by
  rw [smaction, if_pos veil]
  cases r.ownVid frame.dhost frame.shost frame.dhost frame.shost frame.svid.getSwitchVID with
  | none => exact Or.inl rfl
  | some myVid =>
      right
      obtain ⟨switch, dhost, dvid, nextvid, vid, start, same⟩ :
        ∃ (switch : RoutePacket) (dhost : EtherAddress)
          (dvid nextvid vid : VID),
          (if frame.veilType = veilEncapMultipathIp then
            ((r.multipath frame myVid).1, (r.multipath frame myVid).2.1,
              (r.multipath frame myVid).2.2.nexthop, (r.multipath frame myVid).2.2.myVid)
          else (r, frame, 0, myVid)) = (switch, { frame with dhost, dvid }, nextvid, vid) ∧
          switch.numinterfaces = r.numinterfaces := by
        split
        · obtain ⟨same, dhost, dvid, rewritten⟩ := r.multipath_frame frame myVid
          exact ⟨_, dhost, dvid, _, _, by rw [rewritten], same⟩
        · exact ⟨r, frame.dhost, frame.dvid, 0, myVid, rfl, rfl⟩
      simp only [forwardVeil]
      rw [start]
      dsimp only
      by_cases dead : frame.ttl = 0
      · rw [if_pos dead]
        exact ⟨_, _, _, Or.inl rfl, fun _ => by rw [same]⟩
      · rw [if_neg dead]
        by_cases ip : frame.veilType = veilEncapMultipathIp ∨ frame.veilType = veilEncapIp
        · -- the destination and the port found do not matter
          repeat' split
          all_goals first
            | exact ⟨_, _, _, Or.inl rfl, fun zero => absurd zero dead⟩
            | exact ⟨_, _, _, Or.inr ⟨ip, rfl⟩, fun zero => absurd zero dead⟩
        · simp only [ip, and_false, if_false]
          exact ⟨_, _, _, Or.inl rfl, fun zero => absurd zero dead⟩

end RoutePacket

end Veil
