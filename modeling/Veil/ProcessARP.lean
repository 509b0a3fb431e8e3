import Veil.ProcessIP

/-! ARP packets of hosts and their way through the overlay, from `processarp.hh` and
`processarp.cc`. -/

namespace Veil

open Bytes (Byte)

structure ProcessARP where
  hosts : HostTable
  map : MappingTable
  interfaces : InterfaceTable

namespace ProcessARP

def myVid (p : ProcessARP) (packet : Packet) : VID :=
  (p.interfaces.lookupIntEntry packet.port).getD 0

def answer (p : ProcessARP) (packet : Packet) (esrc : EtherAddress) (src dst : IPAddress) :
    Disposal Packet :=
  match p.hosts.lookupIP dst with
  | some hvid =>
      if hvid.getSwitchVID ≠ p.myVid packet then .replaced (createArpReplyPacket hvid esrc dst src)
      else .dropped
  | none =>
      match p.map.lookup dst with
      | some entry => .replaced (createArpReplyPacket entry.ipVid esrc dst src)
      | none =>
          match p.hosts.lookupIP src with
          | some hvid => .replaced (sendArpQueryPacket src dst hvid hvid).packet
          | none => .dropped

def fromHost (p : ProcessARP) (startrand : BitVec 16) (packet : Packet) :
    ProcessARP × List Packet × Disposal Packet :=
  let edest := packet.frame.dhost
  let esrc := packet.frame.shost
  let op : BitVec 16 := Bytes.toWord 16 2 (packet.data.drop 20)
  let src := Bytes.toWord 32 4 (packet.data.drop 28)
  let dst := Bytes.toWord 32 4 (packet.data.drop 38)
  if src = 0 then (p, [], .dropped)
  else
    let (hosts, published) := p.hosts.registerHost src esrc packet.port (p.myVid packet) startrand
    let p := { p with hosts }
    let published := published.map Frame.packet
    -- a gratuitous packet only registers the host
    if edest = 0xffffffffffff ∧ src = dst then (p, published, .dropped)
    else if op = arpopRequest then (p, published, p.answer packet esrc src dst)
    else (p, published, .dropped)

/-- The request is turned into the reply, with the interface 0 as the sender on the wire. -/
def reply (p : ProcessARP) (frame : Frame) (ipvid : VID) : Frame :=
  let src := frame.ipAt 14
  let dst := frame.ipAt 24
  let payload := Bytes.write frame.payload 6 (Bytes.ofWord 2 arpopReply)
  let payload := Bytes.write payload 8 (Bytes.ofWord 6 ipvid)
  let payload := Bytes.write payload 14 (Bytes.ofWord 4 dst)
  let payload := Bytes.write payload 18 (Bytes.ofWord 6 frame.svid)
  { frame with
    dhost := frame.svid
    shost := (p.interfaces.rinterfaces.lookup 0).getD 0
    dvid := frame.svid
    svid := ipvid
    ttl := maxTtl
    veilType := veilEncapArp
    payload := Bytes.write payload 24 (Bytes.ofWord 4 src) }

def fromOverlay (p : ProcessARP) (packet : Packet) : Disposal Packet :=
  let frame := packet.frame
  let src := frame.ipAt 14
  let dst := frame.ipAt 24
  if (p.interfaces.lookupVidEntry frame.dhost).1 then
    if frame.veilType = veilEncapArp ∧ frame.shortAt 6 = arpopRequest then
      if (p.interfaces.lookupVidEntry frame.dvid).1 then
        match ((p.map.lookup dst).map (·.ipVid)).or (p.hosts.lookupIP dst) with
        | some ipvid => .handedOn (packet.setFrame (p.reply frame ipvid))
        | none => .dropped
      else .handedOn { packet with reroute := true }
    else if frame.veilType = veilEncapArp ∧ frame.shortAt 6 = arpopReply then
      match p.hosts.lookupIP dst with
      | some _ =>
          match p.hosts.lookupVID (frame.vidAt 18) with
          | some dest => .replaced (createArpReplyPacket frame.svid dest src dst)
          | none => .dropped
      | none => .handedOn packet
    else .dropped
  else .dropped

/-- The tables after the call, the packets that are pushed at once, and what becomes of the
packet. -/
def dispose (p : ProcessARP) (startrand : BitVec 16) (packet : Packet) :
    ProcessARP × List Packet × Disposal Packet :=
  if packet.frame.etherType = etherTypeArp then p.fromHost startrand packet
  else if packet.frame.etherType = etherTypeVeil then (p, [], p.fromOverlay packet)
  else (p, [], .dropped)

def smaction (p : ProcessARP) (startrand : BitVec 16) (packet : Packet) :
    ProcessARP × List Packet × Option Packet :=
  let (p, pushed, disposal) := p.dispose startrand packet
  (p, pushed, disposal.packet)

theorem smaction_arp (p : ProcessARP) (startrand : BitVec 16) {packet : Packet}
    (arp : packet.frame.etherType = etherTypeArp) : p.smaction startrand packet =
      ((p.fromHost startrand packet).1, (p.fromHost startrand packet).2.1,
        (p.fromHost startrand packet).2.2.packet) := by
  rw [smaction, dispose, if_pos arp]

theorem smaction_veil (p : ProcessARP) (startrand : BitVec 16) {packet : Packet}
    (veil : packet.frame.etherType = etherTypeVeil) :
    p.smaction startrand packet = (p, [], (p.fromOverlay packet).packet) := by
  have noArp : etherTypeVeil ≠ etherTypeArp := by decide
  rw [smaction, dispose, veil, if_neg noArp, if_pos rfl]

end ProcessARP

end Veil
