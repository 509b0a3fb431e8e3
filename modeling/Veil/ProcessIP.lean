import Veil.Disposal
import Veil.Packet

/-! IP packets of hosts and their way into and out of the overlay, from `processip.hh` and
`processip.cc`. -/

namespace Veil

open Bytes (Byte)

def Frame.packet (frame : Frame) : Packet := ⟨[], frame.bytes, frame.reroute, frame.port⟩

def arpopRequest : BitVec 16 := 1
def arpopReply : BitVec 16 := 2

def etherArp (op : BitVec 16) (sha : EtherAddress) (spa : IPAddress) (tha : EtherAddress)
    (tpa : IPAddress) : List Byte :=
  [0, 1, 0x08, 0, 6, 4] ++ (Bytes.ofWord 2 op ++ (Bytes.ofWord 6 sha ++ (Bytes.ofWord 4 spa ++
    (Bytes.ofWord 6 tha ++ Bytes.ofWord 4 tpa))))

def createArpReplyPacket (smac dmac : EtherAddress) (sip dip : IPAddress) : Packet where
  headroom := []
  data := Bytes.ofWord 6 dmac ++ (Bytes.ofWord 6 smac ++ (Bytes.ofWord 2 etherTypeArp ++
    etherArp arpopReply smac sip dmac dip))
  reroute := false
  port := 0

def sendArpQueryPacket (srcip dstip : IPAddress) (srcvid myvid : VID) : Frame where
  dhost := calculateAccessSwitch dstip
  shost := myvid
  etherType := etherTypeVeil
  svid := srcvid
  dvid := calculateAccessSwitch dstip
  veilType := veilEncapArp
  ttl := maxTtl
  optional := 0
  payload := etherArp arpopRequest srcvid srcip 0 dstip
  reroute := true
  port := 0

inductive ForwardingType
  | addOverwrite
  | encap
  | multipath
deriving DecidableEq

def ForwardingType.configure (forwardingType : Byte) : ForwardingType :=
  if forwardingType = 0 then .addOverwrite
  else if forwardingType = 2 then .multipath
  else .encap

namespace Packet

def encapsulate (p : Packet) (count : Nat) (veilType : BitVec 16) (svid dvid : VID) : Packet :=
  let q := p.push count
  let q := (q.write 0 (Bytes.ofWord 6 dvid)).write 6 (Bytes.ofWord 6 svid)
  let q := q.write 12 (Bytes.ofWord 2 etherTypeVeil)
  let q := (q.write 20 (Bytes.ofWord 6 dvid)).write 14 (Bytes.ofWord 6 svid)
  (q.write 26 (Bytes.ofWord 2 veilType)).write 28 (Bytes.ofWord 1 maxTtl)

def decapsulate (p : Packet) (count : Nat) (svid : VID) (dmac : EtherAddress) : Packet :=
  let q := (p.pull count).write 12 (Bytes.ofWord 2 etherTypeIp)
  (q.write 0 (Bytes.ofWord 6 dmac)).write 6 (Bytes.ofWord 6 svid)

theorem encapsulate_data (p : Packet) {count : Nat} (long : 30 ≤ count + p.data.length)
    (veilType : BitVec 16) (svid dvid : VID) :
    ∃ optional, (p.encapsulate count veilType svid dvid).data = Frame.bytes
      { dhost := dvid
        shost := svid
        etherType := etherTypeVeil
        svid, dvid, veilType, optional
        ttl := maxTtl
        payload := (p.push count).data.drop 30
        reroute := p.reroute
        port := p.port } := by
  have pushed : (p.push count).data = (p.push count).frame.bytes :=
    (bytes_frame (by rwa [length_push])).symm
  refine ⟨(p.push count).frame.optional, ?_⟩
  simp only [encapsulate, write]
  rw [pushed]
  simp only [Frame.write_dhost, Frame.write_shost, Frame.write_etherType, Frame.write_dvid,
    Frame.write_svid, Frame.write_veilType, Frame.write_ttl, Frame.drop_bytes]
  rfl

theorem decapsulate_data (p : Packet) {count : Nat} (long : count + 14 ≤ p.data.length) (svid : VID)
    (dmac : EtherAddress) :
    (p.decapsulate count svid dmac).data = Bytes.ofWord 6 dmac ++ (Bytes.ofWord 6 svid ++
      (Bytes.ofWord 2 etherTypeIp ++ p.data.drop (count + 14))) := by
  obtain ⟨pulled, rest⟩ : ∃ pulled, p.data.drop count = pulled := ⟨_, rfl⟩
  have enough : 14 ≤ pulled.length := by
    rw [← rest, List.length_drop]
    omega
  have first : (pulled.take 6).length = 6 := List.length_take_of_le (by omega)
  have second : ((pulled.drop 6).take 6).length = 6 :=
    List.length_take_of_le (by rw [List.length_drop]; omega)
  have third : ((pulled.drop 12).take 2).length = 2 :=
    List.length_take_of_le (by rw [List.length_drop]; omega)
  have header : pulled = pulled.take 6 ++ ((pulled.drop 6).take 6 ++
      ((pulled.drop 12).take 2 ++ pulled.drop 14)) := by
    have type := List.take_append_drop 2 (pulled.drop 12)
    have source := List.take_append_drop 6 (pulled.drop 6)
    rw [List.drop_drop] at source type
    rw [type, source, List.take_append_drop]
  rw [← List.drop_drop, rest]
  simp only [decapsulate, write, pull, rest]
  generalize pulled.take 6 = dhost, (pulled.drop 6).take 6 = shost,
      (pulled.drop 12).take 2 = etherType,
    pulled.drop 14 = payload at *
  subst header
  simp (disch := simp [first, second, third]) only [Bytes.write_append, first, second,
    Nat.reduceSub,
    Bytes.write_zero, Bytes.length_ofWord]

end Packet

structure ProcessIP where
  hosts : HostTable
  interfaces : InterfaceTable
  forwardingType : ForwardingType

namespace ProcessIP

def srcip (packet : Packet) : IPAddress := Bytes.toWord 32 4 (packet.data.drop 26)

def dstip (packet : Packet) : IPAddress := Bytes.toWord 32 4 (packet.data.drop 30)

def myVid (p : ProcessIP) (packet : Packet) : VID :=
  (p.interfaces.lookupIntEntry packet.port).getD 0

def registered (p : ProcessIP) (startrand : BitVec 16) (packet : Packet) :
    HostTable × Bool × Option VID :=
  p.hosts.generateHostVid (srcip packet) packet.frame.shost packet.port (p.myVid packet) startrand

/-- The VID of the host that the packet comes from. Where none is found it is the host's own
address, which `svid` holds at first. -/
def sourceVid (p : ProcessIP) (startrand : BitVec 16) (packet : Packet) : VID :=
  (p.registered startrand packet).2.2.getD packet.frame.shost

def toOwnHost (p : ProcessIP) (packet : Packet) (svid dvid : VID) : List Packet × Disposal Packet :=
  let dmac := packet.frame.dhost
  let smac := packet.frame.shost
  if dvid.getSwitchVID = p.myVid packet then
    match p.hosts.lookupVID dvid with
    | none => ([], .dropped)
    | some dipmac =>
        if dmac ≠ dipmac then
          ([createArpReplyPacket smac dipmac (srcip packet) (dstip packet)],
            .handedOn (packet.write 0 (Bytes.ofWord 6 dipmac)))
        else ([], .dropped)
  else
    let svid := (p.hosts.lookupMAC smac).getD svid
    let dmac := (p.hosts.lookupVID dvid).getD dmac
    ([], .handedOn ((packet.write 6 (Bytes.ofWord 6 svid)).write 0 (Bytes.ofWord 6 dmac)))

def toOverlay (p : ProcessIP) (packet : Packet) (svid : VID) : Packet :=
  let dvid := packet.frame.dhost
  match p.forwardingType with
  | .addOverwrite =>
      (packet.write 12 (Bytes.ofWord 2 etherTypeVeilIp)).write 6 (Bytes.ofWord 6 svid)
  | .encap => packet.encapsulate 16 veilEncapIp svid dvid
  | .multipath =>
      (packet.encapsulate 22 veilEncapMultipathIp svid dvid).write 30 (Bytes.ofWord 6 dvid)

def fromHost (p : ProcessIP) (startrand : BitVec 16) (packet : Packet) :
    ProcessIP × List Packet × Disposal Packet :=
  let svid := p.sourceVid startrand packet
  let (hosts, isNew, _) := p.registered startrand packet
  let p := { p with hosts }
  let published :=
    if isNew then [(publishAccessInfoPacket (srcip packet) packet.frame.shost svid).packet] else []
  match hosts.lookupIP (dstip packet) with
  | some dvid =>
      let (pushed, disposal) := p.toOwnHost packet svid dvid
      (p, published ++ pushed, disposal)
  | none => (p, published, .handedOn (p.toOverlay packet svid))

/-- A packet whose addresses are the VIDs of the hosts. One for a host that this switch should
have but does not is killed, and then returned. -/
def fromVeilIp (p : ProcessIP) (packet : Packet) : List Packet × Disposal Packet :=
  let dvid := packet.frame.dhost
  match p.hosts.lookupVID dvid with
  | some dmac =>
      ([], .handedOn ((packet.write 12 (Bytes.ofWord 2 etherTypeIp)).write 0 (Bytes.ofWord 6 dmac)))
  | none =>
      if (p.interfaces.lookupVidEntry (VID.getSwitchVID dvid)).1 then
        ([(sendArpQueryPacket (srcip packet) (dstip packet) packet.frame.shost
            (p.myVid packet)).packet],
          ⟨1, .input packet⟩)
      else ([], .handedOn packet)

/-- The bytes between the Ethernet header and the IP header, and the VID of the host that the packet
is for. -/
def shim (frame : Frame) : Option (Nat × VID) :=
  if frame.veilType = veilEncapIp then some (16, frame.dvid)
  else if frame.veilType = veilEncapMultipathIp then some (22, frame.vidAt 0)
  else none

def fromOverlay (p : ProcessIP) (packet : Packet) : Disposal Packet :=
  if (p.interfaces.lookupVidEntry packet.frame.dhost).1 then
    match shim packet.frame with
    | none => .handedOn packet
    | some (count, dvid) =>
        match p.hosts.lookupVID dvid with
        | some dmac => .handedOn (packet.decapsulate count packet.frame.svid dmac)
        | none =>
            if (p.interfaces.lookupVidEntry dvid.getSwitchVID).1 then
              .handedOn packet.createAnEncapsulatedPacketToAccessSwitch
            else .handedOn packet
  else .dropped

def dispose (p : ProcessIP) (startrand : BitVec 16) (packet : Packet) :
    ProcessIP × List Packet × Disposal Packet :=
  if packet.frame.etherType = etherTypeIp then p.fromHost startrand packet
  else if packet.frame.etherType = etherTypeVeilIp then (p, p.fromVeilIp packet)
  else if packet.frame.etherType = etherTypeVeil then (p, [], p.fromOverlay packet)
  else (p, [], .dropped)

/-- The packet that is sent on comes last. -/
def smaction (p : ProcessIP) (startrand : BitVec 16) (packet : Packet) :
    ProcessIP × List Packet × Option Packet :=
  let (p, pushed, disposal) := p.dispose startrand packet
  (p, pushed, disposal.packet)

section Types

variable (p : ProcessIP) (startrand : BitVec 16) {packet : Packet}

theorem smaction_ip (ip : packet.frame.etherType = etherTypeIp) : p.smaction startrand packet =
    ((p.fromHost startrand packet).1, (p.fromHost startrand packet).2.1,
      (p.fromHost startrand packet).2.2.packet) := by
  rw [smaction, dispose, if_pos ip]

theorem smaction_veilIp (veilIp : packet.frame.etherType = etherTypeVeilIp) :
    p.smaction startrand packet = (p, (p.fromVeilIp packet).1, (p.fromVeilIp packet).2.packet) := by
  have noIp : etherTypeVeilIp ≠ etherTypeIp := by decide
  rw [smaction, dispose, veilIp, if_neg noIp, if_pos rfl]

theorem smaction_veil (veil : packet.frame.etherType = etherTypeVeil) :
    p.smaction startrand packet = (p, [], (p.fromOverlay packet).packet) := by
  have others : etherTypeVeil ≠ etherTypeIp ∧ etherTypeVeil ≠ etherTypeVeilIp := by decide
  rw [smaction, dispose, veil, if_neg others.1, if_neg others.2, if_pos rfl]

end Types

end ProcessIP

end Veil
