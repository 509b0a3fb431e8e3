import Veil.HostLearning
import Veil.HostNetwork

/-! Where what the hosts are told comes from: however the packets of a network interleave, no
switch names a place where a host was not heard, and no host gets a datagram that no host sent. -/

namespace Veil

open Bytes (Byte)

namespace Packet

/-- The host that a packet comes from, where `processarp.cc` and `processip.cc` read its address. -/
def sourceIP (packet : Packet) : IPAddress :=
  if packet.frame.etherType = etherTypeArp then Bytes.toWord 32 4 (packet.data.drop 28)
  else ProcessIP.srcip packet

/-- The address that an ARP packet gives for the host it comes from. -/
def senderAddress (packet : Packet) : EtherAddress := Bytes.toWord 48 6 (packet.data.drop 22)

structure Rewritten (packet after : Packet) (etherType : BitVec 16) (shost : EtherAddress) :
    Prop where
  etherType : after.frame.etherType = etherType
  shost : after.frame.shost = shost
  datagram : after.data.drop 14 = packet.data.drop 14
  length : after.data.length = packet.data.length

theorem Rewritten.refl (packet : Packet) :
    packet.Rewritten packet packet.frame.etherType packet.frame.shost := ⟨rfl, rfl, rfl, rfl⟩

section Rewritten

variable {packet after : Packet} {type : BitVec 16} {source : EtherAddress}
  (rewritten : packet.Rewritten after type source) (long : 14 ≤ packet.data.length)
include rewritten long

theorem Rewritten.write_dhost (dhost : EtherAddress) :
    packet.Rewritten (after.write 0 (Bytes.ofWord 6 dhost)) type source := by
  have same := rewritten.length
  have rest {k : Nat} (beyond : 6 ≤ k) :
      (Bytes.write after.data 0 (Bytes.ofWord 6 dhost)).drop k = after.data.drop k :=
    Bytes.drop_write (Nat.zero_le _) (by rwa [Bytes.length_ofWord, Nat.zero_add])
  have header := rest (Nat.le_refl 6)
  have type := rest (show 6 ≤ 12 by decide)
  have written : (Bytes.write after.data 0 (Bytes.ofWord 6 dhost)).length = after.data.length :=
    Bytes.length_write (by rw [Bytes.length_ofWord]; omega)
  exact ⟨(congrArg (Bytes.toWord 16 2) type).trans rewritten.etherType,
    (congrArg (Bytes.toWord 48 6) header).trans rewritten.shost,
    (rest (by decide)).trans rewritten.datagram, written.trans same⟩

theorem Rewritten.write_shost (shost : EtherAddress) :
    packet.Rewritten (after.write 6 (Bytes.ofWord 6 shost)) type shost := by
  have same := rewritten.length
  have rest {k : Nat} (beyond : 12 ≤ k) :
      (Bytes.write after.data 6 (Bytes.ofWord 6 shost)).drop k = after.data.drop k :=
    Bytes.drop_write (by omega) (by rwa [Bytes.length_ofWord])
  have written : (Bytes.write after.data 6 (Bytes.ofWord 6 shost)).length = after.data.length :=
    Bytes.length_write (by rw [Bytes.length_ofWord]; omega)
  exact ⟨(congrArg (Bytes.toWord 16 2) (rest (Nat.le_refl 12))).trans rewritten.etherType,
    Bytes.toWord_write shost (by omega) (by decide), (rest (by decide)).trans rewritten.datagram,
    written.trans same⟩

theorem Rewritten.write_etherType (etherType : BitVec 16) :
    packet.Rewritten (after.write 12 (Bytes.ofWord 2 etherType)) etherType source := by
  have same := rewritten.length
  have address := @Bytes.toWord_write_later 6 6 12 after.data 48 (Bytes.ofWord 2 etherType)
    (by omega) (by decide)
  have rest : (Bytes.write after.data 12 (Bytes.ofWord 2 etherType)).drop 14 = after.data.drop 14 :=
    Bytes.drop_write (by omega) (by rw [Bytes.length_ofWord])
  have written : (Bytes.write after.data 12 (Bytes.ofWord 2 etherType)).length =
      after.data.length :=
    Bytes.length_write (by rw [Bytes.length_ofWord]; omega)
  exact ⟨Bytes.toWord_write etherType (by omega) (by decide), address.trans rewritten.shost,
    rest.trans rewritten.datagram, written.trans same⟩

end Rewritten

theorem delivered_reads {packet : Packet} {dmac svid : EtherAddress} {datagram : List Byte}
    (data : packet.data = Bytes.ofWord 6 dmac ++
      (Bytes.ofWord 6 svid ++ (Bytes.ofWord 2 etherTypeIp ++ datagram))) :
    packet.frame.etherType = etherTypeIp ∧ packet.frame.shost = svid ∧
      packet.data.drop 14 = datagram := by
  simp (disch := decide) only [frame, data, Bytes.drop_ofWord_append, Nat.reduceSub, List.drop_zero,
    Bytes.toWord_ofWord_append, and_self]

end Packet

namespace HostNetwork

variable {Switch : Type} (net : HostNetwork Switch)

structure Assigned : Prop where
  inverse : ∀ s, HashTable.IsInverse (net.interfaces s).interfaces (net.interfaces s).rinterfaces
  switchVid : ∀ s vid i, (net.interfaces s).interfaces.lookup vid = some i → vid.IsSwitchVID
  nonzero : ∀ s, (net.interfaces s).interfaces.lookup 0 = none
  ports : ∀ s vid i, (net.interfaces s).interfaces.lookup vid = some i →
    i < (net.interfaces s).numInterfaces
  few : ∀ s, (net.interfaces s).numInterfaces < 256

/-- What hosts send: none of the overlay's own packets, to an interface that no other switch
hears. -/
structure FromHost (s : Switch) (packet : Packet) : Prop where
  long : 14 ≤ packet.data.length
  plain : packet.frame.etherType ≠ etherTypeVeil ∧ packet.frame.etherType ≠ etherTypeVeilIp
  interface : ∃ vid, (net.interfaces s).interfaces.lookup vid = some packet.port
  alone : net.wire s packet.port = []

def Allowed (_ : HostState Switch) : HostAction Switch → Prop
  | .send s packet => net.FromHost s packet
  | _ => True

section Origins

variable (sent : List (Switch × Packet))

/-- The packet, in whatever buffer, is one that a host sent to `s`. -/
def Sent (s : Switch) (packet : Packet) : Prop := ∃ headroom, (s, { packet with headroom }) ∈ sent

def Heard (s : Switch) (ip : IPAddress) (mac : EtherAddress) (vid : VID) : Prop :=
  ∃ packet, Sent sent s packet ∧ packet.sourceIP = ip ∧ packet.frame.shost = mac ∧
    (net.interfaces s).lookupIntEntry packet.port = some vid.getSwitchVID

def Located (ip : IPAddress) (vid : VID) : Prop := ∃ s mac, net.Heard sent s ip mac vid

/-- The address is a VID of a place where the host was heard, or the one that it sends from
itself. -/
def Named (ip : IPAddress) (address : EtherAddress) : Prop :=
  net.Located sent ip address ∨ ∃ s packet, Sent sent s packet ∧ packet.sourceIP = ip ∧
    packet.frame.shost = address

/-- Some host sent the datagram, and `svid` is its own address or a VID under which it was heard. -/
def Origin (svid : VID) (datagram : List Byte) : Prop :=
  ∃ s packet, Sent sent s packet ∧ packet.frame.etherType = etherTypeIp ∧
    packet.data.drop 14 = datagram ∧
    (svid = packet.frame.shost ∨ ∃ ip, net.Heard sent s ip packet.frame.shost svid)

structure Truthful (frame : Frame) : Prop where
  veil : frame.etherType = etherTypeVeil
  publish : frame.veilType = veilMapPublish →
    ∃ ip mac vid, frame.payload = mapPayload ip mac vid ∧ net.Located sent ip vid
  arp : frame.veilType = veilEncapArp → frame.payload.length = 28 ∧
    (frame.shortAt 6 = arpopReply → net.Located sent (frame.ipAt 14) frame.svid)
  datagram : frame.veilType = veilEncapIp ∨ frame.veilType = veilEncapMultipathIp ∨
    frame.veilType = noVidToAccessSwitch →
    ∃ datagram, frame.Carries frame.svid datagram ∧ net.Origin sent frame.svid datagram

/-- A packet of a host is at a classifier when the host sent it there, and at a router when a
switch made it for the host. -/
structure Genuine (arrival : PacketArrival Switch) : Prop where
  veil : arrival.packet.frame.etherType = etherTypeVeil →
    30 ≤ arrival.packet.data.length ∧ net.Truthful sent arrival.packet.frame
  veilIp : arrival.packet.frame.etherType = etherTypeVeilIp →
    14 ≤ arrival.packet.data.length ∧
      net.Origin sent arrival.packet.frame.shost (arrival.packet.data.drop 14)
  plain : arrival.element = .classifier →
    arrival.packet.frame.etherType = etherTypeArp ∨ arrival.packet.frame.etherType = etherTypeIp →
      Sent sent arrival.switch arrival.packet
  answer : arrival.element = .router → arrival.packet.frame.etherType = etherTypeArp →
    net.Named sent arrival.packet.sourceIP arrival.packet.senderAddress
  datagram : arrival.element = .router → arrival.packet.frame.etherType = etherTypeIp →
    net.Origin sent arrival.packet.frame.shost (arrival.packet.data.drop 14)

structure Informed (s : Switch) (tables : HostSwitch) : Prop where
  interfaces : tables.interfaces = net.interfaces s
  hosts : tables.hosts.Learned (net.Heard sent s)
  map : ∀ ip entry, tables.map.lookup ip = some entry → net.Located sent ip entry.ipVid

end Origins

structure Sound (state : HostState Switch) : Prop where
  sent : ∀ entry ∈ state.sent, net.FromHost entry.1 entry.2
  informed : ∀ s, net.Informed state.sent s (state.switches s)
  genuine : ∀ arrival ∈ state.flight, net.Genuine state.sent arrival

variable {net} {sent more : List (Switch × Packet)} {s : Switch}

/-! ### What is true stays true -/

section More

variable (within : sent ⊆ more)
include within

theorem Sent.mono {packet : Packet} (known : Sent sent s packet) : Sent more s packet :=
  known.imp fun _ member => within member

theorem Heard.mono {ip : IPAddress} {mac : EtherAddress} {vid : VID}
    (heard : net.Heard sent s ip mac vid) :
    net.Heard more s ip mac vid :=
  heard.imp fun _ known => ⟨known.1.mono within, known.2⟩

theorem Located.mono {ip : IPAddress} {vid : VID} (located : net.Located sent ip vid) :
    net.Located more ip vid := by
  obtain ⟨s, mac, heard⟩ := located
  exact ⟨s, mac, heard.mono within⟩

theorem Named.mono {ip : IPAddress} {address : EtherAddress} (named : net.Named sent ip address) :
    net.Named more ip address := by
  rcases named with located | ⟨s, packet, known, rest⟩
  · exact Or.inl (located.mono within)
  · exact Or.inr ⟨s, packet, known.mono within, rest⟩

theorem Origin.mono {svid : VID} {datagram : List Byte} (origin : net.Origin sent svid datagram) :
    net.Origin more svid datagram := by
  obtain ⟨s, packet, known, ip, same, source⟩ := origin
  refine ⟨s, packet, known.mono within, ip, same, source.imp_right ?_⟩
  exact Exists.imp fun _ heard => heard.mono within

theorem Truthful.mono {frame : Frame} (truthful : net.Truthful sent frame) :
    net.Truthful more frame where
  veil := truthful.veil
  publish kind := by
    obtain ⟨ip, mac, vid, carried, located⟩ := truthful.publish kind
    exact ⟨ip, mac, vid, carried, located.mono within⟩
  arp kind := ⟨(truthful.arp kind).1, fun reply => ((truthful.arp kind).2 reply).mono within⟩
  datagram kind := by
    obtain ⟨datagram, carries, origin⟩ := truthful.datagram kind
    exact ⟨datagram, carries, origin.mono within⟩

theorem Genuine.mono {arrival : PacketArrival Switch} (genuine : net.Genuine sent arrival) :
    net.Genuine more arrival where
  veil kind := ⟨(genuine.veil kind).1, (genuine.veil kind).2.mono within⟩
  veilIp kind := ⟨(genuine.veilIp kind).1, (genuine.veilIp kind).2.mono within⟩
  plain here kind := (genuine.plain here kind).mono within
  answer here kind := (genuine.answer here kind).mono within
  datagram here kind := (genuine.datagram here kind).mono within

theorem Informed.mono {tables : HostSwitch} (informed : net.Informed sent s tables) :
    net.Informed more s tables where
  interfaces := informed.interfaces
  hosts := informed.hosts.mono fun _ _ _ heard => heard.mono within
  map ip entry found := (informed.map ip entry found).mono within

end More

/-! ### What a packet has to say to be believed -/

theorem Truthful.of_eq {frame other : Frame} (truthful : net.Truthful sent frame)
    (etherType : other.etherType = frame.etherType) (veilType : other.veilType = frame.veilType)
    (svid : other.svid = frame.svid) (payload : other.payload = frame.payload) :
    net.Truthful sent other := by
  refine ⟨etherType.trans truthful.veil, fun kind => ?_, fun kind => ?_, fun kind => ?_⟩
  · rw [payload]
    exact truthful.publish (veilType ▸ kind)
  · rw [Frame.shortAt, Frame.ipAt, payload, svid]
    exact truthful.arp (veilType ▸ kind)
  · obtain ⟨datagram, carries, origin⟩ := truthful.datagram (veilType ▸ kind)
    rw [svid]
    refine ⟨datagram, ⟨etherType.trans carries.veil, svid, ?_⟩, origin⟩
    rw [veilType, payload]
    exact carries.layout

theorem Truthful.of_carries {frame : Frame} {svid : VID} {datagram : List Byte}
    (carries : frame.Carries svid datagram) (origin : net.Origin sent svid datagram) :
    net.Truthful sent frame := by
  obtain rfl := carries.source
  have kinds : frame.veilType = veilEncapIp ∨ frame.veilType = veilEncapMultipathIp ∨
      frame.veilType = noVidToAccessSwitch := carries.layout.imp (·.1) (·.1)
  refine ⟨carries.veil, fun kind => ?_, fun kind => ?_, fun _ => ⟨datagram, carries, origin⟩⟩
  · rw [kind] at kinds
    exact absurd kinds (by decide)
  · rw [kind] at kinds
    exact absurd kinds (by decide)

theorem Truthful.of_arp {frame : Frame} (veil : frame.etherType = etherTypeVeil)
    (arp : frame.veilType = veilEncapArp) (long : frame.payload.length = 28)
    (located : frame.shortAt 6 = arpopReply → net.Located sent (frame.ipAt 14) frame.svid) :
    net.Truthful sent frame := by
  refine ⟨veil, fun kind => ?_, fun _ => ⟨long, located⟩, fun kind => ?_⟩
  all_goals
    rw [arp] at kind
    exact absurd kind (by decide)

theorem Genuine.of_veil {packet : Packet} {element : Element} (long : 30 ≤ packet.data.length)
    (truthful : net.Truthful sent packet.frame) : net.Genuine sent ⟨s, element, packet⟩ := by
  refine ⟨fun _ => ⟨long, truthful⟩, fun kind => ?_, fun _ kind => ?_, fun _ kind => ?_,
    fun _ kind => ?_⟩
  all_goals
    rw [truthful.veil] at kind
    exact absurd kind (by decide)

theorem Genuine.of_veilIp {packet : Packet} {element : Element}
    (veilIp : packet.frame.etherType = etherTypeVeilIp) (long : 14 ≤ packet.data.length)
    (origin : net.Origin sent packet.frame.shost (packet.data.drop 14)) :
    net.Genuine sent ⟨s, element, packet⟩ := by
  refine ⟨fun kind => ?_, fun _ => ⟨long, origin⟩, fun _ kind => ?_, fun _ kind => ?_,
    fun _ kind => ?_⟩
  all_goals
    rw [veilIp] at kind
    exact absurd kind (by decide)

theorem Genuine.of_ip {packet : Packet} (ip : packet.frame.etherType = etherTypeIp)
    (origin : net.Origin sent packet.frame.shost (packet.data.drop 14)) :
    net.Genuine sent ⟨s, .router, packet⟩ := by
  refine ⟨fun kind => ?_, fun kind => ?_, fun here => ?_, fun _ kind => ?_, fun _ _ => origin⟩
  · rw [ip] at kind
    exact absurd kind (by decide)
  · rw [ip] at kind
    exact absurd kind (by decide)
  · cases here
  · rw [ip] at kind
    exact absurd kind (by decide)

theorem genuine_frame {frame : Frame} (truthful : net.Truthful sent frame) {packet : Packet}
    (data : packet.data = frame.bytes) (element : Element) :
    net.Genuine sent ⟨s, element, packet⟩ := by
  have read := Packet.frame_of_data data
  refine .of_veil ?_ ?_
  · rw [data, Frame.length_bytes]
    exact Nat.le_add_right 30 _
  · rw [read]
    exact truthful.of_eq rfl rfl rfl rfl

/-! ### What the elements make of it -/

theorem createArpReplyPacket_reads (smac dmac : EtherAddress) (sip dip : IPAddress) :
    let packet := createArpReplyPacket smac dmac sip dip
    packet.frame.etherType = etherTypeArp ∧ packet.sourceIP = sip ∧
      packet.senderAddress = smac := by
  have etherType : (createArpReplyPacket smac dmac sip dip).frame.etherType = etherTypeArp := by
    simp (disch := decide) only [Packet.frame, createArpReplyPacket, Bytes.drop_ofWord_append,
      Bytes.toWord_ofWord_append, Nat.reduceSub, List.drop_zero]
  have headers : (createArpReplyPacket smac dmac sip dip).data.drop 14 =
      etherArp arpopReply smac sip dmac dip := by
    simp (disch := decide) only [createArpReplyPacket, Bytes.drop_ofWord_append, Nat.reduceSub,
      List.drop_zero]
  have sender : (createArpReplyPacket smac dmac sip dip).data.drop 22 =
      Bytes.ofWord 6 smac ++ (Bytes.ofWord 4 sip ++
        (Bytes.ofWord 6 dmac ++ Bytes.ofWord 4 dip)) := by
    rw [show 22 = 14 + 8 from rfl, ← List.drop_drop, headers]
    rfl
  refine ⟨etherType, ?_, ?_⟩
  · rw [Packet.sourceIP, if_pos etherType, show 28 = 22 + 6 from rfl, ← List.drop_drop, sender]
    simp (disch := decide) only [Bytes.drop_ofWord_append, Bytes.toWord_ofWord_append,
      Nat.reduceSub, List.drop_zero]
  · rw [Packet.senderAddress, sender]
    exact Bytes.toWord_ofWord_append _ _ (by decide)

theorem genuine_arpReply {smac : EtherAddress} {sip : IPAddress} (named : net.Named sent sip smac)
    (dmac : EtherAddress) (dip : IPAddress) :
    net.Genuine sent ⟨s, .router, createArpReplyPacket smac dmac sip dip⟩ := by
  obtain ⟨arp, source, sender⟩ := createArpReplyPacket_reads smac dmac sip dip
  refine ⟨fun kind => ?_, fun kind => ?_, fun here => ?_, fun _ _ => ?_, fun _ kind => ?_⟩
  · rw [arp] at kind
    exact absurd kind (by decide)
  · rw [arp] at kind
    exact absurd kind (by decide)
  · cases here
  · rw [source, sender]
    exact named
  · rw [arp] at kind
    exact absurd kind (by decide)

section Elements

variable {tables : HostSwitch} {packet : Packet}

theorem Sent.heard (assigned : net.Assigned)
    (admitted : ∀ entry ∈ sent, net.FromHost entry.1 entry.2) (known : Sent sent s packet) :
    ∃ v : VID, (net.interfaces s).lookupIntEntry packet.port = some v ∧ v.IsSwitchVID ∧
      ∀ vid : VID, vid.getSwitchVID = v →
        net.Heard sent s packet.sourceIP packet.frame.shost vid := by
  obtain ⟨headroom, member⟩ := id known
  obtain ⟨v, found⟩ := (admitted _ member).interface
  have interface := (assigned.inverse s v _).mp found
  exact ⟨v, interface, assigned.switchVid s v _ found,
    fun vid own => ⟨packet, known, rfl, rfl, own ▸ interface⟩⟩

theorem genuine_publication {ip : IPAddress} {vid : VID} (located : net.Located sent ip vid)
    (mac : EtherAddress) :
    net.Genuine sent ⟨s, .router, (publishAccessInfoPacket ip mac vid).packet⟩ := by
  have truthful : net.Truthful sent (publishAccessInfoPacket ip mac vid) := by
    refine ⟨rfl, fun _ => ⟨ip, mac, vid, rfl, located⟩, fun kind => ?_, fun kind => ?_⟩
    all_goals
      simp only [publishAccessInfoPacket] at kind
      exact absurd kind (by decide)
  exact genuine_frame truthful rfl _

theorem genuine_query (srcip dstip : IPAddress) (srcvid myvid : VID) :
    net.Genuine sent ⟨s, .router, (sendArpQueryPacket srcip dstip srcvid myvid).packet⟩ := by
  have request : (sendArpQueryPacket srcip dstip srcvid myvid).shortAt 6 = arpopRequest :=
    Bytes.toWord_ofWord_append arpopRequest _ (by decide)
  refine genuine_frame (.of_arp rfl rfl ?_ fun reply => ?_) rfl _
  · simp [sendArpQueryPacket, etherArp]
  · rw [request] at reply
    exact absurd reply (by decide)

theorem Truthful.reply {p : ProcessARP} {frame : Frame} {ipvid : VID}
    (veil : frame.etherType = etherTypeVeil) (long : frame.payload.length = 28)
    (located : net.Located sent (frame.ipAt 24) ipvid) :
    net.Truthful sent (p.reply frame ipvid) := by
  -- five fields are written over a payload of 28 bytes
  obtain ⟨before, length, payload⟩ : ∃ before : List Byte, before.length = 28 ∧
      (p.reply frame ipvid).payload = Bytes.write (Bytes.write (Bytes.write before 14
        (Bytes.ofWord 4 (frame.ipAt 24))) 18 (Bytes.ofWord 6 frame.svid)) 24
          (Bytes.ofWord 4 (frame.ipAt 14)) := by
    refine ⟨_, ?_, rfl⟩
    simp [Bytes.length_write, long]
  have asked : (p.reply frame ipvid).ipAt 14 = frame.ipAt 24 := by
    rw [Frame.ipAt, payload,
      Bytes.toWord_write_later _ _ (by simp [Bytes.length_write, length]) (by decide),
      Bytes.toWord_write_later _ _ (by simp [Bytes.length_write, length]) (by decide),
      Bytes.toWord_write _ (by simp [length]) (by decide)]
  refine .of_arp veil rfl ?_ fun _ => ?_
  · rw [payload, Bytes.length_write (by simp [Bytes.length_write, length])]
    simp [Bytes.length_write, length]
  · rw [asked]
    exact located

theorem genuine_handed {pushed : List Packet} {returned : Option Packet}
    (first : ∀ handed ∈ pushed, net.Genuine sent ⟨s, .router, handed⟩)
    (second : ∀ handed ∈ returned, net.Genuine sent ⟨s, .router, handed⟩) :
    ∀ handed ∈ pushed ++ returned.toList, net.Genuine sent ⟨s, .router, handed⟩ := by
  intro handed member
  exact (List.mem_append.mp member).elim (first handed) fun among =>
    second handed (Option.mem_toList.mp among)

theorem Informed.located (informed : net.Informed sent s tables) {ip : IPAddress} {vid : VID}
    (found : tables.hosts.lookupIP ip = some vid ∨
      ∃ entry, tables.map.lookup ip = some entry ∧ entry.ipVid = vid) :
    net.Located sent ip vid := by
  rcases found with own | ⟨entry, mapped, rfl⟩
  · exact ⟨s, informed.hosts.ips ip vid own⟩
  · exact informed.map ip entry mapped

theorem Informed.answer (informed : net.Informed sent s tables) {esrc : EtherAddress}
    {src dst : IPAddress} {handed : Packet}
    (answered : (tables.parp.answer packet esrc src dst).packet = some handed) :
    net.Genuine sent ⟨s, .router, handed⟩ := by
  rw [ProcessARP.answer] at answered
  split at answered
  · rename_i hvid own
    split at answered
    · cases answered
      exact genuine_arpReply (Or.inl (informed.located (Or.inl own))) _ _
    · cases answered
  · split at answered
    · rename_i entry mapped
      cases answered
      exact genuine_arpReply (Or.inl (informed.located (Or.inr ⟨entry, mapped, rfl⟩))) _ _
    · split at answered
      · cases answered
        exact genuine_query _ _ _ _
      · cases answered

theorem Informed.arpFromHost (assigned : net.Assigned)
    (admitted : ∀ entry ∈ sent, net.FromHost entry.1 entry.2)
    (informed : net.Informed sent s tables) (known : Sent sent s packet)
    (arp : packet.frame.etherType = etherTypeArp) (startrand : BitVec 16) :
    let (parp, pushed, disposal) := tables.parp.fromHost startrand packet
    parp.hosts.Learned (net.Heard sent s) ∧
      (∀ handed ∈ pushed, net.Genuine sent ⟨s, .router, handed⟩) ∧
      ∀ handed, disposal.packet = some handed → net.Genuine sent ⟨s, .router, handed⟩ := by
  obtain ⟨v, interface, switch, seen⟩ := known.heard assigned admitted
  have source : packet.sourceIP = Bytes.toWord 32 4 (packet.data.drop 28) := if_pos arp
  have myVid : tables.parp.myVid packet = v := by
    rw [ProcessARP.myVid, HostSwitch.parp, informed.interfaces, interface, Option.getD_some]
  obtain ⟨hosts, frames, result⟩ : ∃ hosts frames,
    tables.hosts.registerHost packet.sourceIP packet.frame.shost
      packet.port v startrand = (hosts, frames) := ⟨_, _, rfl⟩
  have registered := informed.hosts.registerHost switch seen packet.port startrand
  rw [result] at registered
  have told : net.Informed sent s { tables with hosts } :=
    ⟨informed.interfaces, registered.1, informed.map⟩
  have published : ∀ handed ∈ frames.map Frame.packet, net.Genuine sent ⟨s, .router, handed⟩ := by
    intro handed member
    obtain ⟨frame, listed, rfl⟩ := List.mem_map.mp member
    obtain ⟨vid, own, rfl⟩ := registered.2 frame listed
    exact genuine_publication ⟨s, _, seen vid own⟩ _
  have hosts : tables.parp.hosts = tables.hosts := rfl
  simp only [ProcessARP.fromHost, myVid, hosts, ← source, result]
  split
  · exact ⟨informed.hosts, List.forall_mem_nil _, by rintro handed ⟨⟩⟩
  · split
    · exact ⟨registered.1, published, by rintro handed ⟨⟩⟩
    · split
      · exact ⟨registered.1, published, fun handed answered => told.answer answered⟩
      · exact ⟨registered.1, published, by rintro handed ⟨⟩⟩

theorem Informed.arpFromOverlay (informed : net.Informed sent s tables)
    (genuine : net.Genuine sent ⟨s, .classifier, packet⟩)
    (veil : packet.frame.etherType = etherTypeVeil) (arp : packet.frame.veilType = veilEncapArp) :
    ∀ handed, (tables.parp.fromOverlay packet).packet = some handed →
      net.Genuine sent ⟨s, .router, handed⟩ := by
  obtain ⟨long, truthful⟩ := genuine.veil veil
  obtain ⟨length, located⟩ := truthful.arp arp
  intro handed result
  simp only [ProcessARP.fromOverlay] at result
  split at result
  · split at result
    · split at result
      · split at result
        · rename_i ipvid found
          cases result
          refine genuine_frame (.reply truthful.veil length (informed.located ?_)) rfl _
          rcases Option.or_eq_some_iff.mp found with mapped | ⟨-, own⟩
          · exact Or.inr (Option.map_eq_some_iff.mp mapped)
          · exact Or.inl own
        · cases result
      · cases result
        exact .of_veil long (truthful.of_eq rfl rfl rfl rfl)
    · split at result
      · rename_i reply
        split at result
        · split at result
          · cases result
            exact genuine_arpReply (Or.inl (located reply.2)) _ _
          · cases result
        · cases result
          exact .of_veil long truthful
      · cases result
  · cases result

theorem Informed.arp (assigned : net.Assigned)
    (admitted : ∀ entry ∈ sent, net.FromHost entry.1 entry.2)
    (informed : net.Informed sent s tables) (genuine : net.Genuine sent ⟨s, .classifier, packet⟩)
    (kind : packet.frame.etherType = etherTypeArp ∨
      packet.frame.etherType = etherTypeVeil ∧ packet.frame.veilType = veilEncapArp)
    (startrand : BitVec 16) :
    let (parp, pushed, returned) := tables.parp.smaction startrand packet
    parp.hosts.Learned (net.Heard sent s) ∧
      ∀ handed ∈ pushed ++ returned.toList, net.Genuine sent ⟨s, .router, handed⟩ := by
  rcases kind with arp | ⟨veil, arp⟩
  · have known := genuine.plain rfl (Or.inl arp)
    obtain ⟨registered, published, answered⟩ :=
      informed.arpFromHost assigned admitted known arp startrand
    rw [ProcessARP.smaction_arp _ _ arp]
    exact ⟨registered, genuine_handed published answered⟩
  · rw [ProcessARP.smaction_veil _ _ veil]
    exact ⟨informed.hosts,
      genuine_handed (List.forall_mem_nil _) (informed.arpFromOverlay genuine veil arp)⟩

theorem Informed.mapUpdate (informed : net.Informed sent s tables) (frame : Frame) :
    let paci := tables.paci.mapUpdate frame
    net.Informed sent s { tables with hosts := paci.hosts, map := paci.map } := by
  simp only [ProcessAccessInfo.mapUpdate]
  split
  · exact ⟨informed.interfaces, informed.hosts.forgets (tables.hosts.deleteIP_forgets _),
      informed.map⟩
  · exact informed

theorem Informed.noVid (informed : net.Informed sent s tables) {frame : Frame}
    (truthful : net.Truthful sent frame) (noVid : frame.veilType = noVidToAccessSwitch)
    (myVid : VID) :
    ∃ pushed disposal, tables.paci.noVid frame myVid = some (pushed, disposal) ∧
      (∀ reply ∈ pushed, net.Truthful sent reply) ∧
      ∀ onward ∈ disposal.packet, net.Truthful sent onward := by
  rw [ProcessAccessInfo.noVid, if_neg (not_not_intro truthful.veil)]
  split
  · exact ⟨_, _, rfl, List.forall_mem_nil _, by rintro onward ⟨⟩⟩
  · rename_i entry mapped
    split
    · exact ⟨_, _, rfl, List.forall_mem_nil _, by rintro onward ⟨⟩⟩
    · refine ⟨_, _, rfl, List.forall_mem_singleton.mpr (.of_arp rfl rfl ?_ fun _ => ?_), ?_⟩
      · simp [createVeilEncapArpReplyPacket]
      · have source :
            (createVeilEncapArpReplyPacket (frame.ipAt 18) (frame.ipAt 22) entry.ipVid frame.svid
            myVid).ipAt 14 = frame.ipAt 22 := Bytes.toWord_ofWord_append _ _ (by decide)
        rw [source]
        exact informed.map _ entry mapped
      · rintro onward ⟨⟩
        obtain ⟨datagram, carries, origin⟩ := truthful.datagram (Or.inr (Or.inr noVid))
        exact .of_carries (carries.toHost noVid entry.ipVid) origin

theorem Informed.mapPublish (informed : net.Informed sent s tables) {frame : Frame}
    (truthful : net.Truthful sent frame) (publish : frame.veilType = veilMapPublish) (myVid : VID) :
    let (paci, pushed) := tables.paci.mapPublish frame myVid
    net.Informed sent s { tables with hosts := paci.hosts, map := paci.map } ∧
      ∀ update ∈ pushed, net.Truthful sent update := by
  obtain ⟨ip, mac, vid, carried, located⟩ := truthful.publish publish
  rw [ProcessAccessInfo.mapPublish_eq _ frame carried]
  refine ⟨⟨informed.interfaces, informed.hosts, fun other entry found => ?_⟩, ?_⟩
  · dsimp only at found
    rw [MappingTable.updateEntry, HashTable.lookup_insert_ite] at found
    split at found
    · rename_i same
      cases found
      exact same ▸ located
    · exact informed.map other entry found
  · split
    · exact List.forall_mem_nil _
    · split
      · refine List.forall_mem_singleton.mpr ⟨rfl, fun kind => ?_, fun kind => ?_, fun kind => ?_⟩
        all_goals
          simp only [updateAccessInfoPacket] at kind
          exact absurd kind (by decide)
      · exact List.forall_mem_nil _

theorem Informed.paci (informed : net.Informed sent s tables) {frame : Frame}
    (truthful : net.Truthful sent frame)
    (kind : frame.veilType = veilMapPublish ∨ frame.veilType = veilMapUpdate ∨
      frame.veilType = noVidToAccessSwitch) :
    ∃ paci pushed disposal, tables.paci.dispose frame = some (paci, pushed, disposal) ∧
      net.Informed sent s { tables with hosts := paci.hosts, map := paci.map } ∧
      (∀ update ∈ pushed, net.Truthful sent update) ∧
        ∀ onward ∈ disposal.packet, net.Truthful sent onward := by
  have onward : ∀ onward ∈ some frame, net.Truthful sent onward := by
    rintro onward ⟨⟩
    exact truthful
  simp only [ProcessAccessInfo.dispose]
  split
  · split
    · split
      · exact ⟨_, _, _, rfl, informed.mapUpdate frame, List.forall_mem_nil _, by rintro onward ⟨⟩⟩
      · exact ⟨_, _, _, rfl, informed, List.forall_mem_nil _, onward⟩
    · rename_i noUpdate
      split
      · rename_i noVid
        split
        · obtain ⟨pushed, disposal, result, replies, sentOn⟩ := informed.noVid truthful noVid
            ((tables.paci.interfaces.lookupIntEntry frame.port).getD 0)
          exact ⟨tables.paci, pushed, disposal, by rw [result, Option.map_some], informed,
            replies, sentOn⟩
        · exact ⟨_, _, _, rfl, informed, List.forall_mem_nil _, onward⟩
      · rename_i vid
        have publish : frame.veilType = veilMapPublish :=
          kind.resolve_right fun other => other.elim noUpdate vid
        split
        · obtain ⟨told, pushed⟩ := informed.mapPublish truthful publish
            ((tables.paci.interfaces.lookupIntEntry frame.port).getD 0)
          exact ⟨_, _, _, rfl, told, pushed, by rintro onward ⟨⟩⟩
        · refine ⟨_, _, _, rfl, informed, List.forall_mem_nil _, ?_⟩
          rintro onward ⟨⟩
          exact truthful.of_eq rfl rfl rfl rfl
  · exact ⟨_, _, _, rfl, informed, List.forall_mem_nil _, by rintro onward ⟨⟩⟩

theorem Informed.accessInfo (informed : net.Informed sent s tables)
    (genuine : net.Genuine sent ⟨s, .classifier, packet⟩)
    (veil : packet.frame.etherType = etherTypeVeil)
    (kind : packet.frame.veilType = veilMapPublish ∨ packet.frame.veilType = veilMapUpdate ∨
      packet.frame.veilType = noVidToAccessSwitch) :
    let (paci, pushed, returned) := tables.paci.smaction packet.frame
    net.Informed sent s { tables with hosts := paci.hosts, map := paci.map } ∧
      ∀ handed ∈ pushed.map Frame.packet ++ returned.toList.map packet.setFrame,
        net.Genuine sent ⟨s, .router, handed⟩ := by
  obtain ⟨paci, pushedOut, disposal, result, told, pushed, returned⟩ :=
    informed.paci (genuine.veil veil).2 kind
  rw [ProcessAccessInfo.smaction, result]
  refine ⟨told, fun handed member => ?_⟩
  rcases List.mem_append.mp member with among | among
  · obtain ⟨frame, listed, rfl⟩ := List.mem_map.mp among
    exact genuine_frame (pushed frame listed) rfl _
  · obtain ⟨frame, listed, rfl⟩ := List.mem_map.mp among
    exact genuine_frame (returned frame (Option.mem_toList.mp listed)) rfl _

theorem Sent.origin (known : Sent sent s packet) (ip : packet.frame.etherType = etherTypeIp)
    {svid : VID}
    (source : svid = packet.frame.shost ∨ ∃ ip, net.Heard sent s ip packet.frame.shost svid)
    {after : Packet} {etherType : BitVec 16} (rewritten : packet.Rewritten after etherType svid) :
    net.Origin sent after.frame.shost (after.data.drop 14) := by
  rw [rewritten.shost, rewritten.datagram]
  exact ⟨s, packet, known, ip, rfl, source⟩

theorem Informed.toOwnHost (informed : net.Informed sent s tables) (known : Sent sent s packet)
    (ip : packet.frame.etherType = etherTypeIp) (long : 14 ≤ packet.data.length) {svid : VID}
    (source : svid = packet.frame.shost ∨ ∃ ip, net.Heard sent s ip packet.frame.shost svid)
    (dvid : VID) :
    let (pushed, disposal) := tables.pip.toOwnHost packet svid dvid
    (∀ handed ∈ pushed, net.Genuine sent ⟨s, .router, handed⟩) ∧
      ∀ handed ∈ disposal.packet, net.Genuine sent ⟨s, .router, handed⟩ := by
  have noArp : packet.frame.etherType ≠ etherTypeArp := by
    rw [ip]
    decide
  have srcip : packet.sourceIP = ProcessIP.srcip packet := if_neg noArp
  simp only [ProcessIP.toOwnHost]
  split
  · split
    · exact ⟨List.forall_mem_nil _, by rintro handed ⟨⟩⟩
    · rename_i dipmac _
      split
      · refine ⟨List.forall_mem_singleton.mpr
          (genuine_arpReply (Or.inr ⟨s, packet, known, srcip, rfl⟩) _ _), ?_⟩
        rintro handed ⟨⟩
        have written := (Packet.Rewritten.refl packet).write_dhost long dipmac
        exact .of_ip (written.etherType.trans ip) (known.origin ip (Or.inl rfl) written)
      · exact ⟨List.forall_mem_nil _, by rintro handed ⟨⟩⟩
  · refine ⟨List.forall_mem_nil _, ?_⟩
    rintro handed ⟨⟩
    obtain ⟨named, same⟩ : ∃ named : VID,
        named = (tables.hosts.lookupMAC packet.frame.shost).getD svid := ⟨_, rfl⟩
    have owner : named = packet.frame.shost ∨
      ∃ ip, net.Heard sent s ip packet.frame.shost named := by
      cases found : tables.hosts.lookupMAC packet.frame.shost with
      | none =>
          rw [found, Option.getD_none] at same
          exact same ▸ source
      | some vid =>
          rw [found, Option.getD_some] at same
          exact Or.inr (same ▸ informed.hosts.macs _ _ found)
    have written := ((Packet.Rewritten.refl packet).write_shost long named).write_dhost long
      ((tables.hosts.lookupVID dvid).getD packet.frame.dhost)
    subst same
    exact .of_ip (written.etherType.trans ip) (known.origin ip owner written)

theorem Sent.toOverlay (known : Sent sent s packet) (ip : packet.frame.etherType = etherTypeIp)
    (long : 14 ≤ packet.data.length) {svid : VID}
    (source : svid = packet.frame.shost ∨ ∃ ip, net.Heard sent s ip packet.frame.shost svid)
    (p : ProcessIP) :
    net.Genuine sent ⟨s, .router, p.toOverlay packet svid⟩ := by
  have origin : net.Origin sent svid (packet.data.drop 14) := ⟨s, packet, known, ip, rfl, source⟩
  by_cases veil : (p.toOverlay packet svid).frame.etherType = etherTypeVeil
  · have carried := ProcessIP.toOverlay_carries long veil
    exact .of_veil carried.long (.of_carries carried.carries origin)
  · cases type : p.forwardingType with
    | addOverwrite =>
        have written :=
          ((Packet.Rewritten.refl packet).write_etherType long
          etherTypeVeilIp).write_shost long svid
        have enough := le_of_le_of_eq long written.length.symm
        simp only [ProcessIP.toOverlay, type]
        exact .of_veilIp written.etherType enough (known.origin ip source written)
    | encap =>
        obtain ⟨optional, data⟩ := @Packet.encapsulate_data packet 16 (by omega) veilEncapIp svid
          packet.frame.dhost
        refine absurd ?_ veil
        simp only [ProcessIP.toOverlay, type]
        rw [Packet.frame_of_data data]
    | multipath =>
        obtain ⟨optional, data⟩ := @Packet.encapsulate_data packet 22 (by omega)
          veilEncapMultipathIp svid
          packet.frame.dhost
        have written : (p.toOverlay packet svid).data =
            Bytes.write (packet.encapsulate 22 veilEncapMultipathIp svid
            packet.frame.dhost).data 30 (Bytes.ofWord 6 packet.frame.dhost) := by
          simp only [ProcessIP.toOverlay, type]
          rfl
        rw [data, Frame.write_payload] at written
        refine absurd ?_ veil
        rw [Packet.frame_of_data written]

theorem Informed.ipFromHost (assigned : net.Assigned)
    (admitted : ∀ entry ∈ sent, net.FromHost entry.1 entry.2)
    (informed : net.Informed sent s tables) (known : Sent sent s packet)
    (ip : packet.frame.etherType = etherTypeIp) (startrand : BitVec 16) :
    let (pip, pushed, disposal) := tables.pip.fromHost startrand packet
    pip.hosts.Learned (net.Heard sent s) ∧
      (∀ handed ∈ pushed, net.Genuine sent ⟨s, .router, handed⟩) ∧
      ∀ handed ∈ disposal.packet, net.Genuine sent ⟨s, .router, handed⟩ := by
  obtain ⟨v, interface, switch, seen⟩ := known.heard assigned admitted
  have long : 14 ≤ packet.data.length := by
    obtain ⟨headroom, member⟩ := known
    exact (admitted _ member).long
  have noArp : packet.frame.etherType ≠ etherTypeArp := by
    rw [ip]
    decide
  have source : packet.sourceIP = ProcessIP.srcip packet := if_neg noArp
  have myVid : tables.pip.myVid packet = v := by
    rw [ProcessIP.myVid, HostSwitch.pip, informed.interfaces, interface, Option.getD_some]
  have registration : tables.pip.registered startrand packet =
      tables.hosts.generateHostVid packet.sourceIP
      packet.frame.shost packet.port v startrand := by
    rw [ProcessIP.registered, myVid, ← source]
    rfl
  have registered := informed.hosts.generateHostVid switch seen packet.port startrand
  generalize tables.hosts.generateHostVid packet.sourceIP packet.frame.shost packet.port v
      startrand = outcome
    at registration registered
  obtain ⟨hosts, isNew, result⟩ := outcome
  obtain ⟨learned, own, named⟩ := registered
  have told : net.Informed sent s { tables with hosts } :=
    ⟨informed.interfaces, learned, informed.map⟩
  obtain ⟨svid, sourceVid⟩ : ∃ svid : VID, result.getD packet.frame.shost = svid := ⟨_, rfl⟩
  have sender : svid = packet.frame.shost ∨ ∃ ip, net.Heard sent s ip packet.frame.shost svid := by
    cases result with
    | none => exact Or.inl sourceVid.symm
    | some vid =>
        obtain rfl : vid = svid := sourceVid
        exact Or.inr ⟨_, seen vid (own vid rfl)⟩
  have published : ∀ handed ∈
      (if isNew then
        [(publishAccessInfoPacket (ProcessIP.srcip packet) packet.frame.shost svid).packet]
      else []), net.Genuine sent ⟨s, .router, handed⟩ := by
    split
    · rename_i new
      obtain ⟨vid, rfl⟩ := Option.isSome_iff_exists.mp (named new)
      obtain rfl : vid = svid := sourceVid
      have heard := seen vid (own vid rfl)
      rw [source] at heard
      exact List.forall_mem_singleton.mpr (genuine_publication ⟨s, _, heard⟩ _)
    · exact List.forall_mem_nil _
  simp only [ProcessIP.fromHost, ProcessIP.sourceVid, registration, sourceVid]
  split
  · rename_i dvid _
    obtain ⟨pushed, returned⟩ := told.toOwnHost known ip long sender dvid
    refine ⟨learned, fun handed member => ?_, returned⟩
    rcases List.mem_append.mp member with first | second
    · exact published handed first
    · exact pushed handed second
  · refine ⟨learned, published, ?_⟩
    rintro handed ⟨⟩
    exact known.toOverlay ip long sender _

theorem ipFromVeilIp {p : ProcessIP} (genuine : net.Genuine sent ⟨s, .classifier, packet⟩)
    (veilIp : packet.frame.etherType = etherTypeVeilIp) :
    let (pushed, disposal) := p.fromVeilIp packet
    (∀ handed ∈ pushed, net.Genuine sent ⟨s, .router, handed⟩) ∧
      ∀ handed ∈ disposal.packet, net.Genuine sent ⟨s, .router, handed⟩ := by
  obtain ⟨long, origin⟩ := genuine.veilIp veilIp
  have onward : ∀ handed ∈ some packet, net.Genuine sent ⟨s, .router, handed⟩ := by
    rintro handed ⟨⟩
    exact .of_veilIp veilIp long origin
  simp only [ProcessIP.fromVeilIp]
  split
  · rename_i dmac _
    refine ⟨List.forall_mem_nil _, ?_⟩
    rintro handed ⟨⟩
    have written :=
      ((Packet.Rewritten.refl packet).write_etherType long etherTypeIp).write_dhost long dmac
    refine .of_ip written.etherType ?_
    rwa [written.shost, written.datagram]
  · split
    · exact ⟨List.forall_mem_singleton.mpr (genuine_query _ _ _ _), onward⟩
    · exact ⟨List.forall_mem_nil _, onward⟩

theorem ipFromOverlay {p : ProcessIP} (genuine : net.Genuine sent ⟨s, .classifier, packet⟩)
    (veil : packet.frame.etherType = etherTypeVeil)
    (kind : packet.frame.veilType = veilEncapIp ∨ packet.frame.veilType = veilEncapMultipathIp) :
    ∀ handed ∈ (p.fromOverlay packet).packet, net.Genuine sent ⟨s, .router, handed⟩ := by
  obtain ⟨long, truthful⟩ := genuine.veil veil
  obtain ⟨datagram, carries, origin⟩ := truthful.datagram (kind.imp_right Or.inl)
  have carried : packet.Carries packet.frame.svid datagram := ⟨long, carries⟩
  have read := Packet.bytes_frame long
  rw [ProcessIP.fromOverlay]
  split
  · rename_i mine
    split
    · rintro handed ⟨⟩
      exact .of_veil long truthful
    · rename_i count dvid layout
      split
      · rename_i dmac here
        obtain ⟨delivered, result, data⟩ :=
          @ProcessIP.fromOverlay_delivers p 0 packet count dvid _ dmac datagram
          carried mine layout here
        rw [ProcessIP.smaction_veil _ _ veil] at result
        simp only [ProcessIP.fromOverlay, mine, layout, here, if_true, Disposal.packet_handedOn,
          Option.some.injEq] at result
        rw [result]
        rintro handed ⟨⟩
        obtain ⟨ip, shost, rest⟩ := Packet.delivered_reads data
        refine .of_ip ip ?_
        rwa [shost, rest]
      · split
        · rintro handed ⟨⟩
          refine genuine_frame (.of_carries (carries.toAccessSwitch kind.symm) origin)
            (Packet.data_createAnEncapsulated read.symm) _
        · rintro handed ⟨⟩
          exact .of_veil long truthful
  · rintro handed ⟨⟩

theorem Informed.ip (assigned : net.Assigned)
    (admitted : ∀ entry ∈ sent, net.FromHost entry.1 entry.2)
    (informed : net.Informed sent s tables) (genuine : net.Genuine sent ⟨s, .classifier, packet⟩)
    (kind : packet.frame.etherType = etherTypeIp ∨ packet.frame.etherType = etherTypeVeilIp ∨
      packet.frame.etherType = etherTypeVeil ∧
      (packet.frame.veilType = veilEncapIp ∨ packet.frame.veilType = veilEncapMultipathIp))
    (startrand : BitVec 16) :
    let (pip, pushed, returned) := tables.pip.smaction startrand packet
    pip.hosts.Learned (net.Heard sent s) ∧
      ∀ handed ∈ pushed ++ returned.toList, net.Genuine sent ⟨s, .router, handed⟩ := by
  rcases kind with ip | veilIp | ⟨veil, kind⟩
  · obtain ⟨learned, pushed, returned⟩ :=
      informed.ipFromHost assigned admitted (genuine.plain rfl (Or.inr ip)) ip startrand
    rw [ProcessIP.smaction_ip _ _ ip]
    exact ⟨learned, genuine_handed pushed returned⟩
  · obtain ⟨pushed, returned⟩ := @ipFromVeilIp _ net sent s packet tables.pip genuine veilIp
    rw [ProcessIP.smaction_veilIp _ _ veilIp]
    exact ⟨informed.hosts, genuine_handed pushed returned⟩
  · rw [ProcessIP.smaction_veil _ _ veil]
    exact ⟨informed.hosts, genuine_handed (List.forall_mem_nil _) (ipFromOverlay genuine veil kind)⟩

theorem Informed.classify (assigned : net.Assigned)
    (admitted : ∀ entry ∈ sent, net.FromHost entry.1 entry.2)
    (informed : net.Informed sent s tables) (genuine : net.Genuine sent ⟨s, .classifier, packet⟩)
    (startrand : BitVec 16) :
    let (after, packets) := tables.classify startrand packet
    net.Informed sent s after ∧ ∀ handed ∈ packets, net.Genuine sent ⟨s, .router, handed⟩ := by
  simp only [HostSwitch.classify]
  split
  · rename_i kind
    obtain ⟨learned, handed⟩ := informed.arp assigned admitted genuine kind startrand
    exact ⟨⟨informed.interfaces, learned, informed.map⟩, handed⟩
  · split
    · rename_i kind
      exact informed.accessInfo genuine kind.1 kind.2
    · split
      · rename_i kind
        obtain ⟨learned, handed⟩ := informed.ip assigned admitted genuine kind startrand
        exact ⟨⟨informed.interfaces, learned, informed.map⟩, handed⟩
      · exact ⟨informed, List.forall_mem_nil _⟩

/-! ### What the router makes of it -/

theorem Informed.plain_port (assigned : net.Assigned) (informed : net.Informed sent s tables)
    {frame : Frame} (plain : frame.etherType = etherTypeArp ∨ frame.etherType = etherTypeIp) :
    ∃ port, tables.router.smaction frame = (tables.router, frame, port) ∧
      (port = tables.router.numinterfaces + 1 ∨ ∃ source, Sent sent s source ∧
        source.frame.shost = frame.dhost ∧ port = source.port ∧
          source.port < tables.router.numinterfaces) := by
  have noVeil : frame.etherType ≠ etherTypeVeil := by
    rcases plain with arp | ip
    · rw [arp]
      decide
    · rw [ip]
      decide
  have count : tables.router.numinterfaces = (net.interfaces s).numInterfaces := by
    have same : tables.router.interfaces = net.interfaces s := informed.interfaces
    rw [RoutePacket.numinterfaces, same, Nat.mod_eq_of_lt (assigned.few s)]
  have same : tables.router.interfaces = net.interfaces s := informed.interfaces
  refine ⟨_, by rw [RoutePacket.smaction, if_neg noVeil, if_pos plain], ?_⟩
  have table : tables.router.hosts = tables.hosts := rfl
  cases found : tables.hosts.lookupMAC frame.dhost with
  | none =>
      have nowhere : (net.interfaces s).lookupVidEntry (0 : VID).getSwitchVID = (false, none) := by
        have zero : (0 : VID).getSwitchVID = 0 := by decide
        rw [zero, InterfaceTable.lookupVidEntry, assigned.nonzero]
      left
      simp only [table, found, Option.getD_none, same, nowhere, Bool.false_eq_true, if_false]
  | some vid =>
      obtain ⟨ip, source, known, -, address, interface⟩ := informed.hosts.macs _ vid found
      have own := (assigned.inverse s _ _).mpr interface
      have entry : (net.interfaces s).lookupVidEntry vid.getSwitchVID =
          (true, some source.port) := by
        rw [InterfaceTable.lookupVidEntry, own]
        have vids : (net.interfaces s).rinterfaces.lookup source.port = some vid.getSwitchVID :=
          interface
        simp only [vids, Option.getD_some, beq_self_eq_true]
      refine Or.inr ⟨source, known, address, ?_, count ▸ assigned.ports s _ _ own⟩
      simp only [table, found, Option.getD_some, same, entry, if_true, RoutePacket.portOf]

theorem outputs_error (r : RoutePacket) : net.outputs s r packet (r.numinterfaces + 1) = [] := by
  rw [outputs, if_neg (by omega), if_neg (by omega)]

theorem genuine_outputs {r : RoutePacket} {port : Int}
    (all : ∀ t reroute port, net.Genuine sent ⟨t, .classifier, { packet with reroute, port }⟩) :
    ∀ arrival ∈ net.outputs s r packet port, net.Genuine sent arrival := by
  intro arrival member
  rw [outputs] at member
  split at member
  · rw [List.mem_singleton] at member
    exact member ▸ all s packet.reroute packet.port
  · split at member
    · obtain ⟨place, -, rfl⟩ := List.mem_map.mp member
      exact all place.1 false place.2
    · cases member

theorem Truthful.smaction {frame : Frame} (truthful : net.Truthful sent frame) (r : RoutePacket) :
    net.Truthful sent (r.smaction frame).2.1 := by
  rcases r.smaction_veil truthful.veil with
    dropped | ⟨dhost, shost, dvid, rewritten | ⟨accepted, diverted⟩, -⟩
  · rw [dropped]
    exact truthful
  · rw [rewritten]
    exact truthful.of_eq rfl rfl rfl rfl
  · obtain ⟨datagram, carries, origin⟩ := truthful.datagram (accepted.symm.imp_right Or.inl)
    rw [diverted]
    exact .of_carries ((carries.rewritten dhost shost dvid _).toAccessSwitch accepted) origin

theorem smaction_veilIp (r : RoutePacket) {frame : Frame}
    (veilIp : frame.etherType = etherTypeVeilIp) :
    ∃ dhost, (r.smaction frame).2.1 = { frame with dhost } := by
  have others : etherTypeVeilIp ≠ etherTypeVeil ∧
      ¬(etherTypeVeilIp = etherTypeArp ∨ etherTypeVeilIp = etherTypeIp) := by decide
  rw [RoutePacket.smaction, veilIp, if_neg others.1, if_neg others.2, if_pos rfl]
  split
  · exact ⟨frame.dhost, by rw [← veilIp]⟩
  · exact ⟨_, by rw [← veilIp]⟩

theorem Informed.router (assigned : net.Assigned)
    (admitted : ∀ entry ∈ sent, net.FromHost entry.1 entry.2)
    (informed : net.Informed sent s tables) (genuine : net.Genuine sent ⟨s, .router, packet⟩)
    {r : RoutePacket} {frame : Frame} {port : Int}
    (result : tables.router.smaction packet.frame = (r, frame, port)) :
    ∀ arrival ∈ net.outputs s r (packet.routed frame) port, net.Genuine sent arrival := by
  have written : (tables.router.smaction packet.frame).2.1 = frame := congrArg (·.2.1) result
  by_cases veil : packet.frame.etherType = etherTypeVeil
  · have truthful := (genuine.veil veil).2.smaction tables.router
    rw [written] at truthful
    rw [Packet.routed, if_pos truthful.veil]
    exact genuine_outputs fun t reroute port => genuine_frame truthful rfl _
  · by_cases plain : packet.frame.etherType = etherTypeArp ∨ packet.frame.etherType = etherTypeIp
    · obtain ⟨out, found, place⟩ := informed.plain_port assigned plain
      rw [result] at found
      cases found
      rcases place with rfl | ⟨source, ⟨headroom, member⟩, -, rfl, inside⟩
      · rw [outputs_error]
        exact List.forall_mem_nil _
      · have edge : net.wire s source.port = [] := (admitted _ member).alone
        rw [outputs, if_neg (by omega), if_pos (by omega), Int.toNat_natCast, edge]
        exact List.forall_mem_nil _
    · by_cases veilIp : packet.frame.etherType = etherTypeVeilIp
      · obtain ⟨long, origin⟩ := genuine.veilIp veilIp
        obtain ⟨dhost, same⟩ := smaction_veilIp tables.router veilIp
        obtain rfl := written.symm.trans same
        have noVeil : etherTypeVeilIp ≠ etherTypeVeil := by decide
        have rewritten := (Packet.Rewritten.refl packet).write_dhost long dhost
        rw [Packet.routed, if_neg (by rwa [veilIp])]
        refine genuine_outputs fun t reroute port => ?_
        rw [← rewritten.shost, ← rewritten.datagram] at origin
        exact .of_veilIp (rewritten.etherType.trans veilIp)
          (le_of_le_of_eq long rewritten.length.symm) origin
      · rw [RoutePacket.smaction, if_neg veil, if_neg plain, if_neg veilIp] at result
        cases result
        rw [outputs_error]
        exact List.forall_mem_nil _

end Elements

/-! ### Runs -/

theorem Genuine.buffered {arrival : PacketArrival Switch} (genuine : net.Genuine sent arrival)
    (headroom : List Byte) :
    net.Genuine sent { arrival with packet := { arrival.packet with headroom } } :=
  ⟨genuine.veil, genuine.veilIp, genuine.plain, genuine.answer, genuine.datagram⟩

theorem Informed.enter {tables : HostSwitch} (assigned : net.Assigned)
    (admitted : ∀ entry ∈ sent, net.FromHost entry.1 entry.2) {arrival : PacketArrival Switch}
    (informed : net.Informed sent arrival.switch tables) (genuine : net.Genuine sent arrival)
    (startrand : BitVec 16) :
    let (after, arrivals) := net.enter tables startrand arrival
    net.Informed sent arrival.switch after ∧ ∀ other ∈ arrivals, net.Genuine sent other := by
  obtain ⟨s, element, packet⟩ := arrival
  cases element with
  | classifier =>
      obtain ⟨told, handed⟩ := informed.classify assigned admitted genuine startrand
      refine ⟨told, fun other member => ?_⟩
      obtain ⟨packet, listed, rfl⟩ := List.mem_map.mp member
      exact handed packet listed
  | router =>
      refine ⟨⟨informed.interfaces, informed.hosts, informed.map⟩, ?_⟩
      exact informed.router assigned admitted genuine rfl

theorem initial_sound : net.Sound net.initial where
  sent := List.forall_mem_nil _
  informed s := by
    refine ⟨rfl, HostTable.empty_learned, fun ip entry found => ?_⟩
    cases found
  genuine := List.forall_mem_nil _

theorem Informed.publication {tables : HostSwitch} (informed : net.Informed sent s tables)
    {frame : Frame} (listed : frame ∈ tables.hosts.publishAccessInfo) :
    net.Genuine sent ⟨s, .router, frame.packet⟩ := by
  obtain ⟨⟨ip, vid⟩, member, published⟩ := List.mem_filterMap.mp listed
  obtain ⟨hmac, -, rfl⟩ := Option.map_eq_some_iff.mp published
  have own : tables.hosts.lookupIP ip = some vid := AList.mem_lookup_iff.mpr member
  exact genuine_publication ⟨s, informed.hosts.ips ip vid own⟩ hmac

variable [DecidableEq Switch]

theorem Sound.set {state : HostState Switch} (sound : net.Sound state) {s : Switch}
    {tables : HostSwitch} {flight : List (PacketArrival Switch)}
    (told : net.Informed state.sent s tables)
    (genuine : ∀ arrival ∈ flight, net.Genuine state.sent arrival) :
    net.Sound (set state s tables flight) where
  sent := sound.sent
  informed t := by
    rw [set_switches]
    split
    · rename_i same
      exact same ▸ told
    · exact sound.informed t
  genuine := genuine

theorem Sound.step (assigned : net.Assigned) {before after : HostState Switch}
    {action : HostAction Switch} (sound : net.Sound before) (allowed : net.Allowed before action)
    (moves : net.Step before action after) :
    net.Sound after := by
  cases action with
  | send s packet =>
      cases moves
      have within : before.sent ⊆ (s, packet) :: before.sent := List.subset_cons_self _ _
      refine ⟨?_, fun t => (sound.informed t).mono within, fun arrival member => ?_⟩
      · exact List.forall_mem_cons.mpr ⟨allowed, sound.sent⟩
      · rcases List.mem_append.mp member with earlier | fresh
        · exact (sound.genuine arrival earlier).mono within
        · rw [List.mem_singleton.mp fresh]
          refine ⟨fun kind => ?_, fun kind => ?_, fun _ _ => ?_, fun here => ?_, fun here => ?_⟩
          · exact absurd kind allowed.plain.1
          · exact absurd kind allowed.plain.2
          · exact ⟨packet.headroom, List.mem_cons_self⟩
          · cases here
          · cases here
  | handle i startrand headroom =>
      obtain ⟨⟨s, element, packet⟩, found, rfl⟩ := Option.map_eq_some_iff.mp moves
      have genuine := (sound.genuine _ (List.mem_of_getElem? found)).buffered headroom
      obtain ⟨told, arrivals⟩ := Informed.enter assigned sound.sent (sound.informed s)
        genuine startrand
      refine sound.set told fun other member => ?_
      rcases List.mem_append.mp member with rest | new
      · exact sound.genuine other (List.mem_of_mem_eraseIdx rest)
      · exact arrivals other new
  | lose i =>
      obtain ⟨arrival, -, rfl⟩ := Option.map_eq_some_iff.mp moves
      exact ⟨sound.sent, sound.informed,
        fun other member => sound.genuine other (List.mem_of_mem_eraseIdx member)⟩
  | publish s =>
      cases moves
      refine ⟨sound.sent, sound.informed, fun arrival member => ?_⟩
      rcases List.mem_append.mp member with earlier | fresh
      · exact sound.genuine arrival earlier
      · obtain ⟨frame, listed, rfl⟩ := List.mem_map.mp fresh
        exact (sound.informed s).publication listed
  | fire s timer =>
      cases moves
      have informed := sound.informed s
      exact sound.set ⟨informed.interfaces,
        informed.hosts.forgets (HostTable.fire_forgets _ timer), informed.map⟩
        sound.genuine
  | expireMapping s ip =>
      cases moves
      have informed := sound.informed s
      exact sound.set ⟨informed.interfaces, informed.hosts, fun other entry found =>
        informed.map other entry (HashTable.lookup_of_erase found)⟩ sound.genuine
  | reroute s routes neighbors =>
      cases moves
      have informed := sound.informed s
      exact sound.set ⟨informed.interfaces, informed.hosts, informed.map⟩ sound.genuine

structure Static (conf : Switch → List (VID × EtherAddress)) : Prop where
  interfaces : ∀ s, net.interfaces s = .configure (conf s) true
  vids : ∀ s, ((conf s).map (·.1)).Nodup
  addresses : ∀ s, ((conf s).map (·.2)).Nodup
  switchVid : ∀ s, ∀ vid ∈ (conf s).map (·.1), vid.IsSwitchVID ∧ vid ≠ 0
  few : ∀ s, (conf s).length < 256

omit [DecidableEq Switch] in
theorem Static.assigned {conf : Switch → List (VID × EtherAddress)} (static : net.Static conf) :
    net.Assigned := by
  have inverse (s : Switch) :
      HashTable.IsInverse (net.interfaces s).interfaces (net.interfaces s).rinterfaces := by
    rw [static.interfaces s]
    refine InterfaceTable.configureFrom_inverse (static.vids s) (fun _ _ => rfl) (fun _ _ => rfl)
      fun vid i => ?_
    exact iff_of_false nofun nofun
  have configured (s : Switch) (vid : VID) (i : Nat)
      (found : (net.interfaces s).interfaces.lookup vid = some i) : vid.IsSwitchVID ∧ vid ≠ 0 := by
    rw [static.interfaces s] at found
    rcases InterfaceTable.mem_configureFrom found with listed | before
    · exact static.switchVid s vid listed
    · cases before
  refine ⟨inverse, fun s vid i found => (configured s vid i found).1, fun s => ?_,
    fun s vid i found => ?_, fun s => ?_⟩
  · rw [Option.eq_none_iff_forall_ne_some]
    exact fun i found => (configured s 0 i found).2 rfl
  · have known : (net.interfaces s).lookupIntEntry i ≠ none := by
      rw [InterfaceTable.lookupIntEntry, (inverse s vid i).mp found]
      exact Option.some_ne_none vid
    have table : (net.interfaces s).Configured := by
      rw [static.interfaces s]
      exact InterfaceTable.configure_configured true (static.addresses s)
    exact Nat.lt_of_not_le fun beyond => known ((table.vids i).mpr beyond)
  · rw [static.interfaces s, InterfaceTable.numInterfaces_configure true (static.addresses s)]
    exact static.few s

theorem sound_of_reaches (assigned : net.Assigned) {state : HostState Switch}
    (run : Transition.Reaches (· = net.initial) net.Step net.Allowed state) : net.Sound state :=
  run.invariant net.Sound (fun _ begins => by cases begins; exact initial_sound)
    fun _ _ _ sound allowed moves => sound.step assigned allowed moves

/-! ### Two switches with a host each -/

def pairConf (s : Bool) : List (VID × EtherAddress) :=
  if s then [(0x000200010000, 0x21), (0x000200020000, 0x22)]
  else [(0x000100010000, 0x11), (0x000100020000, 0x12)]

/-- The first interface of a switch is for its host, the second one leads to the other switch. -/
def pairNet : HostNetwork Bool where
  interfaces := fun s => .configure (pairConf s) true
  forwardingType := fun _ => .encap
  wire := fun s i => if i = 1 then [(!s, 1)] else []

theorem pairNet_static : pairNet.Static pairConf where
  interfaces := fun _ => rfl
  vids := by decide
  addresses := by decide
  switchVid := by
    intro s
    cases s <;> exact List.forall_mem_cons.mpr ⟨by decide,
      List.forall_mem_singleton.mpr (by decide)⟩
  few := by decide

def pairRoutes (s : Bool) : HostAction Bool :=
  if s then .reroute true
    (RouteTable.empty.updateEntry (pairNet.interfaces true) 0x000200010000 34 0x000100020000
      0x000100020000 true)
    (NeighborTable.updateEntry ∅ 0x12 0x000100020000 0x22 0x000200020000).1
  else .reroute false
    (RouteTable.empty.updateEntry (pairNet.interfaces false) 0x000100010000 34 0x000200020000
      0x000200020000 true)
    (NeighborTable.updateEntry ∅ 0x22 0x000200020000 0x12 0x000100020000).1

def arpRequest (mac : EtherAddress) (src dst : IPAddress) : Packet where
  headroom := []
  data := Bytes.ofWord 6 (0xffffffffffff : EtherAddress) ++ (Bytes.ofWord 6 mac ++
    (Bytes.ofWord 2 etherTypeArp ++ etherArp arpopRequest mac src 0 dst))
  reroute := false
  port := 0

def ipDatagram (mac : EtherAddress) (dvid : VID) (src dst : IPAddress) : Packet where
  headroom := []
  data := Bytes.ofWord 6 dvid ++ (Bytes.ofWord 6 mac ++ (Bytes.ofWord 2 etherTypeIp ++
    (List.replicate 12 0 ++ (Bytes.ofWord 4 src ++ Bytes.ofWord 4 dst))))
  reroute := false
  port := 0

/-- A host announces itself. The other host asks for it across the link, is told its VID, and
sends it a datagram. -/
def pairRun : List (HostAction Bool) :=
  [pairRoutes false, pairRoutes true,
    .send false (arpRequest 0xaa 0x0a000001 0x0a000001), .handle 0 1 [], .handle 0 0 [],
      .handle 0 0 [],
    .send true (arpRequest 0xbb 0x0a000002 0x0a000001), .handle 0 1 [], .lose 0, .handle 0 0 [],
    .handle 0 0 [], .handle 0 0 [], .handle 0 0 [], .handle 0 0 [],
    .send true (ipDatagram 0xbb 0x000100010100 0x0a000002 0x0a000001), .handle 1 0 [],
      .handle 1 0 [],
    .handle 1 0 [], .handle 0 0 []]

def pairTold : HostState Bool :=
  (pairRun.foldlM pairNet.perform pairNet.initial).getD pairNet.initial

theorem pairTold_reached :
    Transition.Reaches (· = pairNet.initial) pairNet.Step pairNet.Allowed pairTold := by
  have possible : (pairRun.foldlM pairNet.perform pairNet.initial).isSome := by decide +kernel
  obtain ⟨final, result⟩ := Option.isSome_iff_exists.mp possible
  have last : pairTold = final := by rw [pairTold, result, Option.getD_some]
  have announced : pairNet.FromHost false (arpRequest 0xaa 0x0a000001 0x0a000001) :=
    ⟨by decide, by decide, ⟨0x000100010000, rfl⟩, rfl⟩
  have asked : pairNet.FromHost true (arpRequest 0xbb 0x0a000002 0x0a000001) :=
    ⟨by decide, by decide, ⟨0x000200010000, rfl⟩, rfl⟩
  have datagram : pairNet.FromHost true (ipDatagram 0xbb 0x000100010100 0x0a000002 0x0a000001) :=
    ⟨by decide, by decide, ⟨0x000200010000, rfl⟩, rfl⟩
  have allowed : ∀ action ∈ pairRun, ∀ state, pairNet.Allowed state action := by
    simp only [pairRun, pairRoutes, List.forall_mem_cons, Allowed, announced, asked,
      datagram, implies_true,
      if_true, Bool.false_eq_true, if_false, true_and]
    exact List.forall_mem_nil _
  rw [last]
  exact .foldlM pairNet.perform pairRun
    (fun action member before _ performed => ⟨allowed action member before, performed⟩)
      (.start rfl) result

theorem pairTold_delivery : ∃ arrival ∈ pairTold.flight, arrival.element = .router ∧
    arrival.packet.frame.etherType = etherTypeIp ∧ arrival.switch = false ∧
      arrival.packet.frame.dhost = 0xaa := by decide +kernel

theorem datagrams_genuine (assigned : net.Assigned) {state : HostState Switch}
    (run : Transition.Reaches (· = net.initial) net.Step net.Allowed state)
    {arrival : PacketArrival Switch} (flying : arrival ∈ state.flight) :
    (arrival.element = .classifier → arrival.packet.frame.etherType = etherTypeArp ∨
      arrival.packet.frame.etherType = etherTypeIp →
        Sent state.sent arrival.switch arrival.packet) ∧
    (arrival.element = .router → arrival.packet.frame.etherType = etherTypeIp →
      net.Origin state.sent arrival.packet.frame.shost (arrival.packet.data.drop 14)) ∧
    (arrival.element = .router → arrival.packet.frame.etherType = etherTypeArp ∨
      arrival.packet.frame.etherType = etherTypeIp →
      let router := (state.switches arrival.switch).router
      ∃ port, router.smaction arrival.packet.frame = (router, arrival.packet.frame, port) ∧
        (port = router.numinterfaces + 1 ∨ ∃ source, Sent state.sent arrival.switch source ∧
          source.frame.shost = arrival.packet.frame.dhost ∧ port = source.port ∧
            source.port < router.numinterfaces)) := by
  have sound := sound_of_reaches assigned run
  have genuine := sound.genuine arrival flying
  exact ⟨genuine.plain, genuine.datagram,
    fun _ => (sound.informed arrival.switch).plain_port assigned⟩

theorem datagrams_genuine_pair : ∃ arrival ∈ pairTold.flight, arrival.switch = false ∧
    arrival.packet.frame.dhost = 0xaa ∧
      pairNet.Origin pairTold.sent arrival.packet.frame.shost (arrival.packet.data.drop 14) := by
  obtain ⟨arrival, member, here, ip, place, host⟩ := pairTold_delivery
  have genuine := datagrams_genuine pairNet_static.assigned pairTold_reached member
  exact ⟨arrival, member, place, host, genuine.2.1 here ip⟩

end HostNetwork

end Veil
