import Veil.Library.Transition
import Veil.ProcessIP
import Veil.RoutePacket

/-! An IP packet on its way through the overlay: whatever the switches do to its headers, the
bytes that the host sent stay behind them. -/

namespace Veil

open Bytes (Byte)

namespace Frame

/-- The frame of an IP packet: its source host and the bytes of the datagram behind its headers. -/
structure Carries (svid : VID) (datagram : List Byte) (frame : Frame) : Prop where
  veil : frame.etherType = etherTypeVeil
  source : frame.svid = svid
  layout : frame.veilType = veilEncapIp ∧ frame.payload = datagram ∨
    (frame.veilType = veilEncapMultipathIp ∨ frame.veilType = noVidToAccessSwitch) ∧
      ∃ vid : VID, frame.payload = Bytes.ofWord 6 vid ++ datagram

variable {svid : VID} {datagram : List Byte} {frame : Frame}

theorem Carries.rewritten (carries : frame.Carries svid datagram) (dhost shost : EtherAddress)
    (dvid : VID) (ttl : BitVec 8) : { frame with dhost, shost, dvid, ttl }.Carries svid datagram :=
  ⟨carries.veil, carries.source, carries.layout⟩

theorem Carries.toAccessSwitch (carries : frame.Carries svid datagram)
    (accepted : frame.veilType = veilEncapMultipathIp ∨ frame.veilType = veilEncapIp) :
    (createAnEncapsulatedPacketToAccessSwitch frame).Carries svid datagram := by
  by_cases multipath : frame.veilType = veilEncapMultipathIp
  · have vid : ∃ vid : VID, frame.payload = Bytes.ofWord 6 vid ++ datagram := by
      rcases carries.layout with ⟨ip, -⟩ | ⟨-, vid⟩
      · rw [multipath] at ip
        exact absurd ip (by decide)
      · exact vid
    rw [createAnEncapsulatedPacketToAccessSwitch, if_pos multipath]
    exact ⟨carries.veil, carries.source, Or.inr ⟨Or.inr rfl, vid⟩⟩
  · have ip : frame.veilType = veilEncapIp := accepted.resolve_left multipath
    have payload : frame.payload = datagram := by
      rcases carries.layout with ⟨-, payload⟩ | ⟨other, -⟩
      · exact payload
      · rw [ip] at other
        exact absurd other (by decide)
    rw [createAnEncapsulatedPacketToAccessSwitch, if_neg multipath]
    exact ⟨carries.veil, carries.source, Or.inr ⟨Or.inr rfl, frame.dvid, by rw [payload]⟩⟩

theorem Carries.vid_of_noVid (carries : frame.Carries svid datagram)
    (accepted : frame.veilType = noVidToAccessSwitch) :
    ∃ vid : VID, frame.payload = Bytes.ofWord 6 vid ++ datagram := by
  rcases carries.layout with ⟨ip, -⟩ | ⟨-, vid⟩
  · rw [accepted] at ip
    exact absurd ip (by decide)
  · exact vid

theorem Carries.toHost (carries : frame.Carries svid datagram)
    (accepted : frame.veilType = noVidToAccessSwitch) (mydstvid : VID) :
    (updateVidOnNoVidToAccessSwitchPacket frame mydstvid).Carries svid datagram := by
  obtain ⟨vid, payload⟩ := carries.vid_of_noVid accepted
  refine ⟨carries.veil, carries.source, Or.inl ⟨rfl, ?_⟩⟩
  rw [updateVidOnNoVidToAccessSwitchPacket, payload]
  exact List.drop_left' (Bytes.length_ofWord 6 vid)

theorem Carries.smaction (carries : frame.Carries svid datagram) (r : RoutePacket) :
    (r.smaction frame).2.1.Carries svid datagram := by
  rcases r.smaction_veil carries.veil with
    dropped | ⟨dhost, shost, dvid, sent | ⟨accepted, diverted⟩, -⟩
  · rw [dropped]
    exact carries
  · rw [sent]
    exact carries.rewritten dhost shost dvid _
  · rw [diverted]
    exact (carries.rewritten dhost shost dvid _).toAccessSwitch accepted

end Frame

namespace Packet

/-- What happens to a packet of the overlay. Between two switches its annotations are lost and its
buffer is another one. -/
inductive Step : Packet → Packet → Prop
  | received (p : Packet) (headroom : List Byte) (reroute : Bool) (port : Nat) :
      Step p ⟨headroom, p.data, reroute, port⟩
  | routed (p : Packet) (r : RoutePacket) : Step p (p.setFrame (r.smaction p.frame).2.1)
  | diverted (p : Packet) :
      p.frame.veilType = veilEncapMultipathIp ∨ p.frame.veilType = veilEncapIp →
        Step p p.createAnEncapsulatedPacketToAccessSwitch
  | resolved (p : Packet) (mydstvid : VID) :
      p.frame.veilType = noVidToAccessSwitch →
        Step p (p.updateVidOnNoVidToAccessSwitchPacket mydstvid)

structure Carries (svid : VID) (datagram : List Byte) (p : Packet) : Prop where
  long : 30 ≤ p.data.length
  carries : p.frame.Carries svid datagram

variable {svid : VID} {datagram : List Byte} {p after : Packet}

theorem Carries.of_data {frame : Frame} (data : p.data = frame.bytes)
    (carries : frame.Carries svid datagram) : p.Carries svid datagram := by
  refine ⟨?_, ?_⟩
  · rw [data, Frame.length_bytes]
    omega
  · rw [frame_of_data data]
    exact ⟨carries.veil, carries.source, carries.layout⟩

theorem Carries.step (carried : p.Carries svid datagram) (step : Step p after) :
    after.Carries svid datagram := by
  cases step with
  | received headroom reroute port =>
      exact .of_data (bytes_frame carried.long).symm carried.carries
  | routed r => exact .of_data rfl (carried.carries.smaction r)
  | diverted accepted =>
      exact .of_data (createAnEncapsulatedPacketToAccessSwitch_data carried.long)
        (carried.carries.toAccessSwitch accepted)
  | resolved mydstvid accepted =>
      obtain ⟨vid, payload⟩ := carried.carries.vid_of_noVid accepted
      have long : 36 ≤ p.data.length := by
        rw [← bytes_frame carried.long, Frame.length_bytes, payload, List.length_append,
          Bytes.length_ofWord]
        omega
      exact .of_data (updateVidOnNoVidToAccessSwitchPacket_data long mydstvid)
        (carried.carries.toHost accepted mydstvid)

theorem Carries.run (carried : p.Carries svid datagram) (run : Relation.ReflTransGen Step p after) :
    after.Carries svid datagram := by
  induction run with
  | refl => exact carried
  | tail _ step ih => exact ih.step step

end Packet

namespace ProcessIP

variable {p : ProcessIP} {startrand : BitVec 16} {host encapsulated : Packet}

theorem toOwnHost_etherType {svid dvid : VID} (long : 14 ≤ host.data.length)
    (sent : (p.toOwnHost host svid dvid).2.packet = some encapsulated) :
    encapsulated.frame.etherType = host.frame.etherType := by
  have kept {packet : Packet} (enough : 14 ≤
      packet.data.length) {offset : Nat} (before : offset ≤ 6)
      (address : EtherAddress) :
      (packet.write offset (Bytes.ofWord 6 address)).data.drop 12 = packet.data.drop 12 :=
    Bytes.drop_write (by omega) (by rw [Bytes.length_ofWord]; omega)
  simp only [toOwnHost] at sent
  split at sent
  · split at sent
    · cases sent
    · split at sent
      · cases sent
        exact congrArg (Bytes.toWord 16 2) (kept long (by decide) _)
      · cases sent
  · cases sent
    refine congrArg (Bytes.toWord 16 2) ((kept ?_ (by decide) _).trans (kept long (by decide) _))
    rwa [Packet.write, Bytes.length_write (by rw [Bytes.length_ofWord]; omega)]

theorem toOverlay_carries {svid : VID} (long : 14 ≤ host.data.length)
    (veil : (p.toOverlay host svid).frame.etherType = etherTypeVeil) :
    (p.toOverlay host svid).Carries svid (host.data.drop 14) := by
  have rest (count : Nat) : (host.push count).data.drop (count + 14) = host.data.drop 14 := by
    rw [← List.drop_drop, Packet.drop_push]
  cases type : p.forwardingType with
  | addOverwrite =>
      have enough : 12 + (Bytes.ofWord 2 etherTypeVeilIp).length ≤ host.data.length := by
        rwa [Bytes.length_ofWord]
      have written : (p.toOverlay host svid).data.drop 12 =
          Bytes.ofWord 2 etherTypeVeilIp ++ host.data.drop 14 := by
        simp only [toOverlay, type, Packet.write]
        rw [Bytes.drop_write (by rw [Bytes.length_write enough]; omega)
          (by rw [Bytes.length_ofWord]),
          Bytes.drop_write_self (by omega), Bytes.length_ofWord]
      have etherType : (p.toOverlay host svid).frame.etherType = etherTypeVeilIp := by
        rw [Packet.frame, written]
        exact Bytes.toWord_ofWord_append _ _ (by decide)
      rw [veil] at etherType
      exact absurd etherType (by decide)
  | encap =>
      obtain ⟨optional, data⟩ := @Packet.encapsulate_data host 16 (by omega) veilEncapIp svid
        host.frame.dhost
      simp only [toOverlay, type]
      exact .of_data data ⟨rfl, rfl, Or.inl ⟨rfl, rest 16⟩⟩
  | multipath =>
      obtain ⟨optional, data⟩ := @Packet.encapsulate_data host 22 (by omega)
        veilEncapMultipathIp svid
        host.frame.dhost
      simp only [toOverlay, type]
      refine .of_data (congrArg (Bytes.write · 30 (Bytes.ofWord 6 host.frame.dhost)) data |>.trans
        (Frame.write_payload _ _)) ⟨rfl, rfl, Or.inr ⟨Or.inl rfl, host.frame.dhost, ?_⟩⟩
      rw [List.drop_drop, rest 22]

theorem smaction_carries (ip : host.frame.etherType = etherTypeIp) (long : 14 ≤ host.data.length)
    (sent : (p.smaction startrand host).2.2 = some encapsulated)
    (veil : encapsulated.frame.etherType = etherTypeVeil) :
    encapsulated.Carries (p.sourceVid startrand host) (host.data.drop 14) := by
  rw [smaction_ip p startrand ip] at sent
  simp only [fromHost] at sent
  split at sent
  · have same := toOwnHost_etherType long sent
    rw [ip, veil] at same
    exact absurd same (by decide)
  · cases sent
    exact toOverlay_carries long veil

theorem fromOverlay_delivers {packet : Packet} {count : Nat} {dvid svid : VID} {dmac : EtherAddress}
    {datagram : List Byte} (carried : packet.Carries svid datagram)
    (own : (p.interfaces.lookupVidEntry packet.frame.dhost).1 = true)
    (ip : shim packet.frame = some (count, dvid)) (here : p.hosts.lookupVID dvid = some dmac) :
    ∃ delivered, (p.smaction startrand packet).2.2 = some delivered ∧
      delivered.data = Bytes.ofWord 6 dmac ++ (Bytes.ofWord 6 svid ++
        (Bytes.ofWord 2 etherTypeIp ++ datagram)) := by
  have result : (p.smaction startrand packet).2.2 =
      some (packet.decapsulate count packet.frame.svid dmac) := by
    rw [smaction_veil p startrand carried.carries.veil]
    simp only [fromOverlay, own, ip, here, if_true, Disposal.packet_handedOn]
  refine ⟨_, result, ?_⟩
  have payload : packet.frame.payload = packet.data.drop 30 := rfl
  rcases carried.carries.layout with ⟨plain, same⟩ | ⟨types, vid, same⟩
  · have sixteen : count = 16 := by
      rw [shim, if_pos plain] at ip
      cases ip
      rfl
    rw [sixteen, Packet.decapsulate_data packet carried.long,
      carried.carries.source, ← payload, same]
  · have multipath : packet.frame.veilType = veilEncapMultipathIp := by
      rcases types with multipath | noVid
      · exact multipath
      · rw [shim, noVid] at ip
        cases ip
    have twentyTwo : count = 22 := by
      have other : veilEncapMultipathIp ≠ veilEncapIp := by decide
      rw [shim, multipath, if_neg other, if_pos rfl] at ip
      cases ip
      rfl
    have long : 22 + 14 ≤ packet.data.length := by
      rw [← Packet.bytes_frame carried.long, Frame.length_bytes, same, List.length_append,
        Bytes.length_ofWord]
      omega
    have behind : packet.data.drop (22 + 14) = packet.frame.payload.drop 6 := by
      rw [payload, List.drop_drop]
    rw [twentyTwo, Packet.decapsulate_data packet long, carried.carries.source, behind, same,
      List.drop_left' (Bytes.length_ofWord 6 vid)]

/-- The host that the packet is for gets what the other host sent, from the VID of that host. -/
theorem datagram_survives {receiver : ProcessIP} {arriving : Packet} {count : Nat} {dvid : VID}
    {dmac : EtherAddress} {received : BitVec 16} (ip : host.frame.etherType = etherTypeIp)
    (long : 14 ≤ host.data.length) (sent : (p.smaction startrand host).2.2 = some encapsulated)
    (veil : encapsulated.frame.etherType = etherTypeVeil)
    (run : Relation.ReflTransGen Packet.Step encapsulated arriving)
    (own : (receiver.interfaces.lookupVidEntry arriving.frame.dhost).1 = true)
    (layout : shim arriving.frame = some (count, dvid))
    (here : receiver.hosts.lookupVID dvid = some dmac) :
    encapsulated.frame.svid = p.sourceVid startrand host ∧
    ∃ delivered, (receiver.smaction received arriving).2.2 = some delivered ∧
      delivered.frame.etherType = etherTypeIp ∧
      delivered.frame.shost = p.sourceVid startrand host ∧
      delivered.data.drop 14 = host.data.drop 14 := by
  have carried := smaction_carries ip long sent veil
  obtain ⟨delivered, result, data⟩ :=
    @fromOverlay_delivers receiver received arriving count dvid _ dmac _
    (carried.run run) own layout here
  refine ⟨carried.carries.source, delivered, result, ?_, ?_, ?_⟩
  · rw [Packet.frame, data]
    simp (disch := decide) only [Bytes.drop_ofWord_append, Nat.reduceSub, List.drop_zero,
      Bytes.toWord_ofWord_append]
  · rw [Packet.frame, data]
    simp (disch := decide) only [Bytes.drop_ofWord_append, Nat.reduceSub, List.drop_zero,
      Bytes.toWord_ofWord_append]
  · rw [data]
    simp (disch := decide) only [Bytes.drop_ofWord_append, Nat.reduceSub, List.drop_zero]

/-- The packet goes to the access switch of its host, which knows another VID. -/
theorem datagram_survives_access_switch :
    ∃ delivered,
      (smaction ⟨HostTable.empty.updateEntry 0x30007 0x5 0 0, .single 0x20003 0x20003, .encap⟩ 0
        ((Packet.encapsulate ⟨[], Bytes.ofWord 6 (0x20003 : VID) ++ (Bytes.ofWord 6 (0x4 : VID) ++
            (Bytes.ofWord 2 etherTypeIp ++ (List.range 20).map (BitVec.ofNat 8))), false, 0⟩
          16 veilEncapIp 0x10000
          0x20003).createAnEncapsulatedPacketToAccessSwitch.updateVidOnNoVidToAccessSwitchPacket
            0x30007)).2.2 = some delivered ∧
      delivered.frame.etherType = etherTypeIp ∧ delivered.frame.shost = 0x10000 ∧
      delivered.data.drop 14 = (List.range 20).map (BitVec.ofNat 8) := by
  obtain ⟨sender, switch⟩ : ∃ sender : ProcessIP,
      sender = ⟨HostTable.empty, .single 0x10000 0x10000, .encap⟩ := ⟨_, rfl⟩
  obtain ⟨host, packet⟩ : ∃ host : Packet, host =
      ⟨[], Bytes.ofWord 6 (0x20003 : VID) ++ (Bytes.ofWord 6 (0x4 : VID) ++
        (Bytes.ofWord 2 etherTypeIp ++ (List.range 20).map (BitVec.ofNat 8))), false, 0⟩ := ⟨_, rfl⟩
  have sent : (sender.smaction 0 host).2.2 =
      some (host.encapsulate 16 veilEncapIp 0x10000 0x20003) := by
    rw [switch, packet]
    decide +kernel
  have source : sender.sourceVid 0 host = 0x10000 := by
    rw [switch, packet]
    decide +kernel
  have payload : host.data.drop 14 = (List.range 20).map (BitVec.ofNat 8) := by
    rw [packet]
    decide
  have run := (Relation.ReflTransGen.single (Packet.Step.diverted
    (host.encapsulate 16 veilEncapIp 0x10000 0x20003) (by rw [packet]; decide))).tail
      (.resolved _ 0x30007 (by rw [packet]; decide))
  obtain ⟨-, survives⟩ := @datagram_survives sender 0 host _
    ⟨HostTable.empty.updateEntry 0x30007 0x5 0 0, .single 0x20003 0x20003,
      .encap⟩ _ 16 0x30007 0x5 0
    (by rw [packet]; decide) (by rw [packet]; decide) sent (by rw [packet]; decide) run
    (by rw [packet]; decide) (by rw [packet]; decide) (by decide)
  rwa [source, payload, packet] at survives

end ProcessIP
end Veil
