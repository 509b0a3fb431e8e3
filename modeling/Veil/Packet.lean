import Veil.Frame
import Veil.ProcessAccessInfo

/-! Packets as bytes, and the two rewritings of `click_veil.hh` that move a header: they do to the
bytes what the operations on frames say. -/

namespace Veil

open Bytes (Byte)

/-- The bytes of a packet, those before it in its buffer, and two annotations. -/
structure Packet where
  headroom : List Byte
  data : List Byte
  reroute : Bool
  port : Nat
deriving DecidableEq

def Frame.bytes (frame : Frame) : List Byte :=
  Bytes.ofWord 6 frame.dhost ++ (Bytes.ofWord 6 frame.shost ++ (Bytes.ofWord 2 frame.etherType ++
    (Bytes.ofWord 6 frame.svid ++ (Bytes.ofWord 6 frame.dvid ++ (Bytes.ofWord 2 frame.veilType ++
      (Bytes.ofWord 1 frame.ttl ++ (Bytes.ofWord 1 frame.optional ++ frame.payload)))))))

namespace Frame

variable (frame : Frame)

theorem length_bytes : frame.bytes.length = 30 + frame.payload.length := by
  simp only [bytes, List.length_append, Bytes.length_ofWord]
  omega

theorem bytes_payload (payload : List Byte) :
    { frame with payload }.bytes = { frame with payload := [] }.bytes ++ payload := by
  simp only [bytes, List.append_assoc, List.nil_append]

theorem bytes_eq_append : frame.bytes = { frame with payload := [] }.bytes ++ frame.payload :=
  frame.bytes_payload frame.payload

theorem take_bytes : frame.bytes.take 30 = { frame with payload := [] }.bytes := by
  rw [bytes_eq_append]
  exact List.take_left' ({ frame with payload := [] }.length_bytes)

theorem drop_bytes : frame.bytes.drop 30 = frame.payload := by
  rw [bytes_eq_append]
  exact List.drop_left' ({ frame with payload := [] }.length_bytes)

theorem write_dhost (dhost : EtherAddress) :
    Bytes.write frame.bytes 0 (Bytes.ofWord 6 dhost) = { frame with dhost }.bytes := by
  simp (disch := simp) only [bytes, Bytes.write_zero]

theorem write_shost (shost : EtherAddress) :
    Bytes.write frame.bytes 6 (Bytes.ofWord 6 shost) = { frame with shost }.bytes := by
  simp (disch := simp) only [bytes, Bytes.write_append, Bytes.length_ofWord, Nat.reduceSub,
    Bytes.write_zero]

theorem write_etherType (etherType : BitVec 16) :
    Bytes.write frame.bytes 12 (Bytes.ofWord 2 etherType) = { frame with etherType }.bytes := by
  simp (disch := simp) only [bytes, Bytes.write_append, Bytes.length_ofWord, Nat.reduceSub,
    Bytes.write_zero]

theorem write_svid (svid : VID) :
    Bytes.write frame.bytes 14 (Bytes.ofWord 6 svid) = { frame with svid }.bytes := by
  simp (disch := simp) only [bytes, Bytes.write_append, Bytes.length_ofWord, Nat.reduceSub,
    Bytes.write_zero]

theorem write_dvid (dvid : VID) :
    Bytes.write frame.bytes 20 (Bytes.ofWord 6 dvid) = { frame with dvid }.bytes := by
  simp (disch := simp) only [bytes, Bytes.write_append, Bytes.length_ofWord, Nat.reduceSub,
    Bytes.write_zero]

theorem write_veilType (veilType : BitVec 16) :
    Bytes.write frame.bytes 26 (Bytes.ofWord 2 veilType) = { frame with veilType }.bytes := by
  simp (disch := simp) only [bytes, Bytes.write_append, Bytes.length_ofWord, Nat.reduceSub,
    Bytes.write_zero]

theorem write_ttl (ttl : BitVec 8) :
    Bytes.write frame.bytes 28 (Bytes.ofWord 1 ttl) = { frame with ttl }.bytes := by
  simp (disch := simp) only [bytes, Bytes.write_append, Bytes.length_ofWord, Nat.reduceSub,
    Bytes.write_zero]

theorem write_payload (vid : VID) :
    Bytes.write frame.bytes 30 (Bytes.ofWord 6 vid) =
      { frame with payload := Bytes.ofWord 6 vid ++ frame.payload.drop 6 }.bytes := by
  have headers : { frame with payload := [] }.bytes.length = 30 := length_bytes _
  rw [bytes_eq_append, Bytes.write_append (Nat.le_of_eq headers), headers,
    Nat.sub_self, Bytes.write,
    List.take_zero, List.nil_append, Nat.zero_add, Bytes.length_ofWord]
  exact (frame.bytes_payload _).symm

end Frame

namespace Packet

/-- The header in front of the data. Without enough room the data is copied into a buffer that has
it. -/
def push (p : Packet) (count : Nat) : Packet :=
  { p with
    headroom := p.headroom.take (p.headroom.length - count)
    data := List.replicate (count - p.headroom.length) 0 ++
      p.headroom.drop (p.headroom.length - count) ++ p.data }

def pull (p : Packet) (count : Nat) : Packet :=
  { p with headroom := p.headroom ++ p.data.take count, data := p.data.drop count }

def frame (p : Packet) : Frame where
  dhost := Bytes.toWord 48 6 p.data
  shost := Bytes.toWord 48 6 (p.data.drop 6)
  etherType := Bytes.toWord 16 2 (p.data.drop 12)
  svid := Bytes.toWord 48 6 (p.data.drop 14)
  dvid := Bytes.toWord 48 6 (p.data.drop 20)
  veilType := Bytes.toWord 16 2 (p.data.drop 26)
  ttl := Bytes.toWord 8 1 (p.data.drop 28)
  optional := Bytes.toWord 8 1 (p.data.drop 29)
  payload := p.data.drop 30
  reroute := p.reroute
  port := p.port

def write (p : Packet) (offset : Nat) (bytes : List Byte) : Packet :=
  { p with data := Bytes.write p.data offset bytes }

def setFrame (p : Packet) (frame : Frame) : Packet :=
  { p with data := frame.bytes, reroute := frame.reroute, port := frame.port }

def createAnEncapsulatedPacketToAccessSwitch (p : Packet) : Packet :=
  let multipath := Bytes.toWord 16 2 (p.data.drop 26) == veilEncapMultipathIp
  let ip_header := if multipath then 36 else 30
  let accvid := calculateAccessSwitch (Bytes.toWord 32 4 (p.data.drop (ip_header + 16)))
  if multipath then
    let data := Bytes.write p.data 20 (Bytes.ofWord 6 accvid)
    { p with data := Bytes.write data 26 (Bytes.ofWord 2 noVidToAccessSwitch) }
  else
    let dstvid : VID := Bytes.toWord 48 6 (p.data.drop 20)
    let q := p.push 6
    -- both headers, which now start six bytes further on
    let data := Bytes.move q.data 0 6 14
    let data := Bytes.move data 14 20 16
    let data := Bytes.write data 26 (Bytes.ofWord 2 noVidToAccessSwitch)
    let data := Bytes.write data 20 (Bytes.ofWord 6 accvid)
    { q with data := Bytes.write data 30 (Bytes.ofWord 6 dstvid) }

def updateVidOnNoVidToAccessSwitchPacket (p : Packet) (mydstvid : VID) : Packet :=
  let data := Bytes.write p.data 20 (Bytes.ofWord 6 mydstvid)
  let data := Bytes.write data 26 (Bytes.ofWord 2 veilEncapIp)
  { p with data := Bytes.shiftUp 6 30 data }.pull 6

theorem length_push (p : Packet) (count : Nat) :
    (p.push count).data.length = count + p.data.length := by
  simp only [push, List.length_append, List.length_replicate, List.length_drop]
  omega

theorem drop_push (p : Packet) (count : Nat) : (p.push count).data.drop count = p.data := by
  have room : (List.replicate (count - p.headroom.length) (0 : Byte) ++
      p.headroom.drop (p.headroom.length - count)).length = count := by
    simp only [List.length_append, List.length_replicate, List.length_drop]
    omega
  exact List.drop_left' room

theorem frame_of_data {p : Packet} {frame : Frame} (data : p.data = frame.bytes) :
    p.frame = { frame with reroute := p.reroute, port := p.port } := by
  simp (disch := decide) only [Packet.frame, data, Frame.bytes, Bytes.drop_ofWord_append,
    Bytes.toWord_ofWord_append, Nat.reduceSub, List.drop_zero, Nat.sub_self]

theorem bytes_frame {p : Packet} (long : 30 ≤ p.data.length) : p.frame.bytes = p.data := by
  have optional : Bytes.ofWord 1 p.frame.optional ++ p.data.drop 30 = p.data.drop 29 :=
    @Bytes.ofWord_toWord_drop 1 29 p.data (by omega)
  have ttl : Bytes.ofWord 1 p.frame.ttl ++ p.data.drop 29 = p.data.drop 28 :=
    @Bytes.ofWord_toWord_drop 1 28 p.data (by omega)
  have veilType : Bytes.ofWord 2 p.frame.veilType ++ p.data.drop 28 = p.data.drop 26 :=
    @Bytes.ofWord_toWord_drop 2 26 p.data (by omega)
  have dvid : Bytes.ofWord 6 p.frame.dvid ++ p.data.drop 26 = p.data.drop 20 :=
    @Bytes.ofWord_toWord_drop 6 20 p.data (by omega)
  have svid : Bytes.ofWord 6 p.frame.svid ++ p.data.drop 20 = p.data.drop 14 :=
    @Bytes.ofWord_toWord_drop 6 14 p.data (by omega)
  have etherType : Bytes.ofWord 2 p.frame.etherType ++ p.data.drop 14 = p.data.drop 12 :=
    @Bytes.ofWord_toWord_drop 2 12 p.data (by omega)
  have shost : Bytes.ofWord 6 p.frame.shost ++ p.data.drop 12 = p.data.drop 6 :=
    @Bytes.ofWord_toWord_drop 6 6 p.data (by omega)
  have dhost : Bytes.ofWord 6 p.frame.dhost ++ p.data.drop 6 = p.data := by
    have whole := @Bytes.ofWord_toWord_drop 6 0 p.data (by omega)
    rwa [List.drop_zero] at whole
  have payload : p.frame.payload = p.data.drop 30 := rfl
  rw [Frame.bytes, payload, optional, ttl, veilType, dvid, svid, etherType, shost, dhost]

theorem frame_setFrame (p : Packet) (frame : Frame) : (p.setFrame frame).frame = frame :=
  frame_of_data rfl

theorem move_headers {room data : List Byte} (six : room.length = 6) (long : 30 ≤ data.length) :
    Bytes.move (Bytes.move (room ++ data) 0 6 14) 14 20 16 = data.take 30 ++ data.drop 24 := by
  have ethernet : Bytes.move (room ++ data) 0 6 14 = data.take 14 ++ data.drop 8 := by
    have source : ((room ++ data).drop 6).take 14 = data.take 14 := by
      rw [← six, List.drop_left]
    rw [Bytes.move, source, Bytes.write, List.take_zero, List.nil_append,
      List.length_take_of_le (by omega), List.drop_append, six, List.drop_of_length_le (by omega),
      List.nil_append]
  have first : (data.take 14).length = 14 := List.length_take_of_le (by omega)
  have source : ((data.take 14 ++ data.drop 8).drop 20).take 16 = (data.drop 14).take 16 := by
    rw [List.drop_append, List.drop_of_length_le (by omega), first, List.nil_append, List.drop_drop]
  have count : ((data.drop 14).take 16).length = 16 :=
    List.length_take_of_le (by rw [List.length_drop]; omega)
  have headers : data.take 30 = data.take 14 ++ (data.drop 14).take 16 :=
    @List.take_add _ data 14 16
  rw [ethernet, Bytes.move, source, Bytes.write_append (Nat.le_of_eq first), first, Bytes.write,
    Nat.sub_self, List.take_zero, List.nil_append, count, List.drop_drop, headers,
      List.append_assoc]

theorem createAnEncapsulatedPacketToAccessSwitch_data {p : Packet} (long : 30 ≤ p.data.length) :
    p.createAnEncapsulatedPacketToAccessSwitch.data =
      (Veil.createAnEncapsulatedPacketToAccessSwitch p.frame).bytes := by
  obtain ⟨frame, read⟩ : ∃ frame, p.frame = frame := ⟨_, rfl⟩
  have data : p.data = frame.bytes := by rw [← read, bytes_frame long]
  have veilType : Bytes.toWord 16 2 (p.data.drop 26) = frame.veilType := read ▸ rfl
  have dvid : Bytes.toWord 48 6 (p.data.drop 20) = frame.dvid := read ▸ rfl
  have address (offset : Nat) : Bytes.toWord 32 4 (p.data.drop (30 + offset)) =
      frame.ipAt offset := by
    rw [← read, Frame.ipAt, Packet.frame, List.drop_drop]
  rw [read]
  by_cases multipath : frame.veilType = veilEncapMultipathIp
  · simp only [createAnEncapsulatedPacketToAccessSwitch, veilType, multipath, beq_self_eq_true,
      if_true, Veil.createAnEncapsulatedPacketToAccessSwitch, ipHeaderOffset, ← address,
      Nat.reduceAdd]
    rw [data, Frame.write_dvid, Frame.write_veilType]
  · have moved : Bytes.move (Bytes.move (p.push 6).data 0 6 14) 14 20 16 =
        { frame with payload := (p.data.drop 24).take 6 ++ frame.payload }.bytes := by
      have room : ((p.push 6).data.take 6).length = 6 :=
        List.length_take_of_le (by rw [length_push]; omega)
      have headers := move_headers room long
      -- what is left between the headers and the payload is overwritten later
      have rest : p.data.drop 24 = (p.data.drop 24).take 6 ++ frame.payload := by
        rw [← read]
        exact (List.take_append_drop 6 _).symm.trans (congrArg _ (List.drop_drop ..))
      rw [← drop_push p 6, List.take_append_drop, drop_push, rest] at headers
      rw [headers, Frame.bytes_eq_append, data, Frame.take_bytes]
    have six : ((p.data.drop 24).take 6).length = 6 :=
      List.length_take_of_le (by rw [List.length_drop]; omega)
    have other : (frame.veilType == veilEncapMultipathIp) = false :=
      beq_eq_false_iff_ne.mpr multipath
    simp only [createAnEncapsulatedPacketToAccessSwitch, veilType, other,
      Bool.false_eq_true, if_false,
      multipath, Veil.createAnEncapsulatedPacketToAccessSwitch, ipHeaderOffset, ← address,
      Nat.reduceAdd, dvid]
    rw [moved, Frame.write_veilType, Frame.write_dvid, Frame.write_payload, List.drop_left' six]

theorem createAnEncapsulated_annotations (p : Packet) :
    p.createAnEncapsulatedPacketToAccessSwitch.reroute = p.reroute ∧
      p.createAnEncapsulatedPacketToAccessSwitch.port = p.port := by
  simp only [createAnEncapsulatedPacketToAccessSwitch]
  split
  · exact ⟨rfl, rfl⟩
  · exact ⟨rfl, rfl⟩

theorem createAnEncapsulatedPacketToAccessSwitch_frame {p : Packet} (long : 30 ≤ p.data.length) :
    p.createAnEncapsulatedPacketToAccessSwitch.frame =
      Veil.createAnEncapsulatedPacketToAccessSwitch p.frame := by
  have packet := createAnEncapsulated_annotations p
  have frame : (Veil.createAnEncapsulatedPacketToAccessSwitch p.frame).reroute = p.reroute ∧
    (Veil.createAnEncapsulatedPacketToAccessSwitch p.frame).port = p.port := by
    simp only [Veil.createAnEncapsulatedPacketToAccessSwitch]
    split
    · exact ⟨rfl, rfl⟩
    · exact ⟨rfl, rfl⟩
  rw [frame_of_data (createAnEncapsulatedPacketToAccessSwitch_data long), packet.1,
    packet.2, ← frame.1,
    ← frame.2]

theorem updateVidOnNoVidToAccessSwitchPacket_data {p : Packet} (long : 36 ≤ p.data.length)
    (mydstvid : VID) :
    (p.updateVidOnNoVidToAccessSwitchPacket mydstvid).data =
      (Veil.updateVidOnNoVidToAccessSwitchPacket p.frame mydstvid).bytes := by
  obtain ⟨frame, read⟩ : ∃ frame, p.frame = frame := ⟨_, rfl⟩
  have data : p.data = frame.bytes := by rw [← read, bytes_frame (by omega)]
  let updated : Frame := { frame with dvid := mydstvid, veilType := veilEncapIp }
  have enough : 30 + 6 ≤ updated.bytes.length := by
    have same : updated.bytes.length = frame.bytes.length := by
      rw [Frame.length_bytes, Frame.length_bytes]
    rwa [same, ← data]
  have first : (updated.bytes.take 6).length = 6 := List.length_take_of_le (by omega)
  have headers := Frame.take_bytes updated
  have payload := congrArg (List.drop 6) (Frame.drop_bytes updated)
  rw [List.drop_drop] at payload
  simp only [updateVidOnNoVidToAccessSwitchPacket, pull]
  rw [read, data, Frame.write_dvid, Frame.write_veilType, Bytes.shiftUp_eq enough,
    List.drop_left' first, headers, payload]
  exact (updated.bytes_payload _).symm

def currentDvid (p : Packet) : VID := Bytes.toWord 48 6 (p.data.drop 30)

theorem data_createAnEncapsulated {p : Packet} {f : Frame} (data : p.data = f.bytes) :
    p.createAnEncapsulatedPacketToAccessSwitch.data =
      (Veil.createAnEncapsulatedPacketToAccessSwitch f).bytes := by
  have long : 30 ≤ p.data.length := by
    rw [data, Frame.length_bytes]
    omega
  rw [createAnEncapsulatedPacketToAccessSwitch_data long, frame_of_data data]
  simp only [Veil.createAnEncapsulatedPacketToAccessSwitch, ipHeaderOffset, Frame.ipAt]
  split <;> rfl

theorem update_of_diverted {p : Packet} {diverted : Frame} (data : p.data = diverted.bytes)
    (long : 6 ≤ diverted.payload.length) (mydstvid : VID) :
    (p.updateVidOnNoVidToAccessSwitchPacket mydstvid).data =
      (Veil.updateVidOnNoVidToAccessSwitchPacket diverted mydstvid).bytes := by
  have enough : 36 ≤ p.data.length := by
    rw [data, Frame.length_bytes]
    omega
  rw [updateVidOnNoVidToAccessSwitchPacket_data enough, frame_of_data data]
  rfl

theorem currentDvid_of_diverted {p : Packet} {diverted : Frame} (data : p.data = diverted.bytes) :
    p.currentDvid = diverted.vidAt 0 := by
  rw [currentDvid, data, Frame.drop_bytes]
  rfl

/-- A packet that is sent to the access switch and on from there has the other VID, is an IP
packet and has lost its multipath payload; nothing else of it has changed. -/
theorem update_createAnEncapsulated {p : Packet} {f : Frame} (data : p.data = f.bytes)
    (mydstvid : VID) :
    (f.veilType = veilEncapIp →
      (p.createAnEncapsulatedPacketToAccessSwitch.updateVidOnNoVidToAccessSwitchPacket
        mydstvid).data =
          { f with dvid := mydstvid }.bytes ∧
        p.createAnEncapsulatedPacketToAccessSwitch.currentDvid = f.dvid) ∧
      (f.veilType = veilEncapMultipathIp → 6 ≤ f.payload.length →
        (p.createAnEncapsulatedPacketToAccessSwitch.updateVidOnNoVidToAccessSwitchPacket
          mydstvid).data =
            { f with
              dvid := mydstvid
              veilType := veilEncapIp
              payload := f.payload.drop 6 }.bytes ∧
          p.createAnEncapsulatedPacketToAccessSwitch.currentDvid = f.vidAt 0) ∧
      (p.createAnEncapsulatedPacketToAccessSwitch.updateVidOnNoVidToAccessSwitchPacket
        mydstvid).reroute =
          p.reroute ∧
        (p.createAnEncapsulatedPacketToAccessSwitch.updateVidOnNoVidToAccessSwitchPacket
            mydstvid).port =
          p.port := by
  have diverted := data_createAnEncapsulated data
  refine ⟨fun ip => ?_, fun multipath payload => ?_, createAnEncapsulated_annotations p⟩
  · have single : f.veilType ≠ veilEncapMultipathIp := by
      rw [ip]
      decide
    rw [Veil.createAnEncapsulatedPacketToAccessSwitch, if_neg single] at diverted
    refine ⟨?_, ?_⟩
    · rw [update_of_diverted diverted (by simp), Veil.updateVidOnNoVidToAccessSwitchPacket, ← ip]
      simp only [List.drop_left' (Bytes.length_ofWord 6 f.dvid)]
    · rw [currentDvid_of_diverted diverted]
      exact Bytes.toWord_ofWord_append f.dvid f.payload (by decide)
  · rw [Veil.createAnEncapsulatedPacketToAccessSwitch, if_pos multipath] at diverted
    refine ⟨?_, ?_⟩
    · rw [update_of_diverted diverted payload]
      rfl
    · rw [currentDvid_of_diverted diverted]
      rfl

def multipathExample : Frame where
  dhost := 1
  shost := 2
  etherType := etherTypeVeil
  svid := 3
  dvid := 4
  veilType := veilEncapMultipathIp
  ttl := maxTtl
  optional := 0
  payload := [0, 0, 0, 0, 0, 5, 69]
  reroute := false
  port := 0

def ofFrame (f : Frame) : Packet := ⟨[], f.bytes, f.reroute, f.port⟩

theorem update_createAnEncapsulated_multipath :
    ((ofFrame
      multipathExample).createAnEncapsulatedPacketToAccessSwitch.updateVidOnNoVidToAccessSwitchPacket
        6).data =
      { multipathExample with dvid := 6, veilType := veilEncapIp, payload := [69] }.bytes ∧
      (ofFrame multipathExample).createAnEncapsulatedPacketToAccessSwitch.currentDvid = 5 :=
  (@update_createAnEncapsulated (ofFrame multipathExample) multipathExample rfl 6).2.1
    rfl (by decide)

end Packet

end Veil
