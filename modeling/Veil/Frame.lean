import Veil.Library.Bytes
import Veil.Vid

/-! Frames of the overlay and the packet types, from `click_veil.hh`. -/

namespace Veil

open Bytes (Byte)

def etherTypeVeil : BitVec 16 := 0x9876
def etherTypeVeilIp : BitVec 16 := 0x9878
def etherTypeIp : BitVec 16 := 0x0800
def etherTypeArp : BitVec 16 := 0x0806

def veilHello : BitVec 16 := 0x0000
def veilVccSpanningTreeAd : BitVec 16 := 0x0101
def veilVccSpanningTreeSubs : BitVec 16 := 0x0102
def veilLocalTopoToVcc : BitVec 16 := 0x0103
def veilSwitchVidFromVcc : BitVec 16 := 0x0104
def veilRdvReply : BitVec 16 := 0x0402
def veilRdvPublish : BitVec 16 := 0x0403
def veilRdvQuery : BitVec 16 := 0x0404
def veilMapPublish : BitVec 16 := 0x0201
def veilMapUpdate : BitVec 16 := 0x0202
def noVidToAccessSwitch : BitVec 16 := 0x0203
def veilEncapIp : BitVec 16 := 0x0601
def veilEncapArp : BitVec 16 := 0x0602
def veilEncapMultipathIp : BitVec 16 := 0x0801

def maxTtl : BitVec 8 := 0x0f

/-- The Ethernet header, the sixteen bytes after it read as a `veil_sub_header`, the bytes after
those, and two annotations: whether `REROUTE_ANNO` is `'r'`, and `PORT_ANNO`. The sub-header of a
frame with another Ethernet type than VEIL's own is the start of its payload. -/
structure Frame where
  dhost : EtherAddress
  shost : EtherAddress
  etherType : BitVec 16
  svid : VID
  dvid : VID
  veilType : BitVec 16
  ttl : BitVec 8
  optional : BitVec 8
  payload : List Byte
  reroute : Bool
  port : Nat
deriving DecidableEq

namespace Frame

def vidAt (frame : Frame) (offset : Nat) : VID := Bytes.toWord 48 6 (frame.payload.drop offset)

def ipAt (frame : Frame) (offset : Nat) : IPAddress := Bytes.toWord 32 4 (frame.payload.drop offset)

def shortAt (frame : Frame) (offset : Nat) : BitVec 16 :=
  Bytes.toWord 16 2 (frame.payload.drop offset)

def byteAt (frame : Frame) (offset : Nat) : Byte := frame.payload.getD offset 0

end Frame

def IPAddress.data (ip : IPAddress) (i : Nat) : Byte := (ip >>> (8 * (3 - i))).setWidth 8

/-- The bytes are combined with others of `val` that are still zero. -/
def calculateAccessSwitch (ip : IPAddress) : VID :=
  let val : VID := 0
  let val := val.setByte 0 ((IPAddress.data ip 0 >>> 4) &&& val.byte 1)
  let val := val.setByte 1 (IPAddress.data ip 1 <<< 2)
  let val := val.setByte 2 ((IPAddress.data ip 2 >>> 1) ^^^ val.byte 3)
  val.setByte 3 (IPAddress.data ip 3 <<< 5)

def mapPayload (ip : IPAddress) (mac : EtherAddress) (vid : VID) : List Byte :=
  Bytes.ofWord 4 ip ++ Bytes.ofWord 6 mac ++ Bytes.ofWord 6 vid

def publishAccessInfoPacket (ip : IPAddress) (smac : EtherAddress) (svid : VID) : Frame where
  dhost := calculateAccessSwitch ip
  shost := svid.getSwitchVID
  etherType := etherTypeVeil
  svid := svid.getSwitchVID
  dvid := calculateAccessSwitch ip
  veilType := veilMapPublish
  ttl := maxTtl
  optional := 0
  payload := mapPayload ip smac svid
  reroute := true
  port := 0

def updateAccessInfoPacket (ip : IPAddress) (smac : EtherAddress) (svid dstvid myvid : VID) :
    Frame where
  dhost := dstvid
  shost := myvid.getSwitchVID
  etherType := etherTypeVeil
  svid := myvid.getSwitchVID
  dvid := dstvid
  veilType := veilMapUpdate
  ttl := maxTtl
  optional := 0
  payload := mapPayload ip smac svid
  reroute := false
  port := 0

def ipHeaderOffset (frame : Frame) : Nat := if frame.veilType = veilEncapMultipathIp then 6 else 0

/-- A multipath packet carries its final VID in its payload already; another gets it pushed in
front of its IP header. -/
def createAnEncapsulatedPacketToAccessSwitch (frame : Frame) : Frame :=
  let dstip := frame.ipAt (ipHeaderOffset frame + 16)
  let accvid := calculateAccessSwitch dstip
  if frame.veilType = veilEncapMultipathIp then
    { frame with dvid := accvid, veilType := noVidToAccessSwitch }
  else
    { frame with
      dvid := accvid
      veilType := noVidToAccessSwitch
      payload := Bytes.ofWord 6 frame.dvid ++ frame.payload }

theorem createAnEncapsulatedPacketToAccessSwitch_eq (frame : Frame) :
    ∃ dvid payload, createAnEncapsulatedPacketToAccessSwitch frame =
      { frame with dvid, veilType := noVidToAccessSwitch, payload } := by
  rw [createAnEncapsulatedPacketToAccessSwitch]
  split
  · exact ⟨_, _, rfl⟩
  · exact ⟨_, _, rfl⟩

section MapPayload

variable (frame : Frame) (ip : IPAddress) (mac : EtherAddress) (vid : VID)

theorem mapPayload_ip (carried : frame.payload = mapPayload ip mac vid) : frame.ipAt 0 = ip := by
  rw [Frame.ipAt, carried, List.drop_zero, mapPayload, List.append_assoc]
  exact Bytes.toWord_ofWord_append ip _ (by decide)

theorem mapPayload_mac (carried : frame.payload = mapPayload ip mac vid) : frame.vidAt 4 = mac := by
  rw [Frame.vidAt, carried, mapPayload, List.append_assoc,
    List.drop_left' (Bytes.length_ofWord 4 ip)]
  exact Bytes.toWord_ofWord_append mac _ (by decide)

theorem mapPayload_vid (carried : frame.payload = mapPayload ip mac vid) :
    frame.vidAt 10 = vid := by
  rw [Frame.vidAt, carried, mapPayload, List.drop_left' (by simp)]
  exact Bytes.toWord_ofWord vid (by decide)

end MapPayload

end Veil
