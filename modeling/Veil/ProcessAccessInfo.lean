import Veil.Disposal
import Veil.Frame
import Veil.HostVids
import Veil.InterfaceTable

/-! Where hosts are, from `mappingtable.hh`, `mappingtable.cc`, `publishaccessinfo.cc`,
`processarp.cc` and `processaccessinfo.cc`. A host-switch publishes its hosts to their access
switches, which keep the mapping and tell the host-switch of an earlier mapping about a new one. -/

namespace Veil

structure MappingTableEntry where
  ipVid : VID
  myVid : VID
  ipmac : EtherAddress
deriving DecidableEq

abbrev MappingTable := HashTable IPAddress MappingTableEntry

namespace MappingTable

def updateEntry (table : MappingTable) (ip : IPAddress) (ipvid myvid : VID) (ipmac : EtherAddress) :
    MappingTable :=
  table.insert ip ⟨ipvid, myvid, ipmac⟩

end MappingTable

namespace HostTable

def publishAccessInfo (hosts : HostTable) : List Frame :=
  hosts.iphosts.entries.filterMap fun entry =>
    (hosts.lookupVID entry.2).map fun hmac => publishAccessInfoPacket entry.1 hmac entry.2

def registerHost (hosts : HostTable) (ip : IPAddress) (mac : EtherAddress) (myport : Int)
    (myVid : VID) (startrand : BitVec 16) : HostTable × List Frame :=
  match hosts.generateHostVid ip mac myport myVid startrand with
  | (hosts, true, some hvid) => (hosts, [publishAccessInfoPacket ip mac hvid])
  | (hosts, _, _) => (hosts, [])

end HostTable

/-- The reply as the payload of an encapsulated ARP packet; nothing is written to `optional`. -/
def createVeilEncapArpReplyPacket (dstip srcip : IPAddress) (srcvid dstvid myvid : VID) :
    Frame where
  dhost := myvid
  shost := myvid
  etherType := etherTypeVeil
  svid := srcvid
  dvid := dstvid
  veilType := veilEncapArp
  ttl := maxTtl
  optional := 0
  payload := [0, 1, 0x08, 0, 6, 4, 0, 2] ++ Bytes.ofWord 6 srcvid ++ Bytes.ofWord 4 srcip ++
    Bytes.ofWord 6 dstvid ++ Bytes.ofWord 4 dstip
  reroute := false
  port := 0

def updateVidOnNoVidToAccessSwitchPacket (frame : Frame) (mydstvid : VID) : Frame :=
  { frame with dvid := mydstvid, veilType := veilEncapIp, payload := frame.payload.drop 6 }

structure ProcessAccessInfo where
  hosts : HostTable
  interfaces : InterfaceTable
  map : MappingTable

namespace ProcessAccessInfo

open HashTable

/-- A `VEIL_MAP_UPDATE` for this switch. A host that is not there reads as the zero VID. -/
def mapUpdate (p : ProcessAccessInfo) (frame : Frame) : ProcessAccessInfo :=
  let hostip := frame.ipAt 0
  let myhostvid := (p.hosts.lookupIP hostip).getD 0
  if myhostvid ≠ frame.vidAt 10 then { p with hosts := p.hosts.deleteIP hostip } else p

/-- A `NO_VID_TO_ACCESS_SWITCH` for this switch: the frames that are pushed at once, and what
becomes of the packet. An assertion that fails ends the process. -/
def noVid (p : ProcessAccessInfo) (frame : Frame) (myVid : VID) :
    Option (List Frame × Disposal Frame) :=
  let dstip := frame.ipAt 22
  if frame.etherType ≠ etherTypeVeil then none
  else
    match p.map.lookup dstip with
    | none => some ([], .dropped)
    | some entry =>
        if entry.ipVid = frame.vidAt 0 then some ([], .dropped)
        else
          some ([createVeilEncapArpReplyPacket (frame.ipAt 18) dstip entry.ipVid frame.svid myVid],
            .handedOn (updateVidOnNoVidToAccessSwitchPacket frame entry.ipVid))

def mapPublish (p : ProcessAccessInfo) (frame : Frame) (myVid : VID) :
    ProcessAccessInfo × List Frame :=
  let ip := frame.ipAt 0
  let vid := frame.vidAt 10
  let mac := frame.vidAt 4
  ({ p with map := p.map.updateEntry ip vid myVid mac },
    match p.map.lookup ip with
    | none => []
    | some old =>
        if old.ipVid ≠ vid then [updateAccessInfoPacket ip mac vid old.ipVid.getSwitchVID myVid]
          else [])

def dispose (p : ProcessAccessInfo) (frame : Frame) :
    Option (ProcessAccessInfo × List Frame × Disposal Frame) :=
  let myVid := (p.interfaces.lookupIntEntry frame.port).getD 0
  if (p.interfaces.lookupVidEntry frame.dhost).1 then
    let mine := (p.interfaces.lookupVidEntry frame.dvid).1
    if frame.veilType = veilMapUpdate then
      if mine then some (p.mapUpdate frame, [], .dropped) else some (p, [], .handedOn frame)
    else if frame.veilType = noVidToAccessSwitch then
      if mine then (p.noVid frame myVid).map fun result => (p, result)
      else some (p, [], .handedOn frame)
    else if mine then
      let (p, pushed) := p.mapPublish frame myVid
      some (p, pushed, .dropped)
    else some (p, [], .handedOn { frame with reroute := true })
  else some (p, [], .dropped)

def smaction (p : ProcessAccessInfo) (frame : Frame) :
    ProcessAccessInfo × List Frame × Option Frame :=
  match p.dispose frame with
  | none => (p, [], none)
  | some (p, pushed, disposal) => (p, pushed, disposal.packet)

theorem smaction_mapUpdate (p : ProcessAccessInfo) (frame : Frame) {vid : VID}
    (owns : (p.interfaces.lookupVidEntry vid).1 = true) (here : frame.dhost = vid)
    (mine : frame.dvid = vid) (update : frame.veilType = veilMapUpdate) :
    p.smaction frame = (p.mapUpdate frame, [], none) := by
  simp only [smaction, dispose, here, mine, update, owns, if_true, Disposal.packet_dropped]

theorem smaction_mapPublish (p : ProcessAccessInfo) (frame : Frame) {vid : VID}
    (owns : (p.interfaces.lookupVidEntry vid).1 = true) (here : frame.dhost = vid)
    (mine : frame.dvid = vid) (publish : frame.veilType = veilMapPublish) :
    p.smaction frame =
      ((p.mapPublish frame ((p.interfaces.lookupIntEntry frame.port).getD 0)).1,
        (p.mapPublish frame ((p.interfaces.lookupIntEntry frame.port).getD 0)).2, none) := by
  have noUpdate : veilMapPublish ≠ veilMapUpdate := by decide
  have vidKnown : veilMapPublish ≠ noVidToAccessSwitch := by decide
  simp only [smaction, dispose, here, mine, publish, owns, if_true, if_neg noUpdate,
    if_neg vidKnown,
    Disposal.packet_dropped]

section Carried

variable (p : ProcessAccessInfo) (frame : Frame) {ip : IPAddress} {mac : EtherAddress} {vid : VID}

theorem mapUpdate_eq (carried : frame.payload = mapPayload ip mac vid) :
    p.mapUpdate frame = { p with
      hosts := if (p.hosts.lookupIP ip).getD 0 ≠ vid then p.hosts.deleteIP ip else p.hosts } := by
  simp only [mapUpdate, mapPayload_ip frame ip mac vid carried,
    mapPayload_vid frame ip mac vid carried]
  split <;> rfl

theorem mapPublish_eq (carried : frame.payload = mapPayload ip mac vid)
    (myVid : VID) : p.mapPublish frame myVid =
      ({ p with map := p.map.updateEntry ip vid myVid mac },
        match p.map.lookup ip with
        | none => []
        | some old =>
            if old.ipVid ≠ vid then [updateAccessInfoPacket ip mac vid old.ipVid.getSwitchVID myVid]
            else []) := by
  rw [mapPublish, mapPayload_ip frame ip mac vid carried, mapPayload_mac frame ip mac vid carried,
    mapPayload_vid frame ip mac vid carried]

end Carried

end ProcessAccessInfo

namespace HostTable

open HashTable

def hosting (ip : IPAddress) (mac : EtherAddress) (vid : VID) (interfaceid : Int) : HostTable :=
  empty.updateEntry vid mac ip interfaceid

theorem generateHostVid_empty (ip : IPAddress) (mac : EtherAddress) (myinterfaceid : Int)
    (switchvid : VID) (startrand : BitVec 16) :
    empty.generateHostVid ip mac myinterfaceid switchvid startrand =
      (hosting ip mac (hostVid switchvid startrand) myinterfaceid, true,
        some (hostVid switchvid startrand)) := by
  have free : searchVid empty.hosts switchvid startrand 65536 startrand =
      some (hostVid switchvid startrand) := rfl
  simp only [generateHostVid, assignVid, free]
  rfl

theorem registerHost_empty (ip : IPAddress) (mac : EtherAddress) (myport : Int) (myVid : VID)
    (startrand : BitVec 16) : empty.registerHost ip mac myport myVid startrand =
      (hosting ip mac (hostVid myVid startrand) myport,
        [publishAccessInfoPacket ip mac (hostVid myVid startrand)]) := by
  rw [registerHost, generateHostVid_empty]

theorem getSwitchVID_hostVid {switchvid : VID} (switch : switchvid.IsSwitchVID) (rand : BitVec 16) :
    (hostVid switchvid rand).getSwitchVID = switchvid :=
  (hostVid_getSwitchVID switchvid rand).trans switch

theorem hosting_lookupIP (ip : IPAddress) (mac : EtherAddress) (vid : VID) (interfaceid : Int) :
    (hosting ip mac vid interfaceid).lookupIP ip = some vid := AList.lookup_insert _

theorem hosting_publishAccessInfo (ip : IPAddress) (mac : EtherAddress) (vid : VID)
    (interfaceid : Int) :
    (hosting ip mac vid interfaceid).publishAccessInfo = [publishAccessInfoPacket ip mac vid] := by
  have named : (hosting ip mac vid interfaceid).lookupVID vid = some mac := AList.lookup_insert _
  have entries : (hosting ip mac vid interfaceid).iphosts.entries = [⟨ip, vid⟩] := rfl
  simp only [publishAccessInfo, entries, List.filterMap_cons, named, Option.map_some,
    List.filterMap_nil]

theorem publishAccessInfo_nil {hosts : HostTable} (unmapped : hosts.iphosts = ∅) :
    hosts.publishAccessInfo = [] := by
  rw [publishAccessInfo, unmapped]
  rfl

theorem hosting_deleteIP (ip : IPAddress) (mac : EtherAddress) (vid : VID) (interfaceid : Int) :
    ((hosting ip mac vid interfaceid).deleteIP ip).iphosts = ∅ := by
  have listed : (hosting ip mac vid interfaceid).inthosts.lookup ip = some ⟨interfaceid, 0⟩ :=
    AList.lookup_insert _
  have mapped : (hosting ip mac vid interfaceid).iphosts.lookup ip = some vid :=
    AList.lookup_insert _
  have named : (hosting ip mac vid interfaceid).hosts.lookup vid = some mac := AList.lookup_insert _
  have erased : (hosting ip mac vid interfaceid).iphosts.erase ip = ∅ :=
    AList.ext (List.kerase_cons_eq rfl)
  simp only [deleteIP, listed, mapped, named, erased]

theorem deleteIP_unmapped {hosts : HostTable} (unmapped : hosts.iphosts = ∅) (ip : IPAddress) :
    (hosts.deleteIP ip).iphosts = ∅ := by
  have absent : hosts.iphosts.lookup ip = none := by
    rw [unmapped]
    rfl
  simp only [deleteIP, absent]
  split
  · exact unmapped
  · exact unmapped

end HostTable

end Veil
