import Veil.ControlPlane
import Veil.Encapsulation
import Veil.ProcessARP

/-! Many switches that carry the packets of their hosts: what `processarp.cc`, `processip.cc` and
`processaccessinfo.cc` make of these and of each other's packets, and `routepacket.cc` between
them, in any order, wired as `generateClickConf.py` wires the elements. Packets may be lost,
entries may expire, and the tables that the control plane builds may be any at any time. -/

namespace Veil

open Bytes (Byte)

structure HostSwitch where
  hosts : HostTable
  map : MappingTable
  interfaces : InterfaceTable
  neighbors : NeighborTable
  routes : RouteTable
  forwardingType : ForwardingType

namespace HostSwitch

def parp (tables : HostSwitch) : ProcessARP := ⟨tables.hosts, tables.map, tables.interfaces⟩

def paci (tables : HostSwitch) : ProcessAccessInfo := ⟨tables.hosts, tables.interfaces, tables.map⟩

def pip (tables : HostSwitch) : ProcessIP :=
  ⟨tables.hosts, tables.interfaces, tables.forwardingType⟩

def router (tables : HostSwitch) : RoutePacket :=
  ⟨tables.hosts, tables.routes, tables.interfaces, tables.neighbors⟩

/-- The classifier and the element that it hands a packet to: the tables after it, and what is
handed on to the router. -/
def classify (tables : HostSwitch) (startrand : BitVec 16) (packet : Packet) :
    HostSwitch × List Packet :=
  let frame := packet.frame
  if frame.etherType = etherTypeArp ∨
      frame.etherType = etherTypeVeil ∧ frame.veilType = veilEncapArp then
    let (parp, pushed, returned) := tables.parp.smaction startrand packet
    ({ tables with hosts := parp.hosts }, pushed ++ returned.toList)
  else if frame.etherType = etherTypeVeil ∧ (frame.veilType = veilMapPublish ∨
      frame.veilType = veilMapUpdate ∨ frame.veilType = noVidToAccessSwitch) then
    let (paci, pushed, returned) := tables.paci.smaction frame
    ({ tables with hosts := paci.hosts, map := paci.map },
      pushed.map Frame.packet ++ returned.toList.map packet.setFrame)
  else if frame.etherType = etherTypeIp ∨ frame.etherType = etherTypeVeilIp ∨
      frame.etherType = etherTypeVeil ∧
        (frame.veilType = veilEncapIp ∨ frame.veilType = veilEncapMultipathIp) then
    let (pip, pushed, returned) := tables.pip.smaction startrand packet
    ({ tables with hosts := pip.hosts }, pushed ++ returned.toList)
  else (tables, [])

end HostSwitch

/-- The packet after the router, which writes the headers of a frame of the overlay and of another
one only the destination address. -/
def Packet.routed (packet : Packet) (frame : Frame) : Packet :=
  if frame.etherType = etherTypeVeil then packet.setFrame frame
  else packet.write 0 (Bytes.ofWord 6 frame.dhost)

structure PacketArrival (Switch : Type) where
  switch : Switch
  element : Element
  packet : Packet

/-- The interfaces of the switches, and for each the interfaces that hear what it sends. -/
structure HostNetwork (Switch : Type) where
  interfaces : Switch → InterfaceTable
  forwardingType : Switch → ForwardingType
  wire : Switch → Nat → List (Switch × Nat)

/-- No switch reads `sent`, which lists what the hosts have sent and to which switch. -/
structure HostState (Switch : Type) where
  switches : Switch → HostSwitch
  flight : List (PacketArrival Switch)
  sent : List (Switch × Packet)

inductive HostAction (Switch : Type)
  | send (s : Switch) (packet : Packet)
  | handle (i : Nat) (startrand : BitVec 16) (headroom : List Byte)
  | lose (i : Nat)
  | publish (s : Switch)
  | fire (s : Switch) (timer : Nat)
  | expireMapping (s : Switch) (ip : IPAddress)
  | reroute (s : Switch) (routes : RouteTable) (neighbors : NeighborTable)

namespace HostNetwork

variable {Switch : Type} (net : HostNetwork Switch)

def outputs (s : Switch) (r : RoutePacket) (packet : Packet) (port : Int) :
    List (PacketArrival Switch) :=
  if port = r.numinterfaces then [⟨s, .classifier, packet⟩]
  else if 0 ≤ port ∧ port < r.numinterfaces then
    (net.wire s port.toNat).map fun other =>
      ⟨other.1, .classifier, { packet with reroute := false, port := other.2 }⟩
  else []

def enter (tables : HostSwitch) (startrand : BitVec 16) (arrival : PacketArrival Switch) :
    HostSwitch × List (PacketArrival Switch) :=
  match arrival.element with
  | .classifier =>
      let (tables, handed) := tables.classify startrand arrival.packet
      (tables, handed.map fun packet => ⟨arrival.switch, .router, packet⟩)
  | .router =>
      let (r, frame, port) := tables.router.smaction arrival.packet.frame
      ({ tables with routes := r.routes },
        net.outputs arrival.switch r (arrival.packet.routed frame) port)

def initial : HostState Switch where
  switches := fun s => ⟨HostTable.empty, ∅, net.interfaces s, ∅, RouteTable.empty,
    net.forwardingType s⟩
  flight := []
  sent := []

section Steps

variable [DecidableEq Switch]

def set (state : HostState Switch) (s : Switch) (tables : HostSwitch)
    (flight : List (PacketArrival Switch)) : HostState Switch :=
  { state with switches := Function.update state.switches s tables, flight }

theorem set_switches (state : HostState Switch) (s : Switch) (tables : HostSwitch)
    (flight : List (PacketArrival Switch)) (t : Switch) :
    (set state s tables flight).switches t = if t = s then tables else state.switches t :=
  Function.update_apply ..

/-- A packet is handled in some buffer, whatever bytes stand before it there. -/
def perform (state : HostState Switch) : HostAction Switch → Option (HostState Switch)
  | .send s packet =>
      some { state with
        flight := state.flight ++ [⟨s, .classifier, packet⟩]
        sent := (s, packet) :: state.sent }
  | .handle i startrand headroom =>
      state.flight[i]?.map fun arrival =>
        let (tables, after) := net.enter (state.switches arrival.switch) startrand
          { arrival with packet := { arrival.packet with headroom } }
        set state arrival.switch tables (state.flight.eraseIdx i ++ after)
  | .lose i => state.flight[i]?.map fun _ => { state with flight := state.flight.eraseIdx i }
  | .publish s =>
      some { state with
        flight := state.flight ++ (state.switches s).hosts.publishAccessInfo.map fun frame =>
          ⟨s, .router, frame.packet⟩ }
  | .fire s timer =>
      let tables := state.switches s
      some (set state s { tables with hosts := tables.hosts.fire timer } state.flight)
  | .expireMapping s ip =>
      let tables := state.switches s
      some (set state s { tables with map := tables.map.erase ip } state.flight)
  | .reroute s routes neighbors =>
      some (set state s { state.switches s with routes, neighbors } state.flight)

def Step (before : HostState Switch) (action : HostAction Switch) (after : HostState Switch) :
    Prop :=
  net.perform before action = some after

end Steps

end HostNetwork

end Veil
