import Veil.SimJava.Strings

/-! Data packets between the Java switches, from the handler of `0000` in `clientHandler.java`,
`routeDataPacket` of `veil_switch.java` and `RTable.java`. No send fails here. -/

namespace Veil

namespace SimJava

def Vid.distance (v w : Vid) : Nat := vidDist v.bits w.bits

/-- A VID as it is read from a packet: bytes, digits, a number and bits. An exception gives none. -/
def Vid.received (v : Vid) : Option Vid := do
  let bits ← bitsOfHex (localHex 4 v.bits)
  if length : bits.length = 32 then some ⟨bits, length⟩ else none

structure RTEntry where
  bucket : Nat
  nexthop : Vid
  gateway : Vid
deriving DecidableEq

abbrev RTable := List RTEntry

/-- The switch itself as the gateway, or else any of the entries, by the number that is drawn. -/
def RTable.entryLookup (rtable : RTable) (myVid : Vid) (bucket draw : Nat) : Option RTEntry :=
  let entries := rtable.filter fun entry => entry.bucket = bucket
  match entries.find? fun entry => entry.gateway = myVid with
  | some entry => some entry
  | none => entries[draw % entries.length]?

structure DataPacket where
  source : Vid
  dest : Vid
  fwd : Vid
  ttl : Nat
deriving DecidableEq

inductive Outcome
  | delivered
  | dropped
  | sent (myPacket : DataPacket) (nexthop : Vid)

structure DataSwitch where
  veil_ID : Vid
  adj_hosts : List Vid
  rTable : RTable

namespace DataSwitch

variable (node : DataSwitch)

/-- The number of hops is one less. Without any it is a number with a sign, which is not sent. -/
def sendPacket (myPacket : DataPacket) (fwd nexthop : Vid) : Outcome :=
  if myPacket.ttl = 0 then .dropped else .sent { myPacket with
    fwd, ttl := myPacket.ttl - 1 } nexthop

def routeDataPacket (draw : Nat) (myPacket : DataPacket) (fwd : Vid) : Outcome :=
  match node.rTable.entryLookup node.veil_ID (node.veil_ID.distance fwd) draw with
  | none => .dropped
  | some entry => sendPacket myPacket fwd entry.nexthop

def handle (draw : Nat) (myPacket : DataPacket) : Outcome :=
  match myPacket.source.received, myPacket.dest.received, myPacket.fwd.received with
  | some _, some destVid, some forwardVid =>
      if myPacket.ttl = 1 then .dropped
      -- case 1: the packet is for the switch
      else if destVid = node.veil_ID then .delivered
      -- case 2: it is for a neighbor
      else if destVid ∈ node.adj_hosts then sendPacket myPacket destVid destVid
      -- case 3: the switch is the gateway
      else if forwardVid = node.veil_ID then node.routeDataPacket draw myPacket destVid
      -- case 4: the switch is the source or the one after a gateway
      else if destVid = forwardVid then
        match node.rTable.entryLookup node.veil_ID (node.veil_ID.distance destVid) draw with
        | none => .dropped
        | some entry =>
            if entry.gateway = node.veil_ID then sendPacket myPacket destVid entry.nexthop
            else sendPacket myPacket entry.gateway entry.nexthop
      -- case 5: the packet is on the way to a gateway
      else if forwardVid ∈ node.adj_hosts then sendPacket myPacket forwardVid forwardVid
      else node.routeDataPacket draw myPacket forwardVid
  | _, _, _ => .dropped

end DataSwitch

structure Network where
  switches : List Vid
  adj_hosts : Vid → List Vid
  rTable : Vid → RTable

namespace Network

variable (network : Network)

def node (v : Vid) : DataSwitch := ⟨v, network.adj_hosts v, network.rTable v⟩

def Leads (v : Vid) (entry : RTEntry) : Prop :=
  (entry.gateway = v ∧ entry.nexthop ∈ network.adj_hosts v ∧
      v.distance entry.nexthop = entry.bucket) ∨
    (entry.gateway ∈ network.switches ∧ v.distance entry.gateway < entry.bucket ∧
      (∃ neighbor ∈ network.adj_hosts entry.gateway,
        entry.gateway.distance neighbor = entry.bucket) ∧
      ∃ lower ∈ network.rTable v, lower.bucket = v.distance entry.gateway ∧
        lower.nexthop = entry.nexthop)

/-- Distinct switches with a symmetric relation of neighbors, one to three entries for each
distance to another switch, and none for other distances. -/
structure Converged : Prop where
  distinct : network.switches.Nodup
  inside : ∀ v ∈ network.switches, ∀ w ∈ network.adj_hosts v, w ∈ network.switches
  symm : ∀ v ∈ network.switches, ∀ w ∈ network.adj_hosts v, v ∈ network.adj_hosts w
  filled : ∀ v ∈ network.switches, ∀ w ∈ network.switches, v ≠ w →
    let entries := (network.rTable v).filter fun entry => entry.bucket = v.distance w
    1 ≤ entries.length ∧ entries.length ≤ 3
  levels : ∀ v ∈ network.switches, ∀ entry ∈ network.rTable v,
    ∃ w ∈ network.switches, v ≠ w ∧ v.distance w = entry.bucket
  leads : ∀ v ∈ network.switches, ∀ entry ∈ network.rTable v, network.Leads v entry

structure Trip where
  visited : List Vid
  veil_ID : Vid
  packet : DataPacket

def forward (draw : Nat) (trip : Trip) : Option Trip :=
  match (network.node trip.veil_ID).handle draw trip.packet with
  | .sent myPacket nexthop => some ⟨trip.veil_ID :: trip.visited, nexthop, myPacket⟩
  | _ => none

def travel (draws : Nat → Nat) (start : Trip) : Nat → Option Trip
  | 0 => some start
  | hops + 1 => (travel draws start hops).bind (network.forward (draws hops))

def start (source dest : Vid) (ttl : Nat) : Trip := ⟨[], source, ⟨source, dest, dest, ttl⟩⟩

end Network

end SimJava

end Veil
