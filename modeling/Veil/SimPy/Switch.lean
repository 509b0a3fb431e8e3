import Veil.Library.HashTable
import Veil.SimPy.Vid

/-! One switch of the Python simulator: the packets of `veil.py`, and how `veil_switch.py` handles
and sends them. An exception stands as `none`. -/

namespace Veil

namespace SimPy

open HashTable

def RDV_PUBLISH : BitVec 16 := 0x1000

def RDV_QUERY : BitVec 16 := 0x2000

def RDV_REPLY : BitVec 16 := 0x3000

/-- The words of a packet after its operation. Only a reply has four of them. -/
structure Packet where
  oper : BitVec 16
  svid : BitVec 32
  dvid : BitVec 32
  payload : BitVec 32
  gateway : Option (BitVec 32)
deriving DecidableEq

def pack (number : Nat) : Option (BitVec 32) :=
  if number < 2 ^ 32 then some (BitVec.ofNat 32 number) else none

structure Bucket where
  nexthop : Nat
  gateway : Nat
  range : List (Option Bool)
deriving DecidableEq

def createRDV_PUBLISH (bucket : Bucket) (myvid dst : List Bool) : Option Packet := do
  let svid ← pack (BitString.value myvid)
  let dvid ← pack (BitString.value dst)
  let z ← pack bucket.nexthop
  return ⟨RDV_PUBLISH, svid, dvid, z, none⟩

def createRDV_QUERY (bucket_dist : Nat) (myvid dst : List Bool) : Option Packet := do
  let svid ← pack (BitString.value myvid)
  let dvid ← pack (BitString.value dst)
  let z ← pack bucket_dist
  return ⟨RDV_QUERY, svid, dvid, z, none⟩

def createRDV_REPLY (gw bucket_dist : Nat) (myvid dst : List Bool) : Option Packet := do
  let svid ← pack (BitString.value myvid)
  let dvid ← pack (BitString.value dst)
  let buck_dist ← pack bucket_dist
  let z ← pack gw
  return ⟨RDV_REPLY, svid, dvid, buck_dist, some z⟩

def getDest (packet : Packet) (L : Nat) : List Bool := bin2str packet.dvid.toNat L

structure Site (α : Type) where
  myvid : List Bool
  vid2pid : HashTable (List Bool) α
  pid2vid : HashTable α (List Bool)

def Site.L {α : Type} (site : Site α) : Nat := site.myvid.length

structure Tables where
  routingTable : HashTable Nat (List Bucket)
  rdvStore : HashTable Nat (List (List Bool × List Bool))

def addIfNODuplicateRDVENTRY (rdvStore : HashTable Nat (List (List Bool × List Bool))) (dist : Nat)
    (newentry : List Bool × List Bool) : HashTable Nat (List (List Bool × List Bool)) :=
  rdvStore.addNew dist newentry

/-- The last gateway of each distance is kept, and the smallest distance is taken. -/
def findAGW (rdvStore : HashTable Nat (List (List Bool × List Bool))) (k : Nat) (svid : List Bool) :
    Option (List Bool) :=
  let gw := ((rdvStore.lookup k).getD []).foldl (fun gw t => gw.insert (delta t.1 svid) t.1)
    (∅ : HashTable Nat (List Bool))
  gw.keys.min?.bind gw.lookup

section Handling

variable {α : Type} [DecidableEq α] (site : Site α)

def bucketHop (tables : Tables) (dist : Nat) : Option (Option α) :=
  match tables.routingTable.lookup dist with
  | none => some none
  | some buckets => do
      let bucket ← buckets.head?
      let nexthop ← site.vid2pid.lookup (bin2str bucket.nexthop site.L)
      return some nexthop

def getNextHop (tables : Tables) (destvid_str : List Bool) : Option (Option α) :=
  match site.vid2pid.lookup destvid_str with
  | some nexthop => some (some nexthop)
  | none => bucketHop site tables (delta site.myvid destvid_str)

/-- The loop of `routepacket`, with the bits that are left to flip: the neighbour, and the
destination that the loop has come to. -/
def searchHop (tables : Tables) (oper : BitVec 16) : Nat → List Bool → Option (Option α × List Bool)
  | 0, _ => none
  | flips + 1, dst =>
      match site.vid2pid.lookup dst with
      | some nexthop => some (some nexthop, dst)
      | none =>
          let dist := delta site.myvid dst
          if dist = 0 then some (none, dst)
          else do
            match ← bucketHop site tables dist with
            | some nexthop => return (some nexthop, dst)
            | none =>
                if oper ≠ RDV_PUBLISH ∧ oper ≠ RDV_QUERY then return (none, dst)
                else searchHop tables oper flips (flipBit dst dist)

def receivePublish (tables : Tables) (packet : Packet) : Tables :=
  let svid := bin2str packet.svid.toNat site.L
  let payload := bin2str packet.payload.toNat site.L
  { tables with
    rdvStore := addIfNODuplicateRDVENTRY tables.rdvStore (delta site.myvid payload)
      (svid, payload) }

def receiveReply (tables : Tables) (packet : Packet) : Option Tables := do
  let gw ← packet.gateway
  let k := BitString.value (bin2str packet.payload.toNat site.L)
  if k ∈ tables.routingTable then return tables
  else
    match ← getNextHop site tables (bin2str gw.toNat site.L) with
    | none => return tables
    | some nexthop =>
        let vid ← site.pid2vid.lookup nexthop
        let range ← getPrefix site.myvid k
        return { tables with
          routingTable := tables.routingTable.insert k [⟨BitString.value vid, gw.toNat, range⟩] }

end Handling

inductive Event (α : Type) where
  | handled (packet : Packet)
  | sent (nexthop : α) (packet : Packet)

/-- Past the recursion limit Python raises an exception of its own. -/
inductive Ending where
  | limit
  | raised
  | returned (after : Tables)

theorem Ending.raised_ne : raised ≠ limit := by simp

theorem Ending.returned_ne (after : Tables) : returned after ≠ limit := by simp

structure Run (α : Type) where
  events : List (Event α)
  ending : Ending

def updateDestination (packet : Packet) (dst : List Bool) : Option Packet :=
  (pack (BitString.value dst)).map fun dvid => { packet with dvid }

namespace Run

variable {α : Type}

def during (event : Event α) (run : Run α) : Run α := ⟨event :: run.events, run.ending⟩

def andThen (run : Run α) (event : Event α) : Run α :=
  match run.ending with
  | .returned after => ⟨run.events ++ [event], .returned after⟩
  | ending => ⟨run.events, ending⟩

variable [DecidableEq α] (site : Site α)

mutual

/-- The calls that are left before the recursion limit come first. -/
def processPacket : Nat → Tables → Packet → Run α
  | 0, _, _ => ⟨[], .limit⟩
  | calls + 1, tables, packet =>
      if getDest packet site.L ≠ site.myvid then routepacket calls tables packet
      else if packet.oper = RDV_PUBLISH then
        ⟨[.handled packet], .returned (receivePublish site tables packet)⟩
      else if packet.oper = RDV_QUERY then
        let svid := bin2str packet.svid.toNat site.L
        let k := BitString.value (bin2str packet.payload.toNat site.L)
        match findAGW tables.rdvStore k svid with
        | none => ⟨[.handled packet], .returned tables⟩
        | some gw =>
            match createRDV_REPLY (BitString.value gw) k site.myvid svid with
            | none => ⟨[.handled packet], .raised⟩
            | some replypacket => (routepacket calls tables replypacket).during (.handled packet)
      else if packet.oper = RDV_REPLY then
        match receiveReply site tables packet with
        | none => ⟨[], .raised⟩
        | some after => ⟨[], .returned after⟩
      else ⟨[], .returned tables⟩

/-- The packet that `updateDestination` makes is dropped. -/
def routepacket : Nat → Tables → Packet → Run α
  | 0, _, _ => ⟨[], .limit⟩
  | calls + 1, tables, packet =>
      if getDest packet site.L = site.myvid then processPacket calls tables packet
      else
        match site.vid2pid.lookup (getDest packet site.L) with
        | some nexthop => ⟨[.sent nexthop packet], .returned tables⟩
        | none =>
            match searchHop site tables packet.oper (site.L + 1) (getDest packet site.L) with
            | none => ⟨[], .raised⟩
            | some (nexthop, dst) =>
                let updated :=
                  if dst ≠ getDest packet site.L then updateDestination packet dst else some packet
                match updated with
                | none => ⟨[], .raised⟩
                | some _ =>
                    let processed :=
                      if dst = site.myvid then processPacket calls tables packet
                      else ⟨[], .returned tables⟩
                    match nexthop with
                    | none => processed
                    | some nexthop => processed.andThen (.sent nexthop packet)

end

end Run

def Event.transmission {α : Type} : Event α → Option (α × Packet)
  | handled _ => none
  | sent nexthop packet => some (nexthop, packet)

def Run.result {α : Type} (run : Run α) : Option (Tables × List (α × Packet)) :=
  match run.ending with
  | .returned after => some (after, run.events.filterMap Event.transmission)
  | _ => none

section Result

variable {α : Type}

theorem Run.result_during (packet : Packet) (run : Run α) :
    (run.during (.handled packet)).result = run.result := by
  cases run with
  | mk events ending => cases ending <;> rfl

end Result

section Calls

variable {α : Type} [DecidableEq α] (site : Site α)

def processPacket (calls : Nat) (tables : Tables) (packet : Packet) :
    Option (Tables × List (α × Packet)) :=
  (Run.processPacket site calls tables packet).result

def routepacket (calls : Nat) (tables : Tables) (packet : Packet) :
    Option (Tables × List (α × Packet)) :=
  (Run.routepacket site calls tables packet).result

variable {site} {calls : Nat} {tables : Tables} {packet : Packet}

theorem processPacket_away (away : getDest packet site.L ≠ site.myvid) :
    processPacket site (calls + 1) tables packet = routepacket site calls tables packet := by
  rw [processPacket, Run.processPacket, if_pos away, routepacket]

theorem routepacket_here (here : getDest packet site.L = site.myvid) :
    routepacket site (calls + 1) tables packet = processPacket site calls tables packet := by
  rw [routepacket, Run.routepacket, if_pos here, processPacket]

section Here

variable (here : getDest packet site.L = site.myvid)
include here

theorem processPacket_publish (publish : packet.oper = RDV_PUBLISH) :
    processPacket site (calls + 1) tables packet =
      some (receivePublish site tables packet, []) := by
  rw [processPacket, Run.processPacket, if_neg (not_not_intro here), if_pos publish]
  rfl

theorem processPacket_query (query : packet.oper = RDV_QUERY) :
    processPacket site (calls + 1) tables packet =
      let svid := bin2str packet.svid.toNat site.L
      let k := BitString.value (bin2str packet.payload.toNat site.L)
      match findAGW tables.rdvStore k svid with
      | none => some (tables, [])
      | some gw => (createRDV_REPLY (BitString.value gw) k site.myvid svid).bind
          (routepacket site calls tables) := by
  have noPublish : packet.oper ≠ RDV_PUBLISH := by
    rw [query]
    decide
  rw [processPacket, Run.processPacket, if_neg (not_not_intro here), if_neg noPublish, if_pos query]
  dsimp only
  cases findAGW tables.rdvStore (BitString.value (bin2str packet.payload.toNat site.L))
      (bin2str packet.svid.toNat site.L) with
  | none => rfl
  | some gw =>
      dsimp only
      cases createRDV_REPLY (BitString.value gw)
        (BitString.value (bin2str packet.payload.toNat site.L)) site.myvid
          (bin2str packet.svid.toNat site.L) with
      | none => rfl
      | some replypacket => exact Run.result_during packet _

theorem processPacket_reply (reply : packet.oper = RDV_REPLY) :
    processPacket site (calls + 1) tables packet =
      (receiveReply site tables packet).map fun after => (after, []) := by
  have others : packet.oper ≠ RDV_PUBLISH ∧ packet.oper ≠ RDV_QUERY := by
    rw [reply]
    decide
  rw [processPacket, Run.processPacket, if_neg (not_not_intro here), if_neg others.1,
    if_neg others.2, if_pos reply]
  cases receiveReply site tables packet with
  | none => rfl
  | some after => rfl

end Here

theorem routepacket_hop (away : getDest packet site.L ≠ site.myvid)
    (apart : delta site.myvid (getDest packet site.L) ≠ 0) {nexthop : α}
    (next : getNextHop site tables (getDest packet site.L) = some (some nexthop)) :
    routepacket site (calls + 1) tables packet = some (tables, [(nexthop, packet)]) := by
  rw [getNextHop] at next
  rw [routepacket, Run.routepacket, if_neg away]
  cases found : site.vid2pid.lookup (getDest packet site.L) with
  | some pid =>
      rw [found] at next
      cases next
      rfl
  | none =>
      rw [found] at next
      simp only [searchHop, found, next, if_neg apart, Option.bind_eq_bind, Option.bind_some,
        Option.pure_def,
        ne_eq, not_true_eq_false, if_false, if_neg away]
      rfl

end Calls

def recursionLimit : Nat := 1000

section Rounds

variable {α : Type} [DecidableEq α] (site : Site α)

def addNeighbor (routingTable : HashTable Nat (List Bucket)) (vid : List Bool) :
    Option (HashTable Nat (List Bucket)) := do
  let dist := delta vid site.myvid
  let range ← getPrefix site.myvid dist
  return routingTable.addNew dist ⟨BitString.value vid, BitString.value site.myvid, range⟩

def firstTables (walk : List (List Bool)) : Option Tables := do
  let routingTable ← walk.foldlM (addNeighbor site) ∅
  return ⟨routingTable, ∅⟩

inductive Call where
  | publish (bucket : Bucket)
  | query
deriving DecidableEq

def calls (tables : Tables) (i : Nat) : List Call :=
  match tables.routingTable.lookup i with
  | none | some [] => [.query]
  | some buckets => (buckets.filter fun t => t.gateway = BitString.value site.myvid).map .publish

def Call.packet (i : Nat) : Call → Option Packet
  | publish bucket => createRDV_PUBLISH bucket site.myvid (getRendezvousID i site.myvid)
  | query => createRDV_QUERY i site.myvid (getRendezvousID i site.myvid)

end Rounds

end SimPy

end Veil
