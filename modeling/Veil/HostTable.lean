import Veil.Library.HashTable
import Veil.Vid

/-! The hosts behind a switch, from `hosttable.hh` and `hosttable.cc`. Four tables are kept by
hand: VID to address, address to VID, IP to VID, and IP to interface. Every entry of the last
holds a timer; `timers` holds the pending timers with their data, named by numbers that are never
used twice. -/

namespace Veil

structure HostEntry where
  interfaceid : Int
  expiry : Nat
deriving DecidableEq

structure HostTimerData where
  hostvid : VID
  ip : IPAddress
deriving DecidableEq

structure HostTable where
  hosts : HashTable VID EtherAddress
  rhosts : HashTable EtherAddress VID
  iphosts : HashTable IPAddress VID
  inthosts : HashTable IPAddress HostEntry
  timers : HashTable Nat HostTimerData
  nextTimer : Nat

namespace HostTable

def empty : HostTable := ⟨∅, ∅, ∅, ∅, ∅, 0⟩

def lookupVID (table : HostTable) (vid : VID) : Option EtherAddress := table.hosts.lookup vid

def lookupMAC (table : HostTable) (mac : EtherAddress) : Option VID := table.rhosts.lookup mac

def lookupIP (table : HostTable) (ip : IPAddress) : Option VID := table.iphosts.lookup ip

/-- The timer callback. It stops at the first table that misses what the one before it named. -/
def expire (table : HostTable) (td : HostTimerData) : HostTable :=
  match table.iphosts.lookup td.ip with
  | none => table
  | some vid =>
      if vid = td.hostvid then
        let unlisted := { table with
          iphosts := table.iphosts.erase td.ip
          inthosts := table.inthosts.erase td.ip }
        match table.hosts.lookup vid with
        | none => unlisted
        | some mac => { unlisted with
            hosts := table.hosts.erase vid
            rhosts := table.rhosts.erase mac }
      else table

def fire (table : HostTable) (timer : Nat) : HostTable :=
  match table.timers.lookup timer with
  | none => table
  | some td => { table with timers := table.timers.erase timer }.expire td

/-- An entry that exists keeps its timer, rescheduled; a new one gets a timer of its own. -/
def updateEntry (table : HostTable) (vid : VID) (mac : EtherAddress) (ip : IPAddress)
    (interfaceid : Int) : HostTable :=
  let mapped := { table with
    hosts := table.hosts.insert vid mac
    rhosts := table.rhosts.insert mac vid
    iphosts := table.iphosts.insert ip vid }
  match table.inthosts.lookup ip with
  | some he => { mapped with inthosts := table.inthosts.insert ip { he with interfaceid } }
  | none => { mapped with
      inthosts := table.inthosts.insert ip ⟨interfaceid, table.nextTimer⟩
      timers := table.timers.insert table.nextTimer ⟨vid, ip⟩
      nextTimer := table.nextTimer + 1 }

def hostVid (switchvid : VID) (rand : BitVec 16) : VID :=
  (switchvid.setByte 4 (rand.setWidth 8)).setByte 5 ((rand >>> 8).setWidth 8)

/-- The linear search from `startrand` on. It ends when it comes back to where it started, which is
after 65536 probes. -/
def searchVid (hosts : HashTable VID EtherAddress) (switchvid : VID) (startrand : BitVec 16) :
    Nat → BitVec 16 → Option VID
  | 0, _ => none
  | fuel + 1, currrand =>
      let v1 := hostVid switchvid currrand
      if (hosts.lookup v1).isSome then
        if currrand + 1 = startrand then none
        else searchVid hosts switchvid startrand fuel (currrand + 1)
      else some v1

def assignVid (table : HostTable) (hip : IPAddress) (hmac : EtherAddress) (myinterfaceid : Int)
    (switchvid : VID) (startrand : BitVec 16) : HostTable × Bool × Option VID :=
  match searchVid table.hosts switchvid startrand 65536 startrand with
  | none => (table, false, none)
  | some v1 => (table.updateEntry v1 hmac hip myinterfaceid, true, some v1)

/-- What `generate_host_vid` does to an entry that has moved: its timer and its mappings go, the
reverse mapping being the one of the address that the host has now. -/
def removeMapping (table : HostTable) (he : HostEntry) (hip : IPAddress) (hmac : EtherAddress) :
    HostTable :=
  { table with
    timers := table.timers.erase he.expiry
    hosts := table.hosts.erase ((table.iphosts.lookup hip).getD 0)
    -- the address that is registered now, not the one the entry had
    rhosts := table.rhosts.erase hmac
    iphosts := table.iphosts.erase hip
    inthosts := table.inthosts.erase hip }

def currentVid (table : HostTable) (he : HostEntry) (hip : IPAddress) (myinterfaceid : Int)
    (switchvid : VID) : Option VID :=
  if he.interfaceid = myinterfaceid then
    (table.iphosts.lookup hip).filter fun vid => vid.getSwitchVID = switchvid
  else none

def generateHostVid (table : HostTable) (hip : IPAddress) (hmac : EtherAddress)
    (myinterfaceid : Int) (switchvid : VID) (startrand : BitVec 16) :
    HostTable × Bool × Option VID :=
  match table.inthosts.lookup hip with
  | none => table.assignVid hip hmac myinterfaceid switchvid startrand
  | some he =>
      match table.currentVid he hip myinterfaceid switchvid with
      | some vid1 =>
          -- the entry stays; its address is written again, the old one is not erased
          ({ table with
              inthosts := table.inthosts.insert hip he
              hosts := table.hosts.insert vid1 hmac
              rhosts := table.rhosts.insert hmac vid1
              iphosts := table.iphosts.insert hip vid1 }, false, some vid1)
      | none =>
          (table.removeMapping he hip hmac).assignVid hip hmac myinterfaceid switchvid startrand

def refreshIPintEntry (table : HostTable) (ip : IPAddress) (interfaceid : Int) : HostTable × Bool :=
  match table.inthosts.lookup ip with
  | some he => (table, he.interfaceid == interfaceid)
  | none => (table, false)

def deleteIP (table : HostTable) (ip : IPAddress) : HostTable :=
  match table.inthosts.lookup ip with
  | none => table
  | some he =>
      let unowned := { table with
        timers := table.timers.erase he.expiry
        inthosts := table.inthosts.erase ip }
      match table.iphosts.lookup ip with
      | none => unowned
      | some vid =>
          let unlisted := { unowned with iphosts := table.iphosts.erase ip }
          match table.hosts.lookup vid with
          | none => unlisted
          | some mac => { unlisted with
              hosts := table.hosts.erase vid
              rhosts := table.rhosts.erase mac }

end HostTable

inductive HostCall where
  | generateHostVid (hip : IPAddress) (hmac : EtherAddress) (myinterfaceid : Int) (switchvid : VID)
      (startrand : BitVec 16)
  | refreshIPintEntry (ip : IPAddress) (interfaceid : Int)
  | deleteIP (ip : IPAddress)
  | fire (timer : Nat)

namespace HostTable

def apply (table : HostTable) : HostCall → HostTable
  | .generateHostVid hip hmac myinterfaceid switchvid startrand =>
      (table.generateHostVid hip hmac myinterfaceid switchvid startrand).1
  | .refreshIPintEntry ip interfaceid => (table.refreshIPintEntry ip interfaceid).1
  | .deleteIP ip => table.deleteIP ip
  | .fire timer => table.fire timer

end HostTable

end Veil
