import Veil.Library.FuelledCall
import Veil.SimJava.Rendezvous
import Veil.SimJava.TableInvariant

/-! Sending over failed neighbours, from `veil_switch.java`: a send that fails removes the routes
through the neighbour, and tells the rendezvous switches of it with packets that are routed
alike. -/

namespace Veil

namespace SimJava

open Bytes (Byte)
open FuelledCall

def TimedEntry.entry (entry : TimedEntry Vid) : RTEntry :=
  ⟨entry.bucket, entry.nexthop, entry.gateway⟩

inductive FailoverEvent
  | looked (entry : RTEntry)
  | tried (nexthop : Vid) (sent : Bool)
  | deleting (rTable : TimedTable Vid) (nexthop : Vid)
deriving DecidableEq

inductive Stop
  | exception
  | exit
deriving DecidableEq

structure FailoverState where
  rTable : TimedTable Vid
  rdvTable : RdvTable
  drawn : Nat
  log : List FailoverEvent

/-- A switch, the neighbours that a socket cannot be opened to, and the numbers that `Random`
gives. -/
structure FailingSwitch (Pid : Type) where
  veil_ID : Vid
  adj_hosts : List (Pid × Option Vid)
  dead : Pid → Bool
  draws : Nat → Nat
  time : Int

namespace FailingSwitch

variable {Pid : Type} (switch : FailingSwitch Pid)

abbrev FailoverCall (α : Type) := Call FailoverState Stop α

def entryLookup (k : Nat) : FailoverCall (Option RTEntry) := fun state =>
  let entry := RTable.entryLookup (state.rTable.map TimedEntry.entry) switch.veil_ID k
    (switch.draws state.drawn)
  (.returned entry,
    { state with
      drawn := state.drawn + 1
      log := (entry.map FailoverEvent.looked).toList ++ state.log })

def sendPacket (nexthop : Vid) : FailoverCall Bool := fun state =>
  match RoutingSwitch.targetPhysID switch.adj_hosts nexthop with
  | none => (.stopped .exception, state)
  | some none => (.stopped .exit, state)
  | some (some pid) =>
      (.returned (! switch.dead pid),
        { state with log := .tried nexthop (! switch.dead pid) :: state.log })

def delEntry (nexthop : Vid) : FailoverCall Unit := fun state =>
  let log := .deleting state.rTable nexthop :: state.log
  match state.rTable.delNexthop switch.time nexthop with
  | none => (.unfinished, { state with log })
  | some (true, rTable) => (.returned (), { state with rTable, log })
  | some (false, rTable) => (.stopped .exception, { state with rTable, log })

def processOwn (own : Option Packet) : FailoverCall Unit := fun state =>
  match own with
  | none => (.returned (), state)
  | some myPacket =>
      (.returned (), { state with
        rdvTable := (processPacket switch.veil_ID state.rdvTable myPacket).table })

def routeAll (route : Packet → FailoverCall Bool) : List Packet → FailoverCall Unit
  | [] => give ()
  | myPacket :: rest => andThen (route myPacket) fun _ => routeAll route rest

/-- The substring for the VID of the switch itself throws. -/
def rendezvousUpdate (route : Packet → FailoverCall Bool) (k : Nat) (vid : Vid) :
    FailoverCall Unit :=
  if k = 0 then fun state => (.stopped .exception, state)
  else
    let packets := SimJava.rendezvousUpdate switch.veil_ID k vid.bits
    andThen (routeAll route packets.1) fun _ => switch.processOwn packets.2

def removeRTEntry (route : Packet → FailoverCall Bool) (vid : Vid) : FailoverCall Unit :=
  andThen (switch.rendezvousUpdate route (switch.veil_ID.distance vid) vid) fun _ =>
    switch.delEntry vid

/-- `k--` for an `int`. -/
def levelBelow (k : Nat) : Nat := (k + 2 ^ 32 - 1) % 2 ^ 32

/-- A send of a loop, which ends when the packet is sent, and goes on without the routes through
the nexthop when it is not. -/
def sendOrRemove (route : Packet → FailoverCall Bool) (loop : FailoverCall Bool) (nexthop : Vid) :
    FailoverCall Bool :=
  andThen (switch.sendPacket nexthop) fun sendResult =>
    if sendResult then give true else andThen (switch.removeRTEntry route nexthop) fun _ => loop

def tryEntry (route : Packet → FailoverCall Bool) (absent loop : FailoverCall Bool) (k : Nat) :
    FailoverCall Bool :=
  andThen (switch.entryLookup k) fun
    | none => absent
    | some entry => switch.sendOrRemove route loop entry.nexthop

/-- The turns of both loops of `routeCtrlPacket`, at most so many. Packets for the rendezvous
switches come back to it. -/
def routeFrom : Nat → Nat → FailoverCall Bool
  | 0, _ => fun state => (.unfinished, state)
  | turns + 1, k =>
      switch.tryEntry (fun myPacket => routeFrom turns (vidDist switch.veil_ID.bits myPacket.dest))
        (if levelBelow k = 0 then give false else routeFrom turns (levelBelow k))
          (routeFrom turns k) k

def routeCtrlPacket (turns : Nat) (myPacket : Packet) : FailoverCall Bool :=
  switch.routeFrom turns (vidDist switch.veil_ID.bits myPacket.dest)

def routeDataFrom : Nat → Nat → FailoverCall Bool
  | 0, _ => fun state => (.unfinished, state)
  | turns + 1, tempDist =>
      switch.tryEntry (switch.routeCtrlPacket turns) (give false)
        (routeDataFrom turns tempDist) tempDist

def routeDataPacket (turns : Nat) (myPacket : DataPacket) : FailoverCall Bool :=
  switch.routeDataFrom turns (switch.veil_ID.distance myPacket.fwd)

/-- The strings of a packet have 32 bits, which `sendPacket` relies on. -/
inductive FailoverRequest
  | ctrl (opcode : Opcode) (source dest payload : Vid) (ttl : Byte)
  | data (myPacket : DataPacket)

def call (turns : Nat) : FailoverRequest → FailoverCall Bool
  | .ctrl opcode source dest payload ttl =>
      switch.routeCtrlPacket turns ⟨opcode, source.bits, dest.bits, payload.bits, ttl⟩
  | .data myPacket => switch.routeDataPacket turns myPacket

structure Upholds (holds : FailoverState → Prop) : Prop where
  entryLookup : ∀ k, Preserves holds (switch.entryLookup k)
  sendPacket : ∀ nexthop, Preserves holds (switch.sendPacket nexthop)
  delEntry : ∀ nexthop, Preserves holds (switch.delEntry nexthop)
  processOwn : ∀ own, Preserves holds (switch.processOwn own)

section Upholds

variable {switch} {holds : FailoverState → Prop} (upholds : switch.Upholds holds)
include upholds

section Route

variable {route : Packet → FailoverCall Bool}
  (routes : ∀ myPacket, Preserves holds (route myPacket))
include routes

omit upholds in
theorem preserves_routeAll (packets : List Packet) : Preserves holds (routeAll route packets) := by
  induction packets with
  | nil => exact .give ()
  | cons myPacket rest ih => exact (routes myPacket).andThen fun _ => ih

theorem Upholds.rendezvousUpdate (k : Nat) (vid : Vid) :
    Preserves holds (switch.rendezvousUpdate route k vid) := by
  rw [FailingSwitch.rendezvousUpdate]
  split
  · exact fun _ before => before
  · exact (preserves_routeAll routes _).andThen fun _ => upholds.processOwn _

theorem Upholds.removeRTEntry (vid : Vid) : Preserves holds (switch.removeRTEntry route vid) :=
  (upholds.rendezvousUpdate routes _ vid).andThen fun _ => upholds.delEntry vid

theorem Upholds.sendOrRemove {loop : FailoverCall Bool} (again : Preserves holds loop)
    (nexthop : Vid) :
    Preserves holds (switch.sendOrRemove route loop nexthop) := by
  refine (upholds.sendPacket nexthop).andThen fun sendResult => ?_
  cases sendResult with
  | true => exact .give true
  | false => exact (upholds.removeRTEntry routes nexthop).andThen fun _ => again

theorem Upholds.tryEntry {absent loop : FailoverCall Bool} (otherwise : Preserves holds absent)
    (again : Preserves holds loop) (k : Nat) :
    Preserves holds (switch.tryEntry route absent loop k) := by
  refine (upholds.entryLookup k).andThen fun found => ?_
  cases found with
  | none => exact otherwise
  | some entry => exact upholds.sendOrRemove routes again entry.nexthop

end Route

theorem Upholds.routeFrom (turns k : Nat) : Preserves holds (switch.routeFrom turns k) := by
  induction turns generalizing k with
  | zero => exact fun _ before => before
  | succ turns ih =>
      refine upholds.tryEntry (fun _ => ih _) ?_ (ih k) k
      split
      · exact .give false
      · exact ih _

theorem Upholds.routeDataFrom (turns tempDist : Nat) :
    Preserves holds (switch.routeDataFrom turns tempDist) := by
  induction turns generalizing tempDist with
  | zero => exact fun _ before => before
  | succ turns ih =>
      exact upholds.tryEntry (fun _ => upholds.routeFrom turns _) (.give false)
        (ih tempDist) tempDist

theorem Upholds.call (turns : Nat) (request : FailoverRequest) :
    Preserves holds (switch.call turns request) := by
  cases request with
  | ctrl opcode source dest payload ttl => exact upholds.routeFrom turns _
  | data myPacket => exact upholds.routeDataFrom turns _

end Upholds

theorem log_delEntry (nexthop : Vid) (state : FailoverState) :
    (switch.delEntry nexthop state).2.log = .deleting state.rTable nexthop :: state.log := by
  rw [delEntry]
  split
  · rfl
  · rfl
  · rfl

theorem upholds_log (early : List FailoverEvent) :
    switch.Upholds (fun state => early <:+ state.log) where
  entryLookup := fun _ _ before => before.trans (List.suffix_append _ _)
  sendPacket := by
    intro nexthop state before
    rw [FailingSwitch.sendPacket]
    split
    · exact before
    · exact before
    · exact before.trans (List.suffix_cons _ _)
  delEntry := by
    intro nexthop state before
    rw [log_delEntry]
    exact before.trans (List.suffix_cons _ _)
  processOwn := by
    intro own state before
    cases own with
    | none => exact before
    | some myPacket => exact before

section Grows

theorem grows_delEntry (nexthop : Vid) : Grows FailoverState.log (switch.delEntry nexthop) :=
  grows_iff_preserves.mpr fun early => (switch.upholds_log early).delEntry nexthop

theorem grows_processOwn (own : Option Packet) : Grows FailoverState.log (switch.processOwn own) :=
  grows_iff_preserves.mpr fun early => (switch.upholds_log early).processOwn own

theorem grows_routeFrom (turns k : Nat) : Grows FailoverState.log (switch.routeFrom turns k) :=
  grows_iff_preserves.mpr fun early => (switch.upholds_log early).routeFrom turns k

theorem grows_routeDataFrom (turns tempDist : Nat) :
    Grows FailoverState.log (switch.routeDataFrom turns tempDist) :=
  grows_iff_preserves.mpr fun early => (switch.upholds_log early).routeDataFrom turns tempDist

variable {route : Packet → FailoverCall Bool}
  (grows : ∀ myPacket, Grows FailoverState.log (route myPacket))
include grows

omit switch in
theorem grows_routeAll (packets : List Packet) : Grows FailoverState.log (routeAll route packets) :=
  grows_iff_preserves.mpr fun early =>
    preserves_routeAll (fun myPacket => grows_iff_preserves.mp (grows myPacket) early) packets

theorem grows_rendezvousUpdate (k : Nat) (vid : Vid) :
    Grows FailoverState.log (switch.rendezvousUpdate route k vid) :=
  grows_iff_preserves.mpr fun early => (switch.upholds_log early).rendezvousUpdate
    (fun myPacket => grows_iff_preserves.mp (grows myPacket) early) k vid

theorem grows_removeRTEntry (vid : Vid) :
    Grows FailoverState.log (switch.removeRTEntry route vid) :=
  (switch.grows_rendezvousUpdate grows _ vid).andThen fun _ => switch.grows_delEntry vid

theorem grows_sendOrRemove {loop : FailoverCall Bool} (again : Grows FailoverState.log loop)
    (nexthop : Vid) :
    Grows FailoverState.log (switch.sendOrRemove route loop nexthop) :=
  grows_iff_preserves.mpr fun early => (switch.upholds_log early).sendOrRemove
    (fun myPacket => grows_iff_preserves.mp (grows myPacket) early)
      (grows_iff_preserves.mp again early) nexthop

end Grows

section Refines

variable {less more : Packet → FailoverCall Bool}
  (refines : ∀ myPacket, Refines FailoverState.log (less myPacket) (more myPacket))
  (grows : ∀ myPacket, Grows FailoverState.log (more myPacket))
include refines grows

omit switch in
theorem refines_routeAll (packets : List Packet) :
    Refines FailoverState.log (routeAll less packets) (routeAll more packets) := by
  induction packets with
  | nil => exact .refl _
  | cons myPacket rest ih =>
      exact (refines myPacket).andThen (fun _ => ih) fun _ => grows_routeAll grows rest

theorem refines_removeRTEntry (vid : Vid) :
    Refines FailoverState.log (switch.removeRTEntry less vid) (switch.removeRTEntry more vid) := by
  refine Refines.andThen ?_ (fun _ => .refl _) fun _ => switch.grows_delEntry vid
  rw [rendezvousUpdate, rendezvousUpdate]
  split
  · exact .refl _
  · exact (refines_routeAll refines grows _).andThen (fun _ => .refl _) fun _ =>
      switch.grows_processOwn _

theorem refines_sendOrRemove {loop longer : FailoverCall Bool}
    (again : Refines FailoverState.log loop longer) (later : Grows FailoverState.log longer)
    (nexthop : Vid) :
    Refines FailoverState.log (switch.sendOrRemove less loop nexthop)
      (switch.sendOrRemove more longer nexthop) := by
  refine (Refines.refl _).andThen (fun sendResult => ?_) fun sendResult => ?_
  · cases sendResult with
    | true => exact .refl _
    | false =>
        exact (switch.refines_removeRTEntry refines grows nexthop).andThen (fun _ => again)
          fun _ => later
  · cases sendResult with
    | true => exact .give true
    | false => exact (switch.grows_removeRTEntry grows nexthop).andThen fun _ => later

theorem refines_tryEntry {absent absent_later loop longer : FailoverCall Bool}
    (otherwise : Refines FailoverState.log absent absent_later)
    (absent_grows : Grows FailoverState.log absent_later)
    (again : Refines FailoverState.log loop longer) (later : Grows FailoverState.log longer)
    (k : Nat) :
    Refines FailoverState.log (switch.tryEntry less absent loop k)
      (switch.tryEntry more absent_later longer k) := by
  refine (Refines.refl _).andThen (fun found => ?_) fun found => ?_
  · cases found with
    | none => exact otherwise
    | some entry => exact switch.refines_sendOrRemove refines grows again later entry.nexthop
  · cases found with
    | none => exact absent_grows
    | some entry => exact switch.grows_sendOrRemove grows later entry.nexthop

end Refines

theorem refines_routeFrom (turns k : Nat) :
    Refines FailoverState.log (switch.routeFrom turns k) (switch.routeFrom (turns + 1) k) := by
  induction turns generalizing k with
  | zero => exact fun state => Or.inr ⟨rfl, switch.grows_routeFrom 1 k state⟩
  | succ turns ih =>
      refine switch.refines_tryEntry (fun _ => ih _)
        (fun _ => switch.grows_routeFrom _ _) ?_ ?_ (ih k)
        (switch.grows_routeFrom _ k) k
      · split
        · exact .refl _
        · exact ih _
      · split
        · exact .give false
        · exact switch.grows_routeFrom _ _

theorem refines_routeDataFrom (turns tempDist : Nat) :
    Refines FailoverState.log (switch.routeDataFrom turns tempDist)
      (switch.routeDataFrom (turns + 1) tempDist) := by
  induction turns generalizing tempDist with
  | zero => exact fun state => Or.inr ⟨rfl, switch.grows_routeDataFrom 1 tempDist state⟩
  | succ turns ih =>
      exact switch.refines_tryEntry (fun _ => switch.refines_routeFrom turns _)
        (fun _ => switch.grows_routeFrom _ _) (.refl _) (.give false) (ih tempDist)
        (switch.grows_routeDataFrom _ tempDist) tempDist

theorem refines_call (request : FailoverRequest) {turns more : Nat} (enough : turns ≤ more) :
    Refines FailoverState.log (switch.call turns request) (switch.call more request) := by
  have step (turns : Nat) :
      Refines FailoverState.log (switch.call turns request) (switch.call (turns + 1) request) := by
    cases request with
    | ctrl opcode source dest payload ttl => exact switch.refines_routeFrom turns _
    | data myPacket => exact switch.refines_routeDataFrom turns _
  exact Refines.of_le step enough

end FailingSwitch

end SimJava

end Veil
