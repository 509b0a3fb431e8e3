import Mathlib.Data.Fintype.Basic
import Mathlib.Logic.Function.Basic
import Mathlib.Logic.Relation
import Veil.SimPy.Switch

/-! The switches of a graph in synchronous rounds. In a level every main thread makes its calls
and every server thread handles the packets that reach it, in any order; but no query is answered
before all publications of the level are stored, and a level ends when nothing is left to do. -/

namespace Veil

namespace SimPy

open HashTable

structure Deployment (α : Type) where
  neighbors : α → List α
  vid : α → List Bool

namespace Deployment

variable {α : Type} [DecidableEq α] (deployment : Deployment α)

def Adjacent (x y : α) : Prop := y ∈ deployment.neighbors x

def site (x : α) : Site α where
  myvid := deployment.vid x
  vid2pid := (deployment.neighbors x).foldl (fun vid2pid y => vid2pid.insert (deployment.vid y) y) ∅
  pid2vid := insertAll deployment.vid ∅ (deployment.neighbors x)

end Deployment

/-- The main thread has not come to the level yet when no calls are known. An uncaught exception
ends its thread. -/
structure Process where
  tables : Tables
  running : Bool
  serving : Bool
  pending : Option (List Call)

structure Network (α : Type) where
  process : α → Process
  packets : List (α × Packet)

namespace Network

variable {α : Type}

def Stored (network : Network α) : Prop :=
  (∀ x, ∃ pending, (network.process x).pending = some pending ∧
      ∀ bucket, .publish bucket ∉ pending) ∧
    ∀ entry ∈ network.packets, entry.2.oper ≠ RDV_PUBLISH

def Quiet (network : Network α) : Prop :=
  network.packets = [] ∧ ∀ x, (network.process x).pending = some []

def opened (network : Network α) : Network α :=
  { network with process := fun x => { network.process x with pending := none } }

variable [DecidableEq α]

def set (network : Network α) (x : α) (process : Process) (packets : List (α × Packet)) :
    Network α :=
  ⟨Function.update network.process x process, packets⟩

end Network

section Steps

variable {α : Type} [DecidableEq α] (site : α → Site α)

def Answers (x : α) (packet : Packet) : Prop :=
  packet.oper = RDV_QUERY ∧ getDest packet (site x).L = (site x).myvid

open Network in
inductive Step (i : Nat) (network : Network α) : Network α → Prop
  | enter (x) : (network.process x).pending = none →
      Step i network (network.set x { network.process x with
        pending := some (if (network.process x).running
            then calls (site x) (network.process x).tables i
          else []) } network.packets)
  | call (x) {call rest packet tables sent} : (network.process x).pending = some (call :: rest) →
      call.packet (site x) i = some packet → (Answers site x packet → network.Stored) →
      routepacket (site x) recursionLimit (network.process x).tables packet = some (tables, sent) →
      Step i network (network.set x { network.process x with
          tables := tables, pending := some rest }
        (network.packets ++ sent))
  | uncaught (x) {call rest} : (network.process x).pending = some (call :: rest) →
      (∀ packet, call.packet (site x) i = some packet → (Answers site x packet → network.Stored) ∧
        routepacket (site x) recursionLimit (network.process x).tables packet = none) →
      Step i network (network.set x { network.process x with running := false, pending := some [] }
        network.packets)
  | receive (x) {front packet back tables sent} : network.packets = front ++ (x, packet) :: back →
      (network.process x).serving = true → (Answers site x packet → network.Stored) →
      processPacket (site x) recursionLimit (network.process x).tables packet =
        some (tables, sent) →
      Step i network (network.set x { network.process x with
        tables := tables } (front ++ sent ++ back))
  | uncaughtServing (x) {front packet back} : network.packets = front ++ (x, packet) :: back →
      (network.process x).serving = true → (Answers site x packet → network.Stored) →
      processPacket (site x) recursionLimit (network.process x).tables packet = none →
      Step i network (network.set x { network.process x with serving := false } (front ++ back))
  | lost (x) {front packet back} : network.packets = front ++ (x, packet) :: back →
      (network.process x).serving = false → Step i network ⟨network.process, front ++ back⟩

def Level (i : Nat) (before after : Network α) : Prop :=
  Relation.ReflTransGen (Step site i) before.opened after ∧ after.Quiet

inductive Levels : List Nat → Network α → Network α → Prop
  | nil {network} : Levels [] network network
  | cons {i rest before middle after} : Level site i before middle → Levels rest middle after →
      Levels (i :: rest) before after

/-- Every switch executes `runARound(round)`. -/
def RunsARound (round : Nat) : Network α → Network α → Prop :=
  Levels site (List.range' 2 (round - 1))

def nextRound (L round : Nat) : Nat := if L < round + 1 then L else round + 1

def initial (tables : α → Tables) : Network α where
  process := fun x => ⟨tables x, true, true, some []⟩
  packets := []

inductive Starts (L : Nat) : Nat → Network α → Prop
  | first {walk : α → List (List Bool)} {tables : α → Tables} :
      (∀ x, (walk x).Perm (site x).vid2pid.keys) →
        (∀ x, firstTables (site x) (walk x) = some (tables x)) →
      Starts L 1 (initial tables)
  | next {round before after} : Starts L round before → RunsARound site round before after →
      Starts L (nextRound L round) after

end Steps

end SimPy

end Veil
