import Veil.SimJava.RdvTable
import Veil.SimJava.Wire

/-! The control packets between the switches and their rendezvous points, from `veil_switch.java`,
`clientHandler.java` and `Packet.java`. -/

namespace Veil

namespace SimJava

open Bytes (Byte)

structure Packet where
  opcode : Opcode
  source : List Bool
  dest : List Bool
  payload : List Bool
  ttl : Byte
deriving DecidableEq

def Packet.bytes (myPacket : Packet) : List Byte :=
  wire myPacket.opcode.op myPacket.source myPacket.dest myPacket.payload myPacket.ttl

def primaryPoint (veil_ID : Vid) (k : Nat) : List Bool :=
  substring veil_ID.bits 0 (32 - k + 1) ++ List.replicate (k - 1) false

def backupPoint (veil_ID : Vid) (k : Nat) : List Bool :=
  substring veil_ID.bits 0 (32 - k + 1) ++ true :: List.replicate (k - 2) false

/-- The packets that are routed, and the one that the switch processes itself, after which it
returns. -/
def rendezvous (opcode : Opcode) (veil_ID : Vid) (k : Nat) (payload : List Bool) :
    List Packet × Option Packet :=
  let primary : Packet := ⟨opcode, veil_ID.bits, primaryPoint veil_ID k, payload, 0x3f⟩
  let backup : Packet := ⟨opcode, veil_ID.bits, backupPoint veil_ID k, payload, 0x3f⟩
  if primary.dest = veil_ID.bits then ([], some primary)
  else if backup.dest = veil_ID.bits then ([primary], some backup)
  else ([primary, backup], none)

def rendezvousPublish (veil_ID : Vid) (k : Nat) (destination : List Bool) :
    List Packet × Option Packet :=
  rendezvous .publish veil_ID k destination

def rendezvousQuery (veil_ID : Vid) (k : Nat) : List Packet × Option Packet :=
  rendezvous .query veil_ID k (leftPadString (toBinaryString k) 32 false)

def rendezvousUpdate (veil_ID : Vid) (k : Nat) (destination : List Bool) :
    List Packet × Option Packet :=
  rendezvous .update veil_ID k destination

/-- What a switch does with a packet: its table after it, the bytes of a reply, and the arguments
of a call of `updateRTEntry`. -/
structure Handled where
  table : RdvTable
  reply : Option (List Byte) := none
  updateRTEntry : Option (List Char × Nat) := none

def processPacket (veil_ID : Vid) (table : RdvTable) (myPacket : Packet) : Handled :=
  let edge : RdvEdge := ⟨localHex 4 myPacket.source, localHex 4 myPacket.payload⟩
  match myPacket.opcode with
  | .publish => { table := (table.addEdge edge).1 }
  | .query =>
      { table
        updateRTEntry := do
          let bucket ← parseBits myPacket.payload
          let gwList ← table.findEntry (localHex 4 veil_ID.bits) (Nat.toDigits 10 bucket)
          if gwList = [] then none else some (localHex 12 gwList, bucket) }
  | .update => { table := (table.delEdge edge).1 }

/-- The packet has hops left and has come to its destination. An exception stops its handling. -/
def destined (veil_ID : Vid) (input : List (List Char)) (ttl : Nat) : Bool :=
  match parseInt 16 (field input ttl 1) with
  | none => false
  | some hops => hops ≠ 1 ∧ bitsOfHex (field input 12 4) = some veil_ID.bits

def replyBytes (veil_ID : Vid) (input : List (List Char)) (result : List Bool) : List Byte :=
  [0, 1, 8, 0, 6, 4, 48, 0] ++ bytesOf 4 veil_ID.bits ++ (substring input 8 12).map convertHex ++
    (substring input 16 20).map convertHex ++ bytesOf 12 result ++ [63]

/-- What is done with a packet for this switch. Those for other switches are forwarded. -/
def handle (veil_ID : Vid) (table : RdvTable) (input : List (List Char)) : Handled :=
  let edge : RdvEdge := ⟨field input 8 4, field input 16 4⟩
  match field input 6 2 with
  | ['1', '0', '0', '0'] =>
      { table := if destined veil_ID input 20 then (table.addEdge edge).1 else table }
  | ['2', '0', '0', '0'] =>
      { table
        reply :=
          if destined veil_ID input 20 then do
            let result ← table.findEntry (field input 8 4) (field input 16 4)
            if result = [] then none else some (replyBytes veil_ID input result)
          else none }
  | ['3', '0', '0', '0'] =>
      { table
        updateRTEntry :=
          if destined veil_ID input 32 then
            (parseInt 10 (field input 16 4)).map fun bucket => (field input 20 12, bucket)
          else none }
  | ['4', '0', '0', '0'] =>
      { table := if destined veil_ID input 20 then (table.delEdge edge).1 else table }
  | _ => { table }

def clientHandler (veil_ID : Vid) (table : RdvTable) (bytes : List Byte) : Handled :=
  match readLoop [] bytes with
  | none => { table }
  | some (input, _) => handle veil_ID table input

theorem length_primaryPoint (v : Vid) {k : Nat} (positive : 1 ≤ k) (le_bits : k ≤ 32) :
    (primaryPoint v k).length = 32 := by
  rw [primaryPoint, substring, List.drop_zero, List.length_append, List.length_take, v.length,
    List.length_replicate]
  omega

theorem length_backupPoint (v : Vid) {k : Nat} (two_le : 2 ≤ k) (le_bits : k ≤ 32) :
    (backupPoint v k).length = 32 := by
  rw [backupPoint, substring, List.drop_zero, List.length_append, List.length_take, v.length,
    List.length_cons,
    List.length_replicate]
  omega

theorem primaryPoint_one (v : Vid) : primaryPoint v 1 = v.bits := by
  rw [primaryPoint, substring, List.drop_zero, List.take_of_length_le (Nat.le_of_eq v.length)]
  exact List.append_nil v.bits

theorem mem_rendezvous {opcode : Opcode} {v : Vid} {k : Nat} {payload : List Bool} {packet : Packet}
    (positive : 1 ≤ k) (routed : packet ∈ (rendezvous opcode v k payload).1) :
    packet.dest ≠ v.bits ∧ (packet.dest = primaryPoint v k ∨
      2 ≤ k ∧ packet.dest = backupPoint v k) := by
  rw [rendezvous] at routed
  split at routed
  · exact absurd routed List.not_mem_nil
  · rename_i differs
    split at routed
    · obtain rfl := List.mem_singleton.mp routed
      exact ⟨differs, Or.inl rfl⟩
    · rename_i other
      rcases List.mem_cons.mp routed with rfl | second
      · exact ⟨differs, Or.inl rfl⟩
      · obtain rfl := List.mem_singleton.mp second
        refine ⟨other, Or.inr ⟨?_, rfl⟩⟩
        by_contra small
        obtain rfl : k = 1 := by omega
        exact differs (primaryPoint_one v)

namespace Packet

variable (myPacket : Packet)

def input : List (List Char) := myPacket.bytes.map hexByte

theorem clientHandler_bytes (veil_ID : Vid) (table : RdvTable) :
    clientHandler veil_ID table myPacket.bytes = handle veil_ID table myPacket.input := by
  have taken := readLoop_wire (.control myPacket.opcode) myPacket.source myPacket.dest
    myPacket.payload myPacket.ttl
  rw [if_neg nofun, List.append_nil] at taken
  rw [clientHandler, bytes, show myPacket.opcode.op =
    (PacketType.control myPacket.opcode).op from rfl, taken]
  rfl

theorem field_opcode : field myPacket.input 6 2 = hexByte myPacket.opcode.op ++ hexByte 0 :=
  wire_opcode _ _ _ _ _

theorem field_source : field myPacket.input 8 4 = localHex 4 myPacket.source :=
  wire_source _ _ _ _ _

theorem field_dest : field myPacket.input 12 4 = localHex 4 myPacket.dest := wire_dest _ _ _ _ _

theorem field_payload : field myPacket.input 16 4 = localHex 4 myPacket.payload :=
  wire_payload _ _ _ _ _

theorem field_ttl : field myPacket.input 20 1 = hexByte myPacket.ttl := wire_ttl _ _ _ _ _

theorem destined_iff {veil_ID : Vid} (dest : myPacket.dest = veil_ID.bits) :
    destined veil_ID myPacket.input 20 = true ↔ myPacket.ttl ≠ 1 ∧ veil_ID.high = false := by
  have last : myPacket.ttl.toNat ≠ 1 ↔ myPacket.ttl ≠ 1 :=
    not_congr ⟨fun same => BitVec.eq_of_toNat_eq same, fun same => congrArg BitVec.toNat same⟩
  rw [destined, field_ttl, parseInt_hexByte, field_dest, dest, Vid.bitsOfHex_localHex]
  cases veil_ID.high with
  | false => simpa using last
  | true => simp

end Packet

end SimJava

end Veil
