import Veil.SimJava.Rendezvous

/-! Packets between two Java switches, as `sendPacket` of `veil_switch.java` writes them to a
socket and `run` of `clientHandler.java` reads them from it, when they are for another switch. -/

namespace Veil

namespace SimJava

open Bytes (Byte)

structure RoutedPacket where
  opcode : PacketType
  source : Vid
  dest : Vid
  payload : Vid
  fwd : Vid
  ttl : List Bool
deriving DecidableEq

def Vid.ones (first : Bool) : Vid :=
  ⟨first :: List.replicate 31 true, by rw [List.length_cons, List.length_replicate]⟩

theorem Vid.length_zeros : (List.replicate 32 false).length = 32 := List.length_replicate

def Vid.zeros : Vid := ⟨List.replicate 32 false, length_zeros⟩

namespace RoutedPacket

def carried (myPacket : RoutedPacket) : Vid :=
  if myPacket.opcode = .data then myPacket.fwd else myPacket.payload

/-- The bytes, after which the socket is closed. -/
def sendPacket (myPacket : RoutedPacket) : List Byte :=
  let ttl := BitVec.ofNat 8 (BitString.value myPacket.ttl)
  match myPacket.opcode with
  | .data => wire PacketType.data.op myPacket.source.bits myPacket.dest.bits myPacket.fwd.bits ttl
  | .control opcode =>
      Packet.bytes ⟨opcode, myPacket.source.bits, myPacket.dest.bits, myPacket.payload.bits, ttl⟩

end RoutedPacket

structure Extracted where
  opcode : PacketType
  sourceVid : List Bool
  destVid : List Bool
  /-- The forwarding directive or the payload. -/
  carried : List Bool
  ttl : List Bool
deriving DecidableEq

inductive ReadResult
  | thrown
  | ignored
  | expired
  | received
  | forwarded (myPacket : Extracted)
deriving DecidableEq

/-- `leftPadString(Integer.toBinaryString(ttl - 1), 8, '0')`. -/
def oneHopLess (ttl : Nat) : List Bool :=
  if ttl = 0 then List.replicate 32 true else leftPadString (toBinaryString (ttl - 1)) 8 false

def readData (veil_ID : Vid) (input : List (List Char)) : ReadResult :=
  match bitsOfHex (field input 8 4), bitsOfHex (field input 12 4), bitsOfHex (field input 16 4),
    parseInt 16 (field input 20 1) with
  | some sourceVid, some destVid, some forwardVid, some ttl =>
      if ttl = 1 then .expired
      else if destVid = veil_ID.bits then .received
      else .forwarded ⟨.data, sourceVid, destVid, forwardVid, oneHopLess ttl⟩
  | _, _, _, _ => .thrown

def readControl (opcode : Opcode) (veil_ID : Vid) (input : List (List Char)) : ReadResult :=
  match parseInt 16 (field input 20 1) with
  | none => .thrown
  | some ttl =>
      if ttl = 1 then .expired
      else
        match bitsOfHex (field input 12 4) with
        | none => .thrown
        | some dstVid =>
            if dstVid = veil_ID.bits then .received
            else
              match bitsOfHex (field input 8 4), bitsOfHex (field input 16 4) with
              | some sourceVid, some payload =>
                  .forwarded ⟨.control opcode, sourceVid, dstVid, payload, oneHopLess ttl⟩
              | _, _ => .thrown

def readPacket (veil_ID : Vid) (input : List (List Char)) : ReadResult :=
  if field input 6 2 = ['0', '0', '0', '0'] then readData veil_ID input
  else if field input 6 2 = ['1', '0', '0', '0'] then readControl .publish veil_ID input
  else if field input 6 2 = ['2', '0', '0', '0'] then readControl .query veil_ID input
  else if field input 6 2 = ['4', '0', '0', '0'] then readControl .update veil_ID input
  else .ignored

theorem readControl_received_iff (opcode : Opcode) (veil_ID : Vid) (input : List (List Char)) :
    readControl opcode veil_ID input = .received ↔ destined veil_ID input 20 = true := by
  rw [readControl, destined]
  cases parseInt 16 (field input 20 1) with
  | none => simp
  | some ttl =>
      dsimp only
      cases bitsOfHex (field input 12 4) with
      | none => split <;> simp
      | some dstVid =>
          dsimp only
          split
          · simp [*]
          · split
            · simp [*]
            · split <;> simp [*]

theorem value_lt_of_length {s : List Bool} (eight : s.length = 8) : BitString.value s < 256 := by
  have bound := BitString.value_lt s
  rwa [eight] at bound

theorem oneHopLess_spec {ttl : Nat} (several : 2 ≤ ttl) (small : ttl < 256) :
    (oneHopLess ttl).length = 8 ∧ BitString.value (oneHopLess ttl) + 1 = ttl := by
  have each : ∀ n < 256, 2 ≤ n → (oneHopLess n).length = 8 ∧
    BitString.value (oneHopLess n) + 1 = n := by
    decide +kernel
  exact each ttl small several

structure Fields (input : List (List Char)) (source dest carried : Vid) (ttl : Byte) : Prop where
  source : field input 8 4 = localHex 4 source.bits
  dest : field input 12 4 = localHex 4 dest.bits
  carried : field input 16 4 = localHex 4 carried.bits
  ttl : field input 20 1 = hexByte ttl

section Handlers

variable {input : List (List Char)} {source dest carried veil_ID : Vid} {ttl : Byte}
  (fields : Fields input source dest carried ttl) (hops : ttl.toNat ≠ 1) (other : dest ≠ veil_ID)
include fields hops other

theorem readData_eq : readData veil_ID input =
    if source.high ∨ dest.high ∨ carried.high then .thrown
    else .forwarded ⟨.data, source.bits, dest.bits, carried.bits, oneHopLess ttl.toNat⟩ := by
  have away : dest.bits ≠ veil_ID.bits := fun same => other (Vid.ext same)
  rw [readData, fields.source, fields.dest, fields.carried, fields.ttl, parseInt_hexByte,
    source.bitsOfHex_localHex, dest.bitsOfHex_localHex, carried.bitsOfHex_localHex]
  cases source.high with
  | true => simp
  | false =>
      cases dest.high with
      | true => simp
      | false =>
          cases carried.high with
          | true => simp
          | false => simp [hops, away]

theorem readControl_eq (opcode : Opcode) : readControl opcode veil_ID input =
    if source.high ∨ dest.high ∨ carried.high then .thrown
    else .forwarded ⟨.control opcode, source.bits, dest.bits, carried.bits,
      oneHopLess ttl.toNat⟩ := by
  have away : dest.bits ≠ veil_ID.bits := fun same => other (Vid.ext same)
  rw [readControl, fields.ttl, parseInt_hexByte]
  dsimp only
  rw [if_neg hops, fields.dest, dest.bitsOfHex_localHex]
  cases dest.high with
  | true => simp
  | false =>
      have goes : (if false = true then none else some dest.bits) = some dest.bits :=
        if_neg Bool.false_ne_true
      rw [goes]
      dsimp only
      rw [if_neg away, fields.source, fields.carried, source.bitsOfHex_localHex,
        carried.bitsOfHex_localHex]
      cases source.high with
      | true => simp
      | false =>
          cases carried.high with
          | true => simp
          | false => simp

end Handlers

namespace RoutedPacket

variable (myPacket : RoutedPacket)

/-- The packet is read whole and without an exception, and the values for the next switch are the
sender's, with one hop less. -/
def ReadsBack (veil_ID : Vid) : Prop :=
  myPacket.sendPacket.length = 21 ∧ ∃ input ttl,
      readLoop [] myPacket.sendPacket = some (input, []) ∧
    readPacket veil_ID input = .forwarded
      ⟨myPacket.opcode, myPacket.source.bits, myPacket.dest.bits, myPacket.carried.bits, ttl⟩ ∧
    ttl.length = 8 ∧ BitString.value ttl + 1 = BitString.value myPacket.ttl

theorem sendPacket_eq : myPacket.sendPacket = wire myPacket.opcode.op myPacket.source.bits
    myPacket.dest.bits myPacket.carried.bits (BitVec.ofNat 8 (BitString.value myPacket.ttl)) := by
  rw [sendPacket, carried]
  cases myPacket.opcode <;> rfl

theorem fields (extra : List (List Char)) :
    Fields (myPacket.sendPacket.map hexByte ++ extra) myPacket.source myPacket.dest myPacket.carried
      (BitVec.ofNat 8 (BitString.value myPacket.ttl)) := by
  have length : (myPacket.sendPacket.map hexByte).length = 21 := by
    rw [List.length_map, sendPacket_eq, length_wire]
  constructor
  · rw [field_append (by omega), sendPacket_eq, wire_source]
  · rw [field_append (by omega), sendPacket_eq, wire_dest]
  · rw [field_append (by omega), sendPacket_eq, wire_payload]
  · rw [field_append (by omega), sendPacket_eq, wire_ttl]

variable {myPacket}

theorem readPacket_eq {veil_ID : Vid} (eight : myPacket.ttl.length = 8)
    (hops : 2 ≤ BitString.value myPacket.ttl) (other : myPacket.dest ≠ veil_ID)
    (extra : List (List Char)) :
    readPacket veil_ID (myPacket.sendPacket.map hexByte ++ extra) =
      if myPacket.source.high ∨ myPacket.dest.high ∨ myPacket.carried.high then .thrown
      else .forwarded ⟨myPacket.opcode, myPacket.source.bits, myPacket.dest.bits,
          myPacket.carried.bits,
        oneHopLess (BitString.value myPacket.ttl)⟩ := by
  have number : (BitVec.ofNat 8 (BitString.value myPacket.ttl)).toNat =
      BitString.value myPacket.ttl :=
    Nat.mod_eq_of_lt (value_lt_of_length eight)
  have several : (BitVec.ofNat 8 (BitString.value myPacket.ttl)).toNat ≠ 1 := by omega
  have found := myPacket.fields extra
  have length : (myPacket.sendPacket.map hexByte).length = 21 := by
    rw [List.length_map, sendPacket_eq, length_wire]
  have code : field (myPacket.sendPacket.map hexByte ++ extra) 6 2 =
      hexByte myPacket.opcode.op ++ hexByte 0 := by
    rw [field_append (by omega), sendPacket_eq, wire_opcode]
  have data := readData_eq found several other
  have control := readControl_eq found several other
  rw [number] at data control
  rw [readPacket, code]
  rcases myPacket.opcode with _ | ⟨_ | _ | _⟩
  · exact (if_pos (by decide)).trans data
  · exact (if_neg (by decide)).trans ((if_pos (by decide)).trans (control .publish))
  · exact (if_neg (by decide)).trans
      ((if_neg (by decide)).trans ((if_pos (by decide)).trans (control .query)))
  · exact (if_neg (by decide)).trans ((if_neg (by decide)).trans ((if_neg (by decide)).trans
      ((if_pos (by decide)).trans (control .update))))

theorem readLoop_sendPacket (myPacket : RoutedPacket) : ∃ extra,
    readLoop [] myPacket.sendPacket = some (myPacket.sendPacket.map hexByte ++ extra, []) := by
  rw [sendPacket_eq]
  exact ⟨_, readLoop_wire _ _ _ _ _⟩

theorem ReadsBack.low {veil_ID : Vid} (back : myPacket.ReadsBack veil_ID)
    (eight : myPacket.ttl.length = 8) (hops : 2 ≤ BitString.value myPacket.ttl)
    (other : myPacket.dest ≠ veil_ID) :
    myPacket.source.high = false ∧ myPacket.dest.high = false ∧ myPacket.carried.high = false := by
  obtain ⟨-, input, ttl, taken, forwarded, -⟩ := back
  obtain ⟨extra, whole⟩ := myPacket.readLoop_sendPacket
  rw [whole, Option.some.injEq, Prod.mk.injEq] at taken
  rw [← taken.1, readPacket_eq eight hops other] at forwarded
  split at forwarded
  · cases forwarded
  · rename_i low
    simpa using low

theorem readsBack_iff {veil_ID : Vid} (eight : myPacket.ttl.length = 8)
    (hops : 2 ≤ BitString.value myPacket.ttl) (other : myPacket.dest ≠ veil_ID) :
    myPacket.ReadsBack veil_ID ↔
      myPacket.source.high = false ∧ myPacket.dest.high = false ∧
        myPacket.carried.high = false := by
  refine ⟨fun back => back.low eight hops other, ?_⟩
  rintro ⟨source, dest, carried⟩
  obtain ⟨extra, whole⟩ := myPacket.readLoop_sendPacket
  obtain ⟨width, lowered⟩ := oneHopLess_spec hops (value_lt_of_length eight)
  refine ⟨by rw [sendPacket_eq, length_wire], _, _, whole, ?_, width, lowered⟩
  rw [readPacket_eq eight hops other, if_neg (by simp [source, dest, carried])]

def fromHost (source : Vid) : RoutedPacket where
  opcode := .data
  source := source
  dest := Vid.ones false
  payload := Vid.ones false
  fwd := Vid.ones false
  ttl := [false, false, true, true, true, true, true, true]

theorem readsBack_iff_low : (fromHost (Vid.ones false)).ReadsBack Vid.zeros ↔
    (Vid.ones false).high = false ∧ (Vid.ones false).high = false ∧ (Vid.ones false).high = false :=
  readsBack_iff rfl (by decide) (by decide)

/-- The first bit of the source makes the next switch throw. -/
theorem not_always_readsBack :
    ¬∀ (myPacket : RoutedPacket) (veil_ID : Vid), myPacket.ttl.length = 8 →
      2 ≤ BitString.value myPacket.ttl → myPacket.dest ≠ veil_ID → myPacket.ReadsBack veil_ID := by
  intro always
  have back := always (fromHost (Vid.ones true)) Vid.zeros rfl (by decide) (by decide)
  exact Bool.false_ne_true (back.low rfl (by decide) (by decide)).1.symm

end RoutedPacket

end SimJava

end Veil
