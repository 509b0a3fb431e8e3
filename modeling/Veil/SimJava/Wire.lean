import Veil.SimJava.Strings

/-! The bytes of the packets between two Java switches, from `sendPacket` of `veil_switch.java`,
and the loop of `clientHandler.java` that reads them from a socket. -/

namespace Veil

namespace SimJava

open Bytes (Byte)

inductive Opcode
  | publish
  | query
  | update
deriving DecidableEq

def Opcode.op : Opcode → Byte
  | .publish => 16
  | .query => 32
  | .update => 64

inductive PacketType
  | data
  | control (opcode : Opcode)
deriving DecidableEq

def PacketType.op : PacketType → Byte
  | .data => 0
  | .control opcode => opcode.op

def field (input : List (List Char)) (start count : Nat) : List Char :=
  (substring input start (start + count)).flatten

/-- `input[i] = ...` for an array of 36 strings. -/
def store (input : List (List Char)) (byte : Byte) : Option (List (List Char)) :=
  if input.length < 36 then some (input ++ [hexByte byte]) else none

def stops (input : List (List Char)) : Bool :=
  19 ≤ input.length ∧
    (input[7]? = some ['0', '1'] ∧ input.length = 27 ∨
      input[6]? = some ['0', '5'] ∧ input.length = 20 ∨
      input[6]? = some ['1', '0'] ∧ input.length = 20 ∨
      input[6]? = some ['2', '0'] ∧ input.length = 20 ∨
      input[6]? = some ['4', '0'] ∧ input.length = 20)

/-- The byte after the loop, which is -1 when there is none, and what is left unread. -/
def readLast (input : List (List Char)) : List Byte → Option (List (List Char) × List Byte)
  | [] => (store input 0xff).map fun input => (input, [])
  | byte :: unread => (store input byte).map fun input => (input, unread)

def readLoop (input : List (List Char)) : List Byte → Option (List (List Char) × List Byte)
  | [] => readLast input []
  | byte :: unread => do
      let input ← store input byte
      if stops input then readLast input unread else readLoop input unread

theorem length_bytesOf (count : Nat) (s : List Bool) : (bytesOf count s).length = count := by
  rw [bytesOf, List.length_map, List.length_range]

theorem substring_middle {α : Type} {start count : Nat} (front middle back : List α)
    (before : front.length = start) (size : middle.length = count) :
    substring (front ++ middle ++ back) start (start + count) = middle := by
  have taken : (front ++ middle ++ back).take (start + count) = front ++ middle := by
    rw [List.take_append_of_le_length (by rw [List.length_append]; omega)]
    exact List.take_of_length_le (by rw [List.length_append]; omega)
  rw [substring, taken, ← before, List.drop_left]

theorem substring_map {α β : Type} (f : α → β) (s : List α) (start stop : Nat) :
    substring (s.map f) start stop = (substring s start stop).map f := by
  rw [substring, substring, List.map_drop, List.map_take]

theorem field_map (start count : Nat) (front middle back : List Byte)
    (before : front.length = start) (size : middle.length = count) :
    field ((front ++ middle ++ back).map hexByte) start count = middle.flatMap hexByte := by
  rw [field, substring_map, substring_middle front middle back before size, List.flatMap_def]

theorem parseInt_hexByte (byte : Byte) : parseInt 16 (hexByte byte) = some byte.toNat := by
  have digits : hexByte byte ≠ [] := List.ne_nil_of_length_pos (by rw [length_hexByte]; decide)
  have small : byte.toNat < 2 ^ 31 := Nat.lt_of_lt_of_le byte.isLt (by decide)
  rw [parseInt, if_neg digits, parseDigits_hexByte, Nat.zero_mul, Nat.zero_add, Option.filter_some,
    if_pos (decide_eq_true small)]

section Wire

variable (op : Byte) (source dest payload : List Bool) (ttl : Byte)

def wire : List Byte :=
  [0, 1, 8, 0, 6, 4, op, 0] ++ bytesOf 4 source ++ bytesOf 4 dest ++ bytesOf 4 payload ++ [ttl]

theorem wire_opcode :
    field ((wire op source dest payload ttl).map hexByte) 6 2 = hexByte op ++ hexByte 0 := by
  have read := field_map 6 2 [0, 1, 8, 0, 6, 4] [op, 0]
    (bytesOf 4 source ++ bytesOf 4 dest ++ bytesOf 4 payload ++ [ttl]) rfl rfl
  simpa [wire] using read

theorem wire_source :
    field ((wire op source dest payload ttl).map hexByte) 8 4 = localHex 4 source := by
  have read := field_map 8 4 [0, 1, 8, 0, 6, 4, op, 0] (bytesOf 4 source)
    (bytesOf 4 dest ++ bytesOf 4 payload ++ [ttl]) rfl (length_bytesOf _ _)
  rw [localHex_eq, ← read, wire]
  simp only [List.append_assoc]

theorem wire_dest :
    field ((wire op source dest payload ttl).map hexByte) 12 4 = localHex 4 dest := by
  have read := field_map 12 4 ([0, 1, 8, 0, 6, 4, op, 0] ++ bytesOf 4 source) (bytesOf 4 dest)
    (bytesOf 4 payload ++ [ttl]) (by rw [List.length_append, length_bytesOf]; rfl)
      (length_bytesOf _ _)
  rw [localHex_eq, ← read, wire]
  simp only [List.append_assoc]

theorem wire_payload :
    field ((wire op source dest payload ttl).map hexByte) 16 4 = localHex 4 payload := by
  have read := field_map 16 4 ([0, 1, 8, 0, 6, 4, op, 0] ++ bytesOf 4 source ++ bytesOf 4 dest)
    (bytesOf 4 payload) [ttl]
    (by rw [List.length_append, List.length_append, length_bytesOf, length_bytesOf]; rfl)
    (length_bytesOf _ _)
  rw [localHex_eq, ← read, wire]

theorem wire_ttl : field ((wire op source dest payload ttl).map hexByte) 20 1 = hexByte ttl := by
  have read := field_map 20 1 ([0, 1, 8, 0, 6, 4, op, 0] ++ bytesOf 4 source ++ bytesOf 4 dest ++
    bytesOf 4 payload) [ttl] [] (by simp only [List.length_append, length_bytesOf]; rfl) rfl
  rw [List.flatMap_singleton, List.append_nil] at read
  exact read

end Wire

theorem field_append {input extra : List (List Char)} {start count : Nat}
    (within : start + count ≤ input.length) :
    field (input ++ extra) start count = field input start count := by
  rw [field, field, substring, substring, List.take_append_of_le_length within]

theorem stops_early {input : List (List Char)} (early : input.length ≤ 19) :
    stops input = false := by
  rw [stops, decide_eq_false_iff_not]
  omega

theorem readLoop_early (input : List (List Char)) (front rest : List Byte)
    (early : input.length + front.length ≤ 19) :
    readLoop input (front ++ rest) = readLoop (input ++ front.map hexByte) rest := by
  induction front generalizing input with
  | nil => rw [List.map_nil, List.append_nil, List.nil_append]
  | cons byte front ih =>
      rw [List.length_cons] at early
      have room : store input byte = some (input ++ [hexByte byte]) := if_pos (by omega)
      have next : (input ++ [hexByte byte]).length = input.length + 1 := List.length_append
      have goes := @stops_early (input ++ [hexByte byte]) (by omega)
      rw [List.cons_append, readLoop, room, Option.bind_eq_bind, Option.bind_some, goes,
        if_neg Bool.false_ne_true, ih _ (by omega), List.append_assoc, List.map_cons]
      rfl

theorem stops_iff {input : List (List Char)} {code : List Char} (length : input.length = 20)
    (sixth : input[6]? = some code) :
    stops input = true ↔ code ∈ [['0', '5'], ['1', '0'], ['2', '0'], ['4', '0']] := by
  rw [stops, sixth]
  simp [length]

theorem length_wire (op : Byte) (source dest payload : List Bool) (ttl : Byte) :
    (wire op source dest payload ttl).length = 21 := by
  simp only [wire, List.length_append, length_bytesOf]
  rfl

theorem readLoop_wire (opcode : PacketType) (source dest payload : List Bool) (ttl : Byte) :
    readLoop [] (wire opcode.op source dest payload ttl) =
      some ((wire opcode.op source dest payload ttl).map hexByte ++
        (if opcode = .data then [hexByte 0xff] else []), []) := by
  have sixth : (wire opcode.op source dest payload ttl)[6]? = some opcode.op := rfl
  obtain ⟨front, last, final, bytes, size⟩ : ∃ front last final,
      wire opcode.op source dest payload ttl = front ++ [last, final] ∧ front.length = 19 := by
    have length := length_wire opcode.op source dest payload ttl
    obtain ⟨last, final, rest⟩ : ∃ last final,
        (wire opcode.op source dest payload ttl).drop 19 = [last, final] :=
      List.length_eq_two.mp (by rw [List.length_drop, length])
    refine ⟨(wire opcode.op source dest payload ttl).take 19, last, final, ?_, ?_⟩
    · rw [← rest, List.take_append_drop]
    · rw [List.length_take, length]
      rfl
  have mapped : (front.map hexByte).length = 19 := (List.length_map _).trans size
  have twenty : (front.map hexByte ++ [hexByte last]).length = 20 := by
    rw [List.length_append, mapped]
    rfl
  have code : (front.map hexByte ++ [hexByte last])[6]? = some (hexByte opcode.op) := by
    rw [bytes, List.getElem?_append_left (by omega)] at sixth
    rw [List.getElem?_append_left (by omega), List.getElem?_map, sixth]
    rfl
  have room : store (front.map hexByte) last = some (front.map hexByte ++ [hexByte last]) :=
    if_pos (by omega)
  have lastRoom : store (front.map hexByte ++ [hexByte last]) final =
      some (front.map hexByte ++ [hexByte last, hexByte final]) := by
    rw [store, if_pos (by omega), List.append_assoc]
    rfl
  rw [bytes, readLoop_early [] front [last, final] (by rw [size]; decide), List.nil_append,
    readLoop, room,
    Option.bind_eq_bind, Option.bind_some, List.map_append]
  by_cases data : opcode = .data
  · subst data
    have goes : ¬stops (front.map hexByte ++ [hexByte last]) = true := by
      rw [stops_iff twenty code]
      decide
    have whole : (front.map hexByte ++ [hexByte last, hexByte final]).length = 21 := by
      rw [List.length_append, mapped]
      rfl
    have again : ¬stops (front.map hexByte ++ [hexByte last, hexByte final]) = true := by
      simp [stops, mapped]
    have end_ : store (front.map hexByte ++ [hexByte last, hexByte final]) 0xff =
        some (front.map hexByte ++ [hexByte last, hexByte final] ++ [hexByte 0xff]) :=
          if_pos (by omega)
    rw [if_neg goes, if_pos rfl, readLoop, lastRoom, Option.bind_eq_bind, Option.bind_some,
      if_neg again, readLoop,
      readLast, end_]
    rfl
  · have ends : stops (front.map hexByte ++ [hexByte last]) = true := by
      rw [stops_iff twenty code]
      cases opcode with
      | data => exact absurd rfl data
      | control opcode => cases opcode <;> decide
    rw [if_pos ends, if_neg data, readLast, lastRoom, List.append_nil]
    rfl

theorem readLoop_end (input : List (List Char)) (bytes : List Byte)
    (room : input.length + bytes.length ≤ 35)
    (goes : ∀ front, front <+: bytes → stops (input ++ front.map hexByte) = false) :
    readLoop input bytes = some (input ++ bytes.map hexByte ++ [hexByte 0xff], []) := by
  induction bytes generalizing input with
  | nil =>
      rw [readLoop, readLast, store, if_pos (by simpa using Nat.lt_succ_of_le room), List.map_nil,
        List.append_nil]
      rfl
  | cons byte rest ih =>
      rw [List.length_cons] at room
      have stored : store input byte = some (input ++ [hexByte byte]) := if_pos (by omega)
      have next : stops (input ++ [hexByte byte]) = false :=
        goes [byte] (List.prefix_append [byte] rest)
      have size : (input ++ [hexByte byte]).length + rest.length ≤ 35 := by
        rw [List.length_append, List.length_singleton]
        omega
      have later : ∀ front, front <+: rest →
        stops (input ++ [hexByte byte] ++ front.map hexByte) = false := by
        intro front begins
        rw [List.append_assoc]
        exact goes (byte :: front) (List.cons_prefix_cons.mpr ⟨rfl, begins⟩)
      rw [readLoop, stored, Option.bind_eq_bind, Option.bind_some, next, if_neg Bool.false_ne_true,
        ih _ size later,
        List.map_cons, List.append_assoc input]
      rfl

end SimJava

end Veil
