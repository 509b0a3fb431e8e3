import Veil.SimJava.Rendezvous

/-! A query at a rendezvous point over the sockets, and the same query at a switch that is the point
itself. -/

namespace Veil

namespace SimJava

open Bytes (Byte)

namespace RemoteQuery

def Built (querier : Vid) (k : Nat) (packet : Packet) : Prop :=
  packet ∈ (rendezvousQuery querier k).1 ∨ (rendezvousQuery querier k).2 = some packet

structure Route where
  query : Byte
  reply : Byte
  query_arrives : query ≠ 1
  reply_arrives : reply ≠ 1

/-- The arguments of `updateRTEntry` when the query is answered by another switch. -/
def remote (rdv querier : Vid) (table own : RdvTable) (route : Route) (packet : Packet) :
    Option (List Char × Nat) := do
  let reply ← (clientHandler rdv table { packet with ttl := route.query }.bytes).reply
  (clientHandler querier own (reply.take 32 ++ [route.reply])).updateRTEntry

def answeredLocally (querier : Vid) (table : RdvTable) (packet : Packet) :
    Option (List Char × Nat) :=
  (processPacket querier table packet).updateRTEntry

def payload (k : Nat) : List Bool := leftPadString (toBinaryString k) 32 false

/-- The hexadecimal digits of a level, read as decimal ones. -/
def misread (k : Nat) : Option Nat := if k % 16 < 10 then some (10 * (k / 16) + k % 16) else none

theorem level_read : ∀ k ≤ 32, parseInt 10 (localHex 4 (payload k)) = misread k ∧
  parseBits (payload k) = some k ∧ parseInt 10 (Nat.toDigits 10 k) = some k := by
  decide +kernel

theorem misread_eq {k : Nat} (le_bits : k ≤ 32) : misread k = some k ↔ k ≤ 9 := by
  rw [misread]
  split
  · rw [Option.some.injEq]
    omega
  · refine iff_of_false (fun same => ?_) (by omega)
    cases same

theorem Built.eq {querier : Vid} {k : Nat} {packet : Packet} (built : Built querier k packet) :
    packet.opcode = .query ∧ packet.source = querier.bits ∧ packet.payload = payload k ∧
      (packet.dest = primaryPoint querier k ∨ packet.dest = backupPoint querier k) := by
  rw [Built, rendezvousQuery, rendezvous, ← payload] at built
  split at built
  · rcases built with routed | own
    · cases routed
    · cases own
      exact ⟨rfl, rfl, rfl, Or.inl rfl⟩
  · split at built
    · rcases built with routed | own
      · cases List.mem_singleton.mp routed
        exact ⟨rfl, rfl, rfl, Or.inl rfl⟩
      · cases own
        exact ⟨rfl, rfl, rfl, Or.inr rfl⟩
    · rcases built with routed | own
      · rcases List.mem_cons.mp routed with rfl | second
        · exact ⟨rfl, rfl, rfl, Or.inl rfl⟩
        · cases List.mem_singleton.mp second
          exact ⟨rfl, rfl, rfl, Or.inr rfl⟩
      · cases own

theorem Built.high {querier rdv : Vid} {k : Nat} {packet : Packet} (built : Built querier k packet)
    (dest : packet.dest = rdv.bits) : rdv.high = querier.high := by
  have begins (rest : List Bool) : (substring querier.bits 0 (32 - k + 1) ++ rest).headD false =
      querier.bits.headD false := by
    have filled := querier.length
    rw [substring, List.drop_zero]
    cases bits : querier.bits with
    | nil =>
        rw [bits] at filled
        cases filled
    | cons bit bits => rfl
  rw [Vid.high, ← dest, Vid.high]
  rcases built.eq.2.2.2 with primary | backup
  · rw [primary]
    exact begins _
  · rw [backup]
    exact begins _

def arrived (rdv querier : Vid) (k : Nat) (result : List Bool) (ttl : Byte) : List Byte :=
  [0, 1, 8, 0, 6, 4, 48, 0] ++ bytesOf 4 rdv.bits ++ bytesOf 4 querier.bits ++
      bytesOf 4 (payload k) ++
    bytesOf 12 result ++ [ttl]

theorem convertHex_map {start count : Nat} (front middle back : List Byte)
    (before : front.length = start) (size : middle.length = count) :
    (substring ((front ++ middle ++ back).map hexByte) start (start + count)).map
      convertHex = middle := by
  have back_again : convertHex ∘ hexByte = id := by
    funext byte
    rw [Function.comp_apply, convertHex_hexByte, id]
  rw [substring_map, substring_middle front middle back before size, List.map_map,
    back_again, List.map_id]

theorem reply_take (packet : Packet) {rdv querier : Vid} {k : Nat} (result : List Bool) (ttl : Byte)
    (source : packet.source = querier.bits) (level : packet.payload = payload k) :
    (replyBytes rdv packet.input result).take 32 ++ [ttl] = arrived rdv querier k result ttl := by
  have from_source : (substring packet.input 8 12).map convertHex = bytesOf 4 querier.bits := by
    rw [← source, Packet.input, Packet.bytes, wire, List.append_assoc _ (bytesOf 4 packet.dest),
      List.append_assoc _ _ [packet.ttl]]
    exact convertHex_map _ _ _ rfl (length_bytesOf _ _)
  have from_payload : (substring packet.input 16 20).map convertHex = bytesOf 4 (payload k) := by
    rw [← level, Packet.input, Packet.bytes, wire]
    refine convertHex_map _ _ _ ?_ (length_bytesOf _ _)
    simp only [List.length_append, length_bytesOf]
    rfl
  have size : ([0, 1, 8, 0, 6, 4, 48, 0] ++ bytesOf 4 rdv.bits ++ bytesOf 4 querier.bits ++
      bytesOf 4 (payload k) ++ bytesOf 12 result).length = 32 := by
    simp only [List.length_append, length_bytesOf]
    rfl
  rw [replyBytes, from_source, from_payload, List.take_left' size, arrived]

theorem length_arrived (rdv querier : Vid) (k : Nat) (result : List Bool) (ttl : Byte) :
    (arrived rdv querier k result ttl).length = 33 := by
  simp only [arrived, List.length_append, length_bytesOf]
  rfl

theorem readLoop_arrived (rdv querier : Vid) (k : Nat) (result : List Bool) (ttl : Byte) :
    readLoop [] (arrived rdv querier k result ttl) =
      some ((arrived rdv querier k result ttl).map hexByte ++ [hexByte 0xff], []) := by
  have size := length_arrived rdv querier k result ttl
  refine readLoop_end [] _ (by rw [size]; decide) fun front begins => ?_
  by_cases short : front.length ≤ 18
  · exact stops_early (by rw [List.nil_append, List.length_map]; omega)
  · have code (i : Nat) (inside : i < front.length) :
        (front.map hexByte)[i]? = ((arrived rdv querier k result ttl)[i]?).map hexByte := by
      obtain ⟨rest, whole⟩ := begins
      rw [List.getElem?_map, ← whole, List.getElem?_append_left inside]
    have digits : hexByte 48 = ['3', '0'] ∧ hexByte 0 = ['0', '0'] := by decide +kernel
    have sixth : (arrived rdv querier k result ttl)[6]? = some 48 := rfl
    have seventh : (arrived rdv querier k result ttl)[7]? = some 0 := rfl
    rw [List.nil_append, stops, code 6 (by omega), sixth, code 7 (by omega), seventh,
      Option.map_some,
      Option.map_some, digits.1, digits.2]
    simp

theorem reply_read (rdv : Vid) {querier : Vid} {k : Nat} (low : querier.high = false)
    (le_bits : k ≤ 32) (result : List Bool) (own : RdvTable) {ttl : Byte} (arrives : ttl ≠ 1) :
    (clientHandler querier own (arrived rdv querier k result ttl)).updateRTEntry =
      (misread k).map fun bucket => (localHex 12 result, bucket) := by
  have opcode : field ((arrived rdv querier k result ttl).map hexByte) 6 2 =
      ['3', '0', '0', '0'] := by
    have read := field_map 6 2 [0, 1, 8, 0, 6, 4] [48,
      0] (bytesOf 4 rdv.bits ++ bytesOf 4 querier.bits ++
      bytesOf 4 (payload k) ++ bytesOf 12 result ++ [ttl]) rfl rfl
    have digits : List.flatMap hexByte [48, 0] = ['3', '0', '0', '0'] := by decide +kernel
    rw [← digits, ← read, arrived]
    simp only [← List.append_assoc]
    rfl
  have dest : field ((arrived rdv querier k result ttl).map hexByte) 12 4 =
      localHex 4 querier.bits := by
    rw [localHex_eq, arrived, List.append_assoc _ (bytesOf 4 (payload k)),
      List.append_assoc _ _ [ttl]]
    refine field_map 12 4 _ _ _ ?_ (length_bytesOf _ _)
    rw [List.length_append, length_bytesOf]
    rfl
  have level : field ((arrived rdv querier k result ttl).map hexByte) 16 4 =
      localHex 4 (payload k) := by
    rw [localHex_eq, arrived, List.append_assoc _ (bytesOf 12 result)]
    refine field_map 16 4 _ _ _ ?_ (length_bytesOf _ _)
    simp only [List.length_append, length_bytesOf]
    rfl
  have gwList : field ((arrived rdv querier k result ttl).map hexByte) 20 12 =
      localHex 12 result := by
    rw [localHex_eq, arrived]
    refine field_map 20 12 _ _ _ ?_ (length_bytesOf _ _)
    simp only [List.length_append, length_bytesOf]
    rfl
  have hops : field ((arrived rdv querier k result ttl).map hexByte) 32 1 = hexByte ttl := by
    have read := field_map 32 1 ([0, 1, 8, 0, 6, 4, 48, 0] ++ bytesOf 4 rdv.bits ++
      bytesOf 4 querier.bits ++ bytesOf 4 (payload k) ++ bytesOf 12 result) [ttl] []
      (by simp only [List.length_append, length_bytesOf]; rfl) rfl
    rw [List.append_nil, List.flatMap_singleton] at read
    exact read
  have read {start count : Nat} (inside : start + count ≤ 33) :
      field ((arrived rdv querier k result ttl).map hexByte ++ [hexByte 0xff]) start count =
        field ((arrived rdv querier k result ttl).map hexByte) start count :=
    field_append (by rwa [List.length_map, length_arrived])
  have comes :
      destined querier ((arrived rdv querier k result ttl).map hexByte ++ [hexByte 0xff])
      32 = true := by
    have last : ttl.toNat ≠ 1 := fun same => arrives (BitVec.eq_of_toNat_eq same)
    rw [destined, read (by decide), hops, parseInt_hexByte, read (by decide), dest,
      Vid.bitsOfHex_low low]
    exact decide_eq_true ⟨last, rfl⟩
  rw [clientHandler, readLoop_arrived]
  dsimp only
  rw [handle, comes, @read 6 2 (by decide), opcode, @read 16 4 (by decide), level,
    @read 20 12 (by decide), gwList,
    (level_read k le_bits).1]
  rfl

def answer (table : RdvTable) (querier : Vid) (k : Nat) : Option (List Char × Nat) :=
  if table.gatewayList querier k = [] then none
    else some (localHex 12 (table.gatewayList querier k), k)

theorem answeredLocally_eq {querier : Vid} {k : Nat} {packet : Packet} {table : RdvTable}
    (built : Built querier k packet) (le_bits : k ≤ 32) (low : querier.high = false)
    (spelled : table.Spelled) : answeredLocally querier table packet = answer table querier k := by
  obtain ⟨opcode, _, level, _⟩ := built.eq
  obtain ⟨_, bits, digits⟩ := level_read k le_bits
  rw [answeredLocally, processPacket, opcode]
  simp only [level, bits, Option.bind_eq_bind, Option.bind_some,
    RdvTable.findEntry_eq spelled low, digits,
    Option.map_some, answer]

theorem remote_eq {rdv querier : Vid} {k : Nat} {packet : Packet} {table own : RdvTable}
    (route : Route) (built : Built querier k packet) (le_bits : k ≤ 32) (low : querier.high = false)
    (dest : packet.dest = rdv.bits) (spelled : table.Spelled) :
    remote rdv querier table own route packet =
      (misread k).bind (answer table querier) := by
  obtain ⟨opcode, source, level, _⟩ := built.eq
  let arriving : Packet := { packet with ttl := route.query }
  have code : field (arriving.bytes.map hexByte) 6 2 = ['2', '0', '0', '0'] := by
    have digits : hexByte Opcode.query.op ++ hexByte 0 = ['2', '0', '0', '0'] := by decide +kernel
    rw [← digits, ← opcode]
    exact arriving.field_opcode
  have comes : destined rdv (arriving.bytes.map hexByte) 20 = true :=
    (arriving.destined_iff dest).mpr ⟨route.query_arrives, (built.high dest).trans low⟩
  have svid : field (arriving.bytes.map hexByte) 8 4 = localHex 4 querier.bits := by
    rw [← source]
    exact arriving.field_source
  have k_str : field (arriving.bytes.map hexByte) 16 4 = localHex 4 (payload k) := by
    rw [← level]
    exact arriving.field_payload
  rw [remote, Packet.clientHandler_bytes, handle, Packet.input, code, comes, svid, k_str]
  simp only [if_true, RdvTable.findEntry_eq spelled low, (level_read k le_bits).1]
  cases misread_k : misread k with
  | none => rfl
  | some m =>
      simp only [Option.map_some, Option.bind_eq_bind, Option.bind_some, answer]
      by_cases empty : table.gatewayList querier m = []
      · simp only [empty, if_true, Option.bind_none]
      · have read := reply_read rdv low le_bits (table.gatewayList querier m) own
          route.reply_arrives
        rw [← reply_take arriving _ route.reply source level, misread_k] at read
        simp only [empty, if_false, Option.bind_some]
        exact read

def Answered (table : RdvTable) (querier : Vid) (k : Nat) : Prop :=
  ∃ edge ∈ table, RdvTable.Serves querier k edge

theorem answer_eq_none_iff {table : RdvTable} (spelled : table.Spelled) (querier : Vid) (k : Nat) :
    answer table querier k = none ↔ ¬Answered table querier k := by
  rw [Answered, ← RdvTable.gatewayList_ne_nil_iff spelled, not_not, answer]
  split
  · exact iff_of_true rfl ‹_›
  · refine iff_of_false (fun absurd => ?_) ‹_›
    cases absurd

theorem answer_level {table : RdvTable} {querier : Vid} {k : Nat} {call : List Char × Nat}
    (answered : answer table querier k = some call) : call.2 = k := by
  rw [answer] at answered
  split at answered
  · cases answered
  · cases answered
    rfl

theorem misread_answer_iff {table : RdvTable} (spelled : table.Spelled) (querier : Vid) {k : Nat}
    (le_bits : k ≤ 32) : (misread k).bind (answer table querier) = answer table querier k ↔
      k ≤ 9 ∨ ¬Answered table querier k ∧ ∀ m, misread k = some m → ¬Answered table querier m := by
  by_cases small : k ≤ 9
  · rw [(misread_eq le_bits).mpr small, Option.bind_some]
    exact iff_of_true rfl (Or.inl small)
  · have other : misread k ≠ some k := fun same => small ((misread_eq le_bits).mp same)
    simp only [small, false_or, ← answer_eq_none_iff spelled]
    constructor
    · intro same
      have nothing : answer table querier k = none := by
        cases found : answer table querier k with
        | none => rfl
        | some call =>
            rw [found] at same
            obtain ⟨m, level, answered⟩ := Option.bind_eq_some_iff.mp same
            rw [level, ← answer_level found, answer_level answered] at other
            exact absurd rfl other
      refine ⟨nothing, fun m level => ?_⟩
      rwa [nothing, level, Option.bind_some] at same
    · rintro ⟨nothing, neither⟩
      rw [nothing, Option.bind_eq_none_iff]
      exact neither

theorem exists_built (querier : Vid) {k : Nat} (one_le : 1 ≤ k) (le_bits : k ≤ 32) :
    ∃ packet, ∃ rdv : Vid, Built querier k packet ∧ packet.dest = rdv.bits := by
  have length := length_primaryPoint querier one_le le_bits
  refine ⟨⟨.query, querier.bits, primaryPoint querier k, payload k, 0x3f⟩, ⟨_, length⟩, ?_, rfl⟩
  rw [Built, rendezvousQuery, rendezvous, ← payload]
  split
  · exact Or.inr rfl
  · split
    · exact Or.inl List.mem_cons_self
    · exact Or.inl List.mem_cons_self

/-- A query of another switch is answered as one of the switch itself exactly when the level has
one digit, or when neither the level nor the one that its digits are taken for has a gateway. -/
theorem remote_eq_local_iff {querier : Vid} (low : querier.high = false) {k : Nat}
    (one_le : 1 ≤ k) (le_bits : k ≤ 32) {table : RdvTable} (spelled : table.Spelled)
    (own : RdvTable) (route : Route) :
    (∀ packet, ∀ rdv : Vid, Built querier k packet → packet.dest = rdv.bits →
        remote rdv querier table own route packet = answeredLocally querier table packet) ↔
      k ≤ 9 ∨ ¬Answered table querier k ∧ ∀ m, misread k = some m → ¬Answered table querier m := by
  rw [← misread_answer_iff spelled querier le_bits]
  constructor
  · intro agrees
    obtain ⟨packet, rdv, built, dest⟩ := exists_built querier one_le le_bits
    rw [← remote_eq route built le_bits low dest spelled, ← answeredLocally_eq built
      le_bits low spelled]
    exact agrees packet rdv built dest
  · intro same packet rdv built dest
    rw [remote_eq route built le_bits low dest spelled,
      answeredLocally_eq built le_bits low spelled]
    exact same

def asker : Vid := ⟨List.replicate 31 false ++ [true], by decide⟩

def near : Vid := ⟨List.replicate 30 false ++ [true, false], by decide⟩

def far : Vid := ⟨List.replicate 22 false ++ true :: List.replicate 9 false, by decide⟩

def published : RdvTable := [⟨localHex 4 near.bits, localHex 4 far.bits⟩]

theorem published_spelled : published.Spelled := fun _ member =>
  ⟨near, far, by decide, by decide, List.mem_singleton.mp member⟩

def oneHop : Route := ⟨0x3e, 0x3e, by decide, by decide⟩

def point : Vid := ⟨List.replicate 31 false ++ [false], by decide⟩

def ninth : Vid := ⟨List.replicate 23 false ++ true :: List.replicate 8 false, by decide⟩

def bridged : RdvTable :=
  [⟨localHex 4 near.bits, localHex 4 far.bits⟩, ⟨localHex 4 point.bits, localHex 4 ninth.bits⟩,
    ⟨localHex 4 near.bits, localHex 4 ninth.bits⟩]

theorem bridged_spelled : bridged.Spelled := by
  intro edge member
  simp only [bridged, List.mem_cons, List.not_mem_nil, or_false] at member
  rcases member with here | here | here
  · exact ⟨near, far, by decide, by decide, here⟩
  · exact ⟨point, ninth, by decide, by decide, here⟩
  · exact ⟨near, ninth, by decide, by decide, here⟩

/-- Two edges lead from the querier's side to level nine, and the table lists their sources. -/
theorem remote_eq_local_ninth : Built asker 9 ⟨.query, asker.bits, point.bits, payload 9, 0x3f⟩ ∧
    remote point asker bridged [] oneHop ⟨.query, asker.bits, point.bits, payload 9, 0x3f⟩ =
      answeredLocally asker bridged ⟨.query, asker.bits, point.bits, payload 9, 0x3f⟩ ∧
    answeredLocally asker bridged ⟨.query, asker.bits, point.bits, payload 9, 0x3f⟩ =
      some ("0000000000000002ffffffff".toList, 9) := by
  have built : Built asker 9 ⟨.query, asker.bits, point.bits, payload 9, 0x3f⟩ :=
    Or.inl (by decide +kernel)
  refine ⟨built, ?_, by decide +kernel⟩
  exact (remote_eq_local_iff (by decide) (by decide) (by decide) bridged_spelled [] oneHop).mpr
    (Or.inl (by decide)) _ point built rfl

/-- The point reads the digit `a` of the level and throws, where the switch itself has an answer. -/
theorem unanswered_level_ten :
    ∃ packet, ∃ rdv : Vid, Built asker 10 packet ∧ packet.dest = rdv.bits ∧
    ∀ own route, remote rdv asker published own route packet = none ∧
      answeredLocally asker published packet ≠ none := by
  obtain ⟨packet, rdv, built, dest⟩ := exists_built asker (k := 10) (by decide) (by decide)
  have low : asker.high = false := by decide
  have answered : Answered published asker 10 :=
    ⟨_, List.mem_singleton_self _, near, far, by decide, by decide, Or.inl rfl⟩
  refine ⟨packet, rdv, built, dest, fun own route => ⟨?_, ?_⟩⟩
  · exact remote_eq route built (by decide) low dest published_spelled
  · rw [answeredLocally_eq built (by decide) low published_spelled]
    exact fun nothing => (answer_eq_none_iff published_spelled asker 10).mp nothing answered

end RemoteQuery

end SimJava

end Veil
