import Veil.SimJava.Rendezvous

/-! The tables of a primary and a backup rendezvous point. One class of VIDs publishes its edges
of one level at two points, so that the second answers when the first has crashed. -/

namespace Veil

namespace SimJava

structure Subtree where
  k : Nat
  stem : List Bool
  two_le : 2 ≤ k
  le_bits : k ≤ 32
  length : stem.length = 32 - k + 1

namespace Subtree

variable (c : Subtree)

def primary : Vid :=
  ⟨c.stem ++ List.replicate (c.k - 1) false, by
    have bounds := c.two_le
    have levels := c.le_bits
    rw [List.length_append, List.length_replicate, c.length]
    omega⟩

def backup : Vid :=
  ⟨c.stem ++ true :: List.replicate (c.k - 2) false, by
    have bounds := c.two_le
    have levels := c.le_bits
    rw [List.length_append, List.length_cons, List.length_replicate, c.length]
    omega⟩

def Member (v : Vid) : Prop := substring v.bits 0 (32 - c.k + 1) = c.stem

/-- A call of `rendezvousUpdate` or `rendezvousPublish` for the level, by a switch of the class.
Its packets reach each switch with some hops left. -/
structure Call where
  update : Bool
  caller : Vid
  member : c.Member caller
  destination : Vid
  hops : Vid → Bytes.Byte
  arrives : ∀ v, hops v ≠ 1

namespace Call

variable {c} (call : c.Call)

def packets : List Packet × Option Packet :=
  if call.update then rendezvousUpdate call.caller c.k call.destination.bits
  else rendezvousPublish call.caller c.k call.destination.bits

def edge : RdvEdge := ⟨localHex 4 call.caller.bits, localHex 4 call.destination.bits⟩

def opcode : Opcode := if call.update then .update else .publish

def packet (dest : List Bool) : Packet :=
  ⟨call.opcode, call.caller.bits, dest, call.destination.bits, 0x3f⟩

def deliver (tables : Vid → RdvTable) (packet : Packet) : Vid → RdvTable := fun v =>
  if packet.dest = v.bits then (clientHandler v (tables v) { packet with
    ttl := call.hops v }.bytes).table
  else tables v

def processed (tables : Vid → RdvTable) (own : Option Packet) : Vid → RdvTable := fun v =>
  match own with
  | none => tables v
  | some packet => if v = call.caller then (processPacket v (tables v) packet).table else tables v

def apply (tables : Vid → RdvTable) : Vid → RdvTable :=
  call.processed (call.packets.1.foldl call.deliver tables) call.packets.2

end Call

def run (calls : List c.Call) : Vid → RdvTable :=
  calls.foldl (fun tables call => call.apply tables) fun _ => []

/-- The edges of one point are those of the other, and a query is answered alike at both. -/
structure Replica (tables : Vid → RdvTable) : Prop where
  edges : ∀ edge, (tables c.primary).edgeExist edge = (tables c.backup).edgeExist edge
  answers : ∀ svid k_str, (tables c.primary).findEntry svid k_str =
    (tables c.backup).findEntry svid k_str

def Call.Alone {c : Subtree} (call : c.Call) : Prop :=
  call.caller = c.primary ∨ call.caller = c.backup ∧ c.backup.high = true

/-- A call that one point makes for itself is about an edge that is published at it already, or was
withdrawn. -/
def Call.Mirrored {c : Subtree} (call : c.Call) (tables : Vid → RdvTable) : Prop :=
  call.Alone → (tables call.caller).edgeExist call.edge = !call.update

theorem primary_ne_backup : c.primary ≠ c.backup := by
  intro same
  have bits : List.replicate (c.k - 1) false = true :: List.replicate (c.k - 2) false :=
    List.append_cancel_left (congrArg Vid.bits same)
  have bound := c.two_le
  rw [show c.k - 1 = c.k - 2 + 1 by omega, List.replicate_succ] at bits
  cases bits

theorem member_append {rest : List Bool} (length : (c.stem ++ rest).length = 32) :
    c.Member ⟨c.stem ++ rest, length⟩ := by
  rw [Member, substring, List.drop_zero,
    List.take_append_of_le_length (Nat.le_of_eq c.length.symm), ← c.length,
    List.take_length]

theorem primary_member : c.Member c.primary := c.member_append _

theorem backup_member : c.Member c.backup := c.member_append _

theorem high_of_member {v : Vid} (member : c.Member v) : v.high = c.stem.headD false := by
  rw [← member, substring, List.drop_zero, Vid.high]
  cases v.bits <;> rfl

namespace Call

variable {c} (call : c.Call)

theorem primaryPoint_eq : primaryPoint call.caller c.k = c.primary.bits := by
  rw [primaryPoint, call.member, primary]

theorem backupPoint_eq : backupPoint call.caller c.k = c.backup.bits := by
  rw [backupPoint, call.member, backup]

theorem packets_eq : call.packets =
    if call.caller = c.primary then ([], some (call.packet c.primary.bits))
    else if call.caller = c.backup then ([call.packet c.primary.bits],
      some (call.packet c.backup.bits))
    else ([call.packet c.primary.bits, call.packet c.backup.bits], none) := by
  have asks : call.packets = rendezvous call.opcode call.caller c.k call.destination.bits := by
    rw [packets, opcode]
    cases call.update <;> rfl
  have at_primary : c.primary.bits = call.caller.bits ↔ call.caller = c.primary :=
    ⟨fun same => Vid.ext same.symm, fun same => congrArg Vid.bits same.symm⟩
  have at_backup : c.backup.bits = call.caller.bits ↔ call.caller = c.backup :=
    ⟨fun same => Vid.ext same.symm, fun same => congrArg Vid.bits same.symm⟩
  rw [asks, rendezvous]
  simp only [primaryPoint_eq, backupPoint_eq, at_primary, at_backup, packet]

theorem processPacket_table (v : Vid) (table : RdvTable) (dest : List Bool) :
    (processPacket v table (call.packet dest)).table = table.record call.update call.edge := by
  rw [processPacket, packet, opcode, RdvTable.record, edge]
  cases call.update <;> rfl

theorem clientHandler_table (v : Vid) (table : RdvTable) :
    (clientHandler v table { call.packet v.bits with ttl := call.hops v }.bytes).table =
      if v.high then table else table.record call.update call.edge := by
  let myPacket : Packet := { call.packet v.bits with ttl := call.hops v }
  have source : field (myPacket.bytes.map hexByte) 8 4 = localHex 4 call.caller.bits :=
    myPacket.field_source
  have payload : field (myPacket.bytes.map hexByte) 16 4 = localHex 4 call.destination.bits :=
    myPacket.field_payload
  have code : field (myPacket.bytes.map hexByte) 6 2 = hexByte call.opcode.op ++ hexByte 0 :=
    myPacket.field_opcode
  have comes : destined v (myPacket.bytes.map hexByte) 20 = !v.high := by
    have handled : destined v myPacket.input 20 = true ↔ myPacket.ttl ≠ 1 ∧ v.high = false :=
      myPacket.destined_iff rfl
    rw [Bool.eq_iff_iff, Bool.not_eq_true']
    exact handled.trans (and_iff_right (call.arrives v))
  have opcodes : hexByte Opcode.publish.op ++ hexByte 0 = ['1', '0', '0', '0'] ∧
      hexByte Opcode.update.op ++ hexByte 0 = ['4', '0', '0', '0'] := by decide +kernel
  rw [Packet.clientHandler_bytes, handle, Packet.input, source, payload, code, comes, ← edge,
    RdvTable.record, opcode]
  cases call.update with
  | false =>
      rw [if_neg Bool.false_ne_true, opcodes.1, if_neg Bool.false_ne_true]
      cases v.high <;> rfl
  | true =>
      rw [if_pos rfl, opcodes.2, if_pos rfl]
      cases v.high <;> rfl

theorem deliver_self (tables : Vid → RdvTable) (v : Vid) :
    call.deliver tables (call.packet v.bits) v =
      if v.high then tables v else (tables v).record call.update call.edge := by
  rw [deliver, if_pos (show (call.packet v.bits).dest = v.bits from rfl), clientHandler_table]

theorem deliver_other (tables : Vid → RdvTable) {v other : Vid} (apart : other ≠ v) :
    call.deliver tables (call.packet v.bits) other = tables other := by
  have elsewhere : (call.packet v.bits).dest ≠ other.bits := fun same => apart (Vid.ext same.symm)
  rw [deliver, if_neg elsewhere]

theorem processed_self (tables : Vid → RdvTable) (dest : List Bool) :
    call.processed tables (some (call.packet dest)) call.caller =
      (tables call.caller).record call.update call.edge := by
  rw [processed, ← processPacket_table call call.caller (tables call.caller) dest]
  exact if_pos rfl

theorem processed_other (tables : Vid → RdvTable) (own : Option Packet) {other : Vid}
    (apart : other ≠ call.caller) : call.processed tables own other = tables other := by
  cases own with
  | none => rfl
  | some packet => exact if_neg apart

theorem apply_primary (tables : Vid → RdvTable) : call.apply tables c.primary =
    if call.caller ≠ c.primary ∧ c.primary.high = true then tables c.primary
    else (tables c.primary).record call.update call.edge := by
  have apart := c.primary_ne_backup
  rw [apply, packets_eq]
  by_cases first : call.caller = c.primary
  · rw [if_pos first, if_neg fun both => both.1 first]
    have own := call.processed_self tables c.primary.bits
    rw [first] at own
    exact own
  · have arrived := call.deliver_self tables c.primary
    simp only [first, ne_eq, not_false_eq_true, true_and, if_false]
    by_cases second : call.caller = c.backup
    · rw [if_pos second, processed_other _ _ _ (Ne.symm first)]
      exact arrived
    · rw [if_neg second, processed_other _ _ _ (Ne.symm first), List.foldl_cons, List.foldl_cons,
        List.foldl_nil, deliver_other _ _ apart]
      exact arrived

theorem apply_backup (tables : Vid → RdvTable) : call.apply tables c.backup =
    if call.caller = c.primary ∨ call.caller ≠ c.backup ∧ c.backup.high = true then tables c.backup
    else (tables c.backup).record call.update call.edge := by
  have apart := c.primary_ne_backup
  rw [apply, packets_eq]
  by_cases first : call.caller = c.primary
  · rw [if_pos first, if_pos (Or.inl first), processed_other _ _ _ (first ▸ apart.symm)]
    rfl
  · simp only [first, false_or, if_false]
    by_cases second : call.caller = c.backup
    · rw [if_pos second, if_neg fun both => both.1 second]
      have own := call.processed_self
        (call.deliver tables (call.packet c.primary.bits)) c.backup.bits
      rw [second, deliver_other _ _ apart.symm] at own
      exact own
    · rw [if_neg second, processed_other _ _ _ (Ne.symm second), List.foldl_cons, List.foldl_cons,
        List.foldl_nil, deliver_self, deliver_other _ _ apart.symm]
      simp only [second, ne_eq, not_false_eq_true, true_and]

theorem apply_shared {tables : Vid → RdvTable} (shared : ¬call.Alone)
    (same : tables c.primary = tables c.backup) :
    call.apply tables c.primary = call.apply tables c.backup := by
  obtain ⟨first, numbered⟩ := not_or.mp shared
  have tops : c.primary.high = c.backup.high :=
    (c.high_of_member c.primary_member).trans (c.high_of_member c.backup_member).symm
  rw [apply_primary, apply_backup, tops, same]
  by_cases second : call.caller = c.backup
  · have top : c.backup.high ≠ true := fun high => numbered ⟨second, high⟩
    rw [if_neg fun both => top both.2, if_neg]
    rintro (is_first | ⟨_, high⟩)
    · exact first is_first
    · exact top high
  · simp only [first, second, ne_eq, not_false_eq_true, true_and, false_or]

theorem apply_alone (tables : Vid → RdvTable) (alone : call.Alone) :
    (call.apply tables c.primary = (tables c.primary).record call.update call.edge ∧
        call.apply tables c.backup = tables c.backup ∧ call.caller = c.primary) ∨
      (call.apply tables c.backup = (tables c.backup).record call.update call.edge ∧
        call.apply tables c.primary = tables c.primary ∧ call.caller = c.backup) := by
  have tops : c.primary.high = c.backup.high :=
    (c.high_of_member c.primary_member).trans (c.high_of_member c.backup_member).symm
  rw [apply_primary, apply_backup]
  rcases alone with first | ⟨second, high⟩
  · exact Or.inl ⟨if_neg fun both => both.1 first, if_pos (Or.inl first), first⟩
  · have later : call.caller ≠ c.primary := second ▸ c.primary_ne_backup.symm
    refine Or.inr ⟨if_neg ?_, if_pos ⟨later, tops.trans high⟩, second⟩
    rintro (is_first | ⟨apart, _⟩)
    · exact later is_first
    · exact apart second

theorem apply_primary_distinct {tables : Vid → RdvTable} (distinct : (tables c.primary).Distinct) :
    (call.apply tables c.primary).Distinct := by
  rw [apply_primary]
  split
  · exact distinct
  · exact distinct.record _ _

theorem apply_backup_distinct {tables : Vid → RdvTable} (distinct : (tables c.backup).Distinct) :
    (call.apply tables c.backup).Distinct := by
  rw [apply_backup]
  split
  · exact distinct
  · exact distinct.record _ _

end Call

variable {c}

theorem run_append (front : List c.Call) (call : c.Call) :
    c.run (front ++ [call]) = call.apply (c.run front) := List.foldl_append

theorem run_distinct (calls : List c.Call) :
    (c.run calls c.primary).Distinct ∧ (c.run calls c.backup).Distinct := by
  induction calls using List.reverseRecOn with
  | nil => exact ⟨List.Pairwise.nil, List.Pairwise.nil⟩
  | append_singleton front call ih =>
      rw [run_append]
      exact ⟨call.apply_primary_distinct ih.1, call.apply_backup_distinct ih.2⟩

theorem Call.Mirrored.apply_same {call : c.Call} {tables : Vid → RdvTable}
    (mirrored : call.Mirrored tables) (same : tables c.primary = tables c.backup) :
    call.apply tables c.primary = call.apply tables c.backup := by
  by_cases alone : call.Alone
  · have settled := mirrored alone
    rcases call.apply_alone tables alone with ⟨here, there, caller⟩ | ⟨here, there, caller⟩
    · rw [caller] at settled
      rw [here, there, RdvTable.record_settled settled, same]
    · rw [caller] at settled
      rw [here, there, RdvTable.record_settled settled, same]
  · exact call.apply_shared alone same

theorem run_same (calls : List c.Call)
    (mirrored : ∀ front call back, calls = front ++ call :: back → call.Mirrored (c.run front)) :
    c.run calls c.primary = c.run calls c.backup := by
  induction calls using List.reverseRecOn with
  | nil => rfl
  | append_singleton front call ih =>
      rw [run_append]
      refine (mirrored front call [] rfl).apply_same (ih fun earlier step back split => ?_)
      exact mirrored earlier step (back ++ [call])
        (by rw [split, List.append_assoc, List.cons_append])

theorem mirrored_of_edges {tables : Vid → RdvTable} {call : c.Call}
    (distinct : (tables c.primary).Distinct ∧ (tables c.backup).Distinct)
    (before : ∀ edge, (tables c.primary).edgeExist edge = (tables c.backup).edgeExist edge)
    (after : ∀ edge, (call.apply tables c.primary).edgeExist edge =
      (call.apply tables c.backup).edgeExist edge) : call.Mirrored tables := by
  intro alone
  rcases call.apply_alone tables alone with ⟨here, there, caller⟩ | ⟨here, there, caller⟩
  · rw [caller, before call.edge, ← there, ← after call.edge, here]
    exact distinct.1.edgeExist_record call.update call.edge
  · rw [caller, ← before call.edge, ← there, after call.edge, here]
    exact distinct.2.edgeExist_record call.update call.edge

/-- The backup point is a replica all along a run exactly when each call that only one of the
points hears of is about nothing new there. -/
theorem replica_iff (calls : List c.Call) :
    (∀ stop, c.Replica (c.run (calls.take stop))) ↔
      ∀ front call back, calls = front ++ call :: back → call.Mirrored (c.run front) := by
  constructor
  · intro replica front call back split
    have before := replica front.length
    have after := replica (front.length + 1)
    rw [split, List.take_left] at before
    rw [split, List.take_length_add_append, List.take_succ_cons, List.take_zero,
      run_append] at after
    exact mirrored_of_edges (run_distinct front) before.edges after.edges
  · intro mirrored stop
    have same : c.run (calls.take stop) c.primary = c.run (calls.take stop) c.backup := by
      refine run_same _ fun front call back split =>
        mirrored front call (back ++ calls.drop stop) ?_
      rw [← List.cons_append, ← List.append_assoc, ← split, List.take_append_drop]
    exact ⟨fun edge => by rw [same], fun svid k_str => by rw [same]⟩

def lastPair : Subtree := ⟨2, List.replicate 30 false ++ [true], by decide, by decide, by decide⟩

def ownNeighbor : lastPair.Call where
  update := false
  caller := lastPair.primary
  member := lastPair.primary_member
  destination := ⟨false :: (List.replicate 30 false ++ [true]), by decide⟩
  hops := fun _ => 0x3d
  arrives := fun _ => by decide

theorem not_replica : ¬lastPair.Replica (lastPair.run [ownNeighbor]) := by
  intro replica
  have differ := replica.edges ownNeighbor.edge
  have here : lastPair.run [ownNeighbor] lastPair.primary =
      RdvTable.record false ownNeighbor.edge [] :=
    (ownNeighbor.apply_primary fun _ => []).trans (if_neg fun both => both.1 rfl)
  have there : lastPair.run [ownNeighbor] lastPair.backup = [] :=
    (ownNeighbor.apply_backup fun _ => []).trans (if_pos (Or.inl rfl))
  have empty : RdvTable.Distinct [] := List.Pairwise.nil
  rw [here, there, empty.edgeExist_record] at differ
  cases differ

end Subtree

end SimJava

end Veil
