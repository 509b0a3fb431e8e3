import Veil.SimPy.Handling

/-! What holds in a level. Every gateway's edge is waiting to be published, on its way or stored,
and every switch without the bucket has its question or the answer to it on the way. -/

namespace Veil

namespace SimPy

open HashTable

namespace Network

variable {α : Type} [DecidableEq α] (network : Network α) {x y : α} {process : Process}
  {packets : List (α × Packet)}

@[simp] theorem packets_set : (network.set x process packets).packets = packets := rfl

@[simp] theorem process_set : (network.set x process packets).process x = process := by
  simp only [set, Function.update_self]

theorem process_set_ne (different : y ≠ x) :
    (network.set x process packets).process y = network.process y := by
  simp only [set, Function.update_of_ne different]

theorem set_set {other : Process} {later : List (α × Packet)} :
    (network.set x process packets).set x other later = network.set x other later := by
  rw [set, set, Function.update_idem, set]

theorem forall_set {P : α → Process → Prop} (own : P x process)
    (others : ∀ y, P y (network.process y)) (y : α) :
    P y ((network.set x process packets).process y) := by
  by_cases same : y = x
  · subst y
    rw [process_set]
    exact own
  · rw [process_set_ne network same]
    exact others y

theorem tables_set (same : process.tables = (network.process x).tables) :
    ((network.set x process packets).process y).tables = (network.process y).tables := by
  by_cases here : y = x
  · rw [here, process_set, same]
  · rw [process_set_ne network here]

end Network

namespace Deployment

variable {α : Type} [DecidableEq α] (deployment : Deployment α)

inductive RightCall (level : Nat) (x : α) : Call → Prop
  | publish {bucket neighbor} : bucket.nexthop = BitString.value (deployment.vid neighbor) →
      deployment.Adjacent x neighbor → deployment.distance x neighbor = level →
      RightCall level x (.publish bucket)
  | query : RightCall level x .query

def RightCalls (level : Nat) (x : α) (pending : List Call) : Prop :=
  (∀ call ∈ pending, deployment.RightCall level x call) ∧ (.query ∈ pending → pending = [.query])

inductive Publishes (level : Nat) (gateway : α) (network : Network α) : Prop
  | waiting : (network.process gateway).pending = none → Publishes level gateway network
  | called {pending bucket} : (network.process gateway).pending = some pending →
      .publish bucket ∈ pending → Publishes level gateway network
  | sent {x neighbor point} : (x, deployment.publication gateway neighbor point) ∈ network.packets →
      Publishes level gateway network
  | stored : (∀ point, deployment.IsPoint level gateway point →
      deployment.Keeps level gateway (network.process point).tables) →
        Publishes level gateway network

inductive Asks (level : Nat) (asker : α) (network : Network α) : Prop
  | filled : level ∈ (network.process asker).tables.routingTable → Asks level asker network
  | waiting : (network.process asker).pending = none → Asks level asker network
  | called {pending} : (network.process asker).pending = some pending → .query ∈ pending →
      Asks level asker network
  | sent {x point} : (x, deployment.question level asker point) ∈ network.packets →
      Asks level asker network
  | replied {x point gateway} : (x, deployment.answer level point asker gateway) ∈ network.packets →
      Asks level asker network

structure Settled (known : Nat) (network : Network α) : Prop where
  alive : ∀ x, (network.process x).running = true ∧ (network.process x).serving = true
  right : ∀ x, deployment.Right x (network.process x).tables
  filled : ∀ x, deployment.Filled (known + 1) x (network.process x).tables

structure Holding (known level : Nat) (network : Network α) : Prop extends
    deployment.Settled known network where
  good : ∀ x packet, (x, packet) ∈ network.packets → deployment.Good level x packet
  pending : ∀ x pending, (network.process x).pending = some pending →
    deployment.RightCalls level x pending
  published : ∀ gateway neighbor, deployment.Adjacent gateway neighbor →
    deployment.distance gateway neighbor = level → deployment.Publishes level gateway network
  asked : ∀ x y, deployment.distance x y = level → deployment.Asks level x network

end Deployment

section Steps

variable {α : Type} [DecidableEq α] {deployment : Deployment α} {known level : Nat}
  {network : Network α}

open Deployment

omit [DecidableEq α] in
theorem Deployment.Filled.extends {x : α} {before after : Tables}
    (filled : deployment.Filled level x before) (extended : Extends before after) :
    deployment.Filled level x after :=
  fun k positive below away => extended.routingTable k (filled k positive below away)

omit [DecidableEq α] in
theorem Deployment.Keeps.extends {gateway : α} {before after : Tables}
    (kept : deployment.Keeps level gateway before) (extended : Extends before after) :
    deployment.Keeps level gateway after := by
  obtain ⟨entry, member, same⟩ := kept
  exact ⟨entry, extended.rdvStore level entry member, same⟩

omit [DecidableEq α] in
theorem Deployment.Holding.complete (holding : deployment.Holding known level network)
    (stored : network.Stored) {gateway neighbor point : α}
    (adjacent : deployment.Adjacent gateway neighbor)
    (away : deployment.distance gateway neighbor = level)
    (isPoint : deployment.IsPoint level gateway point) :
    deployment.Keeps level gateway (network.process point).tables := by
  cases holding.published gateway neighbor adjacent away with
  | waiting none =>
      obtain ⟨pending, some, -⟩ := stored.1 gateway
      rw [none] at some
      cases some
  | @called pending bucket some member =>
      obtain ⟨calls, same, none⟩ := stored.1 gateway
      rw [some, Option.some.injEq] at same
      exact (none bucket (same ▸ member)).elim
  | sent member => exact (stored.2 _ member rfl).elim
  | stored kept => exact kept point isPoint

theorem Deployment.Settled.set (settled : deployment.Settled known network) {x : α}
    {process : Process} {packets : List (α × Packet)}
    (alive : process.running = true ∧ process.serving = true)
    (right : deployment.Right x process.tables)
    (filled : deployment.Filled (known + 1) x process.tables) :
    deployment.Settled known (network.set x process packets) where
  alive :=
    network.forall_set (P := fun _ process => process.running = true ∧ process.serving = true)
      alive settled.alive
  right := network.forall_set (P := fun y process => deployment.Right y process.tables)
    right settled.right
  filled :=
    network.forall_set (P := fun y process => deployment.Filled (known + 1) y process.tables)
      filled settled.filled

theorem Deployment.Holding.enter (holding : deployment.Holding known level network) (x : α) :
    deployment.Holding known level (network.set x { network.process x with
      pending := some
        (if (network.process x).running then
          calls (deployment.site x) (network.process x).tables level
        else []) } network.packets) := by
  rw [if_pos (holding.alive x).1]
  refine ⟨holding.toSettled.set (holding.alive x) (holding.right x) (holding.filled x),
    holding.good, ?_, ?_, ?_⟩
  · refine network.forall_set (P := fun y process => ∀ pending, process.pending = some pending →
      deployment.RightCalls level y pending) ?_ holding.pending
    rintro _ ⟨⟩
    rw [calls]
    cases found : (network.process x).tables.routingTable.lookup level with
    | none => exact ⟨fun call member => List.mem_singleton.mp member ▸ .query, fun _ => rfl⟩
    | some buckets =>
        obtain ⟨some, all⟩ := (holding.right x).bucket level buckets found
        obtain ⟨first, rest, rfl⟩ := List.exists_cons_of_ne_nil some
        refine ⟨fun call member => ?_, fun member => ?_⟩
        · obtain ⟨bucket, inside, rfl⟩ := List.mem_map.mp member
          obtain ⟨listed, own⟩ := List.mem_filter.mp inside
          obtain ⟨neighbor, nexthop, adjacent, -, away⟩ := all bucket listed
          exact .publish nexthop adjacent (away (of_decide_eq_true own))
        · obtain ⟨bucket, -, impossible⟩ := List.mem_map.mp member
          cases impossible
  · intro gateway neighbor adjacent away
    by_cases same : gateway = x
    · subst gateway
      obtain ⟨buckets, found, bucket, listed, own⟩ := (holding.right x).direct neighbor adjacent
      rw [away] at found
      obtain ⟨first, rest, rfl⟩ := List.exists_cons_of_ne_nil (List.ne_nil_of_mem listed)
      have listedCall : Call.publish bucket ∈ calls (deployment.site x)
          (network.process x).tables level := by
        rw [calls, found]
        exact List.mem_map_of_mem (List.mem_filter.mpr ⟨listed, decide_eq_true own⟩)
      exact .called (by rw [Network.process_set]) listedCall
    · cases holding.published gateway neighbor adjacent away with
      | waiting none => exact .waiting (by rwa [network.process_set_ne same])
      | called some member => exact .called (by rwa [network.process_set_ne same]) member
      | sent member => exact .sent member
      | stored kept =>
          refine .stored fun point isPoint => ?_
          rw [network.tables_set]
          · exact kept point isPoint
          · rfl
  · intro v y away
    by_cases same : v = x
    · subst v
      by_cases present : level ∈ (network.process x).tables.routingTable
      · exact .filled (by rwa [Network.process_set])
      · refine .called (by rw [Network.process_set]) ?_
        rw [calls, AList.lookup_eq_none.mpr present]
        exact List.mem_singleton_self _
    · cases holding.asked v y away with
      | filled present => exact .filled (by rwa [network.process_set_ne same])
      | waiting none => exact .waiting (by rwa [network.process_set_ne same])
      | called some member => exact .called (by rwa [network.process_set_ne same]) member
      | sent member => exact .sent member
      | replied member => exact .replied member

omit [DecidableEq α] in
theorem Deployment.RightCalls.tail {x : α} {call : Call} {rest : List Call}
    (rightCalls : deployment.RightCalls level x (call :: rest)) :
    deployment.RightCalls level x rest := by
  refine ⟨fun other member => rightCalls.1 other (List.mem_cons_of_mem call member),
    fun member => ?_⟩
  have only := rightCalls.2 (List.mem_cons_of_mem call member)
  rw [(List.cons.inj only).2] at member
  exact (List.not_mem_nil member).elim

theorem Deployment.RightCall.packet_eq {L : Nat} (sound : deployment.Sound L)
    (fits : deployment.Fits L) (positive : 0 < level) (bound : level ≤ L) {x : α} {call : Call}
    (rightCall : deployment.RightCall level x call) :
    ∃ packet, call.packet (deployment.site x) level = some packet ∧ deployment.Good level x packet ∧
      (∀ bucket, call = .publish bucket → ∃ neighbor point,
        packet = deployment.publication x neighbor point) ∧
      (call = .query → ∃ point, packet = deployment.question level x point) := by
  obtain ⟨point, isPoint, near⟩ := sound.exists_point x positive bound
  have own : pack (BitString.value (deployment.site x).myvid) = some (deployment.word x) :=
    fits.pack_vid x
  have dst : pack (BitString.value (getRendezvousID level (deployment.site x).myvid)) =
      some (deployment.word point) := by
    have same : getRendezvousID level (deployment.site x).myvid = deployment.vid point :=
      isPoint.symm
    rw [same]
    exact fits.pack_vid point
  cases rightCall with
  | @publish bucket neighbor nexthop adjacent away =>
      refine ⟨deployment.publication x neighbor point, ?_, .publication adjacent away isPoint near,
        fun _ _ => ⟨neighbor, point, rfl⟩, nofun⟩
      rw [Call.packet, createRDV_PUBLISH, own, dst, nexthop, fits.pack_vid]
      rfl
  | query =>
      have small : level < 2 ^ 32 := Nat.lt_of_le_of_lt bound fits.level
      refine ⟨deployment.question level x point, ?_, .question isPoint near, nofun,
        fun _ => ⟨point, rfl⟩⟩
      rw [Call.packet, createRDV_QUERY, own, dst, pack, if_pos small]
      rfl

theorem Deployment.Holding.emit {L : Nat} (holding : deployment.Holding known level network)
    (sound : deployment.Sound L) (fits : deployment.Fits L) (positive : 0 < level)
    (bound : level ≤ L) {x : α} {call : Call} {rest : List Call}
    (pending : (network.process x).pending = some (call :: rest)) :
    ∃ packet, call.packet (deployment.site x) level = some packet ∧
      deployment.Holding known level (network.set x { network.process x with pending := some rest }
        (network.packets ++ [(x, packet)])) := by
  obtain ⟨packet, made, good, publishes, asks⟩ := ((holding.pending x _ pending).1 call
    List.mem_cons_self).packet_eq sound fits positive bound
  refine ⟨packet, made,
    holding.toSettled.set (holding.alive x) (holding.right x) (holding.filled x),
    ?_, ?_, ?_, ?_⟩
  · intro y other member
    rcases List.mem_append.mp member with before | new
    · exact holding.good y other before
    · obtain ⟨rfl, rfl⟩ := Prod.mk.inj (List.mem_singleton.mp new)
      exact good
  · refine network.forall_set (P := fun y process => ∀ pending, process.pending = some pending →
      deployment.RightCalls level y pending) ?_ holding.pending
    rintro _ ⟨⟩
    exact (holding.pending x _ pending).tail
  · intro gateway neighbor adjacent away
    cases holding.published gateway neighbor adjacent away with
    | waiting none =>
        have different : gateway ≠ x := by
          rintro rfl
          rw [none] at pending
          cases pending
        exact .waiting (by rwa [network.process_set_ne different])
    | @called calls bucket listed member =>
        by_cases same : gateway = x
        · subst gateway
          rw [pending, Option.some.injEq] at listed
          subst calls
          rcases List.mem_cons.mp member with now | later
          · obtain ⟨other, point, rfl⟩ := publishes bucket now.symm
            exact .sent (List.mem_append_right _ (List.mem_singleton_self _))
          · exact .called (by rw [Network.process_set]) later
        · exact .called (by rwa [network.process_set_ne same]) member
    | sent member => exact .sent (List.mem_append_left _ member)
    | stored kept =>
        refine .stored fun point isPoint => ?_
        rw [network.tables_set]
        · exact kept point isPoint
        · rfl
  · intro v y away
    cases holding.asked v y away with
    | filled present =>
        refine .filled ?_
        rw [network.tables_set]
        · exact present
        · rfl
    | waiting none =>
        have different : v ≠ x := by
          rintro rfl
          rw [none] at pending
          cases pending
        exact .waiting (by rwa [network.process_set_ne different])
    | @called calls listed member =>
        by_cases same : v = x
        · subst v
          rw [pending, Option.some.injEq] at listed
          subst calls
          rcases List.mem_cons.mp member with now | later
          · obtain ⟨point, rfl⟩ := asks now.symm
            exact .sent (List.mem_append_right _ (List.mem_singleton_self _))
          · exact .called (by rw [Network.process_set]) later
        · exact .called (by rwa [network.process_set_ne same]) member
    | sent member => exact .sent (List.mem_append_left _ member)
    | replied member => exact .replied (List.mem_append_left _ member)

omit [DecidableEq α] in
theorem Deployment.Outcome.extends {x : α} {tables after : Tables} {packet : Packet}
    {sent : List (α × Packet)} (outcome : deployment.Outcome level x tables packet after sent) :
    Extends tables after := by
  cases outcome with
  | forwarded => exact Extends.refl tables
  | stored extended => exact extended
  | unanswered => exact Extends.refl tables
  | answered => exact Extends.refl tables
  | answeredItself extended => exact extended
  | learned extended => exact extended

end Steps

section Outcomes

variable {α : Type} [DecidableEq α] {deployment : Deployment α} {L level : Nat}
  (sound : deployment.Sound L)
  (fits : deployment.Fits L) {x : α} {tables after : Tables} {packet : Packet}
    {sent : List (α × Packet)}
  (outcome : deployment.Outcome level x tables packet after sent)
include sound fits outcome

open Deployment

theorem Deployment.Outcome.good (good : deployment.Good level x packet) :
    ∀ y other, (y, other) ∈ sent → deployment.Good level y other := by
  intro y other member
  cases outcome with
  | forwarded apart dvid _ hop =>
      obtain ⟨rfl, rfl⟩ := Prod.mk.inj (List.mem_singleton.mp member)
      exact good.forward sound fits apart dvid hop
  | answered closest apart near _ hop =>
      obtain ⟨rfl, rfl⟩ := Prod.mk.inj (List.mem_singleton.mp member)
      exact .answer closest (Nat.lt_of_le_of_lt (sound.hop_near apart hop) near)
  | stored | unanswered | answeredItself | learned => exact (List.not_mem_nil member).elim

theorem Deployment.Outcome.of_publication {gateway neighbor point : α}
    (same : packet = deployment.publication gateway neighbor point) :
    (∃ z, sent = [(z, packet)]) ∨ point = x ∧ deployment.Keeps level gateway after := by
  cases outcome with
  | forwarded => exact Or.inl ⟨_, rfl⟩
  | stored _ kept =>
      have source := sound.word_injective fits (congrArg Packet.svid same)
      have dest := sound.word_injective fits (congrArg Packet.dvid same)
      exact Or.inr ⟨dest.symm, source ▸ kept⟩
  | unanswered | answered | answeredItself =>
      exact (query_ne_publish (congrArg Packet.oper same)).elim
  | learned => exact (reply_ne_publish (congrArg Packet.oper same)).elim

theorem Deployment.Outcome.of_question {asker point : α}
    (same : packet = deployment.question level asker point) :
    (∃ z, sent = [(z, packet)]) ∨ (∃ z gateway,
        sent = [(z, deployment.answer level x asker gateway)]) ∨
      (x = asker ∧ level ∈ after.routingTable) ∨
      point = x ∧ ∀ gateway, ¬deployment.Keeps level gateway tables := by
  cases outcome with
  | forwarded => exact Or.inl ⟨_, rfl⟩
  | stored => exact (query_ne_publish (congrArg Packet.oper same).symm).elim
  | unanswered _ none => exact Or.inr (Or.inr (Or.inr
      ⟨(sound.word_injective fits (congrArg Packet.dvid same)).symm, none⟩))
  | answered =>
      obtain rfl := sound.word_injective fits (congrArg Packet.svid same)
      exact Or.inr (Or.inl ⟨_, _, rfl⟩)
  | answeredItself _ present =>
      exact Or.inr
        (Or.inr (Or.inl ⟨sound.word_injective fits (congrArg Packet.svid same), present⟩))
  | learned => exact (reply_ne_query (congrArg Packet.oper same)).elim

theorem Deployment.Outcome.of_answer {asker point gateway : α}
    (same : packet = deployment.answer level point asker gateway) :
    (∃ z, sent = [(z, packet)]) ∨ x = asker ∧ level ∈ after.routingTable := by
  cases outcome with
  | forwarded => exact Or.inl ⟨_, rfl⟩
  | stored => exact (reply_ne_publish (congrArg Packet.oper same).symm).elim
  | unanswered | answered | answeredItself =>
      exact (reply_ne_query (congrArg Packet.oper same).symm).elim
  | learned _ present =>
      exact Or.inr ⟨sound.word_injective fits (congrArg Packet.dvid same), present⟩

end Outcomes

/-! ### A packet is handled -/

section Handle

variable {α : Type} [DecidableEq α] {deployment : Deployment α} {L known level : Nat}
  {network : Network α}
  (holding : deployment.Holding known level network) (sound : deployment.Sound L)
    (fits : deployment.Fits L) {x : α}
  {packet : Packet} {front back sent : List (α × Packet)} {after : Tables}
  (here : network.packets = front ++ (x, packet) :: back)
  (outcome : deployment.Outcome level x (network.process x).tables packet after sent)

open Deployment

theorem Deployment.Good.of_publication {gateway neighbor point : α}
    (good : deployment.Good level x packet) (sound : deployment.Sound L) (fits : deployment.Fits L)
    (same : packet = deployment.publication gateway neighbor point) :
    deployment.IsPoint level gateway point := by
  cases good with
  | publication _ _ isPoint =>
      obtain rfl := sound.word_injective fits (congrArg Packet.svid same)
      obtain rfl := sound.word_injective fits (congrArg Packet.dvid same)
      exact isPoint
  | question => exact (query_ne_publish (congrArg Packet.oper same)).elim
  | answer => exact (reply_ne_publish (congrArg Packet.oper same)).elim

theorem Deployment.Good.of_question {asker point : α} (good : deployment.Good level x packet)
    (sound : deployment.Sound L) (fits : deployment.Fits L)
    (same : packet = deployment.question level asker point) :
    deployment.IsPoint level asker point := by
  cases good with
  | publication => exact (query_ne_publish (congrArg Packet.oper same).symm).elim
  | question isPoint =>
      obtain rfl := sound.word_injective fits (congrArg Packet.svid same)
      obtain rfl := sound.word_injective fits (congrArg Packet.dvid same)
      exact isPoint
  | answer => exact (reply_ne_query (congrArg Packet.oper same)).elim

omit [DecidableEq α] in
include here in
theorem Network.mem_handled {y : α} {other : Packet} (member : (y, other) ∈ network.packets)
    (sent : List (α × Packet)) : (y = x ∧ other = packet) ∨ (y, other) ∈ front ++ sent ++ back := by
  rw [here] at member
  simp only [List.mem_append, List.mem_cons, Prod.mk.injEq] at member ⊢
  tauto

def Network.handled (network : Network α) (x : α) (after : Tables) (packets : List (α × Packet)) :
    Network α :=
  network.set x { network.process x with tables := after } packets

theorem Network.pending_handled (x : α) (after : Tables) (y : α) (packets : List (α × Packet)) :
    ((network.handled x after packets).process y).pending = (network.process y).pending := by
  by_cases same : y = x
  · subst y
    rw [handled, process_set]
  · rw [handled, network.process_set_ne same]

theorem Network.extends_handled (extended : Extends (network.process x).tables after) (y : α)
    (packets : List (α × Packet)) :
    Extends (network.process y).tables ((network.handled x after packets).process y).tables := by
  by_cases same : y = x
  · subst y
    rw [handled, process_set]
    exact extended
  · rw [handled, network.process_set_ne same]
    exact Extends.refl _

include holding sound fits here outcome

theorem Deployment.Holding.handle_published {gateway neighbor : α}
    (adjacent : deployment.Adjacent gateway neighbor)
    (away : deployment.distance gateway neighbor = level) :
    deployment.Publishes level gateway (network.handled x after (front ++ sent ++ back)) := by
  have waits := network.pending_handled x after gateway (front ++ sent ++ back)
  cases holding.published gateway neighbor adjacent away with
  | waiting none => exact .waiting (waits.trans none)
  | called some member => exact .called (waits.trans some) member
  | @sent y other point member =>
      rcases Network.mem_handled here member sent with ⟨rfl, same⟩ | still
      · rcases outcome.of_publication sound fits same.symm with ⟨z, rfl⟩ | ⟨rfl, kept⟩
        · have onward : (z, deployment.publication gateway other point) ∈
              front ++ [(z, packet)] ++ back := by simp [same]
          exact .sent onward
        · refine .stored fun place isPlace => ?_
          have isPoint := (holding.good point packet (same ▸ member)).of_publication sound
            fits same.symm
          obtain rfl := sound.isPoint_unique isPoint isPlace
          rw [Network.handled, Network.process_set]
          exact kept
      · exact .sent still
  | stored all =>
      exact .stored fun point isPoint =>
        (all point isPoint).extends (network.extends_handled outcome.extends point _)

theorem Deployment.Holding.handle_asked (positive : 0 < level) (bound : level ≤ L)
    (complete : Answers deployment.site x packet → ∀ gateway, deployment.IsGateway x level gateway →
      deployment.Keeps level gateway (network.process x).tables) {asker y : α}
    (away : deployment.distance asker y = level) :
    deployment.Asks level asker (network.handled x after (front ++ sent ++ back)) := by
  have waits := network.pending_handled x after asker (front ++ sent ++ back)
  cases holding.asked asker y away with
  | filled present =>
      exact .filled ((network.extends_handled outcome.extends asker _).routingTable level present)
  | waiting none => exact .waiting (waits.trans none)
  | called some member => exact .called (waits.trans some) member
  | @sent v point member =>
      rcases Network.mem_handled here member sent with ⟨rfl, same⟩ | still
      · have isPoint := (holding.good v packet (same ▸ member)).of_question sound fits same.symm
        rcases outcome.of_question sound fits same.symm with
          ⟨z, rfl⟩ | ⟨z, gateway, rfl⟩ | ⟨rfl, present⟩ | ⟨rfl, none⟩
        · have onward : (z, deployment.question level asker point) ∈
              front ++ [(z, packet)] ++ back := by simp [same]
          exact .sent onward
        · have onward : (z, deployment.answer level v asker gateway) ∈
              front ++ [(z, deployment.answer level v asker gateway)] ++ back := by simp
          exact .replied onward
        · refine .filled ?_
          rw [Network.handled, Network.process_set]
          exact present
        · obtain ⟨gateway, isGateway⟩ := sound.exists_gateway positive away
          have near : deployment.distance asker point < level := by
            rw [Deployment.distance, isPoint]
            exact delta_getRendezvousID positive (bound.trans_eq (sound.length asker).symm)
          have answers : Answers deployment.site point packet :=
            ⟨same ▸ rfl,
              sound.getDest_word fits (Nat.lt_of_lt_of_le positive bound) point (same ▸ rfl)⟩
          exact (none gateway (complete answers gateway (isGateway.move sound.tree near))).elim
      · exact .sent still
  | @replied v point gateway member =>
      rcases Network.mem_handled here member sent with ⟨rfl, same⟩ | still
      · rcases outcome.of_answer sound fits same.symm with ⟨z, rfl⟩ | ⟨rfl, present⟩
        · have onward : (z, deployment.answer level point asker gateway) ∈
              front ++ [(z, packet)] ++ back := by simp [same]
          exact .replied onward
        · refine .filled ?_
          rw [Network.handled, Network.process_set]
          exact present
      · exact .replied still

theorem Deployment.Holding.handle (positive : 0 < level) (bound : level ≤ L)
    (complete : Answers deployment.site x packet → ∀ gateway, deployment.IsGateway x level gateway →
      deployment.Keeps level gateway (network.process x).tables)
    (right : deployment.Right x after) :
    deployment.Holding known level (network.handled x after (front ++ sent ++ back)) := by
  have filled := (holding.filled x).extends outcome.extends
  refine ⟨holding.toSettled.set (holding.alive x) right filled, ?_,
    fun y => ?_, fun gateway neighbor adjacent away =>
      holding.handle_published sound fits here outcome adjacent away,
    fun asker y away => holding.handle_asked sound fits here outcome positive bound complete away⟩
  · intro y other member
    have good := holding.good x packet (here ▸ by simp)
    rcases List.mem_append.mp member with before | later
    · rcases List.mem_append.mp before with first | new
      · exact holding.good y other (here ▸ List.mem_append_left _ first)
      · exact outcome.good sound fits good y other new
    · exact holding.good y other (here ▸ List.mem_append_right _ (List.mem_cons_of_mem _ later))
  · rw [Network.pending_handled]
    exact holding.pending y

end Handle

end SimPy

end Veil
