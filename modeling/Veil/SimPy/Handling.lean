import Veil.SimPy.SwitchRouting

/-! How a switch handles the packets of a level: what it forwards, stores, answers and learns. -/

namespace Veil

namespace SimPy

open HashTable

namespace Deployment

variable {α : Type} [DecidableEq α] (deployment : Deployment α)

def publication (gateway neighbor point : α) : Packet :=
  ⟨RDV_PUBLISH, deployment.word gateway, deployment.word point, deployment.word neighbor, none⟩

def question (level : Nat) (asker point : α) : Packet :=
  ⟨RDV_QUERY, deployment.word asker, deployment.word point, BitVec.ofNat 32 level, none⟩

def answer (level : Nat) (point asker gateway : α) : Packet :=
  ⟨RDV_REPLY, deployment.word point, deployment.word asker, BitVec.ofNat 32 level,
    some (deployment.word gateway)⟩

def IsPoint (level : Nat) (x point : α) : Prop :=
  deployment.vid point = getRendezvousID level (deployment.vid x)

def Closest (x : α) (level : Nat) (gateway : α) : Prop :=
  deployment.IsGateway x level gateway ∧
    ∀ other, deployment.IsGateway x level other →
      deployment.distance x gateway ≤ deployment.distance x other

inductive Good (level : Nat) (x : α) : Packet → Prop
  | publication {gateway neighbor point} : deployment.Adjacent gateway neighbor →
      deployment.distance gateway neighbor = level → deployment.IsPoint level gateway point →
      deployment.distance x point < level →
        Good level x (deployment.publication gateway neighbor point)
  | question {asker point} : deployment.IsPoint level asker point →
    deployment.distance x point < level →
      Good level x (deployment.question level asker point)
  | answer {point asker gateway} : deployment.Closest asker level gateway →
      deployment.distance x asker < level →
        Good level x (deployment.answer level point asker gateway)

def Filled (level : Nat) (x : α) (tables : Tables) : Prop :=
  ∀ k, 0 < k → k < level → (∃ y, deployment.distance x y = k) → k ∈ tables.routingTable

def Keeps (level : Nat) (gateway : α) (tables : Tables) : Prop :=
  ∃ entry ∈ (tables.rdvStore.lookup level).getD [], entry.1 = deployment.vid gateway

structure Extends (before after : Tables) : Prop where
  routingTable : ∀ k ∈ before.routingTable, k ∈ after.routingTable
  rdvStore : ∀ k, ∀ entry ∈ (before.rdvStore.lookup k).getD [],
    entry ∈ (after.rdvStore.lookup k).getD []

inductive Outcome (level : Nat) (x : α) (tables : Tables) :
    Packet → Tables → List (α × Packet) → Prop
  | forwarded {packet y z} : x ≠ y → packet.dvid = deployment.word y → deployment.Adjacent x z →
      deployment.Hop x (deployment.distance x y) z →
        Outcome level x tables packet tables [(z, packet)]
  | stored {gateway neighbor after} : Extends tables after → deployment.Keeps level gateway after →
      Outcome level x tables (deployment.publication gateway neighbor x) after []
  | unanswered {asker} : deployment.IsPoint level asker x →
      (∀ gateway, ¬deployment.Keeps level gateway tables) →
      Outcome level x tables (deployment.question level asker x) tables []
  | answered {asker gateway z} : deployment.Closest asker level gateway → x ≠ asker →
      deployment.distance x asker < level → deployment.Adjacent x z →
      deployment.Hop x (deployment.distance x asker) z →
      Outcome level x tables (deployment.question level asker x) tables
        [(z, deployment.answer level x asker gateway)]
  | answeredItself {after} : Extends tables after → level ∈ after.routingTable →
      Outcome level x tables (deployment.question level x x) after []
  | learned {point gateway after} : Extends tables after → level ∈ after.routingTable →
      Outcome level x tables (deployment.answer level point x gateway) after []

theorem Extends.refl (tables : Tables) : Extends tables tables := ⟨fun _ => id, fun _ _ => id⟩

end Deployment

theorem query_ne_publish : RDV_QUERY ≠ RDV_PUBLISH := by decide

theorem reply_ne_publish : RDV_REPLY ≠ RDV_PUBLISH := by decide

theorem reply_ne_query : RDV_REPLY ≠ RDV_QUERY := by decide

theorem getPrefix_eq {vid : List Bool} {dist : Nat} (positive : 0 < dist)
    (bound : dist ≤ vid.length) :
    ∃ range, getPrefix vid dist = some range := by
  have below : ((vid.length : Int) - dist).toNat < vid.length := by omega
  have bit : index vid (vid.length - dist) = some vid[((vid.length : Int) - dist).toNat] := by
    rw [index, if_neg (by omega), if_neg (by omega), List.getElem?_eq_getElem below]
  exact ⟨_, by rw [getPrefix, bit]; rfl⟩

section Local

variable {α : Type} [DecidableEq α] {deployment : Deployment α} {L : Nat}
  (sound : deployment.Sound L)
  (fits : deployment.Fits L)
include sound fits

open Deployment

theorem Deployment.Right.receivePublish {x gateway neighbor : α} {tables : Tables} {level : Nat}
    (right : deployment.Right x tables) (point : α)
    (adjacent : deployment.Adjacent gateway neighbor)
    (away : deployment.distance gateway neighbor = level)
    (near : deployment.distance x gateway < level) :
    deployment.Right x (receivePublish (deployment.site x) tables
        (deployment.publication gateway neighbor point)) ∧
      Extends tables (receivePublish (deployment.site x) tables
        (deployment.publication gateway neighbor point)) ∧
      deployment.Keeps level gateway (receivePublish (deployment.site x) tables
        (deployment.publication gateway neighbor point)) := by
  subst level
  have positive : 0 < L := Nat.lt_of_lt_of_le (sound.positive adjacent) (sound.distance_le _ _)
  have far : deployment.distance x neighbor = deployment.distance gateway neighbor :=
    sound.tree.eq_of_lt near
  have stored (k : Nat) (entry : List Bool × List Bool) :
      entry ∈ ((SimPy.receivePublish (deployment.site x) tables
        (deployment.publication gateway neighbor point)).rdvStore.lookup k).getD [] ↔
      (k = deployment.distance gateway neighbor ∧
          entry = (deployment.vid gateway, deployment.vid neighbor)) ∨
        entry ∈ (tables.rdvStore.lookup k).getD [] := by
    have own : delta (deployment.site x).myvid (deployment.vid neighbor) =
        deployment.distance gateway neighbor := far
    simp only [SimPy.receivePublish, publication, sound.L_site,
      sound.bin2str_word fits positive, own,
      addIfNODuplicateRDVENTRY, mem_addNew]
  refine ⟨⟨right.bucket, right.direct, fun k entry member => ?_⟩,
    ⟨fun _ => id, fun k entry member => ?_⟩,
    ⟨_, (stored _ _).mpr (Or.inl ⟨rfl, rfl⟩), rfl⟩⟩
  · rcases (stored k entry).mp member with ⟨rfl, rfl⟩ | before
    · exact ⟨gateway, rfl, trivial, near, neighbor, trivial, adjacent, far⟩
    · exact right.stored k entry before
  · exact (stored k entry).mpr (Or.inr member)

omit [DecidableEq α] sound fits in
theorem Deployment.Right.gateway_ne {x gateway : α} {tables : Tables} {level : Nat}
    (right : deployment.Right x tables) (absent : level ∉ tables.routingTable)
    (isGateway : deployment.IsGateway x level gateway) : gateway ≠ x := by
  rintro rfl
  obtain ⟨neighbor, -, adjacent, away⟩ := isGateway.leads
  exact absent (away ▸ right.mem_of_adjacent adjacent)

theorem Deployment.Right.receiveReply {x gateway : α} {tables : Tables} {level : Nat}
    (right : deployment.Right x tables) (point : α) (closest : deployment.Closest x level gateway)
    (filled : deployment.Filled level x tables) (bound : level ≤ L) :
    ∃ after, receiveReply (deployment.site x) tables
        (deployment.answer level point x gateway) = some after ∧
      deployment.Right x after ∧ Extends tables after ∧ level ∈ after.routingTable := by
  have levelPositive : 0 < level := Nat.zero_lt_of_lt closest.1.near
  have positive : 0 < L := Nat.lt_of_lt_of_le levelPositive bound
  have number :
      BitString.value (bin2str (BitVec.ofNat 32 level).toNat (deployment.site x).L) = level := by
    rw [value_bin2str, BitVec.toNat_ofNat, Nat.mod_eq_of_lt (Nat.lt_of_le_of_lt bound fits.level)]
  have vid : bin2str (deployment.word gateway).toNat (deployment.site x).L =
      deployment.vid gateway := by
    rw [sound.L_site, sound.bin2str_word fits positive]
  simp only [SimPy.receiveReply, answer, number, vid, Option.bind_eq_bind, Option.bind_some]
  by_cases present : level ∈ tables.routingTable
  · rw [if_pos present]
    exact ⟨tables, rfl, right, Extends.refl tables, present⟩
  · rw [if_neg present]
    have apart := right.gateway_ne present closest.1
    have known : deployment.distance x gateway ∈ tables.routingTable :=
      filled _ (sound.tree.pos_iff.mpr apart.symm) closest.1.near ⟨gateway, rfl⟩
    obtain ⟨next, hopped, adjacent, hop⟩ := right.getNextHop_eq sound (Or.inr known)
    obtain ⟨range, prefixed⟩ := getPrefix_eq levelPositive (bound.trans_eq (sound.length x).symm)
    have own : getPrefix (deployment.site x).myvid level = some range := prefixed
    simp only [hopped, Option.bind_some, deployment.lookup_pid2vid adjacent, own, Option.pure_def]
    have none (neighbor : α) (_ : True) (edge : deployment.Adjacent x neighbor) :
        deployment.distance x neighbor ≠ level := fun same =>
      present (same ▸ right.mem_of_adjacent edge)
    refine ⟨_, rfl, ⟨?_, ?_, right.stored⟩, ⟨fun k member => ?_, fun _ _ => id⟩, ?_⟩
    · intro k buckets found
      rw [lookup_insert_ite] at found
      split at found
      · rename_i same
        subst k
        cases found
        refine ⟨List.cons_ne_nil _ _, fun bucket member => ?_⟩
        obtain rfl := List.mem_singleton.mp member
        refine ⟨next, rfl, adjacent, .gateway none closest.1 closest.2 hop, fun itself => ?_⟩
        have same := (BitString.value_inj ((sound.length gateway).trans (sound.length x).symm)).mp
          ((fits.toNat_word gateway).symm.trans itself)
        exact (apart (sound.injective same)).elim
      · exact right.bucket k buckets found
    · intro neighbor edge
      obtain ⟨buckets, found, own⟩ := right.direct neighbor edge
      refine ⟨buckets, ?_, own⟩
      rw [lookup_insert_ite, if_neg (none neighbor trivial edge)]
      exact found
    · exact (AList.mem_insert _).mpr (Or.inr member)
    · exact (AList.mem_insert _).mpr (Or.inl rfl)

variable {x : α} {tables : Tables} {level : Nat} (right : deployment.Right x tables)
  (filled : deployment.Filled level x tables) (bound : level ≤ L)
include right filled

theorem Deployment.Right.forwards {y : α} (apart : x ≠ y) (near : deployment.distance x y < level)
    (packet : Packet) (dvid : packet.dvid = deployment.word y) (calls : Nat) :
    ∃ z, routepacket (deployment.site x) (calls + 1) tables packet = some (tables, [(z, packet)]) ∧
      deployment.Adjacent x z ∧ deployment.Hop x (deployment.distance x y) z := by
  have away := sound.tree.pos_iff.mpr apart
  have positive : 0 < L := Nat.lt_of_lt_of_le away (sound.distance_le x y)
  obtain ⟨z, -, routed, hop⟩ := right.routepacket_eq sound apart
    (Or.inr (filled _ away near ⟨y, rfl⟩))
    (sound.getDest_word fits positive x dvid)
  exact ⟨z, routed calls, hop⟩

include bound

theorem Deployment.Right.learns (point : α) {gateway : α}
    (closest : deployment.Closest x level gateway) (calls : Nat) :
    ∃ after, processPacket (deployment.site x) (calls + 1) tables
        (deployment.answer level point x gateway) = some (after, []) ∧
      deployment.Right x after ∧ Extends tables after ∧ level ∈ after.routingTable := by
  have positive : 0 < L := Nat.lt_of_lt_of_le (Nat.zero_lt_of_lt closest.1.near) bound
  obtain ⟨after, received, kept⟩ := right.receiveReply sound fits point closest filled bound
  have dest : getDest (deployment.answer level point x gateway) (deployment.site x).L =
      (deployment.site x).myvid := sound.getDest_word fits positive x rfl
  have oper : (deployment.answer level point x gateway).oper = RDV_REPLY := rfl
  refine ⟨after, ?_, kept⟩
  rw [processPacket_reply dest oper, received]
  rfl

theorem Deployment.Right.answers {asker : α} (levelPositive : 0 < level)
    (isPoint : deployment.IsPoint level asker x)
    (complete : ∀ gateway, deployment.IsGateway x level gateway →
      deployment.Keeps level gateway tables)
    (calls : Nat) :
    ∃ after sent, processPacket (deployment.site x) (calls + 3) tables
      (deployment.question level asker x) =
        some (after, sent) ∧ deployment.Right x after ∧
      deployment.Outcome level x tables (deployment.question level asker x) after sent := by
  have positive : 0 < L := Nat.lt_of_lt_of_le levelPositive bound
  have number :
      BitString.value (bin2str (BitVec.ofNat 32 level).toNat (deployment.site x).L) = level := by
    rw [value_bin2str, BitVec.toNat_ofNat, Nat.mod_eq_of_lt (Nat.lt_of_le_of_lt bound fits.level)]
  have vid : bin2str (deployment.word asker).toNat (deployment.site x).L =
      deployment.vid asker := by
    rw [sound.L_site, sound.bin2str_word fits positive]
  have dest : getDest (deployment.question level asker x) (deployment.site x).L =
      (deployment.site x).myvid := sound.getDest_word fits positive x rfl
  have near : deployment.distance x asker < level := by
    rw [sound.tree.comm, Deployment.distance, isPoint]
    exact delta_getRendezvousID levelPositive (bound.trans_eq (sound.length asker).symm)
  have oper : (deployment.question level asker x).oper = RDV_QUERY := rfl
  rw [processPacket_query dest oper]
  simp only [question, number, vid]
  cases chosen : findAGW tables.rdvStore level (deployment.vid asker) with
  | none =>
      have empty := findAGW_eq_none chosen
      refine ⟨tables, [], rfl, right, .unanswered isPoint ?_⟩
      rintro gateway ⟨entry, member, -⟩
      rw [empty] at member
      exact List.not_mem_nil member
  | some gw =>
      obtain ⟨⟨entry, member, rfl⟩, least⟩ := findAGW_eq_some chosen
      obtain ⟨gateway, same, isGateway⟩ := right.stored level entry member
      have closest : deployment.Closest asker level gateway := by
        refine ⟨isGateway.move sound.tree near, fun other otherGateway => ?_⟩
        obtain ⟨otherEntry, inside, named⟩ := complete other
          ((GatewayRouting.Gateway.move_iff sound.tree near).mp otherGateway)
        have bound := least otherEntry inside
        rw [same, named] at bound
        rw [sound.tree.comm asker gateway, sound.tree.comm asker other]
        exact bound
      have small : level < 2 ^ 32 := Nat.lt_of_le_of_lt bound fits.level
      have reply : createRDV_REPLY (BitString.value entry.1) level (deployment.site x).myvid
          (deployment.vid asker) = some (deployment.answer level x asker gateway) := by
        have own : pack (BitString.value (deployment.site x).myvid) = some (deployment.word x) :=
          fits.pack_vid x
        rw [createRDV_REPLY, own, fits.pack_vid, same, fits.pack_vid, pack, if_pos small]
        rfl
      simp only [reply]
      by_cases itself : x = asker
      · subst asker
        obtain ⟨after, learned, afterRight, extended, present⟩ :=
          right.learns sound fits filled bound x closest calls
        have back : getDest (deployment.answer level x x gateway) (deployment.site x).L =
            (deployment.site x).myvid := sound.getDest_word fits positive x rfl
        rw [Option.bind_some, routepacket_here back]
        exact ⟨after, [], learned, afterRight, .answeredItself extended present⟩
      · obtain ⟨z, routed, adjacent, hop⟩ := right.forwards sound fits filled itself near
          (deployment.answer level x asker gateway) rfl (calls + 1)
        exact ⟨tables, _, routed, right, .answered closest itself near adjacent hop⟩

theorem Deployment.Right.handles {packet : Packet} (good : deployment.Good level x packet)
    (complete : Answers deployment.site x packet → ∀ gateway, deployment.IsGateway x level gateway →
      deployment.Keeps level gateway tables)
    (calls : Nat) :
    ∃ after sent, processPacket (deployment.site x) (calls + 3) tables packet = some (after, sent) ∧
      deployment.Right x after ∧ deployment.Outcome level x tables packet after sent := by
  have elsewhere (y : α) (apart : x ≠ y) (near : deployment.distance x y < level)
      (dvid : packet.dvid = deployment.word y) :
      ∃ after sent, processPacket (deployment.site x) (calls + 3) tables packet =
          some (after, sent) ∧
        deployment.Right x after ∧ deployment.Outcome level x tables packet after sent := by
    obtain ⟨z, routed, adjacent, hop⟩ :=
      right.forwards sound fits filled apart near packet dvid (calls + 1)
    have positive : 0 < L := Nat.lt_of_lt_of_le (Nat.zero_lt_of_lt near) bound
    refine ⟨tables, _, ?_, right, .forwarded apart dvid adjacent hop⟩
    rw [sound.processPacket_elsewhere apart (sound.getDest_word fits positive x dvid)]
    exact routed
  cases good with
  | @publication gateway neighbor point adjacent away isPoint near =>
      by_cases here : x = point
      · subst point
        have positive : 0 < L := Nat.lt_of_lt_of_le (Nat.zero_lt_of_lt near) bound
        have dest : getDest (deployment.publication gateway neighbor x) (deployment.site x).L =
            (deployment.site x).myvid := sound.getDest_word fits positive x rfl
        have below : deployment.distance x gateway < level := by
          rw [sound.tree.comm, Deployment.distance, isPoint]
          exact delta_getRendezvousID (Nat.zero_lt_of_lt near)
            (bound.trans_eq (sound.length gateway).symm)
        obtain ⟨afterRight, extended, kept⟩ :=
          right.receivePublish sound fits x adjacent away below
        have oper : (deployment.publication gateway neighbor x).oper = RDV_PUBLISH := rfl
        refine ⟨_, [], ?_, afterRight, .stored extended kept⟩
        rw [processPacket_publish dest oper]
      · exact elsewhere point here near rfl
  | @question asker point isPoint near =>
      by_cases here : x = point
      · subst point
        have positive : 0 < L := Nat.lt_of_lt_of_le (Nat.zero_lt_of_lt near) bound
        exact right.answers sound fits filled bound (Nat.zero_lt_of_lt near) isPoint
          (complete ⟨rfl, sound.getDest_word fits positive x rfl⟩) calls
      · exact elsewhere point here near rfl
  | @answer point asker gateway closest near =>
      by_cases here : x = asker
      · subst asker
        obtain ⟨after, learned, afterRight, extended, present⟩ :=
          right.learns sound fits filled bound point closest (calls + 2)
        exact ⟨after, [], learned, afterRight, .learned extended present⟩
      · exact elsewhere asker here near rfl

omit [DecidableEq α] sound fits right filled bound in
theorem Deployment.Good.dest {packet : Packet} (good : deployment.Good level x packet) :
    ∃ y, packet.dvid = deployment.word y ∧ deployment.distance x y < level := by
  cases good with
  | publication _ _ _ near => exact ⟨_, rfl, near⟩
  | question _ near => exact ⟨_, rfl, near⟩
  | answer _ near => exact ⟨_, rfl, near⟩

theorem Deployment.Right.routes {packet : Packet} (good : deployment.Good level x packet)
    (complete : Answers deployment.site x packet → ∀ gateway, deployment.IsGateway x level gateway →
      deployment.Keeps level gateway tables)
    (calls : Nat) :
    ∃ after sent, routepacket (deployment.site x) (calls + 4) tables packet = some (after, sent) ∧
      deployment.Right x after ∧ deployment.Outcome level x tables packet after sent := by
  obtain ⟨y, dvid, near⟩ := good.dest
  have positive : 0 < L := Nat.lt_of_lt_of_le (Nat.zero_lt_of_lt near) bound
  have dest := sound.getDest_word fits positive x dvid
  by_cases here : x = y
  · subst y
    have own : getDest packet (deployment.site x).L = (deployment.site x).myvid := dest
    rw [routepacket_here own]
    exact right.handles sound fits filled bound good complete calls
  · obtain ⟨z, routed, adjacent, hop⟩ :=
      right.forwards sound fits filled here near packet dvid (calls + 3)
    exact ⟨tables, _, routed, right, .forwarded here dvid adjacent hop⟩

end Local

section Way

variable {α : Type} [DecidableEq α] {deployment : Deployment α} {L : Nat}
  (sound : deployment.Sound L)
include sound

theorem Deployment.Sound.word_injective (fits : deployment.Fits L) :
    Function.Injective deployment.word := by
  intro x y same
  have number := congrArg BitVec.toNat same
  rw [fits.toNat_word, fits.toNat_word,
    BitString.value_inj ((sound.length x).trans (sound.length y).symm)] at number
  exact sound.injective number

theorem Deployment.Sound.isPoint_unique {level : Nat} {x point other : α}
    (isPoint : deployment.IsPoint level x point) (otherPoint : deployment.IsPoint level x other) :
    point = other :=
  sound.injective (isPoint.trans otherPoint.symm)

theorem Deployment.Sound.exists_point {level : Nat} (x : α) (positive : 0 < level)
    (bound : level ≤ L) :
    ∃ point, deployment.IsPoint level x point ∧ deployment.distance x point < level := by
  obtain ⟨point, -, same⟩ := sound.addressing.rendezvous x trivial level positive bound
  refine ⟨point, same, ?_⟩
  rw [Deployment.distance, same]
  exact delta_getRendezvousID positive (bound.trans_eq (sound.length x).symm)

/-- A hop stays below every level that holds the switch and the destination. -/
theorem Deployment.Sound.hop_near {x y z : α} (apart : x ≠ y)
    (hop : deployment.Hop x (deployment.distance x y) z) :
    deployment.distance z y ≤ deployment.distance x y := by
  rcases hop.progress sound.tree with crossed | ⟨stayed, -⟩
  · exact Nat.le_of_lt (sound.tree.lt_of_eq ((sound.tree.comm z x).trans crossed) rfl
      (sound.tree.pos_iff.mpr apart))
  · exact Nat.le_of_eq (sound.tree.eq_of_lt (by rwa [sound.tree.comm]))

theorem Deployment.Good.forward (fits : deployment.Fits L) {level : Nat} {x y z : α}
    {packet : Packet} (good : deployment.Good level x packet) (apart : x ≠ y)
    (dvid : packet.dvid = deployment.word y) (hop : deployment.Hop x (deployment.distance x y) z) :
    deployment.Good level z packet := by
  have closer := sound.hop_near apart hop
  cases good with
  | publication adjacent away isPoint near =>
      obtain rfl := sound.word_injective fits dvid
      exact .publication adjacent away isPoint (Nat.lt_of_le_of_lt closer near)
  | question isPoint near =>
      obtain rfl := sound.word_injective fits dvid
      exact .question isPoint (Nat.lt_of_le_of_lt closer near)
  | answer closest near =>
      obtain rfl := sound.word_injective fits dvid
      exact .answer closest (Nat.lt_of_le_of_lt closer near)

theorem Deployment.Sound.exists_gateway {level : Nat} {x y : α} (positive : 0 < level)
    (away : deployment.distance x y = level) : ∃ gateway, deployment.IsGateway x level gateway := by
  have bound : level ≤ L := away ▸ sound.distance_le x y
  have connected := sound.addressing.connected x trivial level positive bound
  exact GatewayRouting.exists_gateway_of_connected sound.tree connected trivial trivial away
    positive

end Way

end SimPy

end Veil
