import Mathlib.Algebra.BigOperators.Group.Finset.Basic
import Mathlib.Data.Fintype.BigOperators
import Mathlib.Logic.Function.Basic
import Veil.SimPy.LevelRun

/-! A level comes to an end: while something is left to do there is a step, and no level has steps
without end. -/

namespace Veil

namespace SimPy

section Load

variable {α : Type} [DecidableEq α] (deployment : Deployment α) (L : Nat)

/-- How much a packet can still cause: the hops of a question and of its answer. -/
noncomputable def Deployment.load (x : α) (packet : Packet) : Nat :=
  (if packet.oper = RDV_QUERY then 2 ^ (L + 1) else 0) +
    (((Function.partialInv deployment.word packet.dvid).elim 0 fun y =>
      GatewayRouting.rank deployment.distance (fun _ => True) deployment.Adjacent x
        (deployment.distance x y)) + 1)

variable {deployment L} (sound : deployment.Sound L) (fits : deployment.Fits L)
include sound fits

theorem Deployment.Sound.load_eq (x : α) {y : α} {packet : Packet}
    (dvid : packet.dvid = deployment.word y) :
    deployment.load L x packet = (if packet.oper = RDV_QUERY then 2 ^ (L + 1) else 0) +
      (GatewayRouting.rank deployment.distance (fun _ => True) deployment.Adjacent x
        (deployment.distance x y) + 1) := by
  rw [load, dvid, Function.partialInv_left (sound.word_injective fits)]
  rfl

omit fits in
theorem Deployment.Sound.rank_lt (x y : α) :
    GatewayRouting.rank deployment.distance (fun _ => True) deployment.Adjacent x
      (deployment.distance x y) < 2 ^ (L + 1) :=
  Nat.lt_of_lt_of_le (GatewayRouting.rank_lt_two_pow _ _ _ _ _)
    (Nat.pow_le_pow_right (by decide) (Nat.succ_le_succ (sound.distance_le x y)))

theorem Deployment.Good.load_le {level : Nat} {x : α} {packet : Packet}
    (good : deployment.Good level x packet) : deployment.load L x packet ≤ 2 ^ (L + 2) := by
  obtain ⟨y, dvid, -⟩ := good.dest
  have below := sound.rank_lt x y
  rw [sound.load_eq fits x dvid, Nat.pow_succ 2 (L + 1)]
  split <;> omega

theorem Deployment.Outcome.load_lt {level : Nat} {x : α} {tables after : Tables} {packet : Packet}
    {sent : List (α × Packet)} (outcome : deployment.Outcome level x tables packet after sent) :
    (sent.map fun entry => deployment.load L entry.1 entry.2).sum < deployment.load L x packet := by
  cases outcome with
  | @forwarded packet y z apart dvid adjacent hop =>
      have falls := hop.rank_lt sound.tree apart
      rw [List.map_singleton, List.sum_singleton, sound.load_eq fits z dvid,
        sound.load_eq fits x dvid]
      omega
  | @answered asker gateway z closest apart near adjacent hop =>
      have below := sound.rank_lt z asker
      have reply : (deployment.answer level x asker gateway).oper ≠ RDV_QUERY := reply_ne_query
      have asked : (deployment.question level asker x).oper = RDV_QUERY := rfl
      rw [List.map_singleton, List.sum_singleton, sound.load_eq fits z (y := asker) rfl,
        sound.load_eq fits x (y := x) rfl, if_neg reply, if_pos asked]
      omega
  | stored | unanswered | answeredItself | learned =>
      rw [List.map_nil, List.sum_nil, Deployment.load]
      omega

end Load

section Measure

variable {α : Type} [DecidableEq α] [Fintype α] (network : Network α) {x : α} {process : Process}
  {packets : List (α × Packet)}

def Network.idle : Nat := (Finset.univ.filter fun x => (network.process x).pending = none).card

def Network.toCall : Nat := ∑ x, ((network.process x).pending.getD []).length

noncomputable def Network.work (deployment : Deployment α) (L : Nat) : Nat :=
  network.toCall * (2 ^ (L + 2) + 1) +
    (network.packets.map fun entry => deployment.load L entry.1 entry.2).sum

theorem Network.idle_set (same : process.pending = none ↔ (network.process x).pending = none) :
    (network.set x process packets).idle = network.idle := by
  have all (y : α) : ((network.set x process packets).process y).pending = none ↔
      (network.process y).pending = none :=
    network.forall_set (P := fun y process => process.pending = none ↔
        (network.process y).pending = none)
      same (fun _ => Iff.rfl) y
  rw [idle, idle, Finset.filter_congr fun y _ => all y]

theorem Network.idle_set_lt (waiting : (network.process x).pending = none)
    (called : process.pending ≠ none) :
    (network.set x process packets).idle < network.idle := by
  refine Finset.card_lt_card ((Finset.ssubset_iff_of_subset fun y member => ?_).mpr ⟨x, ?_, ?_⟩)
  · rw [Finset.mem_filter] at member ⊢
    refine ⟨member.1, ?_⟩
    by_cases same : y = x
    · rw [same]
      exact waiting
    · rw [← network.process_set_ne same]
      exact member.2
  · exact Finset.mem_filter.mpr ⟨Finset.mem_univ x, waiting⟩
  · rw [Finset.mem_filter, process_set]
    exact fun member => called member.2

theorem Network.toCall_set (x : α) (process : Process) (packets : List (α × Packet)) :
    (network.set x process packets).toCall + ((network.process x).pending.getD []).length =
      network.toCall + (process.pending.getD []).length := by
  have others : ∑ y ∈ Finset.univ.erase x,
      (((network.set x process packets).process y).pending.getD []).length =
        ∑ y ∈ Finset.univ.erase x, ((network.process y).pending.getD []).length :=
    Finset.sum_congr rfl fun y member =>
      by rw [network.process_set_ne (Finset.ne_of_mem_erase member)]
  have before := Finset.add_sum_erase Finset.univ
    (fun y => ((network.process y).pending.getD []).length) (Finset.mem_univ x)
  have after := Finset.add_sum_erase Finset.univ
    (fun y => (((network.set x process packets).process y).pending.getD []).length)
      (Finset.mem_univ x)
  simp only [process_set] at after
  rw [toCall, toCall, ← before, ← after, others]
  omega

theorem Network.idle_handled (after : Tables) :
    (network.handled x after packets).idle = network.idle := by
  simp only [idle, pending_handled]

theorem Network.toCall_handled (after : Tables) :
    (network.handled x after packets).toCall = network.toCall := by
  simp only [toCall, pending_handled]

end Measure

section Progress

variable {α : Type} [DecidableEq α] [Fintype α] {deployment : Deployment α} {L known level : Nat}
  (sound : deployment.Sound L) (fits : deployment.Fits L) {network : Network α}
include sound fits

open Deployment

theorem Deployment.Move.measure_lt {next : Network α} (move : deployment.Move level network next) :
    Prod.Lex (· < ·) (· < ·) (next.idle, next.work deployment L)
      (network.idle, network.work deployment L) := by
  cases move with
  | enter waiting => exact .left _ _ (network.idle_set_lt waiting nofun)
  | @call x call rest packet after sent pending good outcome =>
      have falls := outcome.load_lt sound fits
      have limit := good.load_le sound fits
      have fewer := network.toCall_set x { network.process x with
        tables := after, pending := some rest }
        (network.packets ++ sent)
      rw [pending, Option.getD_some, Option.getD_some, List.length_cons, ← Nat.add_assoc,
        Nat.add_right_comm] at fewer
      rw [network.idle_set (by rw [pending]; simp)]
      refine .right _ ?_
      rw [Network.work, Network.work, Network.packets_set, List.map_append, List.sum_append,
        ← Nat.add_right_cancel fewer, Nat.succ_mul]
      omega
  | @receive x front packet back after sent here outcome =>
      have falls := outcome.load_lt sound fits
      rw [network.idle_handled]
      refine .right _ ?_
      have packets : (network.handled x after (front ++ sent ++ back)).packets =
          front ++ sent ++ back := rfl
      rw [Network.work, Network.work, network.toCall_handled, here, packets]
      simp only [List.map_append, List.sum_append, List.map_cons, List.sum_cons]
      omega

variable {known level : Nat} (positive : 0 < level) (bound : level ≤ L)
  (reached : level ≤ known + 1)
include positive bound reached

theorem Deployment.Holding.acc {network : Network α}
    (holding : deployment.Holding known level network) :
    Acc (fun next current => Step deployment.site level current next) network := by
  refine Acc.intro network fun next step => ?_
  obtain ⟨move, later⟩ := holding.step sound fits positive bound reached step
  have falls := move.measure_lt sound fits
  exact later.acc
termination_by (network.idle, network.work deployment L)
decreasing_by exact falls

omit [Fintype α] in
theorem Deployment.Holding.exists_call (holding : deployment.Holding known level network) {x : α}
    {call : Call} {rest : List Call} (pending : (network.process x).pending = some (call :: rest))
    (waited : call = .query → network.Stored) :
    ∃ next, Step deployment.site level network next := by
  obtain ⟨packet, made, -, calls⟩ := holding.calls sound fits positive bound reached pending
  have answers : Answers deployment.site x packet → network.Stored := by
    rintro ⟨oper, -⟩
    cases call with
    | query => exact waited rfl
    | publish bucket =>
        obtain ⟨_, same, -, publishes, -⟩ := ((holding.pending x _ pending).1 _
          List.mem_cons_self).packet_eq sound fits positive bound
        obtain ⟨neighbor, point, rfl⟩ := publishes bucket rfl
        obtain rfl := Option.some.inj (same.symm.trans made)
        exact (query_ne_publish oper.symm).elim
  obtain ⟨after, sent, routed, -⟩ := calls answers
  exact ⟨_, .call x pending made answers routed⟩

omit [Fintype α] in
theorem Deployment.Holding.exists_receive (holding : deployment.Holding known level network) {x : α}
    {packet : Packet} (member : (x, packet) ∈ network.packets)
    (waited : packet.oper = RDV_QUERY → network.Stored) :
    ∃ next, Step deployment.site level network next := by
  obtain ⟨front, back, here⟩ := List.append_of_mem member
  obtain ⟨after, sent, processed, -⟩ := holding.receives sound fits positive bound reached here
    fun answers => waited answers.1
  exact ⟨_, .receive x here (holding.alive x).2 (fun answers => waited answers.1) processed⟩

omit [Fintype α] in
/-- What waits for the publications of a level does not wait forever. -/
theorem Deployment.Holding.exists_step (holding : deployment.Holding known level network)
    (busy : ¬network.Quiet) : ∃ next, Step deployment.site level network next := by
  by_cases waiting : ∃ x, (network.process x).pending = none
  · obtain ⟨x, none⟩ := waiting
    exact ⟨_, .enter x none⟩
  have entered (x : α) : ∃ pending, (network.process x).pending = some pending :=
    Option.ne_none_iff_exists'.mp fun none => waiting ⟨x, none⟩
  by_cases publishing : ∃ entry ∈ network.packets, entry.2.oper = RDV_PUBLISH
  · obtain ⟨⟨x, packet⟩, member, oper⟩ := publishing
    refine holding.exists_receive sound fits positive bound reached member fun query => ?_
    exact (query_ne_publish (query.symm.trans oper)).elim
  by_cases calling : ∃ x pending bucket, (network.process x).pending = some pending ∧
    .publish bucket ∈ pending
  · obtain ⟨x, pending, bucket, called, member⟩ := calling
    obtain ⟨call, rest, rfl⟩ := List.exists_cons_of_ne_nil (List.ne_nil_of_mem member)
    refine holding.exists_call sound fits positive bound reached called ?_
    rintro rfl
    rw [(holding.pending x _ called).2 List.mem_cons_self, List.mem_singleton] at member
    cases member
  have stored : network.Stored := by
    refine ⟨fun x => ?_, fun entry member oper => publishing ⟨entry, member, oper⟩⟩
    obtain ⟨pending, called⟩ := entered x
    exact ⟨pending, called, fun bucket member => calling ⟨x, pending, bucket, called, member⟩⟩
  by_cases empty : network.packets = []
  · obtain ⟨x, left⟩ := not_forall.mp fun all => busy ⟨empty, all⟩
    obtain ⟨pending, called⟩ := entered x
    cases pending with
    | nil => exact (left called).elim
    | cons call rest =>
        exact holding.exists_call sound fits positive bound reached called fun _ => stored
  · obtain ⟨⟨x, packet⟩, member⟩ := List.exists_mem_of_ne_nil _ empty
    exact holding.exists_receive sound fits positive bound reached member fun _ => stored

theorem Deployment.Holding.finishes {network : Network α}
    (holding : deployment.Holding known level network) :
    ∃ after, Relation.ReflTransGen (Step deployment.site level) network after ∧ after.Quiet := by
  have finite := holding.acc sound fits positive bound reached
  induction finite with
  | intro network _ ih =>
      by_cases quiet : network.Quiet
      · exact ⟨network, .refl, quiet⟩
      · obtain ⟨next, step⟩ := holding.exists_step sound fits positive bound reached quiet
        obtain ⟨after, steps, done⟩ := ih next step
          (holding.step sound fits positive bound reached step).2
        exact ⟨after, .head step steps, done⟩

end Progress

end SimPy

end Veil
