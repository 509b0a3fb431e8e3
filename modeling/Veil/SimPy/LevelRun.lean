import Veil.SimPy.LevelInvariant

/-! A level from its start to its end: every step keeps what holds in it, and the steps come to an
end. -/

namespace Veil

namespace SimPy

section Level

variable {α : Type} [DecidableEq α] {deployment : Deployment α} {L known level : Nat}
  (sound : deployment.Sound L) (fits : deployment.Fits L) (positive : 0 < level) (bound : level ≤ L)
  (reached : level ≤ known + 1)

open Deployment

section Steps

variable {network : Network α} {x : α} {packet : Packet}

inductive Deployment.Move (deployment : Deployment α) (level : Nat) (network : Network α) :
    Network α → Prop
  | enter {x pending} : (network.process x).pending = none → Move deployment level network
      (network.set x { network.process x with pending := some pending } network.packets)
  | call {x call rest packet after sent} : (network.process x).pending = some (call :: rest) →
      deployment.Good level x packet →
      deployment.Outcome level x (network.process x).tables packet after sent →
      Move deployment level network (network.set x
        { network.process x with tables := after, pending := some rest } (network.packets ++ sent))
  | receive {x front packet back after sent} : network.packets = front ++ (x, packet) :: back →
      deployment.Outcome level x (network.process x).tables packet after sent →
      Move deployment level network (network.handled x after (front ++ sent ++ back))

include sound fits positive bound

theorem Deployment.Good.exists_asker (good : deployment.Good level x packet)
    (answers : Answers deployment.site x packet) : ∃ asker, deployment.IsPoint level asker x := by
  obtain ⟨oper, dest⟩ := answers
  cases good with
  | publication => exact (query_ne_publish oper.symm).elim
  | @question asker point isPoint =>
      rw [sound.getDest_word fits (Nat.lt_of_lt_of_le positive bound) x rfl] at dest
      exact ⟨asker, sound.injective dest ▸ isPoint⟩
  | answer => exact (reply_ne_query oper).elim

theorem Deployment.Holding.complete_at (holding : deployment.Holding known level network)
    (good : deployment.Good level x packet)
    (waited : Answers deployment.site x packet → network.Stored)
    (answers : Answers deployment.site x packet) (gateway : α)
    (isGateway : deployment.IsGateway x level gateway) :
    deployment.Keeps level gateway (network.process x).tables := by
  obtain ⟨asker, isPoint⟩ := good.exists_asker sound fits positive bound answers
  obtain ⟨neighbor, -, adjacent, far⟩ := (isGateway.move sound.tree isGateway.near).leads
  have askerNear : deployment.distance asker x < level := by
    rw [Deployment.distance, isPoint]
    exact delta_getRendezvousID positive (bound.trans_eq (sound.length asker).symm)
  have near : deployment.distance asker gateway < level :=
    sound.tree.lt_trans askerNear isGateway.near
  have samePoint : deployment.IsPoint level gateway x := isPoint.trans
    (getRendezvousID_congr ((sound.length asker).trans (sound.length gateway).symm) positive
      (bound.trans_eq (sound.length asker).symm) near)
  exact holding.complete (waited answers) adjacent far samePoint

variable (reached : level ≤ known + 1)
include reached

theorem Deployment.Holding.receives (holding : deployment.Holding known level network)
    {front back : List (α × Packet)} (here : network.packets = front ++ (x, packet) :: back)
    (waited : Answers deployment.site x packet → network.Stored) :
    ∃ after sent, processPacket (deployment.site x) recursionLimit
      (network.process x).tables packet =
        some (after, sent) ∧
      deployment.Outcome level x (network.process x).tables packet after sent ∧
      deployment.Holding known level (network.handled x after (front ++ sent ++ back)) := by
  have good := holding.good x packet (here ▸ by simp)
  have complete := holding.complete_at sound fits positive bound good waited
  have filled : deployment.Filled level x (network.process x).tables := fun k positive below =>
    holding.filled x k positive (Nat.lt_of_lt_of_le below reached)
  obtain ⟨after, sent, processed, right, outcome⟩ :=
    (holding.right x).handles sound fits filled bound good complete 997
  exact ⟨after, sent, processed, outcome,
    holding.handle sound fits here outcome positive bound complete right⟩

theorem Deployment.Holding.calls (holding : deployment.Holding known level network) {call : Call}
    {rest : List Call} (pending : (network.process x).pending = some (call :: rest)) :
    ∃ packet, call.packet (deployment.site x) level = some packet ∧ deployment.Good level x packet ∧
      ((Answers deployment.site x packet → network.Stored) → ∃ after sent,
        routepacket (deployment.site x) recursionLimit (network.process x).tables packet =
          some (after, sent) ∧
        deployment.Outcome level x (network.process x).tables packet after sent ∧
        deployment.Holding known level
          (network.set x { network.process x with tables := after, pending := some rest }
            (network.packets ++ sent))) := by
  obtain ⟨packet, made, emitted⟩ := holding.emit sound fits positive bound pending
  have good := emitted.good x packet (List.mem_append_right _ (List.mem_singleton_self _))
  refine ⟨packet, made, good, fun waited => ?_⟩
  have complete := holding.complete_at sound fits positive bound good waited
  have filled : deployment.Filled level x (network.process x).tables := fun k positive below =>
    holding.filled x k positive (Nat.lt_of_lt_of_le below reached)
  obtain ⟨after, sent, routed, right, outcome⟩ :=
    (holding.right x).routes sound fits filled bound good complete 996
  have now :
      deployment.Outcome level x ((network.set x { network.process x with pending := some rest }
      (network.packets ++ [(x, packet)])).process x).tables packet after sent := by
    rwa [Network.process_set]
  have handled := emitted.handle sound fits rfl now positive bound
    (by rwa [Network.process_set]) right
  rw [Network.handled, Network.process_set, Network.set_set, List.append_nil] at handled
  exact ⟨after, sent, routed, outcome, handled⟩

theorem Deployment.Holding.step (holding : deployment.Holding known level network)
    {next : Network α} (step : Step deployment.site level network next) :
    deployment.Move level network next ∧ deployment.Holding known level next := by
  cases step with
  | enter x waiting => exact ⟨.enter waiting, holding.enter x⟩
  | call x pending made waited routed =>
      obtain ⟨packet, same, good, calls⟩ := holding.calls sound fits positive bound reached pending
      obtain rfl := Option.some.inj (same.symm.trans made)
      obtain ⟨after, sent, result, outcome, later⟩ := calls waited
      rw [result, Option.some.injEq, Prod.mk.injEq] at routed
      obtain ⟨rfl, rfl⟩ := routed
      exact ⟨.call pending good outcome, later⟩
  | uncaught x pending raised =>
      obtain ⟨packet, made, -, calls⟩ := holding.calls sound fits positive bound reached pending
      obtain ⟨waited, none⟩ := raised packet made
      obtain ⟨after, sent, result, -⟩ := calls waited
      rw [result] at none
      cases none
  | receive x here _ waited processed =>
      obtain ⟨after, sent, result, outcome, later⟩ :=
        holding.receives sound fits positive bound reached here waited
      rw [result, Option.some.injEq, Prod.mk.injEq] at processed
      obtain ⟨rfl, rfl⟩ := processed
      exact ⟨.receive here outcome, later⟩
  | uncaughtServing x here _ waited raised =>
      obtain ⟨after, sent, result, -⟩ :=
        holding.receives sound fits positive bound reached here waited
      rw [result] at raised
      cases raised
  | lost x _ stopped =>
      rw [(holding.alive x).2] at stopped
      cases stopped

end Steps

omit [DecidableEq α] in
theorem Deployment.Settled.opened {before : Network α} (settled : deployment.Settled known before)
    (quiet : before.Quiet) : deployment.Holding known level before.opened where
  alive := settled.alive
  right := settled.right
  filled := settled.filled
  good := by
    intro x packet member
    rw [Network.opened, quiet.1] at member
    exact (List.not_mem_nil member).elim
  pending := nofun
  published := fun _ _ _ _ => .waiting rfl
  asked := fun _ _ _ => .waiting rfl

omit [DecidableEq α] in
theorem Deployment.Holding.closed {after : Network α}
    (holding : deployment.Holding known level after) (quiet : after.Quiet)
    (reached : level ≤ known + 1) : deployment.Settled (max known level) after where
  alive := holding.alive
  right := holding.right
  filled := by
    intro x k positive below ⟨y, away⟩
    by_cases before : k < known + 1
    · exact holding.filled x k positive before ⟨y, away⟩
    · obtain rfl : k = level := by omega
      have empty {entry : α × Packet} (member : entry ∈ after.packets) : False := by
        rw [quiet.1] at member
        exact List.not_mem_nil member
      cases holding.asked x y away with
      | filled present => exact present
      | waiting none =>
          rw [quiet.2 x] at none
          cases none
      | called some member =>
          rw [quiet.2 x, Option.some.injEq] at some
          exact (List.not_mem_nil (some ▸ member)).elim
      | sent member => exact (empty member).elim
      | replied member => exact (empty member).elim

section Run

include sound fits positive bound reached

theorem Deployment.Settled.reaches {before network : Network α}
    (settled : deployment.Settled known before) (quiet : before.Quiet)
    (steps : Relation.ReflTransGen (Step deployment.site level) before.opened network) :
    deployment.Holding known level network := by
  induction steps with
  | refl => exact settled.opened quiet
  | tail _ step ih => exact (ih.step sound fits positive bound reached step).2

theorem Deployment.Settled.completes {before after : Network α}
    (settled : deployment.Settled known before) (quiet : before.Quiet)
    (completed : Level deployment.site level before after) :
    deployment.Settled (max known level) after :=
  (settled.reaches sound fits positive bound reached quiet completed.1).closed completed.2 reached

end Run

end Level

end SimPy

end Veil
