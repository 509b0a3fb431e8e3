import Veil.ControlPlane
import Veil.Library.Draining

/-! The packets of the control plane die out: a hop lowers the time to live, and a query is
answered once. -/

namespace Veil

namespace ControlNetwork

open Draining (Handles)

variable {Switch : Type}

/-- More than the number of elements that a frame and what comes of it can still enter one after
another. -/
def lifetime (arrival : Arrival Switch) : Nat :=
  (if arrival.frame.veilType = veilRdvQuery then 1024 else 0) + 2 * arrival.frame.ttl.toNat +
    match arrival.element with
    | .classifier => 2
    | .router => 1

variable {net : ControlNetwork Switch}

theorem lifetime_outputs {s : Switch} {r : RoutePacket} {frame sent : Frame} {port : Int}
    (kind : sent.veilType = frame.veilType) (older : sent.ttl.toNat < frame.ttl.toNat) :
    ∀ other ∈ net.outputs s r sent port, lifetime other < lifetime ⟨s, .router, frame⟩ := by
  have shorter (t : Switch) {copy : Frame} (same : copy.veilType =
      sent.veilType) (still : copy.ttl = sent.ttl) :
      lifetime ⟨t, .classifier, copy⟩ < lifetime ⟨s, .router, frame⟩ := by
    simp only [lifetime, same, still, kind]
    omega
  intro other member
  rw [outputs] at member
  split at member
  · rw [List.mem_singleton.mp member]
    exact shorter s rfl rfl
  · split at member
    · obtain ⟨place, -, rfl⟩ := List.mem_map.mp member
      exact shorter place.1 rfl rfl
    · cases member

theorem lifetime_enter {arrival : Arrival Switch} (control : isRendezvous arrival.frame)
    (tables : ControlSwitch) :
    ∀ other ∈ (net.enter tables arrival).2, lifetime other < lifetime arrival := by
  obtain ⟨s, element, frame⟩ := arrival
  cases element with
  | classifier =>
      have outcome := tables.processor.smaction_outcome control
      simp only [enter, if_pos control]
      generalize tables.processor.smaction frame = result at outcome
      cases outcome with
      | elsewhere => exact List.forall_mem_nil _
      | forwarded =>
          refine List.forall_mem_singleton.mpr ?_
          simp only [lifetime]
          omega
      | answered _ kind =>
          refine List.forall_mem_singleton.mpr ?_
          have asked : frame.veilType = veilRdvQuery := kind
          have short : maxTtl.toNat < 256 := maxTtl.isLt
          simp only [lifetime, ProcessRDV.queryReply, asked, query_ne_reply.symm, if_true, if_false]
          omega
      | unanswered => exact List.forall_mem_nil _
      | published => exact List.forall_mem_nil _
      | learned => exact List.forall_mem_nil _
  | router =>
      simp only [enter, tables.router.smaction_rendezvous control]
      cases tables.router.ownVid frame.dhost frame.shost frame.dhost frame.shost
        frame.svid.getSwitchVID with
      | none =>
          intro other member
          rw [outputs, if_neg, if_neg] at member
          · cases member
          · exact fun range => absurd (show (0 : Int) ≤ -1 from range.1) (by decide)
          · dsimp only
            omega
      | some myVid =>
          dsimp only
          by_cases dead : frame.ttl = 0
          · intro other member
            rw [if_pos dead, outputs, if_neg (by omega), if_neg (by omega)] at member
            cases member
          · refine lifetime_outputs rfl ?_
            have alive : frame.ttl.toNat ≠ 0 := fun zero => dead (BitVec.eq_of_toNat_eq zero)
            have one : (1 : BitVec 8).toNat = 1 := rfl
            have small := frame.ttl.isLt
            dsimp only
            rw [BitVec.toNat_sub, one]
            omega

variable [DecidableEq Switch]

theorem handles_of_handle {before after : ControlState Switch} (sound : net.Sound before) {i : Nat}
    (moves : net.Step before (.handle i) after) : Handles lifetime after.flight before.flight := by
  obtain ⟨arrival, found, rfl⟩ := Option.map_eq_some_iff.mp moves
  have honest := sound.honest arrival (List.mem_of_getElem? found)
  exact ⟨i, arrival, _, found, rfl, lifetime_enter honest.control _⟩

theorem handles_of_lose {before after : ControlState Switch} {i : Nat}
    (moves : net.Step before (.lose i) after) : Handles lifetime after.flight before.flight := by
  obtain ⟨arrival, found, rfl⟩ := Option.map_eq_some_iff.mp moves
  exact ⟨i, arrival, [], found, (List.append_nil _).symm, nofun⟩

theorem flight_of_step {before after : ControlState Switch} {action : ControlAction Switch}
    (sound : net.Sound before) (moves : net.Step before action after)
    (still : ∀ s, action ≠ .round s) :
    after.flight = before.flight ∨ Handles lifetime after.flight before.flight := by
  cases action with
  | round s => exact absurd rfl (still s)
  | handle i => exact Or.inr (handles_of_handle sound moves)
  | lose i => exact Or.inr (handles_of_lose moves)
  | hear => cases moves; exact Or.inl rfl
  | forget => cases moves; exact Or.inl rfl
  | expireBucket => cases moves; exact Or.inl rfl
  | expireEdge => cases moves; exact Or.inl rfl

/-- When no timer fires any more, the packets come to an end, whatever happens to the tables
meanwhile. -/
theorem packets_die_out (assigned : net.Assigned) {states : Nat → ControlState Switch}
    {actions : Nat → ControlAction Switch}
    (start : Transition.Reaches (· = net.initial) net.Step net.Allowed (states 0))
    (run : ∀ n, net.Allowed (states n) (actions n) ∧
      net.Step (states n) (actions n) (states (n + 1)))
    (still : ∀ n s, actions n ≠ .round s) :
    ∃ m, ∀ n, m ≤ n → ∀ i, actions n ≠ .handle i ∧ actions n ≠ .lose i := by
  have sound (n : Nat) : net.Sound (states n) := by
    induction n with
    | zero => exact sound_of_reaches assigned start
    | succ n ih => exact ih.step assigned (run n).1 (run n).2
  obtain ⟨m, quiet⟩ := @Draining.exists_forall_not_handles _ lifetime
    (fun n => (states n).flight) fun n =>
    flight_of_step (sound n) (run n).2 (still n)
  refine ⟨m, fun n later i => ⟨fun action => ?_, fun action => ?_⟩⟩
  · exact quiet n later (handles_of_handle (sound n) (action ▸ (run n).2))
  · exact quiet n later (handles_of_lose (action ▸ (run n).2))

def drain (state : ControlState VID) : ControlAction VID :=
  if state.flight.isEmpty then .expireEdge 0 ⟨0, 0⟩ else .handle 0

def drained : Nat → ControlState VID
  | 0 => lowRound
  | n + 1 => (lowLine.perform (drained n) (drain (drained n))).getD (drained n)

theorem drain_allowed (state : ControlState VID) : lowLine.Allowed state (drain state) := by
  rw [drain]
  split <;> trivial

theorem drained_step (n : Nat) :
    lowLine.Step (drained n) (drain (drained n)) (drained (n + 1)) := by
  have performs (state : ControlState VID) : ∃ after,
      lowLine.perform state (drain state) = some after := by
    rw [drain]
    cases waiting : state.flight with
    | nil => exact ⟨_, rfl⟩
    | cons arrival rest =>
        have found : state.flight[0]? = some arrival := by rw [waiting]; rfl
        exact ⟨_, Option.map_eq_some_iff.mpr ⟨arrival, found, rfl⟩⟩
  obtain ⟨after, moves⟩ := performs (drained n)
  rw [Step, drained, moves, Option.getD_some]

theorem drained_dies_out : ∃ m, ∀ n, m ≤ n → ∀ i,
    drain (drained n) ≠ .handle i ∧ drain (drained n) ≠ .lose i := by
  refine packets_die_out lowLine_assigned lowRound_reached
    (fun n => ⟨drain_allowed _, drained_step n⟩) ?_
  intro n s
  rw [drain]
  split <;> nofun

end ControlNetwork

end Veil
