import Mathlib.Tactic.FinCases
import Veil.SimPy.FirstTables
import Veil.SimPy.LevelProgress

/-! The rounds of the Python switches fill the buckets level by level, and every round routes the
packets of the next one. -/

namespace Veil

namespace SimPy

section Rounds

variable {α : Type} [DecidableEq α] {deployment : Deployment α} {L : Nat}
  (sound : deployment.Sound L)
  (fits : deployment.Fits L)
include sound fits

open Deployment

theorem Deployment.Settled.levels {known start count : Nat} {before after : Network α}
    (settled : deployment.Settled known before) (quiet : before.Quiet) (positive : 0 < start)
    (bound : ∀ level ∈ List.range' start count, level ≤ L) (reached : start ≤ known + 1)
    (levels : Levels deployment.site (List.range' start count) before after) :
    (∃ later, known ≤ later ∧ start + count ≤ later + 1 ∧ deployment.Settled later after) ∧
      after.Quiet := by
  induction count generalizing start known before with
  | zero =>
      cases levels
      exact ⟨⟨known, by omega, reached, settled⟩, quiet⟩
  | succ count ih =>
      cases levels with
      | cons level rest =>
          have first := bound start List.mem_cons_self
          obtain ⟨⟨later, grows, done, result⟩, still⟩ := ih
            (settled.completes sound fits positive first reached quiet level) level.2
              (Nat.succ_pos start)
            (fun level member => bound level (List.mem_cons_of_mem _ member)) (by omega) rest
          exact ⟨⟨later, by omega, by omega, result⟩, still⟩

theorem Deployment.Settled.exists_levels [Fintype α] {known start count : Nat} {before : Network α}
    (settled : deployment.Settled known before) (quiet : before.Quiet) (positive : 0 < start)
    (bound : ∀ level ∈ List.range' start count, level ≤ L) (reached : start ≤ known + 1) :
    ∃ after, Levels deployment.site (List.range' start count) before after := by
  induction count generalizing start known before with
  | zero => exact ⟨before, .nil⟩
  | succ count ih =>
      have first := bound start List.mem_cons_self
      obtain ⟨middle, steps, still⟩ :=
        (settled.opened quiet).finishes sound fits positive first reached
      obtain ⟨after, rest⟩ := ih
        (settled.completes sound fits positive first reached quiet ⟨steps, still⟩) still
          (Nat.succ_pos start)
        (fun level member => bound level (List.mem_cons_of_mem _ member)) (by omega)
      exact ⟨after, .cons ⟨steps, still⟩ rest⟩

structure Deployment.Ready (deployment : Deployment α) (L round : Nat) (network : Network α) :
    Prop where
  bound : round ≤ max L 1
  quiet : network.Quiet
  settled : ∃ known, 1 ≤ known ∧ round ≤ known + 1 ∧ deployment.Settled known network

omit [DecidableEq α] sound fits in
theorem Deployment.Ready.bound_levels {round : Nat} {network : Network α}
    (ready : deployment.Ready L round network) :
    ∀ level ∈ List.range' 2 (round - 1), level ≤ L := by
  intro level member
  have bound := ready.bound
  rw [List.mem_range'_1] at member
  omega

theorem Deployment.Ready.round {round : Nat} {before after : Network α}
    (ready : deployment.Ready L round before)
    (run : RunsARound deployment.site round before after) :
    deployment.Ready L (nextRound L round) after ∧
      ∃ known, round ≤ known ∧ deployment.Settled known after := by
  obtain ⟨known, some, -, settled⟩ := ready.settled
  obtain ⟨⟨later, grows, done, result⟩, quiet⟩ :=
    settled.levels sound fits ready.quiet (Nat.succ_pos 1)
    ready.bound_levels (Nat.succ_le_succ some) run
  have bound := ready.bound
  refine ⟨⟨?_, quiet, later, by omega, ?_, result⟩, later, by omega, result⟩
  · rw [nextRound]
    split <;> omega
  · rw [nextRound]
    split <;> omega

omit fits in
theorem Deployment.Sound.initial_ready {walk : α → List (List Bool)} {tables : α → Tables}
    (perm : ∀ x, (walk x).Perm (deployment.site x).vid2pid.keys)
    (started : ∀ x, firstTables (deployment.site x) (walk x) = some (tables x)) :
    deployment.Ready L 1 (initial tables) := by
  have right (x : α) : deployment.Right x (tables x) := by
    obtain ⟨_, result, right⟩ := sound.firstTables_eq x (perm x)
    obtain rfl := Option.some.inj (result.symm.trans (started x))
    exact right
  exact ⟨Nat.le_max_right L 1, ⟨rfl, fun _ => rfl⟩, 1, Nat.le_refl 1, by omega,
    ⟨fun _ => ⟨rfl, rfl⟩, right, fun x => (right x).filled_two sound⟩⟩

theorem Deployment.Sound.ready {round : Nat} {before : Network α}
    (starts : Starts deployment.site L round before) : deployment.Ready L round before := by
  induction starts with
  | first perm started => exact sound.initial_ready perm started
  | next _ run ih => exact (ih.round sound fits run).1

omit fits in
theorem Deployment.Sound.exists_starts : ∃ before, Starts deployment.site L 1 before := by
  have started (x : α) := sound.firstTables_eq x (List.Perm.refl (deployment.site x).vid2pid.keys)
  choose tables result right using started
  exact ⟨initial tables, .first (fun x => List.Perm.refl _) result⟩

omit sound fits in
/-- A switch hands a packet for `target` to a neighbour and sends nothing else. -/
def Deployment.Forwards (deployment : Deployment α) (network : Network α) (packet : Packet)
    (target x y : α) : Prop :=
  getNextHop (deployment.site x) (network.process x).tables (deployment.vid target) =
      some (some y) ∧
    routepacket (deployment.site x) recursionLimit (network.process x).tables packet =
      some ((network.process x).tables, [(y, packet)]) ∧
    processPacket (deployment.site x) recursionLimit (network.process x).tables packet =
      some ((network.process x).tables, [(y, packet)])

structure Deployment.FilledBuckets (deployment : Deployment α) (L round : Nat)
    (network : Network α) : Prop where
  buckets : ∀ x k, k ≤ round → ((∃ bucket rest,
    (network.process x).tables.routingTable.lookup k = some (bucket :: rest)) ↔
      ∃ y, y ≠ x ∧ deployment.distance x y = k)
  nexthops : ∀ x k buckets, (network.process x).tables.routingTable.lookup k = some buckets →
    ∀ bucket ∈ buckets, ∃ y, deployment.Adjacent x y ∧
      bucket.nexthop = BitString.value (deployment.vid y)
  delivery : ∀ packet source target, getDest packet L = deployment.vid target →
    deployment.distance source target ≤ round → ∃ path,
      GatewayRouting.Path (deployment.Forwards network packet target) target source path ∧
        path.Nodup

omit fits in
theorem Deployment.Settled.forwards {known : Nat} {network : Network α}
    (settled : deployment.Settled known network) {packet : Packet} {source target : α}
    (dest : getDest packet L = deployment.vid target)
    (near : deployment.distance source target ≤ known) (apart : source ≠ target) :
    ∃ next, deployment.Forwards network packet target source next ∧
      deployment.Hop source (deployment.distance source target) next := by
  have own : getDest packet (deployment.site source).L = deployment.vid target := by
    rwa [sound.L_site]
  have filled := settled.filled source _ (sound.tree.pos_iff.mpr apart) (Nat.lt_succ_of_le near)
    ⟨target, rfl⟩
  obtain ⟨next, hopped, routed, -, hop⟩ :=
    (settled.right source).routepacket_eq sound apart (Or.inr filled) own
  refine ⟨next, ⟨hopped, routed 999, ?_⟩, hop⟩
  exact (sound.processPacket_elsewhere apart own _ 999).trans (routed 998)

omit fits in
theorem Deployment.Settled.filledBuckets {known round : Nat} {network : Network α}
    (settled : deployment.Settled known network) (reached : round ≤ known) :
    deployment.FilledBuckets L round network := by
  refine ⟨fun x k bound => ⟨?_, ?_⟩, fun x k buckets found bucket member => ?_,
    fun packet source target dest near => ?_⟩
  · rintro ⟨bucket, rest, found⟩
    exact (settled.right x).exists_switch sound (HashTable.mem_of_lookup found)
  · rintro ⟨y, other, away⟩
    have positive : 0 < k := away ▸ sound.tree.pos_iff.mpr other.symm
    have present := settled.filled x k positive (by omega) ⟨y, away⟩
    obtain ⟨buckets, found⟩ := (HashTable.mem_iff_lookup _ _).mp present
    obtain ⟨bucket, rest, rfl⟩ :=
      List.exists_cons_of_ne_nil ((settled.right x).bucket k buckets found).1
    exact ⟨bucket, rest, found⟩
  · obtain ⟨y, nexthop, adjacent, -⟩ := ((settled.right x).bucket k buckets found).2 bucket member
    exact ⟨y, adjacent, nexthop⟩
  · refine GatewayRouting.exists_path (fun x => deployment.distance x target ≤ known)
      (fun x => GatewayRouting.rank deployment.distance (fun _ => True) deployment.Adjacent x
        (deployment.distance x target)) (fun x inside apart => ?_) source (near.trans reached)
    obtain ⟨next, forwards, hop⟩ := settled.forwards sound dest inside apart
    exact ⟨next, (sound.hop_near apart hop).trans inside, forwards, hop.rank_lt sound.tree apart⟩

/-- The rounds always come to an end, and after a round every bucket up to its number is filled with
neighbours and every packet that far reaches its switch. -/
theorem rounds_fill_buckets [Fintype α] :
    (∃ before, Starts deployment.site L 1 before) ∧
      ∀ round before, Starts deployment.site L round before →
        (∃ after, RunsARound deployment.site round before after) ∧
          ∀ after, RunsARound deployment.site round before after →
            deployment.FilledBuckets L round after := by
  refine ⟨sound.exists_starts, fun round before starts => ⟨?_, fun after run => ?_⟩⟩
  · obtain ⟨bound, quiet, known, some, -, settled⟩ := sound.ready fits starts
    exact settled.exists_levels sound fits quiet (Nat.succ_pos 1)
      (sound.ready fits starts).bound_levels (Nat.succ_le_succ some)
  · obtain ⟨-, known, reached, settled⟩ := (sound.ready fits starts).round sound fits run
    exact settled.filledBuckets sound reached

end Rounds

def between (zeros : Nat) : Deployment (Fin 3) where
  neighbors := fun x => (List.finRange 3).filter fun y => decide (x.val = 0) != decide (y.val = 0)
  vid := fun x => (true :: List.replicate zeros false) ++
    if x.val = 0 then [false, false] else if x.val = 1 then [false, true] else [true, false]

theorem between_adjacent {zeros : Nat} (x y : Fin 3) :
    (between zeros).Adjacent x y ↔ (x = 0 ∧ y ≠ 0) ∨ (x ≠ 0 ∧ y = 0) := by
  fin_cases x <;> fin_cases y <;> simp [between, Deployment.Adjacent]

theorem between_near {zeros : Nat} (x y : Fin 3) {d : Nat} (positive : 1 ≤ d) :
    delta ((between zeros).vid x) ((between zeros).vid y) ≤ d ↔
      x = y ∨ 2 ≤ d ∨ (x ≠ 2 ∧ y ≠ 2) := by
  simp only [between, delta_append]
  fin_cases x <;> fin_cases y <;> simp [delta, positive]

theorem between_sound {zeros : Nat} (rendezvous : ∀ v : Fin 3, ∀ d < zeros + 4, 1 ≤ d →
    ∃ w, (between zeros).vid w = getRendezvousID d ((between zeros).vid v)) :
    (between zeros).Sound (zeros + 3) := by
  refine ⟨fun x y => ?_, fun x => ?_, fun v _ => ?_, fun v w _ _ same => ?_,
    fun v _ d positive _ => ?_,
    fun v _ d positive bound => ?_⟩
  · rw [between_adjacent, between_adjacent]
    tauto
  · rw [between_adjacent]
    tauto
  · fin_cases v <;> simp [between]
  · rw [between, List.append_cancel_left_eq] at same
    revert same
    fin_cases v <;> fin_cases w <;> simp
  · by_cases center : delta ((between zeros).vid v) ((between zeros).vid 0) ≤ d
    · have inside : True ∧ delta ((between zeros).vid v) ((between zeros).vid 0) ≤ d :=
        ⟨trivial, center⟩
      refine ConnectedWithin.of_center inside fun w _ other => ?_
      rw [between_adjacent, between_adjacent]
      exact ⟨Or.inr ⟨other, rfl⟩, Or.inl ⟨rfl, other⟩⟩
    · rw [between_near v 0 positive] at center
      refine (ConnectedWithin.singleton _ v).congr fun w => ?_
      rw [between_near v w positive]
      tauto
  · obtain ⟨w, same⟩ := rendezvous v d (by omega) positive
    exact ⟨w, trivial, same⟩

theorem between_zero_fills :
    (between 0).Sound 3 ∧ (between 0).Fits 3 ∧ (∃ before, Starts (between 0).site 3 1 before) ∧
      ∀ round before, Starts (between 0).site 3 round before →
        (∃ after, RunsARound (between 0).site round before after) ∧
          ∀ after, RunsARound (between 0).site round before after →
            (between 0).FilledBuckets 3 round after := by
  have sound : (between 0).Sound 3 := between_sound (by decide)
  have fits : (between 0).Fits 3 := ⟨by decide, by decide⟩
  exact ⟨sound, fits, rounds_fill_buckets sound fits⟩

section Silent

variable {α : Type} {site : α → Site α} (long : ∀ x, 2 ^ 32 ≤ BitString.value (site x).myvid)
include long

theorem Call.packet_eq_none (x : α) (i : Nat) (call : Call) : call.packet (site x) i = none := by
  have none : pack (BitString.value (site x).myvid) = none := if_neg (Nat.not_lt.mpr (long x))
  cases call with
  | publish bucket =>
      rw [packet, createRDV_PUBLISH, none]
      rfl
  | query =>
      rw [packet, createRDV_QUERY, none]
      rfl

variable [DecidableEq α] {i : Nat}

theorem Network.silent_switch {network : Network α} {x : α}
    (waiting : (network.process x).pending = none) :
    ∃ process, process.tables = (network.process x).tables ∧ process.pending = some [] ∧
      Relation.ReflTransGen (Step site i) network (network.set x process network.packets) := by
  have entered := @Step.enter α _ site i network x waiting
  generalize called : (if (network.process x).running
      then calls (site x) (network.process x).tables i
    else []) = pending at entered
  cases pending with
  | nil => exact ⟨{ network.process x with pending := some [] }, rfl, rfl, .single entered⟩
  | cons call rest =>
      have failed := @Step.uncaught α _ site i (network.set x
        { network.process x with pending := some (call :: rest) } network.packets) x call rest
        (by rw [process_set]) (by simp [Call.packet_eq_none long])
      rw [process_set, set_set] at failed
      exact ⟨{ network.process x with running := false, pending := some [] }, rfl, rfl,
        .tail (.single entered) failed⟩

theorem Network.silent (xs : List α) (unique : xs.Nodup) (network : Network α)
    (waiting : ∀ x ∈ xs, (network.process x).pending = none) :
    ∃ after, Relation.ReflTransGen (Step site i) network after ∧ after.packets = network.packets ∧
      (∀ x, (after.process x).tables = (network.process x).tables) ∧
      (∀ x ∈ xs, (after.process x).pending = some []) ∧
      ∀ x, x ∉ xs → after.process x = network.process x := by
  induction xs generalizing network with
  | nil => exact ⟨network, .refl, rfl, fun _ => rfl, nofun, fun _ _ => rfl⟩
  | cons x xs ih =>
      obtain ⟨absent, rest⟩ := List.nodup_cons.mp unique
      obtain ⟨process, tables, done, steps⟩ :=
        network.silent_switch long (i := i) (waiting x List.mem_cons_self)
      obtain ⟨after, further, packets, same, all, others⟩ :=
        ih rest (network.set x process network.packets)
        fun y member => by
          rw [network.process_set_ne (ne_of_mem_of_not_mem member absent)]
          exact waiting y (List.mem_cons_of_mem x member)
      refine ⟨after, steps.trans further, packets, fun y => (same y).trans ?_, fun y member => ?_,
        fun y outside => ?_⟩
      · exact network.tables_set tables
      · rcases List.mem_cons.mp member with rfl | later
        · rw [others y absent, process_set]
          exact done
        · exact all y later
      · rw [List.mem_cons, not_or] at outside
        rw [others y outside.2, network.process_set_ne outside.1]

theorem exists_silent_level [Fintype α] {before : Network α} (quiet : before.Quiet) :
    ∃ after, Level site i before after ∧
      ∀ x, (after.process x).tables = (before.process x).tables := by
  obtain ⟨after, steps, packets, same, done, -⟩ := Network.silent long (i := i) Finset.univ.toList
    (Finset.nodup_toList _) before.opened fun _ _ => rfl
  exact ⟨after, ⟨steps, packets.trans quiet.1,
    fun x => done x (Finset.mem_toList.mpr (Finset.mem_univ x))⟩,
    same⟩

end Silent

theorem rounds_leave_bucket : ¬∀ (deployment : Deployment (Fin 3)) (L : Nat), deployment.Sound L →
    ∀ round before, Starts deployment.site L round before →
      ∀ after, RunsARound deployment.site round before after →
        deployment.FilledBuckets L round after := by
  intro always
  have sound : (between 30).Sound 33 := between_sound (by decide +kernel)
  have started (x : Fin 3) := sound.firstTables_eq x
    (List.Perm.refl ((between 30).site x).vid2pid.keys)
  choose tables result right using started
  have first : Starts (between 30).site 33 1 (initial tables) :=
    .first (fun x => List.Perm.refl _) result
  have second : Starts (between 30).site 33 2 (initial tables) := .next first .nil
  have long : ∀ x, 2 ^ 32 ≤ BitString.value ((between 30).site x).myvid := by decide +kernel
  have quiet : (initial tables).Quiet := ⟨rfl, fun _ => rfl⟩
  obtain ⟨after, level, same⟩ := exists_silent_level long (i := 2) quiet
  have filled := always _ 33 sound 2 _ second after (.cons level .nil)
  have computed : (firstTables ((between 30).site 1) ((between 30).site 1).vid2pid.keys).map
      (fun tables => tables.routingTable.lookup 2) = some none := by decide +kernel
  rw [result 1, Option.map_some, Option.some.injEq] at computed
  have away : (between 30).distance 1 2 = 2 := by decide +kernel
  obtain ⟨bucket, rest, found⟩ := (filled.buckets 1 2 (Nat.le_refl 2)).mpr ⟨2, by decide, away⟩
  rw [same 1] at found
  cases computed.symm.trans found

end SimPy

end Veil
