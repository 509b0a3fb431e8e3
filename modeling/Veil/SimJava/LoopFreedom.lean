import Veil.Library.DirectedRouting
import Veil.SimJava.DataForwarding

/-! The way of a data packet. Its forwarding directive holds one gateway, so that a hop towards
that gateway draws the gateways of lower levels again. -/

namespace Veil

namespace SimJava

theorem longestCommonPrefixLength_add_delta {s t : List Bool} (same : s.length = t.length) :
    longestCommonPrefixLength s t + SimPy.delta s t = s.length := by
  induction s generalizing t with
  | nil => cases t <;> rfl
  | cons bit s ih =>
      obtain ⟨other, t, rfl⟩ := List.exists_cons_of_length_eq_add_one same.symm
      have tail := ih (Nat.succ.inj same)
      rw [longestCommonPrefixLength, SimPy.delta]
      split
      · rw [List.length_cons, ← tail]
        omega
      · rw [Nat.zero_add, List.length_cons]

theorem Vid.distance_eq (v w : Vid) : v.distance w = SimPy.delta v.bits w.bits := by
  have both := longestCommonPrefixLength_add_delta (v.length.trans w.length.symm)
  rw [v.length] at both
  rw [distance, vidDist]
  omega

theorem Vid.isTreeDistance : IsTreeDistance Vid.distance := by
  have tree : IsTreeDistance fun v w : Vid => SimPy.delta v.bits w.bits :=
    SimPy.isTreeDistance_delta Vid.length fun _ _ same => Vid.ext same
  rwa [show Vid.distance = fun v w => SimPy.delta v.bits w.bits from
    funext fun v => funext fun w => v.distance_eq w]

theorem Vid.received_low {v : Vid} (low : v.high = false) : v.received = some v := by
  rw [received, bitsOfHex_low low]
  exact dif_pos v.length

namespace RTable

variable {rtable : RTable} {myVid : Vid} {bucket draw : Nat}

theorem mem_of_entryLookup {entry : RTEntry}
    (found : rtable.entryLookup myVid bucket draw = some entry) :
    entry ∈ rtable ∧ entry.bucket = bucket := by
  have inside : entry ∈ rtable.filter fun entry => entry.bucket = bucket := by
    rw [entryLookup] at found
    split at found
    · rename_i own
      cases found
      exact List.mem_of_find?_eq_some own
    · exact List.mem_of_getElem? found
  obtain ⟨member, same⟩ := List.mem_filter.mp inside
  exact ⟨member, of_decide_eq_true same⟩

theorem exists_entryLookup
    (some_entry : 1 ≤ (rtable.filter fun entry => entry.bucket = bucket).length) :
    ∃ entry, rtable.entryLookup myVid bucket draw = some entry := by
  rw [entryLookup]
  split
  · exact ⟨_, rfl⟩
  · exact ⟨_, List.getElem?_eq_getElem (Nat.mod_lt draw some_entry)⟩

end RTable

namespace Network

variable (network : Network)

/-- A neighbor at the distance, or without one the nexthop, by the same rule, towards one of the
closest switches that have such a neighbor. -/
def ByClosest (v : Vid) (level : Nat) (nexthop : Vid) : Prop :=
  GatewayRouting.NextHop Vid.distance (· ∈ network.switches)
      (fun v w => w ∈ network.adj_hosts v) v level
    nexthop

/-- An entry that is drawn for a level whose gateway the packet does not carry. -/
def DrawnClosest (v target : Vid) (draw : Nat) : Prop :=
  ∀ entry, (network.rTable v).entryLookup v (v.distance target) draw = some entry →
    network.ByClosest v (v.distance target) entry.nexthop

/-- An entry whose gateway the packet carries from now on: any gateway, and the hop towards it. -/
def RecordedClosest (v target : Vid) (draw : Nat) : Prop :=
  ∀ entry, (network.rTable v).entryLookup v (v.distance target) draw = some entry →
    entry.gateway ≠ v →
    network.ByClosest v (v.distance entry.gateway) entry.nexthop

/-- The VIDs in the packet are numbers for `parseInt`, and what is drawn at the switch for a level
that is not recorded follows the rule of gateways. -/
structure Consistent (trip : Trip) (draw : Nat) : Prop where
  source_low : trip.packet.source.high = false
  dest_low : trip.packet.dest.high = false
  fwd_low : trip.packet.fwd.high = false
  case3 : trip.veil_ID ≠ trip.packet.dest → trip.packet.dest ∉ network.adj_hosts trip.veil_ID →
    trip.packet.fwd = trip.veil_ID → network.DrawnClosest trip.veil_ID trip.packet.dest draw
  case4 : trip.veil_ID ≠ trip.packet.dest → trip.packet.dest ∉ network.adj_hosts trip.veil_ID →
    trip.packet.fwd = trip.packet.dest → network.RecordedClosest trip.veil_ID trip.packet.dest draw
  case5 : trip.packet.dest ∉ network.adj_hosts trip.veil_ID → trip.packet.fwd ≠ trip.veil_ID →
    trip.packet.fwd ≠ trip.packet.dest → trip.packet.fwd ∉ network.adj_hosts trip.veil_ID →
    network.DrawnClosest trip.veil_ID trip.packet.fwd draw

abbrev Hop (dest : Vid) : Vid → Vid → Vid → Vid → Prop :=
  DirectedRouting.Hop Vid.distance (· ∈ network.switches) (fun v w => w ∈ network.adj_hosts v) dest

structure Underway (dest : Vid) (trip : Trip) : Prop where
  there : dest ∈ network.switches
  here : trip.veil_ID ∈ network.switches
  inside : ∀ v ∈ trip.visited, v ∈ network.switches
  target : trip.packet.dest = dest
  ahead : DirectedRouting.Ahead Vid.distance (· ∈ network.switches)
      (fun v w => w ∈ network.adj_hosts v) dest
    trip.veil_ID trip.packet.fwd trip.visited
  unique : trip.visited.Nodup

variable {network}

theorem ByClosest.mem {v nexthop : Vid} {level : Nat} (hop : network.ByClosest v level nexthop) :
    nexthop ∈ network.switches := by
  induction hop with
  | direct inside _ _ => exact inside
  | gateway _ _ _ _ ih => exact ih

theorem distance_lt {v nexthop target : Vid} (apart : v ≠ target)
    (across : v.distance nexthop = v.distance target) :
    nexthop.distance target < v.distance target :=
  Vid.isTreeDistance.lt_of_eq (by rwa [Vid.isTreeDistance.comm]) rfl
    (Vid.isTreeDistance.pos_iff.mpr apart)

theorem Converged.entry (converged : network.Converged) {v target : Vid} {draw : Nat}
    {entry : RTEntry} (here : v ∈ network.switches)
    (found : (network.rTable v).entryLookup v (v.distance target) draw = some entry) :
    (entry.gateway = v ∧ entry.nexthop ∈ network.adj_hosts v ∧
        v.distance entry.nexthop = v.distance target) ∨
      (entry.gateway ≠ v ∧ GatewayRouting.Gateway Vid.distance (· ∈ network.switches)
        (fun v w => w ∈ network.adj_hosts v) v (v.distance target) entry.gateway) := by
  have tree := Vid.isTreeDistance
  obtain ⟨member, bucket⟩ := RTable.mem_of_entryLookup found
  have leads := converged.leads v here entry member
  rw [Leads, bucket] at leads
  rcases leads with own | ⟨inside, near, ⟨neighbor, edge, away⟩, lower, lower_member,
    lower_bucket, _⟩
  · exact Or.inl own
  · refine Or.inr ⟨fun own => ?_, inside, near, neighbor,
      converged.inside _ inside _ edge, edge, ?_⟩
    · obtain ⟨other, _, apart, level⟩ := converged.levels v here lower lower_member
      rw [lower_bucket, own, tree.self] at level
      exact apart (tree.eq_zero_iff.mp level)
    · rw [tree.eq_of_lt (by rwa [away]), away]

theorem Converged.exists_entry (converged : network.Converged) {v target : Vid} (draw : Nat)
    (here : v ∈ network.switches) (there : target ∈ network.switches) (apart : v ≠ target) :
    ∃ entry, (network.rTable v).entryLookup v (v.distance target) draw = some entry :=
  RTable.exists_entryLookup (converged.filled v here target there apart).1

section Hop

variable {dest : Vid} {trip : Trip} {draw : Nat} (converged : network.Converged)
  (underway : network.Underway dest trip) (consistent : network.Consistent trip draw)
include converged underway consistent

theorem handle_sends (apart : trip.veil_ID ≠ dest) (hops_left : trip.packet.ttl ≠ 1) :
    ∃ fwd nexthop,
    (network.node trip.veil_ID).handle draw trip.packet =
        DataSwitch.sendPacket trip.packet fwd nexthop ∧
      network.Hop dest trip.veil_ID trip.packet.fwd nexthop fwd ∧ nexthop ∈ network.switches := by
  obtain ⟨visited, v, ⟨source, target, fwd, ttl⟩⟩ := trip
  obtain ⟨source_low, dest_low, fwd_low, case3, case4, case5⟩ := consistent
  obtain ⟨there, here, -, same, ahead, -⟩ := underway
  dsimp only at *
  subst same
  have crosses {nexthop : Vid} (across : v.distance nexthop = v.distance target) :
      network.Hop target v fwd nexthop target := .cross (distance_lt apart across)
  simp only [DataSwitch.handle, Vid.received_low source_low, Vid.received_low dest_low,
    Vid.received_low fwd_low, hops_left, if_false, node, apart.symm, DataSwitch.routeDataPacket]
  by_cases neighbor : target ∈ network.adj_hosts v
  · simp only [neighbor, if_true]
    exact ⟨target, target, rfl, crosses rfl, there⟩
  obtain ⟨entry, found⟩ := converged.exists_entry draw here there apart
  by_cases own : fwd = v
  · have leads := ahead.leads (own ▸ apart)
    rw [own] at leads
    obtain ⟨inside, -, across⟩ := DirectedRouting.Gateway.direct leads
      (case3 apart neighbor own entry found)
    simp only [neighbor, own, if_true, if_false, found]
    exact ⟨target, entry.nexthop, rfl, own ▸ crosses across, inside⟩
  by_cases direct : target = fwd
  · subst direct
    simp only [neighbor, own, if_true, if_false, found]
    rcases converged.entry here found with ⟨gateway, edge, across⟩ | ⟨gateway, leads⟩
    · simp only [gateway, if_true]
      exact ⟨target, entry.nexthop, rfl, crosses across, converged.inside v here _ edge⟩
    · have lower := case4 apart neighbor rfl entry found gateway
      simp only [gateway, if_false]
      exact ⟨entry.gateway, entry.nexthop, rfl, .record leads gateway.symm lower, lower.mem⟩
  · have leads := ahead.leads (Ne.symm direct)
    simp only [neighbor, own, direct, if_false]
    by_cases next : fwd ∈ network.adj_hosts v
    · have lower : network.ByClosest v (v.distance fwd) fwd := .direct leads.inside next rfl
      simp only [next, if_true]
      exact ⟨fwd, fwd, rfl, .follow (Ne.symm direct) (Ne.symm own) lower, leads.inside⟩
    · obtain ⟨entry, found⟩ := converged.exists_entry draw here leads.inside (Ne.symm own)
      have lower := case5 neighbor own (Ne.symm direct) next entry found
      simp only [next, if_false, found]
      exact ⟨fwd, entry.nexthop, rfl, .follow (Ne.symm direct) (Ne.symm own) lower, lower.mem⟩

omit converged in
theorem handle_delivers (arrived : trip.veil_ID = dest) (hops_left : trip.packet.ttl ≠ 1) :
    (network.node trip.veil_ID).handle draw trip.packet = .delivered := by
  have here : trip.packet.dest = trip.veil_ID := underway.target.trans arrived.symm
  have dest_low := consistent.dest_low
  rw [here] at dest_low
  simp only [DataSwitch.handle, Vid.received_low consistent.source_low, here,
    Vid.received_low dest_low,
    Vid.received_low consistent.fwd_low, hops_left, if_false, node, if_true]

theorem forward_underway {after : Trip} (moves : network.forward draw trip = some after) :
    network.Underway dest after ∧ after.visited.length = trip.visited.length + 1 ∧
      after.packet.ttl + 1 = trip.packet.ttl := by
  by_cases last : trip.packet.ttl = 1
  · rw [forward, DataSwitch.handle] at moves
    simp only [Vid.received_low consistent.source_low, Vid.received_low consistent.dest_low,
      Vid.received_low consistent.fwd_low, last, if_true, reduceCtorEq] at moves
  by_cases arrived : trip.veil_ID = dest
  · rw [forward, handle_delivers underway consistent arrived last] at moves
    cases moves
  obtain ⟨fwd, nexthop, sends, hop, inside⟩ :=
    handle_sends converged underway consistent arrived last
  rw [forward, sends, DataSwitch.sendPacket] at moves
  by_cases none_left : trip.packet.ttl = 0
  · rw [if_pos none_left] at moves
    cases moves
  · rw [if_neg none_left] at moves
    cases moves
    have ahead := underway.ahead.hop Vid.isTreeDistance hop
    refine ⟨⟨underway.there, inside, ?_, underway.target, ahead, ?_⟩, rfl, ?_⟩
    · intro v member
      rcases List.mem_cons.mp member with rfl | before
      · exact underway.here
      · exact underway.inside v before
    · exact List.nodup_cons.mpr ⟨underway.ahead.not_mem, underway.unique⟩
    · exact Nat.succ_pred_eq_of_ne_zero none_left

theorem exists_forward (apart : trip.veil_ID ≠ dest) (hops_left : 1 < trip.packet.ttl) :
    ∃ after, network.forward draw trip = some after := by
  obtain ⟨fwd, nexthop, sends, -, -⟩ :=
    handle_sends converged underway consistent apart (Nat.ne_of_gt hops_left)
  rw [forward, sends, DataSwitch.sendPacket, if_neg (Nat.ne_of_gt (Nat.zero_lt_of_lt hops_left))]
  exact ⟨_, rfl⟩

end Hop

theorem start_underway {source dest : Vid} (here : source ∈ network.switches)
    (there : dest ∈ network.switches) (ttl : Nat) :
    network.Underway dest (start source dest ttl) where
  there := there
  here := here
  inside := fun _ none => absurd none List.not_mem_nil
  target := rfl
  ahead := .start source
  unique := List.nodup_nil

theorem Underway.nodup {dest : Vid} {trip : Trip} (underway : network.Underway dest trip) :
    (trip.veil_ID :: trip.visited).Nodup :=
  List.nodup_cons.mpr ⟨underway.ahead.not_mem, underway.unique⟩

theorem Underway.length_lt {dest : Vid} {trip : Trip} (underway : network.Underway dest trip) :
    trip.visited.length < network.switches.length := by
  have inside : trip.veil_ID :: trip.visited ⊆ network.switches :=
    List.cons_subset.mpr ⟨underway.here, underway.inside⟩
  exact (underway.nodup.subperm inside).length_le

section Travel

variable (converged : network.Converged) {source dest : Vid} (here : source ∈ network.switches)
  (there : dest ∈ network.switches) {ttl : Nat} {draws : Nat → Nat}
  (consistent : ∀ hops trip, network.travel draws (start source dest ttl) hops = some trip →
    network.Consistent trip (draws hops))
include converged here there consistent

theorem travel_underway {hops : Nat} {trip : Trip}
    (reached : network.travel draws (start source dest ttl) hops = some trip) :
    network.Underway dest trip ∧ trip.visited.length = hops ∧ trip.packet.ttl + hops = ttl := by
  induction hops generalizing trip with
  | zero =>
      cases reached
      exact ⟨start_underway here there ttl, rfl, rfl⟩
  | succ hops ih =>
      obtain ⟨before, earlier, moves⟩ := Option.bind_eq_some_iff.mp reached
      obtain ⟨underway, count, left⟩ := ih earlier
      have step := consistent hops before earlier
      obtain ⟨after, longer, less⟩ := forward_underway converged underway step moves
      refine ⟨after, by rw [longer, count], ?_⟩
      omega

/-- Where every draw that is not recorded follows the rule of gateways, no switch is visited
twice, and with hops for all switches the packet reaches its destination. -/
theorem reaches_without_loop :
    (∀ hops trip, network.travel draws (start source dest ttl) hops = some trip →
        (trip.veil_ID :: trip.visited).Nodup) ∧
      (network.switches.length < ttl → ∃ hops trip,
        network.travel draws (start source dest ttl) hops = some trip ∧ trip.veil_ID = dest ∧
          (network.node trip.veil_ID).handle (draws hops) trip.packet = .delivered) := by
  have way {hops : Nat} {trip : Trip}
      (reached : network.travel draws (start source dest ttl) hops = some trip) :=
    travel_underway converged here there consistent reached
  refine ⟨fun hops trip reached => (way reached).1.nodup, fun enough => ?_⟩
  by_contra never
  have goes_on (hops : Nat) : ∃ trip,
      network.travel draws (start source dest ttl) hops = some trip := by
    induction hops with
    | zero => exact ⟨_, rfl⟩
    | succ hops ih =>
        obtain ⟨trip, reached⟩ := ih
        obtain ⟨underway, count, left⟩ := way reached
        have bound := underway.length_lt
        have step := consistent hops trip reached
        have apart : trip.veil_ID ≠ dest := fun arrived =>
          never ⟨hops, trip, reached, arrived, handle_delivers underway step arrived (by omega)⟩
        obtain ⟨after, moves⟩ := exists_forward converged underway step apart (by omega)
        exact ⟨after, Option.bind_eq_some_iff.mpr ⟨trip, reached, moves⟩⟩
  obtain ⟨trip, reached⟩ := goes_on network.switches.length
  obtain ⟨underway, count, -⟩ := way reached
  exact Nat.lt_irrefl _ (count ▸ underway.length_lt)

end Travel

def lastBits (bits : List Bool) (length : bits.length = 4) : Vid :=
  ⟨List.replicate 27 false ++ true :: bits, by
    rw [List.length_append, List.length_replicate, List.length_cons, length]⟩

def p : Vid := lastBits [false, false, false, false] rfl
def a : Vid := lastBits [false, false, false, true] rfl
def b : Vid := lastBits [false, false, true, false] rfl
def q : Vid := lastBits [false, false, true, true] rfl
def g : Vid := lastBits [false, true, false, false] rfl
def h : Vid := lastBits [true, false, false, false] rfl

def row : Network where
  switches := [p, a, b, q, g, h]
  adj_hosts := fun v =>
    if v = p then [a, g] else if v = a then [p, b] else if v = b then [a, q]
    else if v = q then [b, g] else if v = g then [p, q, h] else if v = h then [g] else []
  rTable := fun v =>
    if v = p then [⟨1, a, p⟩, ⟨2, a, a⟩, ⟨3, g, p⟩, ⟨4, g, g⟩]
    else if v = a then [⟨1, p, a⟩, ⟨2, b, a⟩, ⟨3, p, p⟩, ⟨3, b, q⟩, ⟨4, b, g⟩]
    else if v = b then [⟨1, q, b⟩, ⟨2, a, b⟩, ⟨3, q, q⟩, ⟨3, a, p⟩, ⟨4, a, g⟩]
    else if v = q then [⟨1, b, q⟩, ⟨2, b, b⟩, ⟨3, g, q⟩, ⟨4, g, g⟩]
    else if v = g then [⟨3, p, g⟩, ⟨4, h, g⟩]
    else if v = h then [⟨4, g, h⟩]
    else []

theorem row_converged : row.Converged where
  distinct := by decide +kernel
  inside := by decide +kernel
  symm := by decide +kernel
  filled := by decide +kernel
  levels := by decide +kernel
  leads := by
    unfold Leads
    decide +kernel

theorem row_consistent (hops : Nat) (trip : Trip)
    (reached : row.travel (fun _ => 0) (start p h 63) hops = some trip) :
    row.Consistent trip 0 := by
  match hops with
  | 0 =>
      cases reached
      refine ⟨by decide, by decide, by decide, fun _ _ own => ?_, fun _ _ _ => ?_,
        fun _ _ other => ?_⟩
      · exact absurd own (by decide)
      · intro entry found _
        have drawn : (row.rTable p).entryLookup p (p.distance h) 0 = some ⟨4, g, g⟩ := rfl
        cases Option.some.inj (drawn.symm.trans found)
        exact .direct (by decide) (by decide) rfl
      · exact absurd rfl other
  | 1 =>
      have there : row.travel (fun _ => 0) (start p h 63) 1 = some ⟨[p], g, ⟨p, h, g, 62⟩⟩ := rfl
      cases Option.some.inj (there.symm.trans reached)
      have neighbor : h ∈ row.adj_hosts g := by decide
      exact ⟨by decide, by decide, by decide, fun _ none => absurd neighbor none,
        fun _ none => absurd neighbor none, fun none => absurd neighbor none⟩
  | 2 =>
      have there : row.travel (fun _ => 0) (start p h 63) 2 = some ⟨[g, p], h, ⟨p, h, h, 61⟩⟩ := rfl
      cases Option.some.inj (there.symm.trans reached)
      exact ⟨by decide, by decide, by decide, fun apart => absurd rfl apart,
        fun apart => absurd rfl apart,
        fun _ other => absurd rfl other⟩
  | hops + 3 =>
      have ended (more : Nat) : row.travel (fun _ => 0) (start p h 63) (more + 3) = none := by
        induction more with
        | zero => rfl
        | succ more ih => exact congrArg (Option.bind · (row.forward 0)) ih
      cases (ended hops).symm.trans reached

theorem reaches_without_loop_row :
    (∀ hops trip, row.travel (fun _ => 0) (start p h 63) hops = some trip →
        (trip.veil_ID :: trip.visited).Nodup) ∧
      (row.switches.length < 63 → ∃ hops trip,
        row.travel (fun _ => 0) (start p h 63) hops = some trip ∧ trip.veil_ID = h ∧
          (row.node trip.veil_ID).handle 0 trip.packet = .delivered) :=
  reaches_without_loop row_converged (by decide) (by decide) row_consistent

/-- On the way from `a` to `h` the directive is `g` at `b`, which draws the gateway `p` behind
`a`. -/
theorem row_loops : row.Converged ∧ (∀ v ∈ row.switches, v.high = false) ∧
    ∃ trip, row.travel (fun _ => 1) (start a h 63) 2 = some trip ∧
      ¬(trip.veil_ID :: trip.visited).Nodup := by
  refine ⟨row_converged, by decide +kernel, ⟨[b, a], a, ⟨a, h, g, 61⟩⟩, rfl, fun distinct => ?_⟩
  exact (List.nodup_cons.mp distinct).1 (List.mem_cons_of_mem b List.mem_cons_self)

end Network

end SimJava

end Veil
