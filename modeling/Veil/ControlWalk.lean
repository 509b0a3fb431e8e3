import Veil.ControlPlane
import Veil.Subtrees

/-! The routes that the rendezvous exchange is heading for, and how far the packets get that are
sent while only those of the lower levels are in place. -/

namespace Veil

open GatewayRouting

namespace Forwarding

/-! ### The routes aimed at -/

section Layout

variable (switches : Finset VID) (adjacent : VID → VID → Prop)

structure Layout : Prop where
  switchVid : ∀ x ∈ switches, x.IsSwitchVID
  symmetric : ∀ x y, adjacent x y → adjacent y x
  prefixes : ∀ vid level, ConnectedWithin adjacent (SamePrefix switches vid level)

structure Chooses (chosen : VID → Nat → Option VID) : Prop where
  some : ∀ x ∈ switches, ∀ level n, chosen x level = some n →
    n ∈ switches ∧ adjacent x n ∧ x.logicalDistance n = level
  none : ∀ x ∈ switches, ∀ level, chosen x level = none →
    ∀ n ∈ switches, adjacent x n → x.logicalDistance n ≠ level

inductive Ideal (chosen : VID → Nat → Option VID) (x : VID) : Nat → VID → VID → Prop
  | direct {level n} : chosen x level = some n → Ideal chosen x level n x
  | gateway {level g nh gw} : chosen x level = none → IsClosestGateway switches adjacent x level g →
      Ideal chosen x (x.logicalDistance g) nh gw → Ideal chosen x level nh g

structure HopsTo (z x nh : VID) : Prop where
  apart : x ≠ z
  inside : nh ∈ switches
  edge : adjacent x nh
  rule : nh = z ∨ NextHop VID.logicalDistance (· ∈ switches) adjacent x (x.logicalDistance z) nh

variable {switches adjacent}

/-- No two switches are equally far from a third by XOR, so the closest gateway is one alone. -/
theorem Layout.closest_unique (layout : Layout switches adjacent) {x g other : VID} {level : Nat}
    (first : IsClosestGateway switches adjacent x level g)
    (second : IsClosestGateway switches adjacent x level other) : g = other := by
  have same : VID.xor g x = VID.xor other x :=
    BitVec.le_antisymm (first.least other second.gateway) (second.least g first.gateway)
  have high := congrArg BitVec.toNat same
  rw [VID.xor_toNat, VID.xor_toNat, Nat.shiftRight_xor_distrib, Nat.shiftRight_xor_distrib] at high
  have shifted : g.toNat >>> 16 = other.toNat >>> 16 := Nat.xor_right_injective (by
    rwa [Nat.xor_comm (g.toNat >>> 16), Nat.xor_comm (other.toNat >>> 16)] at high)
  have left := VID.isSwitchVID_iff.mp (layout.switchVid g first.gateway.inside)
  have right := VID.isSwitchVID_iff.mp (layout.switchVid other second.gateway.inside)
  rw [Nat.shiftRight_eq_div_pow, Nat.shiftRight_eq_div_pow] at shifted
  apply BitVec.eq_of_toNat_eq
  rw [← Nat.div_add_mod g.toNat (2 ^ 16), ← Nat.div_add_mod other.toNat (2 ^ 16),
    shifted, left, right]

variable {chosen : VID → Nat → Option VID}

theorem Ideal.unique (layout : Layout switches adjacent) {x nh g nh' g' : VID} {level : Nat}
    (first : Ideal switches adjacent chosen x level nh g)
    (second : Ideal switches adjacent chosen x level nh' g') : nh = nh' ∧ g = g' := by
  induction first generalizing nh' g' with
  | direct found =>
      cases second with
      | direct again => exact ⟨Option.some.inj (found.symm.trans again), rfl⟩
      | gateway none => cases found.symm.trans none
  | gateway none closest _ ih =>
      cases second with
      | direct found => cases found.symm.trans none
      | gateway _ otherClosest towards =>
          obtain rfl := layout.closest_unique closest otherClosest
          exact ⟨(ih towards).1, rfl⟩

theorem Ideal.exists_member (chooses : Chooses switches adjacent chosen) {x nh g : VID}
    {level : Nat} (inside : x ∈ switches) (ideal : Ideal switches adjacent chosen x level nh g) :
    ∃ y ∈ switches, x.logicalDistance y = level := by
  cases ideal with
  | direct found =>
      obtain ⟨member, -, away⟩ := chooses.some x inside level nh found
      exact ⟨nh, member, away⟩
  | gateway _ closest =>
      obtain ⟨neighbor, member, -, away⟩ := closest.gateway.leads
      exact ⟨neighbor, member, away⟩

theorem Ideal.nextHop (layout : Layout switches adjacent)
    (chooses : Chooses switches adjacent chosen) {x nh g : VID} {level : Nat}
    (inside : x ∈ switches) (ideal : Ideal switches adjacent chosen x level nh g) :
    nh ∈ switches ∧ adjacent x nh ∧
      NextHop VID.logicalDistance (· ∈ switches) adjacent x level nh := by
  induction ideal with
  | direct found =>
      obtain ⟨member, edge, away⟩ := chooses.some x inside _ _ found
      exact ⟨member, edge, .direct member edge away⟩
  | gateway none closest _ ih =>
      refine ⟨ih.1, ih.2.1, .gateway (chooses.none x inside _ none) closest.gateway ?_ ih.2.2⟩
      intro other otherFound
      exact VID.logicalDistance_le_of_xor_le (layout.switchVid x inside)
        (layout.switchVid _ closest.gateway.inside) (layout.switchVid other otherFound.inside)
        (closest.least other otherFound)

theorem Layout.exists_ideal (layout : Layout switches adjacent)
    (chooses : Chooses switches adjacent chosen) {x y : VID} (inside : x ∈ switches)
    (target : y ∈ switches) (apart : x ≠ y) :
    ∃ nh g, Ideal switches adjacent chosen x (x.logicalDistance y) nh g := by
  induction level : x.logicalDistance y using Nat.strongRecOn generalizing y with
  | ind k ih =>
      subst level
      cases found : chosen x (x.logicalDistance y) with
      | some n => exact ⟨n, x, .direct found⟩
      | none =>
          obtain ⟨g, closest⟩ := exists_closestGateway layout.prefixes inside target apart
          have beside : x ≠ g := by
            rintro rfl
            obtain ⟨n, member, edge, away⟩ := closest.gateway.leads
            exact chooses.none x inside _ found n member edge away
          obtain ⟨nh, gw, towards⟩ := ih _ closest.gateway.near closest.gateway.inside beside rfl
          exact ⟨nh, g, .gateway found closest towards⟩

/-! ### The way towards a switch -/

theorem HopsTo.rank_lt {z x nh : VID} (hop : HopsTo switches adjacent z x nh) :
    rank VID.logicalDistance (· ∈ switches) adjacent nh (nh.logicalDistance z) <
      rank VID.logicalDistance (· ∈ switches) adjacent x (x.logicalDistance z) := by
  have tree := VID.logicalDistance_isTreeDistance
  rcases hop.rule with rfl | rule
  · rw [tree.self]
    exact rank_lt_of_lt _ _ _ _ _ (tree.pos_iff.mpr hop.apart)
  · exact rule.rank_lt tree hop.apart

theorem HopsTo.near {z x nh : VID} (hop : HopsTo switches adjacent z x nh) :
    nh.logicalDistance z ≤ x.logicalDistance z := by
  have tree := VID.logicalDistance_isTreeDistance
  rcases hop.rule with rfl | rule
  · rw [tree.self]
    exact Nat.zero_le _
  · rcases rule.progress tree with crossed | ⟨stayed, -⟩
    · exact (tree.lt_of_eq (by rwa [tree.comm]) rfl (tree.pos_iff.mpr hop.apart)).le
    · exact (tree.eq_of_lt (by rwa [tree.comm])).le

/-- A frame has come to `x` on its way to `z`, after so many hops. -/
inductive Trail (switches : Finset VID) (adjacent : VID → VID → Prop) (z : VID) : VID → Nat → Prop
  | start {x} : x ∈ switches → Trail switches adjacent z x 0
  | hop {x nh n} : Trail switches adjacent z x n → HopsTo switches adjacent z x nh →
      Trail switches adjacent z nh (n + 1)

theorem Trail.inside {z x : VID} {n : Nat} (trail : Trail switches adjacent z x n) :
    x ∈ switches := by
  cases trail with
  | start inside => exact inside
  | hop _ hop => exact hop.inside

/-- The rank falls from hop to hop, so a trail visits no switch twice. -/
theorem Trail.exists_path (symmetric : ∀ x y, adjacent x y → adjacent y x) {z x : VID} {n : Nat}
    (trail : Trail switches adjacent z x n) :
    ∃ earlier : List VID, earlier.length = n ∧ (x :: earlier).Nodup ∧
      (x :: earlier).IsChain adjacent ∧
      (∀ v ∈ x :: earlier, v ∈ switches) ∧ ∀ v ∈ x :: earlier,
        rank VID.logicalDistance (· ∈ switches) adjacent x (x.logicalDistance z) ≤
          rank VID.logicalDistance (· ∈ switches) adjacent v (v.logicalDistance z) := by
  induction trail with
  | start inside =>
      exact ⟨[], rfl, List.nodup_singleton _, List.isChain_singleton _,
        by simpa using inside, by simp⟩
  | @hop x nh n _ hop ih =>
      obtain ⟨earlier, length, unique, chain, members, ranks⟩ := ih
      have falls := hop.rank_lt
      refine ⟨x :: earlier, by rw [List.length_cons, length], ?_, ?_, ?_, ?_⟩
      · refine List.nodup_cons.mpr ⟨fun again => ?_, unique⟩
        exact absurd (ranks nh again) (Nat.not_le.mpr falls)
      · exact List.isChain_cons_cons.mpr ⟨symmetric x nh hop.edge, chain⟩
      · exact List.forall_mem_cons.mpr ⟨hop.inside, members⟩
      · refine List.forall_mem_cons.mpr ⟨Nat.le_refl _, fun v earlier => ?_⟩
        exact falls.le.trans (ranks v earlier)

theorem Nearest.le {dvid z y : VID} (nearest : Nearest switches dvid z) (member : y ∈ switches) :
    dvid.logicalDistance z ≤ dvid.logicalDistance y := by
  rw [VID.logicalDistance_eq, VID.logicalDistance_eq]
  exact prefixDistance.mono (nearest.least y.toNat ⟨y, member, rfl⟩)

theorem Nearest.eq_of_mem {dvid z : VID} (nearest : Nearest switches dvid z)
    (member : dvid ∈ switches) :
    z = dvid :=
  BitVec.eq_of_toNat_eq (nearest.unique (IsNearest.self ⟨dvid, member, rfl⟩))

theorem exists_nearest {x : VID} (inside : x ∈ switches) (target : VID) :
    ∃ z, Nearest switches target z := by
  obtain ⟨z, member, least⟩ := Finset.exists_min_image switches
    (fun y => target.toNat ^^^ y.toNat) ⟨x, inside⟩
  refine ⟨z, ⟨z, member, rfl⟩, ?_⟩
  rintro _ ⟨y, other, rfl⟩
  exact least y other

theorem Nearest.hopsTo {dvid z x nh : VID} (nearest : Nearest switches dvid z)
    (inside : nh ∈ switches) (edge : adjacent x nh) (apart : x ≠ dvid)
    (rule : nh = dvid ∨ (∃ y ∈ switches, x.logicalDistance y = x.logicalDistance dvid) ∧
      NextHop VID.logicalDistance (· ∈ switches) adjacent x (x.logicalDistance dvid) nh) :
    HopsTo switches adjacent z x nh := by
  have tree := VID.logicalDistance_isTreeDistance
  rcases rule with rfl | ⟨⟨y, member, level⟩, rule⟩
  · obtain rfl := nearest.eq_of_mem inside
    exact ⟨apart, inside, edge, Or.inl rfl⟩
  · -- the nearest switch is on the destination's side of the level, since some switch is
    have across : dvid.logicalDistance y < x.logicalDistance dvid :=
      tree.lt_of_eq (tree.comm dvid x) level (tree.pos_iff.mpr apart)
    have close := (nearest.le member).trans_lt across
    have same : x.logicalDistance z = x.logicalDistance dvid := by
      rw [tree.comm x z, tree.comm x dvid]
      exact tree.eq_of_lt (by rwa [tree.comm z dvid, tree.comm dvid x])
    refine ⟨?_, inside, edge, Or.inr (same ▸ rule)⟩
    rintro rfl
    rw [tree.self] at same
    exact apart (tree.eq_zero_iff.mp same.symm)

end Layout

/-! ### Frames under way -/

section Heading

variable (switches : Finset VID) (adjacent : VID → VID → Prop)

structure Heading (z : VID) (k : Nat) (arrival : Arrival VID) : Prop where
  control : isRendezvous arrival.frame
  switch : arrival.frame.dvid.IsSwitchVID
  below : arrival.switch.logicalDistance arrival.frame.dvid < k
  nearest : Nearest switches arrival.frame.dvid z
  aimed : arrival.frame.veilType = veilRdvReply →
    arrival.frame.reroute = false ∧ arrival.frame.dvid = z
  addressed : arrival.frame.dhost = arrival.switch ∨
    arrival.element = .router ∧ arrival.frame.shost = arrival.switch
  port : arrival.frame.port = 0
  life : ∃ n, Trail switches adjacent z arrival.switch n ∧
    (arrival.frame.ttl.toNat + n = maxTtl.toNat ∨
    arrival.element = .classifier ∧ arrival.frame.dvid = arrival.switch)

/-- A copy that has come to another switch than the one it is addressed to. -/
def Stray (arrival : Arrival VID) : Prop :=
  arrival.element = .classifier ∧ arrival.frame.dhost ≠ arrival.switch

structure SameContent (frame other : Frame) : Prop where
  etherType : other.etherType = frame.etherType
  veilType : other.veilType = frame.veilType
  svid : other.svid = frame.svid
  payload : other.payload = frame.payload

theorem SameContent.refl (frame : Frame) : SameContent frame frame := ⟨rfl, rfl, rfl, rfl⟩

theorem SameContent.byteAt {frame other : Frame} (same : SameContent frame other) (offset : Nat) :
    other.byteAt offset = frame.byteAt offset := by
  rw [Frame.byteAt, Frame.byteAt, same.payload]

theorem SameContent.switchVidAt {frame other : Frame} (same : SameContent frame other)
    (offset : Nat) :
    other.switchVidAt offset = frame.switchVidAt offset := by
  rw [Frame.switchVidAt, Frame.switchVidAt, Frame.vidAt, Frame.vidAt, same.payload]

variable {switches adjacent}

theorem Heading.dhost_eq {z x : VID} {k : Nat} {frame : Frame}
    (heading : Heading switches adjacent z k ⟨x, .classifier, frame⟩) : frame.dhost = x :=
  heading.addressed.resolve_right nofun

theorem Heading.onward {z x : VID} {k : Nat} {frame : Frame}
    (heading : Heading switches adjacent z k ⟨x, .classifier, frame⟩) (short : frame.dvid ≠ x) :
    Heading switches adjacent z k ⟨x, .router, frame⟩ := by
  obtain ⟨n, trail, life⟩ := heading.life
  exact ⟨heading.control, heading.switch, heading.below, heading.nearest, heading.aimed,
    Or.inl heading.dhost_eq, heading.port, n, trail,
    Or.inl (life.resolve_right fun own => short own.2)⟩

theorem logicalDistance_calculateRdvPoint (x : VID) {k : Nat} (positive : 1 ≤ k) (bound : k ≤ 48) :
    x.logicalDistance (x.calculateRdvPoint k) < k :=
  (VID.calculateRdvPoint_eq_iff positive bound).mp
    (VID.calculateRdvPoint_calculateRdvPoint x positive bound).symm

theorem Heading.sent {x z : VID} {k : Nat} (inside : x ∈ switches) (above : 17 ≤ k) (bound : k ≤ 48)
    (nearest : Nearest switches (x.calculateRdvPoint k) z) {frame : Frame}
    (control : isRendezvous frame) (kind : frame.veilType ≠ veilRdvReply)
    (dvid : frame.dvid = x.calculateRdvPoint k) (shost : frame.shost = x) (port : frame.port = 0)
    (ttl : frame.ttl = maxTtl) :
    Heading switches adjacent z k ⟨x, .router, frame⟩ := by
  refine ⟨control, ?_, ?_, ?_, fun reply => absurd reply kind, Or.inr ⟨rfl, shost⟩, port, 0,
    .start inside,
    Or.inl (by dsimp only; rw [ttl, Nat.add_zero])⟩
  · dsimp only
    rw [dvid]
    exact x.calculateRdvPoint_isSwitchVID above bound
  · dsimp only
    rw [dvid]
    exact logicalDistance_calculateRdvPoint x (by omega) bound
  · dsimp only
    rwa [dvid]

theorem Heading.replied {x z : VID} {k : Nat} (inside : x ∈ switches) (switch : x.IsSwitchVID)
    (above : 17 ≤ k) (bound : k ≤ 48) (nearest : Nearest switches (x.calculateRdvPoint k) z)
    {frame : Frame} (source : frame.svid = x) (gateways : List VID) :
    Heading switches adjacent x k ⟨z, .router, ProcessRDV.queryReply frame z gateways⟩ := by
  have tree := VID.logicalDistance_isTreeDistance
  refine ⟨rfl, by rwa [← source] at switch, ?_, ?_, fun _ => ⟨rfl, source⟩,
    Or.inr ⟨rfl, rfl⟩, rfl, 0,
    .start nearest.mem, Or.inl rfl⟩
  · have near := logicalDistance_calculateRdvPoint x (by omega) bound
    rw [tree.comm] at near
    have close := (nearest.le inside).trans_lt near
    rw [tree.comm] at close
    dsimp only [ProcessRDV.queryReply]
    rw [source]
    exact tree.lt_trans close near
  · dsimp only [ProcessRDV.queryReply]
    rw [source]
    exact IsNearest.self ⟨x, inside, rfl⟩

end Heading

/-! ### One pass through a router -/

section Router

variable (switches : Finset VID) (adjacent : VID → VID → Prop) (chosen : VID → Nat → Option VID)

/-- A lookup for `dvid` ends at the switch itself, or with a neighbour that the rule allows. -/
def Ends (x dvid : VID) (looked : PortLookup) : Prop :=
  (looked.port = 1 ∧ looked.nexthop = x ∧ dvid = x) ∨
    (looked.port = 0 ∧ looked.nexthop ∈ switches ∧ adjacent x looked.nexthop ∧ x ≠ dvid ∧
      (looked.nexthop = dvid ∨ (∃ y ∈ switches, x.logicalDistance y = x.logicalDistance dvid) ∧
        NextHop VID.logicalDistance (· ∈ switches) adjacent x (x.logicalDistance dvid)
          looked.nexthop))

/-- The router of the switch `x` when its routes below the level `k` are the ones aimed at. -/
structure RightBelow (k : Nat) (x : VID) (r : RoutePacket) : Prop where
  interface : r.interfaces.IsSingle x
  attached : r.neighbors.Over x
  neighbors : ∀ n, r.neighbors.Knows n ↔ n ∈ switches ∧ adjacent x n
  routes : ∀ j, 16 < j → j < k → ∀ nh g,
    r.routes.defaultRoute 0 j = some (nh, g) ↔ Ideal switches adjacent chosen x j nh g

variable {switches adjacent chosen} (layout : Layout switches adjacent)
  (chooses : Chooses switches adjacent chosen) {k : Nat} {x : VID} (inside : x ∈ switches)
    {r : RoutePacket}
  (right : RightBelow switches adjacent chosen k x r)
include right

omit layout chooses inside in
theorem RightBelow.portOf_self : r.portOf x = 0 := by
  rw [RoutePacket.portOf, right.interface.lookupVidEntry_self]
  rfl

theorem RightBelow.numinterfaces : r.numinterfaces = 1 := by
  rw [RoutePacket.numinterfaces, right.interface.count]

include layout chooses inside

theorem RightBelow.getPort_cases {dvid : VID} (switch : dvid.IsSwitchVID)
    (below : x.logicalDistance dvid < k) (dhost : EtherAddress) (nexthop : VID) :
    let looked := r.getPort dvid dhost nexthop x
    (0 ≤ looked.port ∧ looked.myVid = x ∧ Ends switches adjacent x dvid looked) ∨
      (looked.port < 0 ∧ ∀ y ∈ switches, x.logicalDistance y ≠ x.logicalDistance dvid) := by
  have tree := VID.logicalDistance_isTreeDistance
  by_cases close : x.logicalDistance dvid ≤ 16
  · have here : dvid = x := by
      by_contra apart
      have far := VID.logicalDistance_gt_of_ne (layout.switchVid x inside) switch (Ne.symm apart)
      omega
    rw [RoutePacket.getPort_self _ _ _ close]
    have port := congrArg Int.ofNat right.numinterfaces
    exact Or.inl ⟨Int.natCast_nonneg _, rfl, Or.inl ⟨port, rfl, here⟩⟩
  · have apart : x ≠ dvid := by
      rintro rfl
      rw [tree.self] at close
      omega
    have own : dvid.getSwitchVID = dvid := switch
    by_cases neighbor : r.neighbors.Knows dvid
    · refine Or.inl ?_
      have looked := NeighborTable.lookupEntry_of_knows right.attached neighbor
      simp only [RoutePacket.getPort, close, if_false, own, looked, right.portOf_self]
      obtain ⟨member, edge⟩ := (right.neighbors dvid).mp neighbor
      exact ⟨le_rfl, trivial, Or.inr ⟨rfl, member, edge, apart, Or.inl rfl⟩⟩
    · have unknown := NeighborTable.lookupEntry_eq_none_iff.mpr neighbor
      have route := @RouteTable.getRouteDefault_of_single r.routes _ _ dvid 0
        right.interface (Nat.lt_of_not_le close)
      have aimed := right.routes _ (Nat.lt_of_not_le close) below
      cases found : r.routes.defaultRoute 0 (x.logicalDistance dvid) with
      | none =>
          refine Or.inr ?_
          simp only [RoutePacket.getPort, close, if_false, own, unknown, route, found]
          refine ⟨by decide, fun y member same => ?_⟩
          have other : x ≠ y := by
            rintro rfl
            rw [tree.self] at same
            omega
          obtain ⟨nh, g, ideal⟩ := layout.exists_ideal chooses inside member other
          rw [same] at ideal
          cases found.symm.trans ((aimed nh g).mpr ideal)
      | some hop =>
          refine Or.inl ?_
          obtain ⟨nh, g⟩ := hop
          have ideal := (aimed nh g).mp found
          obtain ⟨member, edge, rule⟩ := ideal.nextHop layout chooses inside
          have looked := NeighborTable.lookupEntry_of_knows right.attached
            ((right.neighbors nh).mpr ⟨member, edge⟩)
          simp only [RoutePacket.getPort, close, if_false, own, unknown, route, found, looked,
            right.portOf_self]
          exact ⟨le_rfl, trivial, Or.inr ⟨rfl, member, edge, apart,
            Or.inr ⟨ideal.exists_member chooses inside, rule⟩⟩⟩

/-- Where the bit-flip loop ends, for a destination whose nearest switch is `z`. -/
theorem RightBelow.reroute_spec {z : VID} (fuel : Nat) {dvid : VID} (switch : dvid.IsSwitchVID)
    (below : x.logicalDistance dvid < k) (nearest : Nearest switches dvid z) (dhost : EtherAddress)
    (nexthop : VID) (enough : x.logicalDistance dvid ≤ fuel) :
    let final := r.reroute fuel dvid (r.getPort dvid dhost nexthop x)
    final.1.IsSwitchVID ∧ x.logicalDistance final.1 < k ∧ Nearest switches final.1 z ∧
      final.2.myVid = x ∧ Ends switches adjacent x final.1 final.2 := by
  induction fuel generalizing dvid dhost nexthop with
  | zero =>
      have same : x = dvid := VID.logicalDistance_isTreeDistance.eq_zero_iff.mp (by omega)
      have found := right.getPort_cases layout chooses inside switch below dhost nexthop
      dsimp only [RoutePacket.reroute] at found ⊢
      rcases found with ⟨-, vid, ends⟩ | ⟨-, none⟩
      · exact ⟨switch, below, nearest, vid, ends⟩
      · exact (none x inside (by rw [← same])).elim
  | succ fuel ih =>
      have found := right.getPort_cases layout chooses inside switch below dhost nexthop
      simp only [RoutePacket.reroute] at found ⊢
      rcases found with ⟨port, vid, ends⟩ | ⟨noPort, none⟩
      · rw [if_neg (Int.not_lt.mpr port)]
        exact ⟨switch, below, nearest, vid, ends⟩
      · obtain ⟨stays, distance, above, -⟩ := r.getPort_of_neg noPort
        have bound := VID.logicalDistance_le x dvid
        rw [if_pos noPort, stays, distance]
        rw [distance] at above
        have flipped := VID.flipBit_isSwitchVID switch above bound
        have closer := @VID.logicalDistance_flipBit x dvid (by omega)
        exact ih flipped (closer.trans below)
          ((nearest_flipBit_iff inside (by omega) none).mpr nearest) _ _ (by omega)

variable {z : VID} {frame : Frame}
  (heading : Heading switches adjacent z k ⟨x, .router, frame⟩)
include heading

theorem RightBelow.looks_up :
    ∃ dvid looked, VID.IsSwitchVID dvid ∧ x.logicalDistance dvid < k ∧ Nearest switches dvid z ∧
      (if RoutePacket.rerouted frame then
          r.reroute 48 frame.dvid (r.getPort frame.dvid frame.dhost 0 x)
        else (frame.dvid, r.getPort frame.dvid frame.dhost 0 x)) = (dvid, looked) ∧
      (frame.veilType = veilRdvReply → dvid = frame.dvid) ∧ looked.myVid = x ∧
      Ends switches adjacent x dvid looked := by
  by_cases again : RoutePacket.rerouted frame = true
  · obtain ⟨switch, below, nearest, vid, ends⟩ := right.reroute_spec layout chooses inside 48
      heading.switch heading.below heading.nearest frame.dhost 0
        (VID.logicalDistance_le x frame.dvid)
    refine ⟨_, _, switch, below, nearest, if_pos again, fun kind => ?_, vid, ends⟩
    have plain := (heading.aimed kind).1
    rw [RoutePacket.rerouted, show frame.reroute = false from plain,
      show frame.veilType = veilRdvReply from kind] at again
    cases again
  · -- only an answer is not rerouted, and it is for a switch
    have own : frame.dvid = z := by
      have kinds := heading.control
      simp only [isRendezvous, Bool.and_eq_true, Bool.or_eq_true, beq_iff_eq] at kinds
      rcases kinds.2 with (kind | kind) | kind
      · exact absurd (by simp [RoutePacket.rerouted, kind]) again
      · exact absurd (by simp [RoutePacket.rerouted, kind]) again
      · exact (heading.aimed kind).2
    have member : frame.dvid ∈ switches := own ▸ heading.nearest.mem
    refine ⟨_, _, heading.switch, heading.below, heading.nearest, if_neg again, fun _ => rfl, ?_⟩
    rcases right.getPort_cases layout chooses inside heading.switch heading.below frame.dhost 0 with
      ⟨-, vid, ends⟩ | ⟨-, none⟩
    · exact ⟨vid, ends⟩
    · exact absurd rfl (none _ member)

omit chooses in
theorem RightBelow.ownVid_of_heading :
    r.ownVid frame.dhost frame.shost frame.dhost frame.shost frame.svid.getSwitchVID = some x := by
  have own : x.getSwitchVID = x := layout.switchVid x inside
  have known : r.interfaces.interfaces.lookup x = some 0 :=
    (right.interface.interfaces x 0).mpr ⟨rfl, rfl⟩
  by_cases here : frame.dhost = x
  · rw [RoutePacket.ownVid, here, known]
    exact congrArg some own
  · have from_here : frame.shost = x := (heading.addressed.resolve_left here).2
    rw [RoutePacket.ownVid, right.interface.lookup_ne here, from_here, known]
    exact congrArg some own

theorem RightBelow.pass (short : ∀ path : List VID, path.Nodup → path.IsChain adjacent →
      (∀ v ∈ path, v ∈ switches) → path.length ≤ maxTtl.toNat) :
    ∃ sent : Frame, SameContent frame sent ∧
      (r.smaction frame = (r, sent, 1) ∧ Heading switches adjacent z k ⟨x, .classifier, sent⟩ ∨
        r.smaction frame = (r, sent, 0) ∧ sent.dhost ∈ switches ∧ adjacent x sent.dhost ∧
          Heading switches adjacent z k ⟨sent.dhost, .classifier, received sent 0⟩) := by
  have tree := VID.logicalDistance_isTreeDistance
  obtain ⟨n, trail, life⟩ := heading.life
  have alive : frame.ttl.toNat + n = maxTtl.toNat := life.resolve_right nofun
  have room : n + 1 ≤ maxTtl.toNat := by
    obtain ⟨earlier, length, unique, chain, members, -⟩ := trail.exists_path layout.symmetric
    have bound := short (x :: earlier) unique chain members
    rwa [List.length_cons, length] at bound
  have lively : frame.ttl ≠ 0 := by
    intro dead
    rw [dead] at alive
    have zero : (0 : BitVec 8).toNat = 0 := rfl
    omega
  have counted : (frame.ttl - 1).toNat + (n + 1) = maxTtl.toNat := by
    have one : (1 : BitVec 8).toNat = 1 := rfl
    rw [BitVec.toNat_sub, one]
    have small := frame.ttl.isLt
    omega
  obtain ⟨dvid, looked, switch, below, nearest, found, kept, vid, ends⟩ :=
    right.looks_up layout chooses inside heading
  have accepted := right.ownVid_of_heading layout inside heading
  have sends : r.smaction frame = (r, { frame with
      dvid, dhost := looked.nexthop, shost := looked.myVid, ttl := frame.ttl - 1 },
      if 0 ≤ looked.port then looked.port else r.numinterfaces + 1) := by
    rw [r.smaction_rendezvous heading.control, accepted]
    simp only [found, lively, if_false]
  refine ⟨{ frame with dvid, dhost := looked.nexthop, shost := looked.myVid, ttl := frame.ttl - 1 },
    ⟨rfl, rfl, rfl, rfl⟩, ?_⟩
  have aimed (kind : frame.veilType = veilRdvReply) : dvid = z :=
    (kept kind).trans (heading.aimed kind).2
  rcases ends with ⟨port, here, own⟩ | ⟨port, next, edge, apart, rule⟩
  · refine Or.inl ⟨by rw [sends, port]; rfl,
      ⟨heading.control, switch, below, nearest, ?_, Or.inl here,
      heading.port, n, trail, Or.inr ⟨rfl, own⟩⟩⟩
    exact fun kind => ⟨(heading.aimed kind).1, aimed kind⟩
  · have hop := nearest.hopsTo next edge apart rule
    refine Or.inr ⟨by rw [sends, port]; rfl, next, edge, ⟨heading.control, switch, ?_, nearest, ?_,
      Or.inl rfl, rfl, n + 1, trail.hop hop, Or.inl counted⟩⟩
    · have close := nearest.le inside
      rw [tree.comm dvid x] at close
      have bound := tree.le_max looked.nexthop z dvid
      have nearer := hop.near
      have upper := tree.le_max x dvid z
      rw [tree.comm z dvid] at bound
      dsimp only [received]
      omega
    · exact fun kind => ⟨rfl, aimed kind⟩

end Router

end Forwarding

end Veil
