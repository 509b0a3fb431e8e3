import Veil.BuildRouteTable
import Veil.Forwarding

/-! Publications and queries for one level of one subtree end at the same switch. Every rewriting
of the destination keeps the switch whose VID is nearest to it, and the frame ends where the
destination is the switch's own VID. -/

namespace Veil

namespace Forwarding

/-- A frame as the next switch receives it: annotations do not travel, and the port is set anew. -/
def received (frame : Frame) (port : Nat) : Frame := { frame with reroute := false, port }

/-- A frame handed to `smaction` at a switch goes from neighbour to neighbour until `smaction`
treats it as the switch's own. -/
inductive Travels (net : Network) : VID → Frame → VID → Frame → Prop
  | ends {x frame} : ((net x).smaction frame).2.2 = (net x).numinterfaces →
      Travels net x frame x ((net x).smaction frame).2.1
  | hop {x frame z final} (port : Nat) : 0 ≤ ((net x).smaction frame).2.2 →
      ((net x).smaction frame).2.2 < (net x).numinterfaces →
      Travels net ((net x).smaction frame).2.1.dhost (received ((net x).smaction frame).2.1 port)
        z final →
      Travels net x frame z final

/-- Every switch has a default route for exactly the levels at which there is a switch, and its
nexthop is a neighbour that is no farther from the destination. -/
structure Complete (net : Network) (switches : Finset VID) : Prop where
  switchVid : ∀ x ∈ switches, x.IsSwitchVID
  interface : ∀ x ∈ switches, (net x).interfaces.IsSingle x
  attached : ∀ x ∈ switches, (net x).neighbors.Over x
  neighbors : ∀ x ∈ switches, ∀ n, (net x).neighbors.Knows n → n ∈ switches
  routes : ∀ x ∈ switches, ∀ j, 16 < j →
    ((∃ nh g, (net x).routes.defaultRoute 0 j = some (nh, g)) ↔
      ∃ y ∈ switches, x.logicalDistance y = j)
  nexthops : ∀ x ∈ switches, ∀ j nh g, (net x).routes.defaultRoute 0 j = some (nh, g) →
    (net x).neighbors.Knows nh ∧ ∀ dvid, x.logicalDistance dvid = j → nh.logicalDistance dvid ≤ j

abbrev Nearest (switches : Finset VID) (target nearest : VID) : Prop :=
  IsNearest (fun value => ∃ x ∈ switches, x.toNat = value) target.toNat nearest.toNat

theorem Nearest.mem {switches : Finset VID} {target nearest : VID}
    (least : Nearest switches target nearest) : nearest ∈ switches := by
  obtain ⟨x, inside, same⟩ := least.member
  rwa [← BitVec.eq_of_toNat_eq same]

variable {net : Network} {switches : Finset VID}

/-- Where no switch is at the level at which the target leaves `x`, the flip of that bit keeps the
nearest switch. -/
theorem nearest_flipBit_iff {x dvid nearest : VID} (inside : x ∈ switches)
    (positive : 1 ≤ x.logicalDistance dvid)
    (none : ∀ y ∈ switches, x.logicalDistance y ≠ x.logicalDistance dvid) :
    Nearest switches (dvid.flipBit (x.logicalDistance dvid)) nearest ↔
      Nearest switches dvid nearest := by
  obtain ⟨level, equal⟩ : ∃ level, x.logicalDistance dvid = level + 1 :=
    ⟨x.logicalDistance dvid - 1, by omega⟩
  have flipped : (dvid.flipBit (x.logicalDistance dvid)).toNat = dvid.toNat ^^^ 2 ^ level := by
    rw [VID.flipBit_toNat dvid positive (VID.logicalDistance_le x dvid), equal,
      Nat.add_sub_cancel]
  rw [Nearest, flipped]
  refine IsNearest.flip_iff ⟨x, inside, rfl⟩ ?_ ?_
  · rw [← VID.logicalDistance_eq, equal]
  · rintro _ ⟨y, member, rfl⟩ same
    rw [← VID.logicalDistance_eq] at same
    exact none y member (by rw [same, equal])

theorem Complete.getPort_cases (complete : Complete net switches) {x dvid : VID}
    (inside : x ∈ switches) (switch : dvid.IsSwitchVID) (dhost : EtherAddress) (nexthop : VID) :
    let looked := (net x).getPort dvid dhost nexthop x
    (looked.port = (net x).numinterfaces ∧ looked.nexthop = x ∧ looked.myVid = x ∧ dvid = x) ∨
      (looked.port = 0 ∧ looked.nexthop ∈ switches) ∨
      (looked.port < 0 ∧ ∀ y ∈ switches, x.logicalDistance y ≠ x.logicalDistance dvid) := by
  by_cases close : x.logicalDistance dvid ≤ 16
  · refine Or.inl ?_
    rw [RoutePacket.getPort_self _ _ _ close]
    refine ⟨rfl, rfl, rfl, ?_⟩
    by_contra apart
    have far := VID.logicalDistance_gt_of_ne (complete.switchVid x inside) switch (Ne.symm apart)
    omega
  · refine Or.inr ?_
    have port : (net x).portOf x = 0 := by
      rw [RoutePacket.portOf, (complete.interface x inside).lookupVidEntry_self]
      rfl
    have own : dvid.getSwitchVID = dvid := switch
    by_cases neighbor : (net x).neighbors.Knows dvid
    · refine Or.inl ?_
      have looked := NeighborTable.lookupEntry_of_knows (complete.attached x inside) neighbor
      simp only [RoutePacket.getPort, close, if_false, own, looked, port]
      exact ⟨trivial, complete.neighbors x inside dvid neighbor⟩
    · have unknown := NeighborTable.lookupEntry_eq_none_iff.mpr neighbor
      have route := @RouteTable.getRouteDefault_of_single (net x).routes _ _ dvid 0
        (complete.interface x inside) (Nat.lt_of_not_le close)
      cases found : (net x).routes.defaultRoute 0 (x.logicalDistance dvid) with
      | none =>
          refine Or.inr ?_
          simp only [RoutePacket.getPort, close, if_false, own, unknown, route, found]
          refine ⟨by decide, fun y yInside same => ?_⟩
          obtain ⟨nh, g, some⟩ := (complete.routes x inside _ (Nat.lt_of_not_le close)).mpr
            ⟨y, yInside, same⟩
          rw [found] at some
          cases some
      | some hop =>
          refine Or.inl ?_
          obtain ⟨nh, g⟩ := hop
          have known := (complete.nexthops x inside _ nh g found).1
          have looked := NeighborTable.lookupEntry_of_knows (complete.attached x inside) known
          simp only [RoutePacket.getPort, close, if_false, own, unknown, route, found, looked, port]
          exact ⟨trivial, complete.neighbors x inside nh known⟩

theorem Complete.reroute_spec (complete : Complete net switches) {x : VID} (inside : x ∈ switches)
    (fuel : Nat) {dvid : VID} (switch : dvid.IsSwitchVID) (dhost : EtherAddress) (nexthop : VID)
    (enough : x.logicalDistance dvid ≤ fuel) :
    let final := (net x).reroute fuel dvid ((net x).getPort dvid dhost nexthop x)
    final.1.IsSwitchVID ∧ (∀ nearest, Nearest switches final.1 nearest ↔
        Nearest switches dvid nearest) ∧
      ((final.2.port = (net x).numinterfaces ∧ final.2.nexthop = x ∧ final.2.myVid = x ∧
          final.1 = x) ∨
        (final.2.port = 0 ∧ final.2.nexthop ∈ switches)) := by
  induction fuel generalizing dvid dhost nexthop with
  | zero =>
      have same : x = dvid := VID.logicalDistance_isTreeDistance.eq_zero_iff.mp (by omega)
      have found := complete.getPort_cases inside switch dhost nexthop
      dsimp only [RoutePacket.reroute] at found ⊢
      refine ⟨switch, fun _ => Iff.rfl, ?_⟩
      rcases found with own | next | ⟨-, none⟩
      · exact Or.inl own
      · exact Or.inr next
      · exact (none x inside (by rw [← same])).elim
  | succ fuel ih =>
      have found := complete.getPort_cases inside switch dhost nexthop
      simp only [RoutePacket.reroute] at found ⊢
      rcases found with own | next | ⟨noPort, none⟩
      · have port : ¬((net x).getPort dvid dhost nexthop x).port < 0 := by omega
        rw [if_neg port]
        exact ⟨switch, fun _ => Iff.rfl, Or.inl own⟩
      · have port : ¬((net x).getPort dvid dhost nexthop x).port < 0 := by omega
        rw [if_neg port]
        exact ⟨switch, fun _ => Iff.rfl, Or.inr next⟩
      · obtain ⟨stays, distance, above, -⟩ := (net x).getPort_of_neg noPort
        have bound := VID.logicalDistance_le x dvid
        rw [if_pos noPort, stays, distance]
        rw [distance] at above
        have flipped := VID.flipBit_isSwitchVID switch above bound
        have closer := @VID.logicalDistance_flipBit x dvid (by omega)
        obtain ⟨finalSwitch, nearest, outcome⟩ := ih flipped
          ((net x).getPort dvid dhost nexthop x).dhost
          ((net x).getPort dvid dhost nexthop x).nexthop (by omega)
        refine ⟨finalSwitch, fun candidate => (nearest candidate).trans ?_, outcome⟩
        exact nearest_flipBit_iff inside (by omega) none

structure Rerouted (frame : Frame) (x : VID) : Prop where
  veil : frame.etherType = etherTypeVeil
  control : frame.veilType = veilRdvPublish ∨ frame.veilType = veilRdvQuery
  addressed : frame.dhost = x ∨ frame.shost = x
  switch : frame.dvid.IsSwitchVID

theorem Complete.ownVid (complete : Complete net switches) {x : VID} (inside : x ∈ switches)
    {frame : Frame} (addressed : frame.dhost = x ∨ frame.shost = x) (srcvid : VID) :
    (net x).ownVid frame.dhost frame.shost frame.dhost frame.shost srcvid = some x := by
  have own : x.getSwitchVID = x := complete.switchVid x inside
  have single := complete.interface x inside
  have found : (net x).interfaces.interfaces.lookup x = some 0 :=
    (single.interfaces x 0).mpr ⟨rfl, rfl⟩
  by_cases here : frame.dhost = x
  · rw [RoutePacket.ownVid, here, found]
    exact congrArg some own
  · rw [RoutePacket.ownVid, single.lookup_ne here, addressed.resolve_left here, found]
    exact congrArg some own

theorem Complete.numinterfaces (complete : Complete net switches) {x : VID}
    (inside : x ∈ switches) :
    (net x).numinterfaces = 1 := by
  rw [RoutePacket.numinterfaces, (complete.interface x inside).count]

theorem Complete.smaction_spec (complete : Complete net switches) {x : VID} (inside : x ∈ switches)
    {frame : Frame} (carried : Rerouted frame x) :
    let after := (net x).smaction frame
    (∀ nearest, Nearest switches after.2.1.dvid nearest ↔ Nearest switches frame.dvid nearest) ∧
      after.2.1.dvid.IsSwitchVID ∧ after.2.1.etherType = frame.etherType ∧
      after.2.1.veilType = frame.veilType ∧
      (after.2.2 = (net x).numinterfaces ∧ after.2.1.dvid = x ∧ after.2.1.dhost = x ∨
        after.2.2 = 0 ∧ after.2.1.dhost ∈ switches ∨ after.2.2 = (net x).numinterfaces + 1) := by
  have accepted := complete.ownVid inside carried.addressed frame.svid.getSwitchVID
  have notMultipath : frame.veilType ≠ veilEncapMultipathIp := by
    rcases carried.control with type | type <;> rw [type] <;> decide
  have notIp : frame.veilType ≠ veilEncapIp := by
    rcases carried.control with type | type <;> rw [type] <;> decide
  have loops : RoutePacket.rerouted frame = true := by
    rcases carried.control with type | type <;> simp [RoutePacket.rerouted, type]
  obtain ⟨finalSwitch, nearest, outcome⟩ :=
    complete.reroute_spec inside 48 carried.switch frame.dhost 0
    (VID.logicalDistance_le x frame.dvid)
  simp only [RoutePacket.smaction, carried.veil, if_true, accepted,
    RoutePacket.forwardVeil, notMultipath,
    if_false, loops, notIp, or_self, and_false]
  split
  · exact ⟨nearest, finalSwitch, rfl, rfl, Or.inr (Or.inr rfl)⟩
  · refine ⟨nearest, finalSwitch, rfl, rfl, ?_⟩
    rcases outcome with ⟨port, here, -, own⟩ | ⟨port, there⟩
    · refine Or.inl ⟨?_, own, here⟩
      rw [port]
      simp
    · refine Or.inr (Or.inl ⟨?_, there⟩)
      rw [port]
      rfl

theorem Complete.travels_spec (complete : Complete net switches) {x z : VID} {frame final : Frame}
    (run : Travels net x frame z final) (inside : x ∈ switches) (carried : Rerouted frame x) :
    Nearest switches frame.dvid z ∧ final.dvid = z ∧ final.dhost = z := by
  induction run with
  | @ends x frame own =>
      obtain ⟨nearest, -, -, -, outcome⟩ := complete.smaction_spec inside carried
      have count : (net x).numinterfaces = 1 := complete.numinterfaces inside
      rcases outcome with ⟨-, dvid, dhost⟩ | ⟨port, -⟩ | port
      · refine ⟨(nearest x).mp ?_, dvid, dhost⟩
        rw [dvid]
        exact IsNearest.self ⟨x, inside, rfl⟩
      · omega
      · omega
  | @hop x frame z final port lower upper _ ih =>
      obtain ⟨nearest, switch, veil, control, outcome⟩ := complete.smaction_spec inside carried
      rcases outcome with ⟨own, -⟩ | ⟨-, there⟩ | error
      · omega
      · obtain ⟨closest, dvid, dhost⟩ := ih there
          ⟨veil.trans carried.veil, by rw [received, control]; exact carried.control,
            Or.inl rfl, switch⟩
        exact ⟨(nearest z).mp closest, dvid, dhost⟩
      · omega

/-- A publication and a query for one level, sent from within one subtree below it, end at one
switch, and there they are destined to that switch in all six bytes. -/
theorem Complete.agreement (complete : Complete net switches) {x y : VID} (xInside : x ∈ switches)
    (yInside : y ∈ switches) {k : Nat} (above : 17 ≤ k) (bound : k ≤ 48)
    (near : x.logicalDistance y < k) {neighbor zp zq : VID} {fp fq : Frame}
    (publish : Travels net x (BuildRouteTable.rdvPublish x neighbor k) zp fp)
    (query : Travels net y (BuildRouteTable.rdvQuery y k) zq fq) :
    zp = zq ∧ zp ∈ switches ∧ fp.dvid = zp ∧ fq.dvid = zp ∧
      ProcessRDV.accepts (net zp).interfaces fp ∧ ProcessRDV.accepts (net zp).interfaces fq := by
  have point := VID.calculateRdvPoint_congr near bound
  obtain ⟨closestP, dvidP, dhostP⟩ := complete.travels_spec publish xInside
    ⟨rfl, Or.inl rfl, Or.inr rfl, x.calculateRdvPoint_isSwitchVID above bound⟩
  obtain ⟨closestQ, dvidQ, dhostQ⟩ := complete.travels_spec query yInside
    ⟨rfl, Or.inr rfl, Or.inr rfl, y.calculateRdvPoint_isSwitchVID above bound⟩
  have target : (BuildRouteTable.rdvPublish x neighbor k).dvid =
      (BuildRouteTable.rdvQuery y k).dvid :=
    point
  rw [target] at closestP
  obtain rfl : zp = zq := BitVec.eq_of_toNat_eq (closestP.unique closestQ)
  have inside := Nearest.mem closestP
  have known := (complete.interface zp inside).lookupVidEntry_self
  refine ⟨rfl, inside, dvidP, dvidQ, ?_, ?_⟩
  · simp [ProcessRDV.accepts, dvidP, dhostP, known]
  · simp [ProcessRDV.accepts, dvidQ, dhostQ, known]

theorem lineSwitch_defaultRoute (x : VID) (neighbors : List VID) (routes : List (Nat × VID × VID))
    (j : Nat) (nh g : VID) :
    (lineSwitch x neighbors routes).routes.defaultRoute 0 j = some (nh, g) →
      (j, nh, g) ∈ routes := by
  have loop (table : RouteTable) (later : List (Nat × VID × VID)) :
      (later.foldl
          (fun table route => table.updateEntry (InterfaceTable.single x x) x route.1 route.2.1
        route.2.2 true) table).defaultRoute 0 j = some (nh, g) →
      (j, nh, g) ∈ later ∨ table.defaultRoute 0 j = some (nh, g) := by
    induction later generalizing table with
    | nil => exact Or.inr
    | cons route rest ih =>
        intro found
        have single := (InterfaceTable.single_isSingle x x).interfaces x 0
        rcases ih _ found with member | before
        · exact Or.inl (List.mem_cons_of_mem _ member)
        · rw [RouteTable.defaultRoute_updateEntry (single.mpr ⟨rfl, rfl⟩)] at before
          split at before
          · rename_i same
            obtain ⟨b, nexthop, gateway⟩ := route
            cases before
            exact Or.inl (by rw [same]; exact List.mem_cons_self)
          · exact Or.inr before
  intro found
  exact (loop RouteTable.empty routes found).resolve_right (by simp [RouteTable.defaultRoute,
    RouteTable.bucket?, RouteTable.empty])

theorem lineNetwork_route {x : VID} (inside : x ∈ ({lineA, lineB, lineC} : Finset VID)) {j : Nat}
    {nh g : VID} (found : (lineNetwork x).routes.defaultRoute 0 j = some (nh, g)) :
    lineAdjacent x nh ∧ x.logicalDistance nh ≤ j ∧
      ∃ y ∈ ({lineA, lineB, lineC} : Finset VID), x.logicalDistance y = j := by
  obtain ⟨ab, ac, bc, ba, ca, cb⟩ := lineDistances
  rw [lineAdjacent_iff]
  rcases mem_line.mp inside with rfl | rfl | rfl
  · rw [lineNetwork_A] at found
    have member := lineSwitch_defaultRoute _ _ _ _ _ _ found
    simp only [List.mem_cons, Prod.mk.injEq, List.not_mem_nil, or_false] at member
    rcases member with ⟨rfl, rfl, -⟩ | ⟨rfl, rfl, -⟩
    · exact ⟨by simp, by omega, lineB, by decide, ab⟩
    · exact ⟨by simp, by omega, lineC, by decide, ac⟩
  · rw [lineNetwork_B] at found
    have member := lineSwitch_defaultRoute _ _ _ _ _ _ found
    simp only [List.mem_cons, Prod.mk.injEq, List.not_mem_nil, or_false] at member
    rcases member with ⟨rfl, rfl, -⟩ | ⟨rfl, rfl, -⟩
    · exact ⟨by simp, by omega, lineA, by decide, ba⟩
    · exact ⟨by simp, by omega, lineC, by decide, bc⟩
  · rw [lineNetwork_C] at found
    have member := lineSwitch_defaultRoute _ _ _ _ _ _ found
    simp only [List.mem_cons, Prod.mk.injEq, List.not_mem_nil, or_false] at member
    obtain ⟨rfl, rfl, -⟩ := member
    exact ⟨by simp, by omega, lineB, by decide, cb⟩

theorem lineNetwork_complete : Complete lineNetwork {lineA, lineB, lineC} where
  switchVid := line_switchVid
  interface := fun _ inside => lineNetwork_interfaces inside
  attached := fun _ inside => lineNetwork_over inside
  neighbors := fun _ inside n known => ((lineNetwork_neighbors inside n).mp known).1
  routes := by
    intro x inside j above
    refine ⟨fun ⟨_, _, found⟩ => (lineNetwork_route inside found).2.2, ?_⟩
    rintro ⟨y, yInside, rfl⟩
    have apart : x ≠ y := by
      rintro rfl
      rw [VID.logicalDistance_isTreeDistance.self] at above
      exact Nat.not_lt_zero _ above
    obtain ⟨nh, g, found, -⟩ := lineNetwork_converged.nextHop inside yInside apart
    exact ⟨nh, g, found⟩
  nexthops := by
    intro x inside j nh g found
    have tree := VID.logicalDistance_isTreeDistance
    obtain ⟨edge, near, -⟩ := lineNetwork_route inside found
    have other : nh ∈ ({lineA, lineB, lineC} : Finset VID) := by
      rw [mem_line]
      rcases lineAdjacent_iff.mp edge with ⟨-, rfl⟩ | ⟨-, rfl⟩ | ⟨-, rfl⟩ | ⟨-, rfl⟩ <;> simp
    refine ⟨(lineNetwork_neighbors inside nh).mpr ⟨other, edge⟩, fun dvid away => ?_⟩
    have bound := tree.le_max nh x dvid
    rw [tree.comm nh x] at bound
    omega

theorem agreement_line : ∃ fp fq,
    Travels lineNetwork lineA (BuildRouteTable.rdvPublish lineA lineC 42) lineA fp ∧
      Travels lineNetwork lineB (BuildRouteTable.rdvQuery lineB 42) lineA fq ∧
      fp.dvid = lineA ∧ fq.dvid = lineA := by
  have publish : Travels lineNetwork lineA (BuildRouteTable.rdvPublish lineA lineC 42) lineA _ :=
    .ends (by decide +kernel)
  have query : Travels lineNetwork lineB (BuildRouteTable.rdvQuery lineB 42) lineA _ :=
    .hop 0 (by decide +kernel) (by decide +kernel) (.ends (by decide +kernel))
  obtain ⟨-, -, publishEnd, queryEnd, -⟩ := lineNetwork_complete.agreement (by decide) (by decide)
    (by decide) (by decide) (by decide) publish query
  exact ⟨_, _, publish, query, publishEnd, queryEnd⟩

end Forwarding

end Veil
