import Veil.RoutePacket

/-! A multipath frame at the gateway that it was sent to: what decides whether it goes on to its
final destination or is sent to another gateway. -/

namespace Veil

namespace RouteTable

theorem getRouteDefault_congr {table other : RouteTable} (same : other.routes = table.routes)
    (interfaces : InterfaceTable) (dst myinterface g : VID) :
    other.getRouteDefault interfaces dst myinterface g =
      table.getRouteDefault interfaces dst myinterface g := by
  simp only [getRouteDefault, same]

end RouteTable

namespace RoutePacket

variable (r : RoutePacket)

def outport (nvid : VID) : Option Nat :=
  (r.neighbors.lookupEntry nvid).bind fun myInterfacevid =>
    (r.interfaces.lookupVidEntry myInterfacevid).2.filter (· < r.numinterfaces)

/-- The frame goes out to a neighbour that is closer to the final destination than the gateway is,
and is addressed to the final destination. -/
def Crosses (frame sent : Frame) (port : Int) : Prop :=
  sent.dvid = frame.vidAt 0 ∧
    VID.logicalDistance sent.dhost (frame.vidAt 0) < frame.dvid.logicalDistance (frame.vidAt 0) ∧
    ∃ i : Nat, r.outport sent.dhost = some i ∧ port = i

def LeadsCloser (vid final : VID) (bound : Nat) : Prop :=
  16 < vid.logicalDistance final ∧
    match r.neighbors.lookupEntry final.getSwitchVID with
    | some _ => (r.outport final.getSwitchVID).isSome
    | none => ∃ nh gw, r.routes.getRouteDefault r.interfaces final vid 0 = some (nh, gw) ∧
        (r.outport nh).isSome ∧ nh.logicalDistance final < bound

def wayToGateway (frame : Frame) (myVid : VID) : PortLookup :=
  r.getPort frame.dvid frame.dhost 0 myVid

def gatewayInTurn (frame : Frame) (myVid : VID) : Option VID :=
  let way := r.wayToGateway frame myVid
  if 0 ≤ way.port ∧ way.port ≤ r.numinterfaces then
    (r.routes.getRouteAlternate r.interfaces (frame.vidAt 0) way.myVid 0).2.map (·.2)
  else none

def standsAt (frame : Frame) (myVid : VID) : VID :=
  let way := r.wayToGateway frame myVid
  if r.gatewayInTurn frame myVid = some (frame.vidAt 0) ∧ frame.vidAt 0 ≠ way.myVid then
    (r.getPort (frame.vidAt 0) frame.dhost 0 way.myVid).myVid
  else way.myVid

theorem portOf_eq_iff {myInterfacevid : VID} {i : Nat} :
    r.portOf myInterfacevid = i ↔ (r.interfaces.lookupVidEntry myInterfacevid).2 = some i := by
  rw [portOf]
  cases (r.interfaces.lookupVidEntry myInterfacevid).2 with
  | none => simp
  | some j => simp

theorem outport_eq_some {nvid : VID} {i : Nat} :
    r.outport nvid = some i ↔ ∃ myInterfacevid, r.neighbors.lookupEntry nvid = some myInterfacevid ∧
      r.portOf myInterfacevid = i ∧ i < r.numinterfaces := by
  simp only [outport, Option.bind_eq_some_iff, Option.filter_eq_some_iff, decide_eq_true_eq,
    portOf_eq_iff]

theorem getPort_crosses_iff {final vid : VID} {bound : Nat} (far : 16 < bound)
    (dhost : EtherAddress) (nexthop : VID) :
    let looked := r.getPort final dhost nexthop vid
    (looked.nexthop.logicalDistance final < bound ∧
      ∃ i : Nat, r.outport looked.nexthop = some i ∧ looked.port = i) ↔
      r.LeadsCloser vid final bound := by
  have inside {nvid : VID} {i : Nat} (found : r.outport nvid = some i) : i < r.numinterfaces := by
    obtain ⟨_, _, _, below⟩ := r.outport_eq_some.mp found
    exact below
  simp only [getPort, LeadsCloser]
  by_cases close : vid.logicalDistance final ≤ 16
  · rw [if_pos close]
    refine iff_of_false ?_ fun leads => absurd leads.1 (Nat.not_lt.mpr close)
    rintro ⟨-, i, found, port⟩
    have below := inside found
    simp only at port
    omega
  rw [if_neg close, and_iff_right (Nat.lt_of_not_le close)]
  cases direct : r.neighbors.lookupEntry final.getSwitchVID with
  | some myInterfacevid =>
      have near : final.getSwitchVID.logicalDistance final < bound := by
        rw [VID.logicalDistance_isTreeDistance.comm]
        exact Nat.lt_of_le_of_lt (VID.logicalDistance_getSwitchVID final) far
      simp only [near, true_and, Option.isSome_iff_exists]
      refine exists_congr fun i => and_iff_left_of_imp fun found => ?_
      obtain ⟨other, same, port, -⟩ := r.outport_eq_some.mp found
      rw [direct, Option.some.injEq] at same
      rw [same, port]
  | none =>
      dsimp only
      cases route : r.routes.getRouteDefault r.interfaces final vid 0 with
      | none =>
          refine iff_of_false ?_ (by simp)
          rintro ⟨-, i, -, port⟩
          simp only at port
          omega
      | some hop =>
          obtain ⟨nh, gw⟩ := hop
          dsimp only
          cases known : r.neighbors.lookupEntry nh with
          | some myInterfacevid =>
              have port (i : Nat) (found : r.outport nh = some i) :
                  r.portOf myInterfacevid = i := by
                obtain ⟨other, same, port, -⟩ := r.outport_eq_some.mp found
                rw [known, Option.some.injEq] at same
                rwa [same]
              constructor
              · rintro ⟨near, i, found, -⟩
                exact ⟨nh, gw, rfl, Option.isSome_iff_exists.mpr ⟨i, found⟩, near⟩
              · rintro ⟨_, _, same, some, near⟩
                obtain ⟨rfl, rfl⟩ := Prod.mk.inj (Option.some.inj same)
                obtain ⟨i, found⟩ := Option.isSome_iff_exists.mp some
                exact ⟨near, i, found, port i found⟩
          | none =>
              have unknown (i : Nat) : r.outport nh ≠ some i := by
                intro found
                obtain ⟨other, same, -⟩ := r.outport_eq_some.mp found
                rw [known] at same
                cases same
              dsimp only
              refine iff_of_false ?_ ?_
              · rintro ⟨-, i, found, -⟩
                split at found
                · exact unknown i found
                · exact unknown i found
              · rintro ⟨_, _, same, some, -⟩
                obtain ⟨rfl, rfl⟩ := Prod.mk.inj (Option.some.inj same)
                obtain ⟨i, found⟩ := Option.isSome_iff_exists.mp some
                exact unknown i found

theorem getPort_congr {routes : RouteTable} (same : routes.routes = r.routes.routes) (dstvid : VID)
    (dhost : EtherAddress) (nexthop myVid : VID) :
    RoutePacket.getPort { r with routes } dstvid dhost nexthop myVid =
      r.getPort dstvid dhost nexthop myVid := by
  simp only [getPort, portOf, numinterfaces, RouteTable.getRouteDefault_congr same]

theorem getPort_myVid (dstvid : VID) (dhost other : EtherAddress)
    (nexthop otherNexthop myVid : VID) :
    (r.getPort dstvid dhost nexthop myVid).myVid =
      (r.getPort dstvid other otherNexthop myVid).myVid := by
  simp only [getPort]
  repeat' split
  all_goals rfl

def restored (frame : Frame) (myVid : VID) : Frame :=
  { frame with dvid := frame.vidAt 0, dhost := (r.wayToGateway frame myVid).dhost }

theorem multipath_lost {frame : Frame} {myVid : VID}
    (own : (r.interfaces.lookupVidEntry frame.dvid).1 = true)
    (lost : ¬(0 ≤ (r.wayToGateway frame myVid).port ∧
      (r.wayToGateway frame myVid).port ≤ r.numinterfaces)) :
    r.multipath frame myVid = (r, r.restored frame myVid, r.wayToGateway frame myVid) := by
  have lost : ¬(((r.wayToGateway frame myVid).port ≤ r.numinterfaces) ∧
      0 ≤ (r.wayToGateway frame myVid).port) := fun found => lost found.symm
  rw [wayToGateway] at lost
  simp only [multipath, own, if_true, lost, and_false, if_false]
  rfl

theorem multipath_found {frame : Frame} {myVid : VID}
    (own : (r.interfaces.lookupVidEntry frame.dvid).1 = true)
    (found : 0 ≤ (r.wayToGateway frame myVid).port ∧
      (r.wayToGateway frame myVid).port ≤ r.numinterfaces) :
    r.multipath frame myVid =
      match r.routes.getRouteAlternate r.interfaces (frame.vidAt 0)
        (r.wayToGateway frame myVid).myVid 0 with
      | (routes, some (nh, newgw)) =>
          if newgw ≠ (r.wayToGateway frame myVid).myVid then
            let again := r.getPort newgw (r.wayToGateway frame myVid).dhost nh
              (r.wayToGateway frame myVid).myVid
            ({ r with routes },
              { r.restored frame myVid with dvid := newgw, dhost := again.dhost }, again)
          else ({ r with routes }, r.restored frame myVid,
            { r.wayToGateway frame myVid with nexthop := nh })
      | (routes, none) =>
          ({ r with routes }, r.restored frame myVid, r.wayToGateway frame myVid) := by
  have entrytouse := r.routes.getRouteAlternate_routes r.interfaces (frame.vidAt 0)
    (r.wayToGateway frame myVid).myVid 0
  have chosen := found.symm
  rw [wayToGateway] at chosen
  simp only [multipath, own, if_true, chosen, and_self, RouteTable.getRoute, Bool.false_eq_true,
    if_false]
  rw [← wayToGateway]
  generalize r.routes.getRouteAlternate r.interfaces (frame.vidAt 0)
    (r.wayToGateway frame myVid).myVid 0 = turn at entrytouse
  obtain ⟨routes, route⟩ := turn
  cases route with
  | none => rfl
  | some hop => simp only [getPort_congr r entrytouse, restored]

theorem multipath_spec {frame : Frame} (own : (r.interfaces.lookupVidEntry frame.dvid).1 = true)
    (myVid : VID) :
    ∃ routes dvid dhost, routes.routes = r.routes.routes ∧
      (r.multipath frame myVid).1 = { r with routes } ∧
      (r.multipath frame myVid).2.1 = { frame with dvid, dhost } ∧
      (dvid = frame.vidAt 0 ↔ ∀ gw, r.gatewayInTurn frame myVid = some gw →
        gw = (r.wayToGateway frame myVid).myVid ∨ gw = frame.vidAt 0) ∧
      (dvid = frame.vidAt 0 → (r.multipath frame myVid).2.2.myVid = r.standsAt frame myVid) := by
  by_cases found : 0 ≤ (r.wayToGateway frame myVid).port ∧
      (r.wayToGateway frame myVid).port ≤ r.numinterfaces
  · rw [r.multipath_found own found]
    have entrytouse := r.routes.getRouteAlternate_routes r.interfaces (frame.vidAt 0)
      (r.wayToGateway frame myVid).myVid 0
    have turn : r.gatewayInTurn frame myVid =
        (r.routes.getRouteAlternate r.interfaces (frame.vidAt 0)
        (r.wayToGateway frame myVid).myVid 0).2.map (·.2) := if_pos found
    rw [standsAt, turn]
    generalize r.routes.getRouteAlternate r.interfaces (frame.vidAt 0)
      (r.wayToGateway frame myVid).myVid 0 = route at entrytouse
    obtain ⟨routes, route⟩ := route
    cases route with
    | none => exact ⟨routes, frame.vidAt 0, _, entrytouse, rfl, rfl, by simp, by simp⟩
    | some hop =>
        obtain ⟨nh, newgw⟩ := hop
        by_cases self : newgw = (r.wayToGateway frame myVid).myVid
        · refine ⟨routes, frame.vidAt 0, (r.wayToGateway frame myVid).dhost, entrytouse, ?_, ?_,
            by simp [self], fun _ => ?_⟩
          · simp [self]
          · simp only [self, ne_eq, not_true_eq_false, if_false, restored]
          · simp only [self, ne_eq, not_true_eq_false, if_false, Option.map_some, Option.some.injEq]
            rw [if_neg fun both => both.2 both.1.symm]
        · refine ⟨routes, newgw, (r.getPort newgw (r.wayToGateway frame myVid).dhost nh
            (r.wayToGateway frame myVid).myVid).dhost, entrytouse, ?_, ?_,
              by simp [self], fun final => ?_⟩
          · simp [self]
          · simp only [self, ne_eq, not_false_eq_true, if_true, restored]
          · subst final
            simp only [self, ne_eq, not_false_eq_true, if_true, Option.map_some, and_self]
            exact r.getPort_myVid _ _ _ _ _ _
  · rw [r.multipath_lost own found]
    have turn : r.gatewayInTurn frame myVid = none := if_neg found
    refine ⟨r.routes, frame.vidAt 0, _, rfl, rfl, rfl, by simp [turn], fun _ => ?_⟩
    simp [standsAt, turn]

def sendMultipath (count : Nat) (frame : Frame) (looked : PortLookup) : Frame × Int :=
  let sent := { frame with dhost := looked.nexthop, shost := looked.myVid, ttl := frame.ttl - 1 }
  if frame.ttl = 0 then (sent, count + 1)
  else if 0 ≤ looked.port ∧ looked.port ≤ count then (sent, looked.port)
  else (createAnEncapsulatedPacketToAccessSwitch sent, count)

theorem forwardVeil_multipath {frame readdressed : Frame}
    (multipath : frame.veilType = veilEncapMultipathIp) {myVid : VID}
    (step : (r.multipath frame myVid).2.1 = readdressed)
    (sameType : readdressed.veilType = veilEncapMultipathIp)
    (arrived : readdressed.reroute = false) :
    (r.forwardVeil frame myVid).2 =
      sendMultipath (r.multipath frame myVid).1.numinterfaces readdressed
        ((r.multipath frame myVid).1.getPort readdressed.dvid readdressed.dhost
          (r.multipath frame myVid).2.2.nexthop (r.multipath frame myVid).2.2.myVid) := by
  have steady : rerouted readdressed = false := by
    simp only [rerouted, sameType, arrived]
    decide
  simp only [forwardVeil, multipath, if_true, step, steady, Bool.false_eq_true, if_false,
    sendMultipath]
  generalize (r.multipath frame myVid).1.getPort readdressed.dvid readdressed.dhost
    (r.multipath frame myVid).2.2.nexthop (r.multipath frame myVid).2.2.myVid = looked
  generalize (r.multipath frame myVid).1.numinterfaces = count
  by_cases expired : readdressed.ttl = 0
  · simp only [expired, if_true]
  · simp only [expired, if_false, sameType, true_or, and_true]
    by_cases found : 0 ≤ looked.port
    · by_cases inside : looked.port ≤ count
      · have notBeyond : ¬(count : Int) < looked.port := Int.not_lt.mpr inside
        simp only [found, inside, notBeyond, if_true, if_false, and_self]
      · have beyond : (count : Int) < looked.port := Int.not_le.mp inside
        simp only [found, inside, beyond, if_true, if_false, and_false]
    · have beyond : (count : Int) < count + 1 := by omega
      simp only [found, beyond, if_true, if_false, false_and]

theorem sendMultipath_crosses_iff {frame readdressed : Frame} {looked : PortLookup}
    (sameTtl : readdressed.ttl = frame.ttl) :
    r.Crosses frame (sendMultipath r.numinterfaces readdressed looked).1
        (sendMultipath r.numinterfaces readdressed looked).2 ↔
      frame.ttl ≠ 0 ∧ readdressed.dvid = frame.vidAt 0 ∧
        looked.nexthop.logicalDistance (frame.vidAt 0) <
          frame.dvid.logicalDistance (frame.vidAt 0) ∧
        ∃ i : Nat, r.outport looked.nexthop = some i ∧ looked.port = i := by
  have inside {nvid : VID} {i : Nat} (found : r.outport nvid = some i) : i < r.numinterfaces := by
    obtain ⟨_, _, _, below⟩ := r.outport_eq_some.mp found
    exact below
  simp only [sendMultipath, sameTtl]
  by_cases expired : frame.ttl = 0
  · simp only [expired, if_true, ne_eq, not_true_eq_false, false_and, iff_false]
    rintro ⟨-, -, i, found, port⟩
    have below := inside found
    omega
  · simp only [expired, if_false, ne_eq, not_false_eq_true, true_and]
    by_cases found : 0 ≤ looked.port ∧ looked.port ≤ r.numinterfaces
    · rw [if_pos found]
      rfl
    · rw [if_neg found]
      refine iff_of_false ?_ ?_
      · rintro ⟨-, -, i, sent, port⟩
        have below := inside sent
        simp only at port
        omega
      · rintro ⟨-, -, i, sent, port⟩
        have below := inside sent
        exact found (by omega)

theorem forwardVeil_crosses_iff {frame : Frame} (multipath : frame.veilType = veilEncapMultipathIp)
    (arrived : frame.reroute = false) (own : (r.interfaces.lookupVidEntry frame.dvid).1 = true)
    (far : 16 < frame.dvid.logicalDistance (frame.vidAt 0)) (myVid : VID) :
    r.Crosses frame (r.forwardVeil frame myVid).2.1 (r.forwardVeil frame myVid).2.2 ↔
      frame.ttl ≠ 0 ∧ (∀ gw, r.gatewayInTurn frame myVid = some gw →
        gw = (r.wayToGateway frame myVid).myVid ∨ gw = frame.vidAt 0) ∧
      r.LeadsCloser (r.standsAt frame myVid) (frame.vidAt 0)
        (frame.dvid.logicalDistance (frame.vidAt 0)) := by
  obtain ⟨routes, dvid, dhost, same, tables, readdressed, stays, stands⟩ :=
    r.multipath_spec own myVid
  have count : (r.multipath frame myVid).1.numinterfaces = r.numinterfaces := by rw [tables]; rfl
  have sameTtl : ({ frame with dvid, dhost } : Frame).ttl = frame.ttl := rfl
  rw [r.forwardVeil_multipath multipath readdressed multipath arrived, count,
    r.sendMultipath_crosses_iff sameTtl, tables, r.getPort_congr same, ← stays]
  refine and_congr_right fun _ => and_congr_right fun final => ?_
  rw [← stands final]
  dsimp only at final ⊢
  rw [final]
  exact r.getPort_crosses_iff far _ _

/-- A multipath frame has come in whose gateway, one of the switch's own VIDs, has a physical
neighbour for its default route towards the final destination. A frame from the wire has no
reroute mark. -/
structure AtGateway (frame : Frame) (myVid nexthop : VID) : Prop where
  veil : frame.etherType = etherTypeVeil
  multipath : frame.veilType = veilEncapMultipathIp
  arrived : frame.reroute = false
  taken : r.ownVid frame.dhost frame.shost frame.dhost frame.shost
    frame.svid.getSwitchVID = some myVid
  own : (r.interfaces.lookupVidEntry frame.dvid).1 = true
  far : 16 < frame.dvid.logicalDistance (frame.vidAt 0)
  remote : ∀ i vid, r.interfaces.lookupIntEntry i = some vid →
    16 < vid.logicalDistance (frame.vidAt 0)
  route : ∃ i, r.interfaces.interfaces.lookup frame.dvid = some i ∧
    r.routes.defaultRoute i (frame.dvid.logicalDistance (frame.vidAt 0)) =
      some (nexthop, frame.dvid)
  neighbor : r.neighbors.Knows nexthop
  level : frame.dvid.logicalDistance nexthop = frame.dvid.logicalDistance (frame.vidAt 0)

def acrossLevel (final nexthop : VID) : VID :=
  if (r.neighbors.lookupEntry final.getSwitchVID).isSome then final.getSwitchVID else nexthop

variable {r} {frame : Frame} {myVid nexthop : VID}

theorem AtGateway.routeDefault (gateway : r.AtGateway frame myVid nexthop) :
    r.routes.getRouteDefault r.interfaces (frame.vidAt 0) frame.dvid 0 =
      some (nexthop, frame.dvid) := by
  obtain ⟨i, found, route⟩ := gateway.route
  have notClose : ¬frame.dvid.logicalDistance (frame.vidAt 0) ≤ 16 := Nat.not_le.mpr gateway.far
  simp only [RouteTable.defaultRoute, RouteTable.bucket?] at route
  cases inner : r.routes.routes.lookup i with
  | none => simp [inner] at route
  | some rt =>
      cases slots : rt.lookup (frame.dvid.logicalDistance (frame.vidAt 0)) with
      | none => simp [inner, slots] at route
      | some buck =>
          simp only [inner, slots, Option.bind_some] at route
          simp only [RouteTable.getRouteDefault, found, inner, slots, notClose, if_false]
          exact route

theorem AtGateway.leadsCloser_iff (gateway : r.AtGateway frame myVid nexthop) :
    r.LeadsCloser frame.dvid (frame.vidAt 0) (frame.dvid.logicalDistance (frame.vidAt 0)) ↔
      (r.outport (r.acrossLevel (frame.vidAt 0) nexthop)).isSome := by
  have near : nexthop.logicalDistance (frame.vidAt 0) <
      frame.dvid.logicalDistance (frame.vidAt 0) := by
    have tree := VID.logicalDistance_isTreeDistance
    refine tree.lt_of_eq ((tree.comm nexthop frame.dvid).trans gateway.level) rfl ?_
    exact Nat.lt_trans (by decide) gateway.far
  rw [LeadsCloser, and_iff_right gateway.far, gateway.routeDefault, acrossLevel]
  cases r.neighbors.lookupEntry (frame.vidAt 0).getSwitchVID with
  | some _ => rfl
  | none => simp [near]

theorem AtGateway.forwarded (gateway : r.AtGateway frame myVid nexthop) :
    r.smaction frame = r.forwardVeil frame myVid := by
  simp only [smaction, gateway.veil, if_true, gateway.taken]

/-- Exactly when a multipath frame crosses at its gateway: it is not expired, the route in turn
leads through the interface itself or to the final destination, and the last lookup finds a
neighbour. -/
theorem AtGateway.crosses_iff (gateway : r.AtGateway frame myVid nexthop) :
    r.Crosses frame (r.smaction frame).2.1 (r.smaction frame).2.2 ↔
      frame.ttl ≠ 0 ∧ (∀ gw, r.gatewayInTurn frame myVid = some gw →
        gw = (r.wayToGateway frame myVid).myVid ∨ gw = frame.vidAt 0) ∧
      if r.standsAt frame myVid = frame.dvid then
        (r.outport (r.acrossLevel (frame.vidAt 0) nexthop)).isSome = true
      else r.LeadsCloser (r.standsAt frame myVid) (frame.vidAt 0)
        (frame.dvid.logicalDistance (frame.vidAt 0)) := by
  rw [gateway.forwarded,
    r.forwardVeil_crosses_iff gateway.multipath gateway.arrived gateway.own gateway.far]
  refine and_congr_right fun _ => and_congr_right fun _ => ?_
  split
  · rename_i stands
    rw [stands]
    exact gateway.leadsCloser_iff
  · rfl

theorem AtGateway.getPort_myVid (gateway : r.AtGateway frame myVid nexthop) (dhost : EtherAddress)
    (previous : VID) :
    (r.getPort (frame.vidAt 0) dhost previous frame.dvid).myVid = frame.dvid := by
  have notClose : ¬frame.dvid.logicalDistance (frame.vidAt 0) ≤ 16 := Nat.not_le.mpr gateway.far
  simp only [getPort, notClose, if_false]
  split
  · rfl
  · rw [gateway.routeDefault]
    dsimp only
    cases known : r.neighbors.lookupEntry nexthop with
    | some _ => rfl
    | none => exact (NeighborTable.lookupEntry_eq_none_iff.mp known gateway.neighbor).elim

theorem AtGateway.crosses_iff_of_self (gateway : r.AtGateway frame frame.dvid nexthop) :
    r.Crosses frame (r.smaction frame).2.1 (r.smaction frame).2.2 ↔
      frame.ttl ≠ 0 ∧ (∀ nh gw,
          (r.routes.getRouteAlternate r.interfaces (frame.vidAt 0) frame.dvid 0).2 =
        some (nh, gw) → gw = frame.dvid ∨ gw = frame.vidAt 0) ∧
      (r.outport (r.acrossLevel (frame.vidAt 0) nexthop)).isSome := by
  have way : r.wayToGateway frame frame.dvid =
      ⟨r.numinterfaces, frame.dvid.logicalDistance frame.dvid, frame.dvid, frame.dvid,
        frame.dvid⟩ := by
    refine r.getPort_self frame.dhost 0 ?_
    rw [VID.logicalDistance_isTreeDistance.self]
    exact Nat.zero_le _
  have turn : r.gatewayInTurn frame frame.dvid =
      (r.routes.getRouteAlternate r.interfaces (frame.vidAt 0) frame.dvid 0).2.map (·.2) := by
    rw [gatewayInTurn, way]
    exact if_pos ⟨Int.natCast_nonneg _, Int.le_refl _⟩
  have stands : r.standsAt frame frame.dvid = frame.dvid := by
    rw [standsAt, way]
    split
    · exact gateway.getPort_myVid frame.dhost 0
    · rfl
  rw [gateway.forwarded, r.forwardVeil_crosses_iff gateway.multipath gateway.arrived gateway.own
    gateway.far, stands, gateway.leadsCloser_iff, turn, way]
  refine and_congr_right fun _ => and_congr_left fun _ => ?_
  simp only [Option.map_eq_some_iff, Prod.exists, exists_eq_right]
  exact ⟨fun stays nh gw route => stays gw ⟨nh, route⟩,
    fun stays gw ⟨nh, route⟩ => stays nh gw route⟩

/-! ### A gateway with a second route -/

def gatewaySwitch (alternates : List (VID × VID)) : RoutePacket where
  hosts := HostTable.empty
  routes := alternates.foldl (fun routes (nh, g) =>
      routes.updateEntry (InterfaceTable.single 0x000100000000 1) 0x000100000000 34 nh g false)
    (RouteTable.empty.updateEntry (InterfaceTable.single 0x000100000000 1) 0x000100000000 34
      0x000200000000 0x000100000000 true)
  interfaces := InterfaceTable.single 0x000100000000 1
  neighbors := ((∅ : NeighborTable).insert 7 ⟨0x000200000000, 0x000100000000, 1⟩).insert 8
    ⟨0x000100010000, 0x000100000000, 1⟩

def multipathFrame : Frame where
  dhost := 0x000100000000
  shost := 0x000100010000
  etherType := etherTypeVeil
  svid := 0x000100020001
  dvid := 0x000100000000
  veilType := veilEncapMultipathIp
  ttl := maxTtl
  optional := 0
  payload := Bytes.ofWord 6 (0x000300000001 : VID)
  reroute := false
  port := 0

theorem gatewaySwitch_atGateway {alternates : List (VID × VID)}
    (route : (gatewaySwitch alternates).routes.defaultRoute 0 34 =
      some (0x000200000000, 0x000100000000)) :
    (gatewaySwitch alternates).AtGateway multipathFrame 0x000100000000 0x000200000000 where
  veil := rfl
  multipath := rfl
  arrived := rfl
  taken := by
    have taken :
        (gatewaySwitch []).ownVid multipathFrame.dhost multipathFrame.shost multipathFrame.dhost
        multipathFrame.shost multipathFrame.svid.getSwitchVID = some 0x000100000000 := by
          decide +kernel
    exact taken
  own := by
    have own : ((gatewaySwitch []).interfaces.lookupVidEntry multipathFrame.dvid).1 = true := by
      decide +kernel
    exact own
  far := by decide +kernel
  remote := by
    intro i vid named
    have single : vid = 0x000100000000 := by
      change (AList.lookup i ((∅ : HashTable Nat VID).insert 0 0x000100000000)) = some vid at named
      rw [HashTable.lookup_insert_ite] at named
      split at named
      · exact (Option.some.inj named).symm
      · cases named
    subst vid
    decide +kernel
  route := ⟨0, rfl, by
    have level : (0x000100000000 : VID).logicalDistance (multipathFrame.vidAt 0) = 34 := by
      decide +kernel
    exact level ▸ route⟩
  neighbor := ⟨7, _, rfl, rfl⟩
  level := by decide +kernel

theorem crosses_alone :
    (gatewaySwitch []).Crosses multipathFrame ((gatewaySwitch []).smaction multipathFrame).2.1
      ((gatewaySwitch []).smaction multipathFrame).2.2 := by
  refine (gatewaySwitch_atGateway (by decide +kernel)).crosses_iff.mpr ⟨by decide, ?_, ?_⟩
  · have turn : (gatewaySwitch []).gatewayInTurn multipathFrame 0x000100000000 =
        some 0x000100000000 := by
      decide +kernel
    rintro gw same
    rw [turn] at same
    exact Or.inl (Option.some.inj same ▸ by decide +kernel)
  · have stands : (gatewaySwitch []).standsAt multipathFrame 0x000100000000 =
        multipathFrame.dvid := by
      decide +kernel
    rw [if_pos stands]
    decide +kernel

/-- With a second route in the bucket the frame goes back to another gateway of the same level. -/
theorem crosses_not_always :
    ¬∀ (r : RoutePacket) (frame : Frame) (myVid nexthop : VID), r.AtGateway frame myVid nexthop →
      r.Crosses frame (r.smaction frame).2.1 (r.smaction frame).2.2 := by
  intro always
  have crossed := (always (gatewaySwitch [(0x000100010000, 0x000100010000)]) multipathFrame _ _
    (gatewaySwitch_atGateway (by decide +kernel))).1
  exact absurd crossed (by decide +kernel)

end RoutePacket

end Veil
