import Veil.ProcessAccessInfo
import Veil.Reroute

/-! IP packets without a route, which are sent to the access switch of their destination: whether
the switch's own element for such packets takes them. -/

namespace Veil

namespace RoutePacket

/-- The hop that the tables name for a destination: its switch, when that is a neighbour, or the
hop of the default route. Without a route it is the hop held before. -/
def namedHop (r : RoutePacket) (dstvid myVid held : VID) : VID :=
  match r.neighbors.lookupEntry dstvid.getSwitchVID with
  | some _ => dstvid.getSwitchVID
  | none =>
      match r.routes.getRouteDefault r.interfaces dstvid myVid 0 with
      | some (nh, _) => nh
      | none => held

def heading (r : RoutePacket) (frame : Frame) (myVid : VID) : VID × VID × VID :=
  if frame.veilType = veilEncapMultipathIp then
    let (_, frame, looked) := r.multipath frame myVid
    (frame.dvid, looked.myVid, looked.nexthop)
  else (frame.dvid, myVid, 0)

def lastLookup (r : RoutePacket) (frame : Frame) (myVid : VID) : PortLookup :=
  let (switch, entering, first) := r.beforeLoop frame myVid
  if rerouted entering then (switch.reroute 48 entering.dvid first).2 else first

theorem getPort_nexthop (r : RoutePacket) {dstvid myVid nexthop : VID} {dhost : EtherAddress}
    (none : (r.getPort dstvid dhost nexthop myVid).port < 0) :
    (r.getPort dstvid dhost nexthop myVid).nexthop = r.namedHop dstvid myVid nexthop := by
  have far := (r.getPort_of_neg none).2.2.1
  rw [(r.getPort_of_neg none).2.1] at far
  revert none
  simp only [getPort, namedHop, Nat.not_le.mpr far, if_false]
  cases r.neighbors.lookupEntry dstvid.getSwitchVID with
  | some myInterfacevid => exact fun _ => rfl
  | none =>
      cases r.routes.getRouteDefault r.interfaces dstvid myVid 0 with
      | none => exact fun _ => rfl
      | some route =>
          cases neighbor : r.neighbors.lookupEntry route.1 with
          | some myInterfacevid =>
              simp [neighbor]
          | none =>
              simp only [neighbor]
              split
              · intro none
                simp at none
                omega
              · exact fun _ => rfl

theorem multipath_tables (r : RoutePacket) (frame : Frame) (myVid : VID) :
    ∃ routes, routes.routes = r.routes.routes ∧
      (r.multipath frame myVid).1 = { r with routes } := by
  rw [multipath]
  dsimp only
  generalize (if (r.interfaces.lookupVidEntry frame.dvid).1 = true then _ else _ : Frame) = sent
  split
  · have kept := r.routes.getRouteAlternate_routes r.interfaces sent.dvid
      (r.getPort frame.dvid frame.dhost 0 myVid).myVid 0
    have found :
        r.routes.getRoute r.interfaces sent.dvid (r.getPort frame.dvid frame.dhost 0 myVid).myVid 0
        false = r.routes.getRouteAlternate r.interfaces sent.dvid
          (r.getPort frame.dvid frame.dhost 0 myVid).myVid 0 := rfl
    rw [found]
    generalize r.routes.getRouteAlternate r.interfaces sent.dvid
      (r.getPort frame.dvid frame.dhost 0 myVid).myVid 0 = alternate at kept
    obtain ⟨routes, none | ⟨nh, newgw⟩⟩ := alternate
    · exact ⟨routes, kept, rfl⟩
    · refine ⟨routes, kept, ?_⟩
      dsimp only
      split <;> rfl
  · exact ⟨r.routes, rfl, rfl⟩

theorem namedHop_rotated (r : RoutePacket) {routes : RouteTable}
    (same : routes.routes = r.routes.routes) (dstvid myVid held : VID) :
    { r with routes }.namedHop dstvid myVid held = r.namedHop dstvid myVid held := by
  have route : routes.getRouteDefault r.interfaces dstvid myVid 0 =
      r.routes.getRouteDefault r.interfaces dstvid myVid 0 := by
    simp only [RouteTable.getRouteDefault, same]
  simp only [namedHop, route]

theorem beforeLoop_heading {r switch : RoutePacket} {frame entering : Frame} {myVid : VID}
    {first : PortLookup} (enters : r.beforeLoop frame myVid = (switch, entering, first))
    (none : first.port < 0) :
    first.nexthop = r.namedHop (r.heading frame myVid).1 (r.heading frame myVid).2.1
      (r.heading frame myVid).2.2 := by
  rw [beforeLoop] at enters
  rw [heading]
  split at enters
  · rename_i multipath
    obtain ⟨routes, kept, tables⟩ := r.multipath_tables frame myVid
    rw [if_pos multipath]
    generalize r.multipath frame myVid = stepped at enters tables ⊢
    obtain ⟨rotated, sent, looked⟩ := stepped
    simp only [Prod.mk.injEq] at enters
    obtain ⟨rfl, rfl, rfl⟩ := enters
    dsimp only at tables
    rw [getPort_nexthop _ none, tables, namedHop_rotated r kept]
  · obtain ⟨rfl, rfl, rfl⟩ := enters
    rename_i direct
    rw [if_neg direct, getPort_nexthop _ none]

/-- The packet for the access switch goes to the back route, and the switch's element for such
packets handles it: it resolves it here or hands it back to the router. -/
structure FallsBack (r : RoutePacket) (map : MappingTable) (frame : Frame) : Prop where
  port : (r.smaction frame).2.2 = r.numinterfaces
  veilType : (r.smaction frame).2.1.veilType = noVidToAccessSwitch
  received : (r.interfaces.lookupVidEntry (r.smaction frame).2.1.dhost).1
  handled :
    let access : ProcessAccessInfo := ⟨r.hosts, r.interfaces, map⟩
    let packet := (r.smaction frame).2.1
    if (r.interfaces.lookupVidEntry packet.dvid).1 then
      ∃ result, access.noVid packet ((r.interfaces.lookupIntEntry packet.port).getD 0) =
          some result ∧
        access.dispose packet = some (access, result)
    else access.dispose packet = some (access, [], .handedOn packet)

/-- When the last lookup finds no port the loop is not run: it would not have ended. -/
theorem lastLookup_of_neg {r switch : RoutePacket} {frame entering : Frame} {myVid : VID}
    {first : PortLookup} (enters : r.beforeLoop frame myVid = (switch, entering, first))
    (none : (r.lastLookup frame myVid).port < 0) : ¬rerouted entering ∧ first.port < 0 := by
  simp only [lastLookup, enters] at none
  by_cases reroutable : rerouted entering
  · rw [if_pos reroutable] at none
    obtain ⟨-, -, nexthop, vid, rfl⟩ := beforeLoop_spec enters
    exact absurd none
      (Int.not_lt.mpr (switch.reroute_finds entering.dvid entering.dhost nexthop vid))
  · rw [if_neg reroutable] at none
    exact ⟨reroutable, none⟩

theorem smaction_of_neg {r : RoutePacket} {frame : Frame} {myVid : VID}
    (veil : frame.etherType = etherTypeVeil)
    (ip : frame.veilType = veilEncapMultipathIp ∨ frame.veilType = veilEncapIp)
    (alive : frame.ttl ≠ 0)
    (accepted : r.ownVid frame.dhost frame.shost frame.dhost frame.shost
      frame.svid.getSwitchVID = some myVid)
    (unrouted : (r.lastLookup frame myVid).port < 0) :
    (r.smaction frame).2.2 = r.numinterfaces ∧
      (r.smaction frame).2.1.etherType = etherTypeVeil ∧
      (r.smaction frame).2.1.veilType = noVidToAccessSwitch ∧
      (r.smaction frame).2.1.dhost =
          r.namedHop (r.heading frame myVid).1 (r.heading frame myVid).2.1
        (r.heading frame myVid).2.2 := by
  obtain ⟨⟨switch, entering, first⟩, enters⟩ : ∃ entered, r.beforeLoop frame myVid = entered :=
    ⟨_, rfl⟩
  obtain ⟨steady, none⟩ := lastLookup_of_neg enters unrouted
  have hop := beforeLoop_heading enters none
  obtain ⟨same, ⟨dhost, dvid, rfl⟩, -⟩ := beforeLoop_spec enters
  have errorPort : (switch.numinterfaces : Int) < switch.numinterfaces + 1 := by omega
  rw [smaction, if_pos veil, accepted]
  dsimp only
  rw [forwardVeil_eq enters, if_neg steady]
  dsimp only
  rw [if_neg alive, if_neg (Int.not_le.mpr none), if_pos ⟨errorPort, ip⟩, same]
  obtain ⟨dvid, payload, encapsulated⟩ := createAnEncapsulatedPacketToAccessSwitch_eq
    { frame with dhost := first.nexthop, shost := first.myVid, dvid, ttl := frame.ttl - 1 }
  rw [encapsulated]
  exact ⟨rfl, veil, rfl, hop⟩

/-- An IP packet without a route falls back to its access switch exactly when the hop that the
tables name for it is one of the switch's own VIDs. -/
theorem fallsBack_iff {r : RoutePacket} (map : MappingTable) {frame : Frame} {myVid : VID}
    (veil : frame.etherType = etherTypeVeil)
    (ip : frame.veilType = veilEncapMultipathIp ∨ frame.veilType = veilEncapIp)
    (alive : frame.ttl ≠ 0)
    (accepted : r.ownVid frame.dhost frame.shost frame.dhost frame.shost
      frame.svid.getSwitchVID = some myVid)
    (unrouted : (r.lastLookup frame myVid).port < 0) :
    r.FallsBack map frame ↔ (r.interfaces.lookupVidEntry
      (r.namedHop (r.heading frame myVid).1 (r.heading frame myVid).2.1
        (r.heading frame myVid).2.2)).1 := by
  obtain ⟨port, etherType, veilType, dhost⟩ := smaction_of_neg veil ip alive accepted unrouted
  rw [← dhost]
  constructor
  · exact FallsBack.received
  · intro received
    refine ⟨port, veilType, received, ?_⟩
    have noUpdate : noVidToAccessSwitch ≠ veilMapUpdate := by decide
    have handled (access : ProcessAccessInfo) (myVid : VID) :
        ∃ result, access.noVid (r.smaction frame).2.1 myVid = some result := by
      rw [ProcessAccessInfo.noVid, if_neg (not_not_intro etherType)]
      split
      · exact ⟨_, rfl⟩
      · split <;> exact ⟨_, rfl⟩
    dsimp only
    split
    · rename_i mine
      obtain ⟨result, found⟩ := handled ⟨r.hosts, r.interfaces, map⟩
        ((r.interfaces.lookupIntEntry (r.smaction frame).2.1.port).getD 0)
      refine ⟨result, found, ?_⟩
      simp only [ProcessAccessInfo.dispose, received, mine, if_true, veilType, if_neg noUpdate,
        found, Option.map_some]
    · rename_i onward
      simp only [ProcessAccessInfo.dispose, received, onward, if_true, veilType, if_neg noUpdate,
        Bool.false_eq_true, if_false]

def strayPacket (dvid : VID) : Frame :=
  ⟨0x000000010000, 0, etherTypeVeil, 0, dvid, veilEncapIp, maxTtl, 0, [], false, 0⟩

def cabled : RoutePacket :=
  ⟨.empty, .empty, .configure [(0x000000010000, 0x000000000005),
      (0x000000020000, 0x000000000006)] true,
    AList.singleton 0x000000000006 ⟨0x000000020000, 0x000000030000, 0x000000000005⟩⟩

theorem cabled_fallsBack : cabled.FallsBack ∅ (strayPacket 0x000000020007) :=
  (fallsBack_iff ∅ rfl (Or.inr rfl) (by decide) (show _ =
    some 0x000000010000 from rfl) (by decide)).mpr rfl

/-- Without a route the packet keeps no hop, and the zero VID is nobody's. -/
theorem alone_not_fallsBack :
    ¬∀ (r : RoutePacket) (map : MappingTable) (frame : Frame) (myVid : VID),
    frame.etherType = etherTypeVeil →
      frame.veilType = veilEncapMultipathIp ∨ frame.veilType = veilEncapIp →
      frame.ttl ≠ 0 →
      r.ownVid frame.dhost frame.shost frame.dhost frame.shost
        frame.svid.getSwitchVID = some myVid →
      (r.lastLookup frame myVid).port < 0 → r.FallsBack map frame := by
  intro always
  have back := always alone ∅ (strayPacket 0x000000030007) 0x000000010000 rfl (Or.inr rfl)
    (by decide) rfl
    (by decide)
  exact absurd back.received (by decide)

end RoutePacket

end Veil
