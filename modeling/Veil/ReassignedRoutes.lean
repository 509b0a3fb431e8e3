import Veil.Reassignment
import Veil.RoutePacket

/-! What the routes and the neighbour entries of a switch mean while its VIDs change. A bucket is
chosen by the distance from the VID that an interface had when the route was learned, but the routes
are stored under the index of the interface; a neighbour entry holds a copy of the VID. -/

namespace Veil

/-- The gateway is closer to `vid` than the bucket's level, and a route that is its own gateway
leads to a neighbour at that level. -/
def RoutingEntry.Fits (entry : RoutingEntry) (vid : VID) (b : Nat) : Prop :=
  vid.logicalDistance entry.gateway < b ∧
    (entry.gateway = vid → vid.logicalDistance entry.nexthop = b)

theorem RoutingEntry.Fits.reassigned_iff {entry : RoutingEntry} {old vid : VID} {b : Nat}
    (fits : entry.Fits old b) :
    entry.Fits vid b ↔ old.logicalDistance vid < b ∧
      (entry.gateway = vid → vid.logicalDistance entry.nexthop = b) := by
  have tree := VID.logicalDistance_isTreeDistance
  refine and_congr_left fun _ => ⟨fun near => ?_, fun near => ?_⟩
  · exact tree.lt_trans fits.1 (tree.comm vid entry.gateway ▸ near)
  · exact tree.lt_trans (tree.comm old vid ▸ near) fits.1

namespace SwitchState

def Attached (interfaces : InterfaceTable) (nte : NeighborTableEntry) : Prop :=
  ∃ i, interfaces.etheraddToInterfaceIndex.lookup nte.myMac = some i ∧
    interfaces.isvidset.lookup i = some true ∧ interfaces.lookupIntEntry i = some nte.myVid ∧
    interfaces.lookupVidEntry nte.myVid = (true, some i)

def RoutesFit (interfaces : InterfaceTable) (routes : RouteTable) : Prop :=
  ∀ i b entry, routes.HasRoute i b entry →
    ∃ vid, interfaces.lookupIntEntry i = some vid ∧ entry.Fits vid b

structure Meaningful (state : SwitchState) : Prop where
  routes : RoutesFit state.interfaces state.tables.routes
  neighbors : ∀ mac nte, state.tables.neighbors.lookup mac = some nte →
    Attached state.interfaces nte
  ports : ∀ hosts dstvid dhost nexthop myVid, 16 < myVid.logicalDistance dstvid →
    state.tables.neighbors.Knows dstvid.getSwitchVID → ∃ mac nte i,
      state.tables.neighbors.lookup mac = some nte ∧ nte.neighborVID = dstvid.getSwitchVID ∧
        state.interfaces.etheraddToInterfaceIndex.lookup nte.myMac = some i ∧
        i < state.interfaces.numInterfaces ∧
        (RoutePacket.getPort ⟨hosts, state.tables.routes, state.interfaces, state.tables.neighbors⟩
          dstvid dhost nexthop myVid).port = i

/-- An interface gets another VID only when no neighbour entry is over it, no neighbour entry is
over another interface with that VID, and the new VID is closer to the old one than the level of
every bucket with a route, whose routes through the new VID lead to neighbours at that level. A
hello packet counts only when the interface it has come in by can be found from its VID. -/
def KeepsMeaning (state : SwitchState) : SwitchAction → Prop
  | .vcc _ frame =>
      ∀ i, ProcessVCCSTAdSub.assignedInterface state.interfaces frame = some i →
        (∀ mac nte, state.tables.neighbors.lookup mac = some nte →
          (state.interfaces.etheraddToInterfaceIndex.lookup nte.myMac = some i ↔
            nte.myVid = frame.vidAt 0)) ∧
        ∀ old, state.interfaces.lookupIntEntry i = some old → ∀ b entry,
          state.tables.routes.HasRoute i b entry →
            old.logicalDistance (frame.vidAt 0) < b ∧
              (entry.gateway = frame.vidAt 0 → (frame.vidAt 0).logicalDistance entry.nexthop = b)
  | .hello frame =>
      ∃ vid, state.interfaces.lookupIntEntry frame.port = some vid ∧
        state.interfaces.lookupVidEntry vid = (true, some frame.port)
  | action => state.Received action

def Owned (interfaces : InterfaceTable) : Prop :=
  ∀ vid i, interfaces.interfaces.lookup vid = some i →
    interfaces.isvidset.lookup i = some true ∧ interfaces.lookupIntEntry i = some vid

theorem Owned.lookupVidEntry_iff {interfaces : InterfaceTable} (owned : Owned interfaces)
    {vid : VID} {i : Nat} : interfaces.lookupVidEntry vid = (true, some i) ↔
      interfaces.interfaces.lookup vid = some i := by
  cases found : interfaces.interfaces.lookup vid with
  | none => simp [InterfaceTable.lookupVidEntry, found]
  | some j =>
      have named : interfaces.rinterfaces.lookup j = some vid := (owned vid j found).2
      simp [InterfaceTable.lookupVidEntry, found, named]

theorem Owned.attached_iff {interfaces : InterfaceTable} (owned : Owned interfaces)
    {nte : NeighborTableEntry} : Attached interfaces nte ↔
      ∃ i, interfaces.etheraddToInterfaceIndex.lookup nte.myMac = some i ∧
        interfaces.interfaces.lookup nte.myVid = some i := by
  constructor
  · rintro ⟨i, address, -, -, found⟩
    exact ⟨i, address, owned.lookupVidEntry_iff.mp found⟩
  · rintro ⟨i, address, found⟩
    obtain ⟨marked, named⟩ := owned nte.myVid i found
    exact ⟨i, address, marked, named, owned.lookupVidEntry_iff.mpr found⟩

theorem Owned.assignVID {table : InterfaceTable} (owned : Owned table) (i : Nat) (myvid : VID) :
    Owned (table.assignVID i myvid) := by
  intro vid k found
  rw [InterfaceTable.assignVID_interfaces] at found
  rw [InterfaceTable.assignVID_isvidset, InterfaceTable.lookupIntEntry,
    InterfaceTable.assignVID_rinterfaces]
  split at found
  · rename_i same
    subst vid k
    exact ⟨Or.inl rfl, if_pos rfl⟩
  · obtain ⟨marked, named⟩ := owned vid k found.2
    exact ⟨Or.inr marked, by rwa [if_neg found.1]⟩

structure Consistent (state : SwitchState) : Prop where
  configured : state.interfaces.Configured
  owned : Owned state.interfaces
  routes : RoutesFit state.interfaces state.tables.routes
  neighbors : ∀ mac nte, state.tables.neighbors.lookup mac = some nte →
    Attached state.interfaces nte

theorem start_consistent {conf : List (VID × EtherAddress)} (distinct : (conf.map (·.2)).Nodup) :
    (start conf).Consistent where
  configured := InterfaceTable.configure_configured false distinct
  owned := nofun
  routes := fun i b entry route => (RouteTable.not_hasRoute_empty i b entry route).elim
  neighbors := nofun

theorem Consistent.meaningful {state : SwitchState} (consistent : state.Consistent) :
    state.Meaningful where
  routes := consistent.routes
  neighbors := consistent.neighbors
  ports := by
    intro hosts dstvid dhost nexthop myVid far known
    have notClose : ¬myVid.logicalDistance dstvid ≤ 16 := by omega
    cases looked : state.tables.neighbors.lookupEntry dstvid.getSwitchVID with
    | none => exact (NeighborTable.lookupEntry_eq_none_iff.mp looked known).elim
    | some myInterfacevid =>
        obtain ⟨mac, nte, found, named, rfl⟩ := NeighborTable.lookupEntry_eq_some looked
        obtain ⟨i, address, -, -, reached⟩ := consistent.neighbors mac nte found
        refine ⟨mac, nte, i, found, named, address, consistent.configured.index_lt address, ?_⟩
        simp [RoutePacket.getPort, notClose, looked, RoutePacket.portOf, reached]

theorem Consistent.assignVID_iff {state : SwitchState} (consistent : state.Consistent) (i : Nat)
    (myvid : VID) :
    (RoutesFit (state.interfaces.assignVID i myvid) state.tables.routes ∧
      ∀ mac nte, state.tables.neighbors.lookup mac = some nte →
        Attached (state.interfaces.assignVID i myvid) nte) ↔
      (∀ mac nte, state.tables.neighbors.lookup mac = some nte →
        (state.interfaces.etheraddToInterfaceIndex.lookup nte.myMac = some i ↔ nte.myVid = myvid)) ∧
      ∀ old, state.interfaces.lookupIntEntry i = some old → ∀ b entry,
        state.tables.routes.HasRoute i b entry → old.logicalDistance myvid < b ∧
          (entry.gateway = myvid → myvid.logicalDistance entry.nexthop = b) := by
  rw [and_comm]
  refine and_congr ?_ ?_
  · refine forall₂_congr fun mac nte => forall_congr' fun found => ?_
    obtain ⟨j, address, reached⟩ := consistent.owned.attached_iff.mp
      (consistent.neighbors mac nte found)
    have sameAddress :
        (state.interfaces.assignVID i myvid).etheraddToInterfaceIndex.lookup nte.myMac =
        some j := address
    rw [(consistent.owned.assignVID i myvid).attached_iff, sameAddress, address]
    simp only [InterfaceTable.assignVID_interfaces, Option.some.injEq, exists_eq_left']
    by_cases same : nte.myVid = myvid
    · simp [same]
    · simp [same, reached]
  · constructor
    · intro meant old named b entry route
      obtain ⟨vid, stored, fits⟩ := consistent.routes i b entry route
      obtain rfl := Option.some.inj (stored.symm.trans named)
      obtain ⟨new, renamed, fitsNew⟩ := meant i b entry route
      rw [InterfaceTable.lookupIntEntry, InterfaceTable.assignVID_rinterfaces,
        if_pos rfl] at renamed
      obtain rfl := Option.some.inj renamed
      exact fits.reassigned_iff.mp fitsNew
    · intro near j b entry route
      obtain ⟨vid, stored, fits⟩ := consistent.routes j b entry route
      rw [InterfaceTable.lookupIntEntry, InterfaceTable.assignVID_rinterfaces]
      split
      · rename_i same
        subst j
        exact ⟨myvid, rfl, fits.reassigned_iff.mpr (near vid stored b entry route)⟩
      · exact ⟨vid, stored, fits⟩

theorem RoutesFit.updateEntry {interfaces : InterfaceTable} {routes : RouteTable}
    (fit : RoutesFit interfaces routes) (owned : Owned interfaces) {i : VID} {b : Nat} {nh g : VID}
    {isDefault : Bool}
    (fits : ∀ entry : RoutingEntry, entry.nexthop = nh → entry.gateway = g → entry.Fits i b) :
    RoutesFit interfaces (routes.updateEntry interfaces i b nh g isDefault) := by
  intro otherId other entry route
  rcases route.of_updateEntry with earlier | ⟨found, rfl, nexthop, gateway⟩
  · exact fit otherId other entry earlier
  · exact ⟨i, (owned i otherId found).2, fits entry nexthop gateway⟩

theorem RoutesFit.announced {interfaces : InterfaceTable} {routes : RouteTable}
    (fit : RoutesFit interfaces routes) (owned : Owned interfaces) {myinterface nexthop : VID}
    (apart : nexthop.logicalDistance myinterface ≠ 0) :
    RoutesFit interfaces (routes.updateEntry interfaces myinterface
      (nexthop.logicalDistance myinterface) nexthop myinterface true) := by
  have tree := VID.logicalDistance_isTreeDistance
  refine fit.updateEntry owned fun entry toNexthop ownGateway => ⟨?_, fun _ => ?_⟩
  · rw [ownGateway, tree.self]
    exact Nat.pos_iff_ne_zero.mpr apart
  · rw [toNexthop, tree.comm]

theorem RoutesFit.learnGateway {interfaces : InterfaceTable} {routes : RouteTable}
    (fit : RoutesFit interfaces routes) (owned : Owned interfaces) {frame : Frame} {j : Nat}
    (near : 16 < frame.dvid.logicalDistance (frame.switchVidAt (2 + 4 * j)) →
      frame.dvid.logicalDistance (frame.switchVidAt (2 + 4 * j)) < (frame.byteAt 0).toNat) :
    RoutesFit interfaces (ProcessRDV.learnGateway interfaces frame routes j) := by
  simp only [ProcessRDV.learnGateway]
  split
  · rename_i far
    split
    · refine fit.updateEntry owned fun entry _ gateway => ⟨gateway ▸ near far, fun own => ?_⟩
      have self := VID.logicalDistance_isTreeDistance.self frame.dvid
      rw [← gateway, own] at far
      omega
    · exact fit
  · exact fit

theorem RoutesFit.smaction {interfaces : InterfaceTable} {routes : RouteTable}
    (fit : RoutesFit interfaces routes) (owned : Owned interfaces) (rdvs : RendezvousTable)
    {frame : Frame} (answered : frame.veilType = veilRdvReply → ∃ (asked : RendezvousTable)
      (k : Bytes.Byte), frame.payload = rdvReplyPayload k (asked.getRdvPoint k.toNat frame.dvid)) :
    RoutesFit interfaces (ProcessRDV.smaction ⟨routes, rdvs, interfaces⟩ frame).1.routes := by
  simp only [ProcessRDV.smaction, ProcessRDV.dispose]
  split
  · exact fit
  split
  · exact fit
  split
  · split <;> exact fit
  split
  · exact fit
  split
  · rename_i reply
    obtain ⟨asked, k, carried⟩ := answered reply
    refine List.foldlRecOn _ _ fit fun learned earlier j listed => ?_
    exact earlier.learnGateway owned (rdvReply_near carried (List.mem_range.mp listed))
  · exact fit

theorem attached_iff_of_port {interfaces : InterfaceTable} (configured : interfaces.Configured)
    (owned : Owned interfaces) (frame : Frame) (inside : frame.port < interfaces.numInterfaces) :
    Attached interfaces ⟨frame.svid, (interfaces.lookupIntEntry frame.port).getD 0,
        (interfaces.getMacAddr frame.port).getD 0⟩ ↔
      ∃ vid, interfaces.lookupIntEntry frame.port = some vid ∧
        interfaces.lookupVidEntry vid = (true, some frame.port) := by
  have notBeyond : ¬interfaces.numInterfaces ≤ frame.port := Nat.not_le.mpr inside
  obtain ⟨mac, address⟩ := Option.ne_none_iff_exists'.mp
    (mt (configured.ports frame.port).mp notBeyond)
  obtain ⟨vid, named⟩ := Option.ne_none_iff_exists'.mp
    (mt (configured.vids frame.port).mp notBeyond)
  have reached := (configured.inverse mac frame.port).mpr address
  rw [owned.attached_iff, address, named]
  simp [reached, owned.lookupVidEntry_iff]

theorem Consistent.vcc_iff {state : SwitchState} (consistent : state.Consistent) (now : Nat)
    (frame : Frame) :
    (state.apply (.vcc now frame)).Consistent ↔ state.KeepsMeaning (.vcc now frame) := by
  have assigned := state.apply_vcc_interfaces now frame
  have neighbors : (state.apply (.vcc now frame)).tables.neighbors = state.tables.neighbors :=
    ProcessVCCSTAdSub.smaction_neighbors _ now frame
  cases addressed : ProcessVCCSTAdSub.assignedInterface state.interfaces frame with
  | none =>
      rw [addressed] at assigned
      refine iff_of_true ⟨assigned ▸ consistent.configured, assigned ▸ consistent.owned, ?_, ?_⟩ ?_
      · exact assigned ▸ consistent.routes
      · rw [neighbors, assigned]
        exact consistent.neighbors
      · intro i found
        rw [addressed] at found
        cases found
  | some i =>
      have assigned : (state.apply (.vcc now frame)).interfaces =
          state.interfaces.assignVID i (frame.vidAt 0) := by rw [assigned, addressed]
      have inside := ProcessVCCSTAdSub.assignedInterface_lt consistent.configured addressed
      have kept := consistent.assignVID_iff i (frame.vidAt 0)
      constructor
      · intro after j found
        obtain rfl := Option.some.inj (addressed.symm.trans found)
        refine kept.mp ⟨assigned ▸ after.routes, ?_⟩
        have attached := after.neighbors
        rwa [neighbors, assigned] at attached
      · intro meaning
        obtain ⟨routes, attached⟩ := kept.mpr (meaning i addressed)
        refine ⟨assigned ▸ consistent.configured.assignVID _ inside,
          assigned ▸ consistent.owned.assignVID i _, assigned ▸ routes, ?_⟩
        rw [neighbors, assigned]
        exact attached

theorem Consistent.hello_iff {state : SwitchState} (consistent : state.Consistent) {frame : Frame}
    (inside : frame.port < state.interfaces.numInterfaces) :
    (state.apply (.hello frame)).Consistent ↔ state.KeepsMeaning (.hello frame) := by
  have attached := attached_iff_of_port consistent.configured consistent.owned frame inside
  have stored (mac : EtherAddress) :
      (state.apply (.hello frame)).tables.neighbors.lookup mac =
        if mac = frame.shost then
          some ⟨frame.svid, (state.interfaces.lookupIntEntry frame.port).getD 0,
            (state.interfaces.getMacAddr frame.port).getD 0⟩
        else state.tables.neighbors.lookup mac := HashTable.lookup_insert_ite _ _ _ _
  constructor
  · intro after
    exact attached.mp (after.neighbors frame.shost _ (by rw [stored, if_pos rfl]))
  · intro meaning
    refine ⟨consistent.configured, consistent.owned, consistent.routes, fun mac nte found => ?_⟩
    rw [stored] at found
    split at found
    · obtain rfl := Option.some.inj found
      exact attached.mpr meaning
    · exact consistent.neighbors mac nte found

theorem Consistent.round {state : SwitchState} (consistent : state.Consistent) :
    (state.apply .round).Consistent := by
  have attached (mac : EtherAddress) (nte : NeighborTableEntry)
      (found : state.tables.neighbors.lookup mac = some nte) :
      BuildRouteTable.Marked state.interfaces nte.myVid := by
    obtain ⟨i, -, reached⟩ :=
      consistent.owned.attached_iff.mp (consistent.neighbors mac nte found)
    exact ⟨i, reached, (consistent.owned nte.myVid i reached).1⟩
  obtain ⟨interfaces, neighbors, routes⟩ := BuildRouteTable.runTimer_invariant
    (RoutesFit state.interfaces) (fun vid i found => (consistent.owned vid i found).1)
    (fun _ => attached) (fun _ _ _ _ apart fit => fit.announced consistent.owned apart)
      consistent.routes
  have same : (state.apply .round).interfaces = state.interfaces := interfaces
  refine ⟨same ▸ consistent.configured, same ▸ consistent.owned, same ▸ routes, ?_⟩
  rw [same]
  exact neighbors ▸ consistent.neighbors

/-- No weaker condition on the steps would do. -/
theorem Consistent.step_iff {state : SwitchState} {action : SwitchAction}
    (consistent : state.Consistent) (possible : state.Possible action)
    (received : state.Received action) :
    (state.apply action).Consistent ↔ state.KeepsMeaning action := by
  cases action with
  | vcc now frame => exact consistent.vcc_iff now frame
  | hello frame => exact consistent.hello_iff received
  | round => exact iff_of_true consistent.round trivial
  | rendezvous frame =>
      exact iff_of_true ⟨consistent.configured, consistent.owned,
        consistent.routes.smaction consistent.owned _ received, consistent.neighbors⟩ received
  | expireBucket interfaceId b =>
      refine iff_of_true ⟨consistent.configured, consistent.owned, ?_, consistent.neighbors⟩ trivial
      exact fun i level entry route => consistent.routes i level entry route.of_expire
  | expireNeighbor neighbormac =>
      refine iff_of_true ⟨consistent.configured, consistent.owned, consistent.routes, ?_⟩ trivial
      intro mac nte found
      change (state.tables.neighbors.erase neighbormac).lookup mac = some nte at found
      rw [HashTable.lookup_erase_ite] at found
      split at found
      · cases found
      · exact consistent.neighbors mac nte found
  | decide _ =>
      exact iff_of_true ⟨consistent.configured, consistent.owned, consistent.routes,
        consistent.neighbors⟩ trivial
  | rehash interfaces neighbors =>
      refine iff_of_true ⟨⟨consistent.configured.inverse, consistent.configured.ports,
        consistent.configured.vids⟩, ?_, consistent.routes, ?_⟩ trivial
      · intro vid i found
        exact consistent.owned vid i (possible.1 vid ▸ found)
      · intro mac nte found
        obtain ⟨i, address, marked, named, reached⟩ :=
          consistent.neighbors mac nte (possible.2 mac ▸ found)
        refine ⟨i, address, marked, named, ?_⟩
        have same := possible.1 nte.myVid
        unfold InterfaceTable.lookupVidEntry at reached ⊢
        rwa [← same] at reached

theorem Consistent.step {state : SwitchState} {action : SwitchAction}
    (consistent : state.Consistent) (possible : state.Possible action)
    (kept : state.KeepsMeaning action) :
    (state.apply action).Consistent := by
  refine (consistent.step_iff possible ?_).mpr kept
  cases action with
  | hello frame =>
      obtain ⟨vid, named, -⟩ := kept
      refine Nat.lt_of_not_le fun beyond => ?_
      rw [(consistent.configured.vids frame.port).mpr beyond] at named
      cases named
  | rendezvous frame => exact kept
  | vcc _ _ => trivial
  | round => trivial
  | decide _ => trivial
  | expireBucket _ _ => trivial
  | expireNeighbor _ => trivial
  | rehash _ _ => trivial

theorem reachable_meaningful {state : SwitchState}
    (run : Transition.Reaches Initial Step KeepsMeaning state) : state.Meaningful := by
  refine Consistent.meaningful (run.invariant Consistent ?_ ?_)
  · rintro first ⟨conf, distinct, rfl⟩
    exact start_consistent distinct
  · rintro before action after consistent kept ⟨possible, rfl⟩
    exact consistent.step possible kept

def neighborHeard : List SwitchAction :=
  firstAssignment ++ [.hello (helloPacket 7 0x000300000000 true 0), .round]

theorem reachable_meaningful_twoInterfaces : (twoInterfaces neighborHeard).Meaningful := by
  have unheard (state : SwitchState) (frame : Frame) (silent : state.tables.neighbors = ∅)
      (unrouted : state.tables.routes = RouteTable.empty) : state.KeepsMeaning (.vcc 0 frame) := by
    refine fun i _ => ⟨fun mac nte found => ?_, fun old _ b entry route => ?_⟩
    · rw [silent] at found
      cases found
    · rw [unrouted] at route
      exact (RouteTable.not_hasRoute_empty i b entry route).elim
  have decided := reaches_apply (.start twoInterfaces_initial)
    (.decide (bothVids 0x000100000000 0x000200000000)) (show KeepsMeaning _ _ from trivial) trivial
  have half := reaches_apply decided (.vcc 0 (dispatchOneVidMacPair 1 1 0x000100000000))
    (unheard _ _ rfl rfl) trivial
  have assigned := reaches_apply half (.vcc 0 (dispatchOneVidMacPair 1 2 0x000200000000))
    (unheard _ _ rfl rfl) trivial
  have heard := reaches_apply assigned (.hello (helloPacket 7 0x000300000000 true 0))
    ⟨0x000100000000, by decide +kernel, by decide +kernel⟩ trivial
  exact reachable_meaningful
    (reaches_apply heard .round (show KeepsMeaning _ _ from trivial) trivial)

/-- The first interface moves far away; its route to the neighbour stays in the bucket of the old
distance, with the old VID for its gateway. -/
theorem reachable_not_meaningful :
    ¬∀ state, Transition.Reaches Initial Step Promised state → state.Meaningful := by
  intro always
  have decided := reaches_apply (.start twoInterfaces_initial)
    (.decide (bothVids 0x000100000000 0x000200000000))
    (show Promised _ _ from bothVids_injective (by decide)) trivial
  have half := reaches_apply decided (.vcc 0 (dispatchOneVidMacPair 1 1 0x000100000000))
    (fun _ => by decide +kernel) trivial
  have assigned := reaches_apply half (.vcc 0 (dispatchOneVidMacPair 1 2 0x000200000000))
    (fun _ => by decide +kernel) trivial
  have inside : 0 < (twoInterfaces firstAssignment).interfaces.numInterfaces := by decide +kernel
  have heard := reaches_apply assigned (.hello (helloPacket 7 0x000300000000 true 0))
    (show Promised _ _ from inside) trivial
  have routed := reaches_apply heard .round (show Promised _ _ from trivial) trivial
  have changed := reaches_apply routed (.decide (bothVids 0x010000000000 0x000200000000))
    (show Promised _ _ from bothVids_injective (by decide)) trivial
  have moved := reaches_apply changed (.vcc 0 (dispatchOneVidMacPair 1 1 0x010000000000))
    (fun _ => by decide +kernel) trivial
  let state := twoInterfaces (neighborHeard ++ [.decide (bothVids 0x010000000000 0x000200000000),
    .vcc 0 (dispatchOneVidMacPair 1 1 0x010000000000)])
  have stale : ((state.tables.routes.bucket? 0 34).map fun bucket =>
      bucket.toList.any fun entry => entry.isValid && entry.gateway == 0x000100000000) =
        some true := by
    decide +kernel
  obtain ⟨bucket, stored, slots⟩ := Option.map_eq_some_iff.mp stale
  obtain ⟨entry, member, old⟩ := List.any_eq_true.mp slots
  rw [Bool.and_eq_true, beq_iff_eq] at old
  obtain ⟨vid, named, near, -⟩ := (always state moved).routes 0 34 entry ⟨bucket, stored,
    member, old.1⟩
  have renamed : state.interfaces.lookupIntEntry 0 = some 0x010000000000 := by decide +kernel
  obtain rfl := Option.some.inj (renamed.symm.trans named)
  rw [old.2] at near
  exact absurd near (by decide)

end SwitchState

end Veil
