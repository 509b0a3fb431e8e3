import Veil.Library.Transition
import Veil.RendezvousAgreement

/-! Many switches that build their route tables together: the rounds of `buildroutetable.cc`, the
packets they send through `routepacket.cc` from switch to switch, and what `processrdv.cc` does
with these, in any order, wired as `generateClickConf.py` wires the elements. Frames may be lost
and entries may expire. -/

namespace Veil

open GatewayRouting

structure ControlSwitch where
  hosts : HostTable
  interfaces : InterfaceTable
  neighbors : NeighborTable
  routes : RouteTable
  rdvs : RendezvousTable

namespace ControlSwitch

def router (tables : ControlSwitch) : RoutePacket :=
  ⟨tables.hosts, tables.routes, tables.interfaces, tables.neighbors⟩

def processor (tables : ControlSwitch) : ProcessRDV :=
  ⟨tables.routes, tables.rdvs, tables.interfaces⟩

def builder (tables : ControlSwitch) : BuildRouteTable :=
  ⟨tables.neighbors, tables.routes, tables.interfaces⟩

end ControlSwitch

inductive Element
  | classifier
  | router
deriving DecidableEq

/-- A frame that is about to enter an element of a switch. -/
structure Arrival (Switch : Type) where
  switch : Switch
  element : Element
  frame : Frame

/-- The interfaces of the switches, and for each the interfaces that hear what it sends. -/
structure ControlNetwork (Switch : Type) where
  hosts : Switch → HostTable
  interfaces : Switch → InterfaceTable
  wire : Switch → Nat → List (Switch × Nat)

structure ControlState (Switch : Type) where
  switches : Switch → ControlSwitch
  flight : List (Arrival Switch)

inductive ControlAction (Switch : Type)
  | round (s : Switch)
  | handle (i : Nat)
  | lose (i : Nat)
  | hear (s : Switch) (neighbormac : EtherAddress) (nte : NeighborTableEntry)
  | forget (s : Switch) (neighbormac : EtherAddress)
  | expireBucket (s : Switch) (interfaceId b : Nat)
  | expireEdge (s : Switch) (edge : RendezvousEdge)

/-- What the classifier of a switch hands to `VEILProcessRDV`. -/
def isRendezvous (frame : Frame) : Bool :=
  frame.etherType == etherTypeVeil && (frame.veilType == veilRdvPublish ||
    frame.veilType == veilRdvQuery || frame.veilType == veilRdvReply)

theorem publish_ne_query : veilRdvPublish ≠ veilRdvQuery := by decide

theorem publish_ne_reply : veilRdvPublish ≠ veilRdvReply := by decide

theorem query_ne_reply : veilRdvQuery ≠ veilRdvReply := by decide

/-! ### What the elements do to the packets of the control plane -/

theorem RoutePacket.smaction_rendezvous (r : RoutePacket) {frame : Frame}
    (control : isRendezvous frame) :
    r.smaction frame =
      match r.ownVid frame.dhost frame.shost frame.dhost frame.shost frame.svid.getSwitchVID with
      | none => (r, frame, -1)
      | some myVid =>
          let first := r.getPort frame.dvid frame.dhost 0 myVid
          let (dvid, looked) :=
            if rerouted frame then r.reroute 48 frame.dvid first else (frame.dvid, first)
          (r, { frame with
              dvid
              dhost := looked.nexthop
              shost := looked.myVid
              ttl := frame.ttl - 1 },
            if frame.ttl = 0 then r.numinterfaces + 1
            else if 0 ≤ looked.port then looked.port else r.numinterfaces + 1) := by
  simp only [isRendezvous, Bool.and_eq_true, Bool.or_eq_true, beq_iff_eq] at control
  obtain ⟨veil, kind⟩ := control
  have single : frame.veilType ≠ veilEncapMultipathIp := by
    rcases kind with (same | same) | same <;> rw [same] <;> decide
  have plain : frame.veilType ≠ veilEncapIp := by
    rcases kind with (same | same) | same <;> rw [same] <;> decide
  rw [smaction, if_pos veil]
  cases r.ownVid frame.dhost frame.shost frame.dhost frame.shost frame.svid.getSwitchVID with
  | none => rfl
  | some myVid =>
      simp only [forwardVeil, single, plain, or_self, and_false, if_false]
      split
      · rfl
      · rfl

namespace ProcessRDV

variable {p : ProcessRDV} {frame : Frame} (accepted : accepts p.interfaces frame)
include accepted

theorem smaction_of_query (kind : frame.veilType = veilRdvQuery)
    (some : p.rdvs.getRdvPoint (frame.byteAt 0).toNat frame.svid ≠ []) :
    p.smaction frame =
        (p, Option.some (queryReply frame ((p.interfaces.lookupIntEntry frame.port).getD 0)
      (p.rdvs.getRdvPoint (frame.byteAt 0).toNat frame.svid))) := by
  rw [accepts, Bool.and_eq_true] at accepted
  rw [smaction, dispose, if_neg (not_not.mpr accepted.1),
    if_neg (not_not.mpr accepted.2), if_pos kind]
  dsimp only
  rw [if_pos (List.length_pos_of_ne_nil some)]
  rfl

theorem smaction_of_publish (kind : frame.veilType = veilRdvPublish) :
    p.smaction frame = ({ p with rdvs := p.rdvs.updateEntry frame.svid (frame.switchVidAt 2) },
      none) := by
  rw [accepts, Bool.and_eq_true] at accepted
  rw [smaction, dispose, if_neg (not_not.mpr accepted.1), if_neg (not_not.mpr accepted.2),
    if_neg (by rw [kind]; exact publish_ne_query), if_pos kind]
  rfl

theorem smaction_of_reply (kind : frame.veilType = veilRdvReply) :
    p.smaction frame = ({ p with
      routes := (List.range (frame.byteAt 1).toNat).foldl
        (learnGateway p.interfaces frame) p.routes },
      none) := by
  rw [accepts, Bool.and_eq_true] at accepted
  rw [smaction, dispose, if_neg (not_not.mpr accepted.1), if_neg (not_not.mpr accepted.2),
    if_neg (by rw [kind]; exact query_ne_reply.symm),
      if_neg (by rw [kind]; exact publish_ne_reply.symm),
    if_pos kind]
  rfl

end ProcessRDV

inductive ProcessRDV.Outcome (p : ProcessRDV) (frame : Frame) : ProcessRDV × Option Frame → Prop
  | elsewhere : ¬(p.interfaces.lookupVidEntry frame.dhost).1 → Outcome p frame (p, none)
  | forwarded : (p.interfaces.lookupVidEntry frame.dhost).1 →
    ¬(p.interfaces.lookupVidEntry frame.dvid).1 →
      Outcome p frame (p, some frame)
  | answered : accepts p.interfaces frame → frame.veilType = veilRdvQuery →
      p.rdvs.getRdvPoint (frame.byteAt 0).toNat frame.svid ≠ [] →
      Outcome p frame (p, some (queryReply frame ((p.interfaces.lookupIntEntry frame.port).getD 0)
        (p.rdvs.getRdvPoint (frame.byteAt 0).toNat frame.svid)))
  | unanswered : accepts p.interfaces frame → frame.veilType = veilRdvQuery →
      p.rdvs.getRdvPoint (frame.byteAt 0).toNat frame.svid = [] → Outcome p frame (p, none)
  | published : accepts p.interfaces frame → frame.veilType = veilRdvPublish →
      Outcome p frame ({ p with rdvs := p.rdvs.updateEntry frame.svid (frame.switchVidAt 2) }, none)
  | learned : accepts p.interfaces frame → frame.veilType = veilRdvReply →
      Outcome p frame ({ p with
        routes := (List.range (frame.byteAt 1).toNat).foldl (learnGateway p.interfaces frame)
          p.routes }, none)

theorem ProcessRDV.smaction_outcome (p : ProcessRDV) {frame : Frame}
    (control : isRendezvous frame) :
    p.Outcome frame (p.smaction frame) := by
  simp only [isRendezvous, Bool.and_eq_true, Bool.or_eq_true, beq_iff_eq] at control
  by_cases here : (p.interfaces.lookupVidEntry frame.dhost).1 = true
  · by_cases own : (p.interfaces.lookupVidEntry frame.dvid).1 = true
    · have accepted : accepts p.interfaces frame := by rw [accepts, here, own]; rfl
      rcases control.2 with (publish | query) | reply
      · rw [smaction_of_publish accepted publish]
        exact .published accepted publish
      · by_cases none : p.rdvs.getRdvPoint (frame.byteAt 0).toNat frame.svid = []
        · rw [smaction, dispose, if_neg (not_not.mpr here), if_neg (not_not.mpr own), if_pos query]
          simp only [none, List.length_nil, Nat.lt_irrefl, if_false]
          exact .unanswered accepted query none
        · rw [smaction_of_query accepted query none]
          exact .answered accepted query none
      · rw [smaction_of_reply accepted reply]
        exact .learned accepted reply
    · rw [smaction, dispose, if_neg (not_not.mpr here), if_pos own]
      exact .forwarded here own
  · rw [smaction, dispose, if_pos here]
    exact .elsewhere here

theorem ProcessRDV.queryReply_count (frame : Frame) (myVid : VID) {gateways : List VID}
    (few : gateways.length ≤ maxGwPerBucket) :
    ((queryReply frame myVid gateways).byteAt 1).toNat = gateways.length := by
  have carried : (queryReply frame myVid gateways).byteAt 1 = BitVec.ofNat 8 gateways.length := rfl
  rw [maxGwPerBucket] at few
  rw [carried, BitVec.toNat_ofNat, Nat.mod_eq_of_lt (by omega)]

theorem ProcessRDV.queryReply_gateway (frame : Frame) (myVid : VID) {gateways : List VID} {j : Nat}
    (listed : j < maxGwPerBucket) :
    (queryReply frame myVid gateways).switchVidAt (2 + 4 * j) = (gateways.getD j 0).getSwitchVID :=
  @rdvReplyPayload_gateway (queryReply frame myVid gateways) (frame.byteAt 0) gateways rfl j listed

theorem RouteTable.HasRoute.of_defaultRoute {table : RouteTable} {i b : Nat} {nh g : VID}
    (found : table.defaultRoute i b = some (nh, g)) :
    ∃ entry, table.HasRoute i b entry ∧ entry.nexthop = nh ∧ entry.gateway = g := by
  obtain ⟨entry, chosen, same⟩ := Option.map_eq_some_iff.mp found
  obtain ⟨bucket, slots, first⟩ := Option.bind_eq_some_iff.mp chosen
  have valid := List.find?_some first
  rw [Bool.and_eq_true] at valid
  exact ⟨entry, ⟨bucket, slots, List.mem_of_find?_eq_some first, valid.1⟩, Prod.mk.inj same⟩

theorem RouteTable.HasRoute.of_getRouteDefault {table : RouteTable} {interfaces : InterfaceTable}
    {dst myinterface g nh gw : VID} (far : 16 < myinterface.logicalDistance dst)
    (found : table.getRouteDefault interfaces dst myinterface g = some (nh, gw)) :
    ∃ i entry, interfaces.interfaces.lookup myinterface = some i ∧
      table.HasRoute i (myinterface.logicalDistance dst) entry ∧ entry.nexthop = nh ∧
        entry.gateway = gw := by
  rw [getRouteDefault] at found
  split at found
  · cases found
  · rename_i i known
    dsimp only at found
    split at found
    · cases found
    · rename_i rt stored
      rw [if_neg (Nat.not_le.mpr far)] at found
      split at found
      · cases found
      · rename_i bucket slots
        obtain ⟨entry, chosen, same⟩ := Option.map_eq_some_iff.mp found
        have valid := List.find?_some chosen
        rw [Bool.and_eq_true] at valid
        refine ⟨i, entry, known, ⟨bucket, ?_, List.mem_of_find?_eq_some chosen, valid.1⟩, ?_⟩
        · rw [bucket?, stored]
          exact slots
        · exact Prod.mk.inj same

namespace ControlNetwork

variable {Switch : Type} (net : ControlNetwork Switch)

def outputs (s : Switch) (r : RoutePacket) (frame : Frame) (port : Int) : List (Arrival Switch) :=
  if port = r.numinterfaces then [⟨s, .classifier, frame⟩]
  else if 0 ≤ port ∧ port < r.numinterfaces then
    (net.wire s port.toNat).map fun other =>
      ⟨other.1, .classifier, Forwarding.received frame other.2⟩
  else []

/-- What a frame that enters an element does to the tables of the switch, and what arrives where
of it. -/
def enter (tables : ControlSwitch) (arrival : Arrival Switch) :
    ControlSwitch × List (Arrival Switch) :=
  match arrival.element with
  | .classifier =>
      if isRendezvous arrival.frame then
        let (p, sent) := tables.processor.smaction arrival.frame
        ({ tables with routes := p.routes, rdvs := p.rdvs },
          sent.toList.map fun frame => ⟨arrival.switch, .router, frame⟩)
      else (tables, [])
  | .router =>
      let (r, frame, port) := tables.router.smaction arrival.frame
      ({ tables with routes := r.routes }, net.outputs arrival.switch r frame port)

theorem enter_neighbors (tables : ControlSwitch) (arrival : Arrival Switch) :
    (net.enter tables arrival).1.neighbors = tables.neighbors := by
  unfold enter
  split
  · split
    · rfl
    · rfl
  · rfl

def initial : ControlState Switch where
  switches := fun s => ⟨net.hosts s, net.interfaces s, ∅, RouteTable.empty, ∅⟩
  flight := []

section Steps

variable [DecidableEq Switch]

def set (state : ControlState Switch) (s : Switch) (tables : ControlSwitch)
    (flight : List (Arrival Switch)) : ControlState Switch :=
  ⟨Function.update state.switches s tables, flight⟩

theorem set_switches (state : ControlState Switch) (s : Switch) (tables : ControlSwitch)
    (flight : List (Arrival Switch)) (t : Switch) :
    (set state s tables flight).switches t = if t = s then tables else state.switches t :=
  Function.update_apply ..

def perform (state : ControlState Switch) : ControlAction Switch → Option (ControlState Switch)
  | .round s =>
      let tables := state.switches s
      let (after, sent) := tables.builder.runTimer
      some (set state s { tables with
          interfaces := after.interfaces, neighbors := after.neighbors, routes := after.routes }
        (state.flight ++ sent.map fun frame => ⟨s, .router, frame⟩))
  | .handle i =>
      state.flight[i]?.map fun arrival =>
        let (tables, sent) := net.enter (state.switches arrival.switch) arrival
        set state arrival.switch tables (state.flight.eraseIdx i ++ sent)
  | .lose i => state.flight[i]?.map fun _ => { state with flight := state.flight.eraseIdx i }
  | .hear s neighbormac nte =>
      let tables := state.switches s
      some (set state s { tables with
        neighbors :=
          (tables.neighbors.updateEntry neighbormac nte.neighborVID nte.myMac nte.myVid).1 }
        state.flight)
  | .forget s neighbormac =>
      let tables := state.switches s
      some (set state s { tables with
        neighbors := tables.neighbors.expire neighbormac } state.flight)
  | .expireBucket s interfaceId b =>
      let tables := state.switches s
      some (set state s { tables with routes := tables.routes.expire interfaceId b } state.flight)
  | .expireEdge s edge =>
      let tables := state.switches s
      some (set state s { tables with rdvs := tables.rdvs.expire edge } state.flight)

def Step (before : ControlState Switch) (action : ControlAction Switch)
    (after : ControlState Switch) : Prop :=
  net.perform before action = some after

end Steps

/-! ### Nothing but the wires is ever believed -/

def Owns (s : Switch) (v : VID) : Prop := ∃ i, (net.interfaces s).interfaces.lookup v = some i

/-- What the interface of `s` with the VID `v` sends is heard by the one with the VID `n`. -/
def Wired (s : Switch) (v n : VID) : Prop :=
  ∃ i t j, (net.interfaces s).interfaces.lookup v = some i ∧
    (net.interfaces t).interfaces.lookup n = some j ∧ (t, j) ∈ net.wire s i

def Joined (s : Switch) (v n : VID) : Prop := net.Wired s v n ∨ net.Owns s v ∧ net.Owns s n

def Link (v n : VID) : Prop := ∃ s, net.Joined s v n

def Member (v : VID) : Prop := ∃ s, net.Owns s v

/-- All interfaces have their VIDs, which are those of switches. -/
structure Assigned : Prop where
  marked : ∀ s vid i, (net.interfaces s).interfaces.lookup vid = some i →
    (net.interfaces s).isvidset.lookup i = some true
  switchVid : ∀ s vid i, (net.interfaces s).interfaces.lookup vid = some i → vid.IsSwitchVID

abbrev IsGateway (v : VID) (level : Nat) (g : VID) : Prop :=
  Gateway VID.logicalDistance net.Member net.Link v level g

def Allowed (_ : ControlState Switch) : ControlAction Switch → Prop
  | .hear s _ nte => net.Wired s nte.myVid nte.neighborVID
  | _ => True

def RoutesTrue (s : Switch) (routes : RouteTable) : Prop :=
  ∀ i b entry, routes.HasRoute i b entry → ∃ v, (net.interfaces s).interfaces.lookup v = some i ∧
    net.IsGateway v b entry.gateway ∧ ∃ w, net.Joined s w entry.nexthop

structure Truthful (s : Switch) (tables : ControlSwitch) : Prop where
  interfaces : tables.interfaces = net.interfaces s
  neighbors : ∀ mac nte, tables.neighbors.lookup mac = some nte →
    net.Wired s nte.myVid nte.neighborVID
  rdvs : ∀ edge ∈ tables.rdvs, net.Link edge.src edge.dest
  routes : net.RoutesTrue s tables.routes

structure Honest (frame : Frame) : Prop where
  control : isRendezvous frame
  publish : frame.veilType = veilRdvPublish → net.Link frame.svid (frame.switchVidAt 2)
  reply : frame.veilType = veilRdvReply → frame.reroute = false ∧
    ∀ j < (frame.byteAt 1).toNat,
      net.IsGateway frame.dvid (frame.byteAt 0).toNat (frame.switchVidAt (2 + 4 * j))

structure Sound (state : ControlState Switch) : Prop where
  truthful : ∀ s, net.Truthful s (state.switches s)
  honest : ∀ arrival ∈ state.flight, net.Honest arrival.frame

variable {net}

theorem Joined.member {s : Switch} {v n : VID} (joined : net.Joined s v n) :
    net.Member v ∧ net.Member n := by
  rcases joined with ⟨i, t, j, own, other, -⟩ | ⟨own, other⟩
  · exact ⟨⟨s, i, own⟩, t, j, other⟩
  · exact ⟨⟨s, own⟩, s, other⟩

theorem Link.member {v n : VID} (link : net.Link v n) : net.Member v ∧ net.Member n := by
  obtain ⟨s, joined⟩ := link
  exact joined.member

theorem Assigned.isSwitchVID (assigned : net.Assigned) {v : VID} (member : net.Member v) :
    v.IsSwitchVID := by
  obtain ⟨s, i, own⟩ := member
  exact assigned.switchVid s v i own

/-- A switch is its own gateway to what it is joined to. -/
theorem Joined.isGateway {s : Switch} {v n : VID} (joined : net.Joined s v n)
    (apart : n.logicalDistance v ≠ 0) : net.IsGateway v (n.logicalDistance v) v := by
  have tree := VID.logicalDistance_isTreeDistance
  refine ⟨joined.member.1, ?_, n, joined.member.2, ⟨s, joined⟩, tree.comm v n⟩
  rw [tree.self]
  exact Nat.pos_of_ne_zero apart

theorem RoutesTrue.updateEntry {s : Switch} {routes : RouteTable} (before : net.RoutesTrue s routes)
    {v w : VID} {b : Nat} {nh g : VID} (isDefault : Bool) (leads : net.IsGateway v b g)
    (joined : net.Joined s w nh) :
    net.RoutesTrue s (routes.updateEntry (net.interfaces s) v b nh g isDefault) := by
  intro i level entry route
  rcases route.of_updateEntry with earlier | ⟨own, rfl, rfl, rfl⟩
  · exact before i level entry earlier
  · exact ⟨v, own, leads, w, joined⟩

theorem RoutesTrue.learnGateway {s : Switch} {routes : RouteTable}
    (before : net.RoutesTrue s routes) {frame : Frame} {j : Nat}
    (leads : net.IsGateway frame.dvid (frame.byteAt 0).toNat (frame.switchVidAt (2 + 4 * j))) :
    net.RoutesTrue s (ProcessRDV.learnGateway (net.interfaces s) frame routes j) := by
  simp only [ProcessRDV.learnGateway]
  split
  · rename_i far
    split
    · rename_i nh gw found
      obtain ⟨i, entry, -, route, rfl, -⟩ := RouteTable.HasRoute.of_getRouteDefault far found
      obtain ⟨-, -, -, w, joined⟩ := before i _ entry route
      exact before.updateEntry (j == 0) leads joined
    · exact before
  · exact before

theorem Honest.rewritten {frame : Frame} (honest : net.Honest frame) (dhost shost : EtherAddress)
    (ttl : BitVec 8) {dvid : VID} (kept : frame.veilType = veilRdvReply → dvid = frame.dvid) :
    net.Honest { frame with dhost, shost, dvid, ttl } := by
  refine ⟨honest.control, honest.publish, fun kind => ?_⟩
  obtain ⟨plain, leads⟩ := honest.reply kind
  exact ⟨plain, fun j listed => (kept kind) ▸ leads j listed⟩

theorem Honest.received {frame : Frame} (honest : net.Honest frame) (port : Nat) :
    net.Honest (Forwarding.received frame port) :=
  ⟨honest.control, honest.publish, fun kind => ⟨rfl, (honest.reply kind).2⟩⟩

theorem Honest.not_rerouted {frame : Frame} (honest : net.Honest frame)
    (kind : frame.veilType = veilRdvReply) :
    RoutePacket.rerouted frame = false := by
  rw [RoutePacket.rerouted, (honest.reply kind).1, kind]
  rfl

theorem Honest.outputs {s : Switch} {r : RoutePacket} {frame : Frame} (honest : net.Honest frame)
    (port : Int) :
    ∀ other ∈ net.outputs s r frame port, net.Honest other.frame := by
  intro other member
  rw [ControlNetwork.outputs] at member
  split at member
  · rw [List.mem_singleton] at member
    exact member ▸ honest
  · split at member
    · obtain ⟨place, -, rfl⟩ := List.mem_map.mp member
      exact honest.received place.2
    · cases member

theorem publish_honest (assigned : net.Assigned) {v n : VID} (link : net.Link v n) :
    net.Honest (BuildRouteTable.rdvPublish v n (n.logicalDistance v)) := by
  refine ⟨rfl, fun _ => ?_, fun reply => absurd reply publish_ne_reply⟩
  have carried : (BuildRouteTable.rdvPublish v n (n.logicalDistance v)).switchVidAt 2 =
      n.getSwitchVID :=
    switchVidAt_block (List.append_nil _).symm
  rw [carried, assigned.isSwitchVID link.member.2]
  exact link

theorem query_honest (v : VID) (level : Nat) : net.Honest (BuildRouteTable.rdvQuery v level) :=
  ⟨rfl, fun publish => absurd publish.symm publish_ne_query,
    fun reply => absurd reply query_ne_reply⟩

theorem reply_honest (assigned : net.Assigned) {s : Switch} {tables : ControlSwitch}
    (truthful : net.Truthful s tables) (frame : Frame) (myVid : VID) :
    net.Honest (ProcessRDV.queryReply frame myVid
      (tables.rdvs.getRdvPoint (frame.byteAt 0).toNat frame.svid)) := by
  have few := tables.rdvs.length_getRdvPoint_le (frame.byteAt 0).toNat frame.svid
  have source (g : VID) : g ∈ tables.rdvs.getRdvPoint (frame.byteAt 0).toNat frame.svid →
    g.IsSwitchVID ∧ net.IsGateway frame.svid (frame.byteAt 0).toNat g := by
    intro listed
    obtain ⟨edge, stored, qualified, rfl⟩ := RendezvousTable.mem_getRdvPoint listed
    have link := truthful.rdvs edge stored
    have levels : (frame.byteAt 0).toNat = frame.svid.logicalDistance edge.dest ∧
      frame.svid.logicalDistance edge.src < (frame.byteAt 0).toNat := by
      simpa [RendezvousTable.qualifies] using qualified
    exact ⟨assigned.isSwitchVID link.member.1, link.member.1, levels.2, edge.dest,
      link.member.2, link,
      levels.1.symm⟩
  generalize tables.rdvs.getRdvPoint (frame.byteAt 0).toNat frame.svid = gateways at few source
  refine ⟨rfl, fun publish => absurd publish.symm publish_ne_reply,
    fun _ => ⟨rfl, fun j listed => ?_⟩⟩
  have inside : j < gateways.length :=
    lt_of_lt_of_eq listed (ProcessRDV.queryReply_count frame myVid few)
  have member : gateways.getD j 0 ∈ gateways := by
    rw [List.getD_eq_getElem _ _ inside]
    exact List.getElem_mem inside
  rw [ProcessRDV.queryReply_gateway frame myVid (lt_of_lt_of_le inside few), (source _ member).1]
  exact (source _ member).2

theorem Truthful.enter (assigned : net.Assigned) {tables : ControlSwitch} {arrival : Arrival Switch}
    (truthful : net.Truthful arrival.switch tables) (honest : net.Honest arrival.frame) :
    net.Truthful arrival.switch (net.enter tables arrival).1 ∧
      ∀ other ∈ (net.enter tables arrival).2, net.Honest other.frame := by
  obtain ⟨s, element, frame⟩ := arrival
  cases element with
  | classifier =>
      have outcome := tables.processor.smaction_outcome honest.control
      simp only [ControlNetwork.enter, if_pos honest.control]
      generalize tables.processor.smaction frame = result at outcome
      have same : net.Truthful s { tables with
          routes := tables.processor.routes, rdvs := tables.processor.rdvs } :=
        truthful
      cases outcome with
      | elsewhere => exact ⟨same, List.forall_mem_nil _⟩
      | forwarded => exact ⟨same, List.forall_mem_singleton.mpr honest⟩
      | answered =>
          exact ⟨same, List.forall_mem_singleton.mpr (reply_honest assigned truthful frame _)⟩
      | unanswered => exact ⟨same, List.forall_mem_nil _⟩
      | published _ kind =>
          refine ⟨⟨truthful.interfaces, truthful.neighbors, fun edge stored => ?_, truthful.routes⟩,
            List.forall_mem_nil _⟩
          rcases AList.mem_insert _ |>.mp stored with rfl | earlier
          · exact honest.publish kind
          · exact truthful.rdvs edge earlier
      | learned _ kind =>
          refine ⟨⟨truthful.interfaces, truthful.neighbors, truthful.rdvs, ?_⟩,
            List.forall_mem_nil _⟩
          refine List.foldlRecOn _ _ truthful.routes fun routes sofar j listed => ?_
          rw [ControlSwitch.processor, truthful.interfaces]
          exact sofar.learnGateway ((honest.reply kind).2 j (List.mem_range.mp listed))
  | router =>
      simp only [ControlNetwork.enter, tables.router.smaction_rendezvous honest.control]
      cases tables.router.ownVid frame.dhost frame.shost frame.dhost frame.shost
        frame.svid.getSwitchVID with
      | none => exact ⟨truthful, honest.outputs _⟩
      | some myVid =>
          refine ⟨truthful, Honest.outputs (honest.rewritten _ _ _ fun kind => ?_) _⟩
          rw [honest.not_rerouted kind]
          rfl

theorem Truthful.attached (assigned : net.Assigned) {s : Switch} {tables : ControlSwitch}
    (truthful : net.Truthful s tables) : tables.builder.Attached := by
  refine ⟨fun vid i found => ?_, fun mac nte found => ?_⟩
  · rw [ControlSwitch.builder, truthful.interfaces] at found ⊢
    exact assigned.marked s vid i found
  · obtain ⟨i, t, j, own, -⟩ := truthful.neighbors mac nte found
    rw [ControlSwitch.builder, truthful.interfaces]
    exact ⟨i, own, assigned.marked s _ i own⟩

theorem Truthful.joined {s : Switch} {tables : ControlSwitch} (truthful : net.Truthful s tables)
    {v n : VID} (announces : tables.builder.Announces v n) : net.Joined s v n := by
  rcases announces with ⟨mac, nte, found, rfl, rfl⟩ | ⟨i, j, own, other⟩
  · exact Or.inl (truthful.neighbors mac nte found)
  · rw [ControlSwitch.builder, truthful.interfaces] at own other
    exact Or.inr ⟨⟨i, own⟩, j, other⟩

theorem Truthful.round (assigned : net.Assigned) {s : Switch} {tables : ControlSwitch}
    (truthful : net.Truthful s tables) :
    net.Truthful s { tables with
      interfaces := tables.builder.runTimer.1.interfaces
      neighbors := tables.builder.runTimer.1.neighbors
      routes := tables.builder.runTimer.1.routes } ∧
    ∀ frame ∈ tables.builder.runTimer.2, net.Honest frame := by
  by_cases done : tables.interfaces.isVIDAssignmentDone = true
  · have joined {pair : VID × VID} (visited : pair ∈
        BuildRouteTable.apart tables.builder.announcements) :
        net.Joined s pair.1 pair.2 ∧ pair.2.logicalDistance pair.1 ≠ 0 := by
      obtain ⟨member, apart⟩ := BuildRouteTable.mem_apart.mp visited
      exact ⟨truthful.joined (BuildRouteTable.announces_of_mem member), apart⟩
    rw [BuildRouteTable.runTimer_eq (truthful.attached assigned) done]
    refine ⟨⟨truthful.interfaces, truthful.neighbors, truthful.rdvs, ?_⟩, fun frame sent => ?_⟩
    · refine List.foldlRecOn _ _ truthful.routes fun routes sofar pair visited => ?_
      obtain ⟨own, apart⟩ := joined visited
      rw [BuildRouteTable.announceRoute, ControlSwitch.builder, truthful.interfaces]
      exact sofar.updateEntry true (own.isGateway apart) own
    · rcases List.mem_append.mp sent with published | queried
      · obtain ⟨pair, visited, rfl⟩ := List.mem_map.mp published
        exact publish_honest assigned ⟨s, (joined visited).1⟩
      · obtain ⟨vid, -, inner⟩ := List.mem_flatMap.mp queried
        obtain ⟨level, -, rfl⟩ := List.mem_map.mp inner
        exact query_honest vid level
  · have idle : tables.builder.runTimer = (tables.builder, []) := if_neg done
    rw [idle]
    exact ⟨truthful, List.forall_mem_nil _⟩

theorem initial_sound : net.Sound net.initial := by
  refine ⟨fun s => ⟨rfl, nofun, fun edge stored => ?_, fun i b entry route => ?_⟩, nofun⟩
  · exact absurd stored (AList.notMem_empty edge)
  · exact absurd route (RouteTable.not_hasRoute_empty i b entry)

section Runs

variable [DecidableEq Switch]

theorem Sound.set {state : ControlState Switch} (sound : net.Sound state) {s : Switch}
    {tables : ControlSwitch} {flight : List (Arrival Switch)} (truthful : net.Truthful s tables)
    (honest : ∀ arrival ∈ flight, net.Honest arrival.frame) :
    net.Sound (ControlNetwork.set state s tables flight) := by
  refine ⟨fun t => ?_, honest⟩
  rw [set_switches]
  split
  · rename_i same
    exact same ▸ truthful
  · exact sound.truthful t

theorem Sound.step (assigned : net.Assigned) {before after : ControlState Switch}
    {action : ControlAction Switch} (sound : net.Sound before) (allowed : net.Allowed before action)
    (moves : net.Step before action after) : net.Sound after := by
  cases action with
  | round s =>
      cases moves
      obtain ⟨truthful, sent⟩ := (sound.truthful s).round assigned
      refine sound.set truthful fun arrival member => ?_
      rcases List.mem_append.mp member with underway | new
      · exact sound.honest arrival underway
      · obtain ⟨frame, sending, rfl⟩ := List.mem_map.mp new
        exact sent frame sending
  | handle i =>
      obtain ⟨arrival, underway, rfl⟩ := Option.map_eq_some_iff.mp moves
      have member := List.mem_of_getElem? underway
      obtain ⟨truthful, sent⟩ := (sound.truthful arrival.switch).enter assigned
        (sound.honest arrival member)
      refine sound.set truthful fun other present => ?_
      rcases List.mem_append.mp present with kept | new
      · exact sound.honest other (List.mem_of_mem_eraseIdx kept)
      · exact sent other new
  | lose i =>
      obtain ⟨arrival, underway, rfl⟩ := Option.map_eq_some_iff.mp moves
      exact ⟨sound.truthful, fun other kept => sound.honest other (List.mem_of_mem_eraseIdx kept)⟩
  | hear s neighbormac nte =>
      cases moves
      have truthful := sound.truthful s
      refine sound.set ⟨truthful.interfaces, fun mac entry found => ?_, truthful.rdvs,
        truthful.routes⟩
        sound.honest
      rw [NeighborTable.updateEntry, HashTable.lookup_insert_ite] at found
      split at found
      · cases found
        exact allowed
      · exact truthful.neighbors mac entry found
  | forget s neighbormac =>
      cases moves
      have truthful := sound.truthful s
      refine sound.set ⟨truthful.interfaces, fun mac entry found => ?_, truthful.rdvs,
        truthful.routes⟩
        sound.honest
      rw [NeighborTable.expire, HashTable.lookup_erase_ite] at found
      split at found
      · cases found
      · exact truthful.neighbors mac entry found
  | expireBucket s interfaceId b =>
      cases moves
      have truthful := sound.truthful s
      exact sound.set ⟨truthful.interfaces, truthful.neighbors, truthful.rdvs,
        fun i level entry route =>
        truthful.routes i level entry route.of_expire⟩ sound.honest
  | expireEdge s edge =>
      cases moves
      have truthful := sound.truthful s
      exact sound.set ⟨truthful.interfaces, truthful.neighbors, fun other stored =>
        truthful.rdvs other (AList.mem_erase.mp stored).2, truthful.routes⟩ sound.honest

theorem sound_of_reaches (assigned : net.Assigned) {state : ControlState Switch}
    (run : Transition.Reaches (· = net.initial) net.Step net.Allowed state) : net.Sound state := by
  refine run.invariant net.Sound ?_ fun before action after sound allowed moves =>
    sound.step assigned allowed moves
  rintro _ rfl
  exact initial_sound

/-- Whatever is lost, delayed or forgotten, every edge at a rendezvous point is a link of the
network, a query is answered with gateways that have links across its level, every route leads to
such a gateway, and its nexthop is an interface that the switch is joined to. -/
theorem tables_true (assigned : net.Assigned) {state : ControlState Switch}
    (run : Transition.Reaches (· = net.initial) net.Step net.Allowed state) :
    (∀ s, ∀ edge ∈ (state.switches s).rdvs, net.Link edge.src edge.dest) ∧
      (∀ arrival ∈ state.flight, arrival.frame.veilType = veilRdvReply →
        ∀ j < (arrival.frame.byteAt 1).toNat, net.IsGateway arrival.frame.dvid
          (arrival.frame.byteAt 0).toNat (arrival.frame.switchVidAt (2 + 4 * j))) ∧
      ∀ s i b entry, (state.switches s).routes.HasRoute i b entry →
        ∃ v, (state.switches s).interfaces.interfaces.lookup v = some i ∧
          net.IsGateway v b entry.gateway ∧ ∃ w, net.Joined s w entry.nexthop := by
  have sound := sound_of_reaches assigned run
  refine ⟨fun s => (sound.truthful s).rdvs, fun arrival underway kind =>
    ((sound.honest arrival underway).reply kind).2, fun s i b entry route => ?_⟩
  rw [(sound.truthful s).interfaces]
  exact (sound.truthful s).routes i b entry route

end Runs

/-! ### Switches with one interface each, and a line of three -/

def ofLinks (switches : List VID) (neighbors : VID → List VID) : ControlNetwork VID where
  hosts := fun _ => HostTable.empty
  interfaces := fun x => if x ∈ switches then InterfaceTable.single x x else InterfaceTable.empty
  wire := fun x _ => (neighbors x).map fun n => (n, 0)

theorem ofLinks_interfaces {switches : List VID} {neighbors : VID → List VID} {x v : VID}
    {i : Nat} :
    ((ofLinks switches neighbors).interfaces x).interfaces.lookup v = some i ↔
      x ∈ switches ∧ v = x ∧ i = 0 := by
  by_cases inside : x ∈ switches
  · have one : ((ofLinks switches neighbors).interfaces x) = InterfaceTable.single x x :=
      if_pos inside
    rw [one, (InterfaceTable.single_isSingle x x).interfaces]
    exact (and_iff_right inside).symm
  · have none : ((ofLinks switches neighbors).interfaces x) = InterfaceTable.empty := if_neg inside
    rw [none]
    exact iff_of_false nofun fun all => inside all.1

theorem ofLinks_assigned {switches : List VID} {neighbors : VID → List VID}
    (switchVid : ∀ x ∈ switches, x.IsSwitchVID) : (ofLinks switches neighbors).Assigned where
  marked := by
    intro x vid i own
    obtain ⟨inside, rfl, rfl⟩ := ofLinks_interfaces.mp own
    have one : ((ofLinks switches neighbors).interfaces vid) = InterfaceTable.single vid vid :=
      if_pos inside
    rw [one]
    rfl
  switchVid := by
    intro x vid i own
    obtain ⟨inside, rfl, -⟩ := ofLinks_interfaces.mp own
    exact switchVid vid inside

theorem ofLinks_wired {switches : List VID} {neighbors : VID → List VID} {x n : VID}
    (inside : x ∈ switches) (other : n ∈ switches) (listed : n ∈ neighbors x) :
    (ofLinks switches neighbors).Wired x x n :=
  ⟨0, n, 0, ofLinks_interfaces.mpr ⟨inside, rfl, rfl⟩, ofLinks_interfaces.mpr ⟨other, rfl, rfl⟩,
    List.mem_map_of_mem listed⟩

def lowA : VID := 0x000000010000
def lowB : VID := 0x000000020000
def lowC : VID := 0x000000040000

def lowLinks (x : VID) : List VID := if x = lowB then [lowA, lowC] else [lowB]

def lowLine : ControlNetwork VID := ofLinks [lowA, lowB, lowC] lowLinks

theorem low_switchVid : ∀ x ∈ [lowA, lowB, lowC], x.IsSwitchVID := by
  intro x inside
  simp only [List.mem_cons, List.not_mem_nil, or_false] at inside
  rcases inside with rfl | rfl | rfl <;> decide

theorem lowLine_assigned : lowLine.Assigned := ofLinks_assigned low_switchVid

def lowIntroduced : ControlState VID :=
  [(lowA, lowB), (lowB, lowA), (lowB, lowC), (lowC, lowB)].foldl (fun state pair =>
    set state pair.1 { state.switches pair.1 with
      neighbors := ((state.switches pair.1).neighbors.updateEntry pair.2 pair.2 pair.1 pair.1).1 }
      state.flight) lowLine.initial

theorem lowIntroduced_reached :
    Transition.Reaches (· = lowLine.initial) lowLine.Step lowLine.Allowed lowIntroduced := by
  have heard {state : ControlState VID} {x n : VID}
      (run : Transition.Reaches (· = lowLine.initial) lowLine.Step lowLine.Allowed state)
      (wired : lowLine.Wired x x n) :
          Transition.Reaches (· = lowLine.initial) lowLine.Step lowLine.Allowed
        (set state x { state.switches x with
          neighbors := ((state.switches x).neighbors.updateEntry n n x x).1 } state.flight) :=
    .next run (show lowLine.Allowed state (.hear x n ⟨n, x, x⟩) from wired) rfl
  refine heard (heard (heard (heard (.start rfl) ?_) ?_) ?_) ?_
  all_goals exact ofLinks_wired (by decide) (by decide) (by decide)

def lowRound : ControlState VID := (lowLine.perform lowIntroduced (.round lowB)).getD lowIntroduced

theorem lowRound_reached :
    Transition.Reaches (· = lowLine.initial) lowLine.Step lowLine.Allowed lowRound :=
  .next lowIntroduced_reached (show lowLine.Allowed lowIntroduced (.round lowB) from trivial) rfl

theorem tables_true_line : ∃ entry, (lowRound.switches lowB).routes.HasRoute 0 18 entry ∧
  ∃ v, lowLine.IsGateway v 18 entry.gateway ∧ ∃ w, lowLine.Joined lowB w entry.nexthop := by
  have found : (lowRound.switches lowB).routes.defaultRoute 0 18 = some (lowA, lowB) := by
    decide +kernel
  obtain ⟨entry, route, -⟩ := RouteTable.HasRoute.of_defaultRoute found
  obtain ⟨v, -, leads, joined⟩ := (tables_true lowLine_assigned lowRound_reached).2.2 lowB 0
    18 entry route
  exact ⟨entry, route, v, leads, joined⟩

end ControlNetwork

end Veil
