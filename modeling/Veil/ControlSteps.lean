import Veil.ControlRounds
import Veil.GatewaySelection

/-! What every step leaves in place while nothing is lost or forgotten: the routes below a level,
the edges that are published below a level, and the way of the packets about them. -/

namespace Veil

open GatewayRouting

namespace ControlNetwork

open Forwarding (Layout Chooses Ideal Nearest Heading Trail SameContent Stray)

variable {net : ControlNetwork VID} {switches : Finset VID} {adjacent : VID → VID → Prop}

/-! ### What holds from round to round -/

section Steady

variable (net switches adjacent) (neighbors : VID → NeighborTable)

structure Introduced : Prop where
  attached : ∀ x ∈ switches, (neighbors x).Over x
  knows : ∀ x ∈ switches, ∀ n, (neighbors x).Knows n ↔ n ∈ switches ∧ adjacent x n

abbrev Aimed (x : VID) (j : Nat) (nh g : VID) : Prop :=
  Ideal switches adjacent (fun x level => (neighbors x).lastNeighbor x level) x j nh g

def RightAt (x : VID) (j : Nat) (routes : RouteTable) : Prop :=
  ∀ nh g, routes.defaultRoute 0 j = some (nh, g) ↔ Aimed switches adjacent neighbors x j nh g

structure Answered (frame : Frame) : Prop where
  some : 0 < (frame.byteAt 1).toNat
  closest : Forwarding.IsClosestGateway switches adjacent frame.dvid (frame.byteAt 0).toNat
    (frame.switchVidAt 2)

/-- The queries up to the level `a` are on their way to the rendezvous point of their sender, and
the answers below the level `b` are those of a point that knows all edges. -/
structure Proper (a b : Nat) (arrival : Arrival VID) : Prop where
  inside : arrival.switch ∈ switches
  query : arrival.frame.veilType = veilRdvQuery → arrival.frame.svid ∈ switches ∧
    (arrival.frame.byteAt 0).toNat ≤ 48 ∧ ((arrival.frame.byteAt 0).toNat ≤ a → Stray arrival ∨
      ∃ z, Nearest switches
          (arrival.frame.svid.calculateRdvPoint (arrival.frame.byteAt 0).toNat) z ∧
        Heading switches adjacent z (arrival.frame.byteAt 0).toNat arrival)
  reply : arrival.frame.veilType = veilRdvReply → (arrival.frame.byteAt 0).toNat < b →
    Answered switches adjacent arrival.frame

/-- The routes below the level `a` are right, and the edges below the level `b` are published. -/
structure Steady (a b : Nat) (state : ControlState VID) : Prop where
  sound : net.Sound state
  known : ∀ x ∈ switches, (state.switches x).neighbors = neighbors x
  routes : ∀ x ∈ switches, ∀ j, 16 < j → j < a →
    RightAt switches adjacent neighbors x j (state.switches x).routes
  published : ∀ x ∈ switches, ∀ n ∈ switches, adjacent x n → x.logicalDistance n < b →
    ∀ z, Nearest switches (x.calculateRdvPoint (x.logicalDistance n)) z →
      ⟨x, n⟩ ∈ (state.switches z).rdvs
  proper : ∀ arrival ∈ state.flight, Proper switches adjacent a b arrival

variable {net switches adjacent neighbors}

theorem Introduced.chooses (introduced : Introduced switches adjacent neighbors) :
    Chooses switches adjacent fun x level => (neighbors x).lastNeighbor x level where
  some := by
    intro x inside level n found
    have member := List.mem_reverse.mp (List.mem_of_find?_eq_some found)
    have away : n.logicalDistance x = level := by simpa using List.find?_some found
    obtain ⟨⟨mac, entry⟩, stored, rfl⟩ := List.mem_map.mp member
    obtain ⟨known, edge⟩ := (introduced.knows x inside _).mp
      ⟨mac, entry, AList.mem_lookup_iff.mpr stored, rfl⟩
    exact ⟨known, edge, VID.logicalDistance_isTreeDistance.comm x _ |>.trans away⟩
  none := by
    intro x inside level missing n member edge away
    obtain ⟨mac, entry, found, rfl⟩ := (introduced.knows x inside n).mpr ⟨member, edge⟩
    have visited : entry.neighborVID ∈ ((neighbors x).entries.map (·.2.neighborVID)).reverse :=
      List.mem_reverse.mpr (List.mem_map.mpr ⟨⟨mac, entry⟩, AList.mem_lookup_iff.mp found, rfl⟩)
    have other := List.find?_eq_none.mp missing _ visited
    rw [VID.logicalDistance_isTreeDistance.comm] at away
    exact other (beq_iff_eq.mpr away)

variable (planned : net.Planned switches adjacent)
include planned

theorem Planned.mem_outputs {x : VID} (inside : x ∈ switches) {r : RoutePacket}
    (one : r.interfaces.IsSingle x) {frame : Frame} {port : Int} {other : Arrival VID} :
    other ∈ net.outputs x r frame port ↔ port = 1 ∧ other = ⟨x, .classifier, frame⟩ ∨
      port = 0 ∧ other.switch ∈ switches ∧ adjacent x other.switch ∧
        other = ⟨other.switch, .classifier, Forwarding.received frame 0⟩ := by
  have count : (r.numinterfaces : Int) = 1 := by
    rw [RoutePacket.numinterfaces, one.count]
    rfl
  rw [ControlNetwork.outputs, count]
  split
  · rename_i own
    simp [own]
  · rename_i notOwn
    split
    · rename_i range
      obtain rfl : port = 0 := by omega
      rw [List.mem_map]
      constructor
      · rintro ⟨⟨t, j⟩, heard, rfl⟩
        obtain ⟨member, edge, same⟩ := (planned.wire x inside (t, j)).mp heard
        cases same
        exact Or.inr ⟨rfl, member, edge, rfl⟩
      · rintro (⟨impossible, -⟩ | ⟨-, member, edge, same⟩)
        · exact absurd impossible notOwn
        · exact ⟨(other.switch, 0), (planned.wire x inside _).mpr ⟨member, edge, rfl⟩, same.symm⟩
    · rename_i outside
      refine iff_of_false List.not_mem_nil ?_
      rintro (⟨impossible, -⟩ | ⟨zero, -⟩)
      · exact notOwn impossible
      · exact outside (by omega)

theorem Planned.routed {x : VID} (inside : x ∈ switches) {tables : ControlSwitch}
    (truthful : net.Truthful x tables) {frame : Frame} (honest : net.Honest frame) :
    (net.enter tables ⟨x, .router, frame⟩).1 = tables ∧
      ∀ other ∈ (net.enter tables ⟨x, .router, frame⟩).2, SameContent frame other.frame ∧
        other.switch ∈ switches ∧ (frame.veilType = veilRdvReply →
          other.frame.dvid = frame.dvid) := by
  have one : tables.router.interfaces.IsSingle x := by
    rw [ControlSwitch.router, truthful.interfaces]
    exact planned.interface x inside
  simp only [ControlNetwork.enter, tables.router.smaction_rendezvous honest.control]
  cases tables.router.ownVid frame.dhost frame.shost frame.dhost frame.shost
    frame.svid.getSwitchVID with
  | none =>
      refine ⟨rfl, fun other sent => ?_⟩
      rcases (planned.mem_outputs inside one).mp sent with ⟨impossible, -⟩ | ⟨impossible, -⟩
      · exact absurd impossible (show (-1 : Int) ≠ 1 by decide)
      · exact absurd impossible (show (-1 : Int) ≠ 0 by decide)
  | some myVid =>
      refine ⟨rfl, fun other sent => ?_⟩
      rcases (planned.mem_outputs inside one).mp sent with ⟨-, rfl⟩ | ⟨-, member, -, same⟩
      · refine ⟨⟨rfl, rfl, rfl, rfl⟩, inside, fun kind => ?_⟩
        rw [honest.not_rerouted kind]
        rfl
      · rw [same]
        refine ⟨⟨rfl, rfl, rfl, rfl⟩, member, fun kind => ?_⟩
        rw [Forwarding.received, honest.not_rerouted kind]
        rfl

variable (switches adjacent) in
structure Passed (z : VID) (k : Nat) (frame : Frame) (sent : List (Arrival VID)) : Prop where
  continues : ∃ other ∈ sent, SameContent frame other.frame ∧ Heading switches adjacent z k other
  others : ∀ other ∈ sent, Heading switches adjacent z k other ∨ Stray other

theorem Planned.passed (introduced : Introduced switches adjacent neighbors) {x z : VID} {k : Nat}
    (inside : x ∈ switches) {tables : ControlSwitch} (truthful : net.Truthful x tables)
    (right : Forwarding.RightBelow switches adjacent
      (fun x level => (neighbors x).lastNeighbor x level) k x tables.router)
    {element : Element} {frame : Frame}
    (heading : Heading switches adjacent z k ⟨x, element, frame⟩)
    (onward : element = .classifier → frame.dvid ≠ x) :
    (net.enter tables ⟨x, element, frame⟩).1 = tables ∧
      Passed switches adjacent z k frame (net.enter tables ⟨x, element, frame⟩).2 := by
  cases element with
  | classifier =>
      have here : (tables.processor.interfaces.lookupVidEntry frame.dhost).1 = true := by
        rw [ControlSwitch.processor, truthful.interfaces]
        exact (planned.lookupVidEntry inside).mpr heading.dhost_eq
      have notOwn : ¬(tables.processor.interfaces.lookupVidEntry frame.dvid).1 = true := by
        rw [ControlSwitch.processor, truthful.interfaces]
        exact fun own => onward rfl ((planned.lookupVidEntry inside).mp own)
      have sends : net.enter tables ⟨x, .classifier, frame⟩ = (tables, [⟨x, .router, frame⟩]) := by
        have action : tables.processor.smaction frame = (tables.processor, some frame) := by
          rw [ProcessRDV.smaction, ProcessRDV.dispose, if_neg (not_not.mpr here), if_pos notOwn]
          rfl
        have control : isRendezvous frame := heading.control
        simp only [ControlNetwork.enter, control, if_true, action]
        rfl
      have next := heading.onward (onward rfl)
      rw [sends]
      exact ⟨rfl, ⟨_, List.mem_singleton.mpr rfl, .refl frame, next⟩,
        List.forall_mem_singleton.mpr (Or.inl next)⟩
  | router =>
      have one : tables.router.interfaces.IsSingle x := right.interface
      obtain ⟨sent, same, ⟨action, own⟩ | ⟨action, member, edge, next⟩⟩ :=
        right.pass planned.layout introduced.chooses inside heading planned.short
      · simp only [ControlNetwork.enter, action]
        refine ⟨rfl, ⟨_, (planned.mem_outputs inside one).mpr (Or.inl ⟨rfl, rfl⟩), same, own⟩, ?_⟩
        intro other listed
        rcases (planned.mem_outputs inside one).mp listed with ⟨-, rfl⟩ | ⟨impossible, -⟩
        · exact Or.inl own
        · exact absurd impossible (by decide)
      · simp only [ControlNetwork.enter, action]
        refine ⟨rfl, ⟨_, (planned.mem_outputs inside one).mpr (Or.inr ⟨rfl, member, edge, rfl⟩),
          ?_, next⟩, ?_⟩
        · exact ⟨same.etherType, same.veilType, same.svid, same.payload⟩
        · intro other listed
          rcases (planned.mem_outputs inside one).mp listed with
            ⟨impossible, -⟩ | ⟨-, -, -, received⟩
          · exact absurd impossible (by decide)
          · by_cases addressed : sent.dhost = other.switch
            · rw [received, ← addressed]
              exact Or.inl next
            · rw [received]
              exact Or.inr ⟨rfl, addressed⟩

theorem Planned.gateway {x g : VID} {level : Nat} (leads : net.IsGateway x level g) :
    Forwarding.IsGateway switches adjacent x level g := by
  obtain ⟨inside, near, n, member, link, away⟩ := leads
  have apart : g ≠ n := by
    rintro rfl
    omega
  obtain ⟨gInside, nInside, edge⟩ := planned.link link apart
  exact ⟨gInside, near, n, nInside, edge, away⟩

section Points

variable {a b : Nat} {state : ControlState VID}
  (steady : Steady net switches adjacent neighbors a b state)
include steady

theorem Steady.rightBelow (introduced : Introduced switches adjacent neighbors) {x : VID}
    (inside : x ∈ switches) {k : Nat} (below : k ≤ a) :
    Forwarding.RightBelow switches adjacent (fun x level => (neighbors x).lastNeighbor x level) k x
      (state.switches x).router where
  interface := by
    rw [ControlSwitch.router, (steady.sound.truthful x).interfaces]
    exact planned.interface x inside
  attached := by
    rw [ControlSwitch.router, steady.known x inside]
    exact introduced.attached x inside
  neighbors := by
    rw [ControlSwitch.router, steady.known x inside]
    exact introduced.knows x inside
  routes := fun j above lower => steady.routes x inside j above (lt_of_lt_of_le lower below)

theorem Steady.stored {y z : VID} {j : Nat} (level : j < b) (bound : j ≤ 48)
    (nearest : Nearest switches (y.calculateRdvPoint j) z) (edge : RendezvousEdge)
    (qualified : RendezvousTable.qualifies j y edge) :
    edge ∈ (state.switches z).rdvs ↔ edge.src ∈ switches ∧ edge.dest ∈ switches ∧
      adjacent edge.src edge.dest := by
  have tree := VID.logicalDistance_isTreeDistance
  have levels : j = y.logicalDistance edge.dest ∧ y.logicalDistance edge.src < j := by
    simpa [RendezvousTable.qualifies] using qualified
  obtain ⟨src, dest⟩ := edge
  obtain ⟨away, near⟩ := levels
  have across : src.logicalDistance dest = j := by
    rw [away]
    exact tree.eq_of_lt (by rwa [tree.comm, ← away])
  constructor
  · intro stored
    refine planned.link ((steady.sound.truthful z).rdvs _ stored) fun same => ?_
    dsimp only at same near
    rw [same, tree.self] at across
    omega
  · rintro ⟨srcInside, destInside, joined⟩
    refine steady.published src srcInside dest destInside joined (across.trans_lt level) z ?_
    rwa [across, ← VID.calculateRdvPoint_congr near bound]

theorem Steady.answered {z : VID} {frame : Frame} (level : (frame.byteAt 0).toNat < b)
    (bound : (frame.byteAt 0).toNat ≤ 48)
    (nearest : Nearest switches (frame.svid.calculateRdvPoint (frame.byteAt 0).toNat) z)
    (myVid : VID)
    (some : (state.switches z).rdvs.getRdvPoint (frame.byteAt 0).toNat frame.svid ≠ []) :
    Answered switches adjacent (ProcessRDV.queryReply frame myVid
      ((state.switches z).rdvs.getRdvPoint (frame.byteAt 0).toNat frame.svid)) := by
  have stored := steady.stored planned level bound nearest
  have few := (state.switches z).rdvs.length_getRdvPoint_le (frame.byteAt 0).toNat frame.svid
  cases answer : (state.switches z).rdvs.getRdvPoint (frame.byteAt 0).toNat frame.svid with
  | nil => exact absurd answer some
  | cons g others =>
      rw [answer] at few
      have closest := Forwarding.isClosestGateway_of_getRdvPoint stored answer
      have switch := planned.layout.switchVid g closest.gateway.inside
      refine ⟨?_, ?_⟩
      · rw [ProcessRDV.queryReply_count frame myVid few]
        exact Nat.succ_pos _
      · have first := @ProcessRDV.queryReply_gateway frame myVid (g :: others) 0 (by decide)
        rw [Nat.mul_zero, Nat.add_zero, List.getD_cons_zero, switch] at first
        rw [first]
        exact closest

theorem Steady.finds {y z : VID} (inside : y ∈ switches) {j : Nat} (level : j < b) (bound : j ≤ 48)
    (nearest : Nearest switches (y.calculateRdvPoint j) z) {g : VID}
    (leads : Forwarding.IsGateway switches adjacent y j g) :
    (state.switches z).rdvs.getRdvPoint j y ≠ [] := by
  have stored := steady.stored planned level bound nearest
  obtain ⟨gInside, near, n, nInside, edge, away⟩ := leads
  have qualified : RendezvousTable.qualifies j y ⟨g, n⟩ := by
    simp [RendezvousTable.qualifies, away, near]
  have source : g ∈ (state.switches z).rdvs.sources j y :=
    RendezvousTable.mem_sources.mpr ⟨⟨g, n⟩, (stored _ qualified).mpr ⟨gInside, nInside, edge⟩,
      qualified, rfl⟩
  obtain ⟨gateway, last⟩ := RendezvousTable.exists_lastClosest (List.ne_nil_of_mem source)
  have few : ((state.switches z).rdvs.sources j y).length < 256 := by
    rw [RendezvousTable.sources, List.length_map]
    refine planned.counted y inside j _ ?_ fun edge listed => ?_
    · exact (AList.keys_nodup _).filter _
    · obtain ⟨member, qualified⟩ := List.mem_filter.mp listed
      obtain ⟨src, dest, joined⟩ := (stored edge qualified).mp (AList.mem_keys.mpr member)
      exact ⟨src, dest, joined, qualified⟩
  rw [RendezvousTable.getRdvPoint_eq_take few last]
  exact List.cons_ne_nil _ _

end Points

/-! ### Routes that are right -/

omit planned in
theorem rightAt_of_default (layout : Layout switches adjacent) {x : VID} {j : Nat}
    {routes : RouteTable} {nh g : VID} (found : routes.defaultRoute 0 j = some (nh, g))
    (aimed : Aimed switches adjacent neighbors x j nh g) :
    RightAt switches adjacent neighbors x j routes := by
  intro nh' g'
  rw [found, Option.some.injEq, Prod.mk.injEq]
  constructor
  · rintro ⟨rfl, rfl⟩
    exact aimed
  · exact fun other => aimed.unique layout other

omit planned in
theorem RightAt.congr {x : VID} {j : Nat} {before after : RouteTable}
    (right : RightAt switches adjacent neighbors x j before)
    (same : after.defaultRoute 0 j = before.defaultRoute 0 j) :
    RightAt switches adjacent neighbors x j after := by
  intro nh g
  rw [same]
  exact right nh g

theorem Planned.rightAt_of_empty (introduced : Introduced switches adjacent neighbors) {x : VID}
    (inside : x ∈ switches) {routes : RouteTable} (honest : net.RoutesTrue x routes) {j : Nat}
    (empty : ∀ y ∈ switches, x.logicalDistance y ≠ j) :
    RightAt switches adjacent neighbors x j routes := by
  intro nh g
  constructor
  · intro found
    obtain ⟨entry, route, same⟩ := RouteTable.HasRoute.of_defaultRoute found
    obtain ⟨v, own, leads, -⟩ := honest 0 j entry route
    obtain ⟨rfl, -⟩ := planned.owns_iff.mp ⟨0, own⟩
    obtain ⟨n, member, -, away⟩ := (planned.gateway leads).leads
    exact absurd away (empty n member)
  · intro ideal
    obtain ⟨y, member, away⟩ := ideal.exists_member introduced.chooses inside
    exact absurd away (empty y member)

theorem Planned.rightAt_round {x : VID} {tables : ControlSwitch} {after : BuildRouteTable}
    {sent : List Frame} (rounded : Rounded x tables after sent)
    (known : tables.neighbors = neighbors x) {j : Nat} (above : 16 < j) :
    (∀ n, (neighbors x).lastNeighbor x j = some n →
        RightAt switches adjacent neighbors x j after.routes) ∧
      (RightAt switches adjacent neighbors x j tables.routes →
        RightAt switches adjacent neighbors x j after.routes) := by
  have routes := rounded.routes j (by omega)
  rw [known] at routes
  have direct (n : VID) (chosen : (neighbors x).lastNeighbor x j = some n) :
      RightAt switches adjacent neighbors x j after.routes := by
    rw [chosen] at routes
    exact rightAt_of_default planned.layout routes (.direct chosen)
  refine ⟨direct, fun right => ?_⟩
  cases chosen : (neighbors x).lastNeighbor x j with
  | some n => exact direct n chosen
  | none =>
      rw [chosen] at routes
      exact right.congr routes

section Learning

variable {x : VID} {routes : RouteTable} {frame : Frame} (own : frame.dvid = x)
  (answered : Answered switches adjacent frame)
  (lower : ∀ j, 16 < j → j < (frame.byteAt 0).toNat →
    RightAt switches adjacent neighbors x j routes)
include own answered lower

theorem Planned.rightAt_learned (introduced : Introduced switches adjacent neighbors)
    (inside : x ∈ switches) (none : (neighbors x).lastNeighbor x (frame.byteAt 0).toNat = none) :
    RightAt switches adjacent neighbors x (frame.byteAt 0).toNat
      ((List.range (frame.byteAt 1).toNat).foldl (ProcessRDV.learnGateway (net.interfaces x) frame)
        routes) := by
  have closest := answered.closest
  rw [own] at closest
  have apart : x ≠ frame.switchVidAt 2 := by
    intro same
    obtain ⟨n, member, edge, away⟩ := closest.gateway.leads
    rw [← same] at edge
    exact introduced.chooses.none x inside _ none n member edge away
  have far := VID.logicalDistance_gt_of_ne (planned.layout.switchVid x inside)
    (planned.layout.switchVid _ closest.gateway.inside) apart
  obtain ⟨nh, gw, towards⟩ := planned.layout.exists_ideal introduced.chooses inside
    closest.gateway.inside
    apart
  have route := (lower _ far closest.gateway.near nh gw).mpr towards
  refine rightAt_of_default planned.layout ?_ (.gateway none closest towards)
  rw [defaultRoute_learned (planned.interface x inside) own, if_pos answered.some,
    defaultRoute_learned_first (planned.interface x inside) own, if_pos ⟨far, rfl⟩, route]
  rfl

theorem Planned.rightAt_kept (introduced : Introduced switches adjacent neighbors)
    (inside : x ∈ switches) {j : Nat} (right : RightAt switches adjacent neighbors x j routes) :
    RightAt switches adjacent neighbors x j
      ((List.range (frame.byteAt 1).toNat).foldl (ProcessRDV.learnGateway (net.interfaces x) frame)
        routes) := by
  by_cases level : j = (frame.byteAt 0).toNat
  · subst level
    cases chosen : (neighbors x).lastNeighbor x (frame.byteAt 0).toNat with
    | none => exact planned.rightAt_learned own answered lower introduced inside chosen
    | some n =>
        -- a switch with a neighbour at the level is itself the closest gateway
        refine right.congr ?_
        have tree := VID.logicalDistance_isTreeDistance
        obtain ⟨member, edge, away⟩ := introduced.chooses.some x inside _ n chosen
        have closest := answered.closest
        rw [own] at closest
        have itself : Forwarding.IsGateway switches adjacent x (frame.byteAt 0).toNat x := by
          refine ⟨inside, ?_, n, member, edge, away⟩
          rw [tree.self]
          exact (Nat.zero_le _).trans_lt closest.gateway.near
        have same : frame.switchVidAt 2 = x := by
          refine planned.layout.closest_unique closest ⟨itself, fun other _ => ?_⟩
          rw [BitVec.le_def, VID.xor_toNat, Nat.shiftRight_xor_distrib, Nat.xor_self]
          exact Nat.zero_le _
        rw [defaultRoute_learned (planned.interface x inside) own, if_pos answered.some,
          defaultRoute_learned_first (planned.interface x inside) own, same, tree.self,
          if_neg fun both => absurd both.1 (by decide)]
  · exact right.congr (defaultRoute_learned_of_ne (planned.interface x inside) own routes _ level)

end Learning

/-! ### One step -/

variable (switches adjacent neighbors) in
structure Keeps (a b : Nat) (x : VID) (tables after : ControlSwitch) (sent : List (Arrival VID)) :
    Prop where
  known : after.neighbors = tables.neighbors
  routes : ∀ j, 16 < j → j < b → RightAt switches adjacent neighbors x j tables.routes →
    RightAt switches adjacent neighbors x j after.routes
  rdvs : ∀ edge ∈ tables.rdvs, edge ∈ after.rdvs
  proper : ∀ arrival ∈ sent, Proper switches adjacent a b arrival

omit planned in
theorem Answered.same {frame other : Frame} (answered : Answered switches adjacent frame)
    (same : SameContent frame other) (kept : other.dvid = frame.dvid) :
    Answered switches adjacent other := by
  obtain ⟨some, closest⟩ := answered
  refine ⟨by rwa [same.byteAt], ?_⟩
  rwa [same.byteAt, same.switchVidAt, kept]

section Steps

variable (introduced : Introduced switches adjacent neighbors) {a b : Nat}
  {state : ControlState VID}
  (steady : Steady net switches adjacent neighbors a b state) (above : a ≤ b) (next : b ≤ a + 1)
include introduced steady above next

omit planned introduced next in
theorem Steady.set {x : VID} {tables : ControlSwitch} {sent flight : List (Arrival VID)}
    (kept : Keeps switches adjacent neighbors a b x (state.switches x) tables sent)
    (sound : net.Sound (ControlNetwork.set state x tables flight))
    (under : ∀ arrival ∈ flight, arrival ∈ state.flight ∨ arrival ∈ sent) :
    Steady net switches adjacent neighbors a b (ControlNetwork.set state x tables flight) := by
  refine ⟨sound, fun y member => ?_, fun y member j far lower => ?_,
    fun y member n other edge level z nearest => ?_,
    fun arrival present => ?_⟩
  · rw [set_switches]
    split
    · rename_i same
      subst y
      exact kept.known.trans (steady.known x member)
    · exact steady.known y member
  · have right := steady.routes y member j far lower
    rw [set_switches]
    split
    · rename_i same
      subst y
      exact kept.routes j far (lt_of_lt_of_le lower above) right
    · exact right
  · have stored := steady.published y member n other edge level z nearest
    rw [set_switches]
    split
    · rename_i same
      subst z
      exact kept.rdvs _ stored
    · exact stored
  · rcases under arrival present with earlier | new
    · exact steady.proper arrival earlier
    · exact kept.proper arrival new

theorem Steady.enter {arrival : Arrival VID} (underway : arrival ∈ state.flight) :
    Keeps switches adjacent neighbors a b arrival.switch (state.switches arrival.switch)
      (net.enter (state.switches arrival.switch) arrival).1
      (net.enter (state.switches arrival.switch) arrival).2 := by
  have proper := steady.proper arrival underway
  have honest := steady.sound.honest arrival underway
  obtain ⟨x, element, frame⟩ := arrival
  have inside : x ∈ switches := proper.inside
  have truthful := steady.sound.truthful x
  have interfaces : (state.switches x).processor.interfaces = net.interfaces x :=
    truthful.interfaces
  cases element with
  | router =>
      obtain ⟨same, others⟩ := planned.routed inside truthful honest
      rw [same]
      refine ⟨rfl, fun _ _ _ right => right, fun _ stored => stored, fun other sent => ?_⟩
      obtain ⟨content, member, kept⟩ := others other sent
      refine ⟨member, fun kind => ?_, fun kind level => ?_⟩
      · rw [content.veilType] at kind
        rw [content.svid, content.byteAt]
        obtain ⟨source, bound, way⟩ := proper.query kind
        refine ⟨source, bound, fun lower => ?_⟩
        rcases way lower with stray | ⟨z, nearest, heading⟩
        · cases stray.1
        · have right := steady.rightBelow planned introduced inside lower
          rcases (planned.passed introduced inside truthful right heading (by rintro ⟨⟩)).2.others
            other sent with
            going | stray
          · exact Or.inr ⟨z, nearest, going⟩
          · exact Or.inl stray
      · rw [content.veilType] at kind
        rw [content.byteAt] at level
        exact (proper.reply kind level).same content (kept kind)
  | classifier =>
      have outcome := (state.switches x).processor.smaction_outcome honest.control
      simp only [ControlNetwork.enter, if_pos honest.control]
      generalize (state.switches x).processor.smaction frame = result at outcome
      cases outcome with
      | elsewhere =>
          exact ⟨rfl, fun _ _ _ right => right, fun _ stored => stored, List.forall_mem_nil _⟩
      | forwarded here notOwn =>
          rw [interfaces, planned.lookupVidEntry inside] at here notOwn
          refine ⟨rfl, fun _ _ _ right => right, fun _ stored => stored,
            List.forall_mem_singleton.mpr ?_⟩
          refine ⟨inside, fun kind => ?_, proper.reply⟩
          obtain ⟨source, bound, way⟩ := proper.query kind
          refine ⟨source, bound, fun lower => ?_⟩
          rcases way lower with stray | ⟨z, nearest, heading⟩
          · exact absurd here stray.2
          · exact Or.inr ⟨z, nearest, heading.onward notOwn⟩
      | answered accepted kind some =>
          obtain ⟨here, own⟩ : frame.dhost = x ∧ frame.dvid = x :=
            (planned.accepts_iff inside).mp (interfaces ▸ accepted)
          refine ⟨rfl, fun _ _ _ right => right, fun _ stored => stored,
            List.forall_mem_singleton.mpr ?_⟩
          refine ⟨inside, fun query => absurd query.symm query_ne_reply, fun _ level => ?_⟩
          obtain ⟨source, bound, way⟩ := proper.query kind
          have lower : (frame.byteAt 0).toNat < b := level
          rcases way (by dsimp only; omega) with stray | ⟨z, nearest, heading⟩
          · exact absurd here stray.2
          · obtain rfl : z = x := (heading.nearest.eq_of_mem (own ▸ inside)).trans own
            exact steady.answered planned lower bound nearest _ some
      | unanswered =>
          exact ⟨rfl, fun _ _ _ right => right, fun _ stored => stored, List.forall_mem_nil _⟩
      | published =>
          exact ⟨rfl, fun _ _ _ right => right,
            fun _ stored => (AList.mem_insert _).mpr (Or.inr stored),
            List.forall_mem_nil _⟩
      | learned accepted kind =>
          obtain ⟨here, own⟩ : frame.dhost = x ∧ frame.dvid = x :=
            (planned.accepts_iff inside).mp (interfaces ▸ accepted)
          refine ⟨rfl, fun j far level right => ?_, fun _ stored => stored, List.forall_mem_nil _⟩
          rw [interfaces]
          by_cases lower : (frame.byteAt 0).toNat < b
          · have answered : Answered switches adjacent frame := proper.reply kind lower
            refine planned.rightAt_kept own answered (fun i high below => ?_)
              introduced inside right
            exact steady.routes x inside i high (by omega)
          · have other : j ≠ (frame.byteAt 0).toNat := by omega
            exact right.congr
              (defaultRoute_learned_of_ne (planned.interface x inside) own _ _ other)

omit introduced above next in
theorem Steady.round {x : VID} (inside : x ∈ switches) :
    Keeps switches adjacent neighbors a b x (state.switches x)
      { state.switches x with
        interfaces := (state.switches x).builder.runTimer.1.interfaces
        neighbors := (state.switches x).builder.runTimer.1.neighbors
        routes := (state.switches x).builder.runTimer.1.routes }
      ((state.switches x).builder.runTimer.2.map fun frame => ⟨x, .router, frame⟩) := by
  have rounded := planned.rounded inside (steady.sound.truthful x)
  refine ⟨rounded.neighbors, fun j far _ right => ?_, fun _ stored => stored,
    fun arrival sent => ?_⟩
  · exact (planned.rightAt_round rounded (steady.known x inside) far).2 right
  · obtain ⟨frame, member, rfl⟩ := List.mem_map.mp sent
    rcases rounded.frames frame member with ⟨n, -, -, rfl⟩ | ⟨level, listed, rfl⟩
    · exact ⟨inside, fun query => absurd query publish_ne_query,
        fun reply => absurd reply publish_ne_reply⟩
    · obtain ⟨low, high⟩ := (BuildRouteTable.mem_queryLevels level).mp listed
      refine ⟨inside, fun _ => ?_, fun reply => absurd reply query_ne_reply⟩
      rw [rdvQuery_level x listed]
      refine ⟨inside, by omega, fun _ => ?_⟩
      obtain ⟨z, nearest⟩ := Forwarding.exists_nearest inside (x.calculateRdvPoint level)
      exact Or.inr ⟨z, nearest,
        .sent inside low (by omega) nearest rfl query_ne_reply rfl rfl rfl rfl⟩

omit introduced next in
theorem Steady.stepRound {x : VID} (inside : x ∈ switches) {after : ControlState VID}
    (moves : net.Step state (.round x) after) :
    Steady net switches adjacent neighbors a b after := by
  have allowed : net.Allowed state (.round x) := trivial
  have sound := steady.sound.step planned.assigned allowed moves
  cases moves
  exact steady.set above (steady.round planned inside) sound fun arrival present =>
    List.mem_append.mp present

theorem Steady.stepHandle {i : Nat} {after : ControlState VID}
    (moves : net.Step state (.handle i) after) :
    Steady net switches adjacent neighbors a b after := by
  have allowed : net.Allowed state (.handle i) := trivial
  have sound := steady.sound.step planned.assigned allowed moves
  obtain ⟨arrival, handled, rfl⟩ := Option.map_eq_some_iff.mp moves
  have kept := steady.enter planned introduced above next (List.mem_of_getElem? handled)
  refine steady.set above kept sound fun other present => ?_
  exact (List.mem_append.mp present).imp_left List.mem_of_mem_eraseIdx

omit above next in
theorem Steady.tracked {arrival : Arrival VID} (underway : arrival ∈ state.flight) {z : VID}
    {k : Nat} (heading : Heading switches adjacent z k arrival) (lower : k ≤ a) {i : Nat}
    {after : ControlState VID} (moves : net.Step state (.handle i) after) :
    (∃ other ∈ after.flight, SameContent arrival.frame other.frame ∧
        Heading switches adjacent z k other) ∨
      ∃ frame, arrival = ⟨z, .classifier, frame⟩ ∧ frame.dvid = z ∧
        after.switches z = (net.enter (state.switches z) ⟨z, .classifier, frame⟩).1 ∧
          ∀ other ∈ (net.enter (state.switches z) ⟨z, .classifier, frame⟩).2,
            other ∈ after.flight := by
  obtain ⟨handled, found, rfl⟩ := Option.map_eq_some_iff.mp moves
  by_cases same : handled = arrival
  · subst handled
    have inside := (steady.proper arrival underway).inside
    obtain ⟨x, element, frame⟩ := arrival
    by_cases ends : element = .classifier ∧ frame.dvid = x
    · obtain ⟨rfl, own⟩ := ends
      obtain rfl : z = x := (heading.nearest.eq_of_mem (own ▸ inside)).trans own
      refine Or.inr ⟨frame, rfl, own, ?_, fun other sent => List.mem_append_right _ sent⟩
      exact (set_switches ..).trans (if_pos rfl)
    · have right := steady.rightBelow planned introduced inside lower
      have passed := (planned.passed introduced inside (steady.sound.truthful x) right heading
        fun here own => ends ⟨here, own⟩).2
      obtain ⟨other, sent, content, going⟩ := passed.continues
      exact Or.inl ⟨other, List.mem_append_right _ sent, content, going⟩
  · refine Or.inl ⟨arrival, List.mem_append_left _ ?_, .refl _, heading⟩
    obtain ⟨j, present⟩ := List.mem_iff_getElem?.mp underway
    refine List.mem_eraseIdx_iff_getElem?.mpr ⟨j, ?_, present⟩
    rintro rfl
    exact same (Option.some.inj (found.symm.trans present))

end Steps

end Steady

end ControlNetwork

end Veil
