import Mathlib.Data.Finset.Max
import Veil.Library.GatewayRouting
import Veil.Rendezvous
import Veil.RoutePacket

/-! Delivery on a network whose tables are what the rendezvous exchange leaves behind. -/

namespace Veil

open GatewayRouting

namespace Forwarding

abbrev Network := VID → RoutePacket

def Hop (net : Network) (dst x next : VID) : Prop :=
  let looked := (net x).getPort dst dst 0 x
  16 < looked.k ∧ 0 ≤ looked.port ∧ looked.port < (net x).numinterfaces ∧ looked.nexthop = next

abbrev IsGateway (switches : Finset VID) (adjacent : VID → VID → Prop) (x : VID) (k : Nat)
    (g : VID) : Prop :=
  Gateway VID.logicalDistance (· ∈ switches) adjacent x k g

structure IsClosestGateway (switches : Finset VID) (adjacent : VID → VID → Prop) (x : VID) (k : Nat)
    (g : VID) : Prop where
  gateway : IsGateway switches adjacent x k g
  least : ∀ other, IsGateway switches adjacent x k other → VID.xor g x ≤ VID.xor other x

def SamePrefix (switches : Finset VID) (vid : VID) (level : Nat) (x : VID) : Prop :=
  x ∈ switches ∧ x >>> level = vid >>> level

/-- A network in which nothing changes any more: every switch knows its neighbours and its route
table holds what the rendezvous exchange would write. -/
structure Converged (net : Network) (switches : Finset VID) (adjacent : VID → VID → Prop) :
    Prop where
  switchVid : ∀ x ∈ switches, x.IsSwitchVID
  symmetric : ∀ x y, adjacent x y → adjacent y x
  prefixes : ∀ vid level, ConnectedWithin adjacent (SamePrefix switches vid level)
  interface : ∀ x ∈ switches, (net x).interfaces.IsSingle x
  neighbors : ∀ x ∈ switches, ∀ n, (net x).neighbors.Knows n ↔ n ∈ switches ∧ adjacent x n
  attached : ∀ x ∈ switches, (net x).neighbors.Over x
  direct : ∀ x ∈ switches, ∀ k, (∃ n ∈ switches, adjacent x n ∧ x.logicalDistance n = k) →
    ∃ n ∈ switches, adjacent x n ∧ x.logicalDistance n = k ∧
      (net x).routes.defaultRoute 0 k = some (n, x)
  indirect : ∀ x ∈ switches, ∀ k, (∃ y ∈ switches, x.logicalDistance y = k) →
    (∀ n ∈ switches, adjacent x n → x.logicalDistance n ≠ k) →
    ∀ g, IsClosestGateway switches adjacent x k g →
      ∃ nh gw, (net x).routes.getRouteDefault (net x).interfaces g x 0 = some (nh, gw) ∧
        (net x).routes.defaultRoute 0 k = some (nh, g)

theorem isClosestGateway_of_getRdvPoint {switches : Finset VID} {adjacent : VID → VID → Prop}
    {x g : VID} {k : Nat} {table : RendezvousTable} {others : List VID}
    (stored : ∀ edge, RendezvousTable.qualifies k x edge →
      (edge ∈ table ↔ edge.src ∈ switches ∧ edge.dest ∈ switches ∧ adjacent edge.src edge.dest))
    (answer : table.getRdvPoint k x = g :: others) : IsClosestGateway switches adjacent x k g := by
  obtain ⟨⟨edge, member, qualified, rfl⟩, least⟩ := RendezvousTable.getRdvPoint_head answer
  have levels : k = x.logicalDistance edge.dest ∧ x.logicalDistance edge.src < k := by
    simpa [RendezvousTable.qualifies] using qualified
  have link := (stored edge qualified).mp member
  refine ⟨⟨link.1, levels.2, edge.dest, link.2.1, link.2.2, levels.1.symm⟩, ?_⟩
  rintro other ⟨inside, near, neighbor, neighborInside, edge, away⟩
  have qualifies : RendezvousTable.qualifies k x ⟨other, neighbor⟩ := by
    simp [RendezvousTable.qualifies, away, near]
  exact least ⟨other, neighbor⟩ ((stored _ qualifies).mpr ⟨inside, neighborInside, edge⟩) qualifies

variable {net : Network} {switches : Finset VID} {adjacent : VID → VID → Prop}

theorem samePrefix_iff {vid x : VID} {level : Nat} :
    SamePrefix switches vid level x ↔ x ∈ switches ∧ vid.logicalDistance x ≤ level := by
  rw [SamePrefix, VID.logicalDistance_eq, prefixDistance.le_iff, ← BitVec.toNat_inj,
    BitVec.toNat_ushiftRight, BitVec.toNat_ushiftRight, eq_comm]

section Prefixes

variable (prefixes : ∀ vid level, ConnectedWithin adjacent (SamePrefix switches vid level))
  {x y : VID} (inside : x ∈ switches) (target : y ∈ switches) (apart : x ≠ y)
include prefixes inside target apart

theorem exists_gateway : ∃ g, IsGateway switches adjacent x (x.logicalDistance y) g := by
  have tree := VID.logicalDistance_isTreeDistance
  have connected := (prefixes x (x.logicalDistance y)).congr fun _ => samePrefix_iff
  exact exists_gateway_of_connected tree connected inside target rfl (tree.pos_iff.mpr apart)

theorem exists_closestGateway :
    ∃ g, IsClosestGateway switches adjacent x (x.logicalDistance y) g := by
  classical
  obtain ⟨g, found⟩ := exists_gateway prefixes inside target apart
  obtain ⟨closest, member, least⟩ := Finset.exists_min_image
    (switches.filter (IsGateway switches adjacent x (x.logicalDistance y)))
    (fun gateway => (VID.xor gateway x).toNat) ⟨g, Finset.mem_filter.mpr ⟨found.inside, found⟩⟩
  refine ⟨closest, (Finset.mem_filter.mp member).2, fun other otherFound => ?_⟩
  exact least other (Finset.mem_filter.mpr ⟨otherFound.inside, otherFound⟩)

end Prefixes

theorem Converged.nextHop (converged : Converged net switches adjacent) {x y : VID}
    (inside : x ∈ switches) (target : y ∈ switches) (apart : x ≠ y) :
    ∃ nh g, (net x).routes.defaultRoute 0 (x.logicalDistance y) = some (nh, g) ∧ nh ∈ switches ∧
      adjacent x nh ∧
      NextHop VID.logicalDistance (· ∈ switches) adjacent x (x.logicalDistance y) nh := by
  generalize level : x.logicalDistance y = k
  induction k using Nat.strongRecOn generalizing y with
  | ind k ih =>
      subst level
      by_cases neighbor : ∃ n ∈ switches, adjacent x n ∧ x.logicalDistance n = x.logicalDistance y
      · obtain ⟨n, nInside, edge, away, route⟩ := converged.direct x inside _ neighbor
        exact ⟨n, x, route, nInside, edge, .direct nInside edge away⟩
      · have none : ∀ n ∈ switches, adjacent x n → x.logicalDistance n ≠ x.logicalDistance y :=
          fun n nInside edge away => neighbor ⟨n, nInside, edge, away⟩
        obtain ⟨g, closest⟩ := exists_closestGateway converged.prefixes inside target apart
        obtain ⟨nh, gw, towards, route⟩ :=
          converged.indirect x inside _ ⟨y, target, rfl⟩ none g closest
        have beside : x ≠ g := by
          rintro rfl
          obtain ⟨n, nInside, edge, away⟩ := closest.gateway.leads
          exact none n nInside edge away
        have far := VID.logicalDistance_gt_of_ne (converged.switchVid x inside)
          (converged.switchVid g closest.gateway.inside) beside
        rw [RouteTable.getRouteDefault_of_single (converged.interface x inside) far] at towards
        obtain ⟨n, gw', found, nInside, edge, hop⟩ :=
          ih _ closest.gateway.near closest.gateway.inside beside rfl
        obtain rfl : nh = n := by
          rw [towards, Option.some.injEq, Prod.mk.injEq] at found
          exact found.1
        refine ⟨nh, g, route, nInside, edge, .gateway none closest.gateway ?_ hop⟩
        intro other otherFound
        exact VID.logicalDistance_le_of_xor_le (converged.switchVid x inside)
          (converged.switchVid g closest.gateway.inside)
            (converged.switchVid other otherFound.inside)
          (closest.least other otherFound)

theorem Converged.portOf_self (converged : Converged net switches adjacent) {x : VID}
    (inside : x ∈ switches) : (net x).portOf x = 0 := by
  rw [RoutePacket.portOf, (converged.interface x inside).lookupVidEntry_self]
  rfl

theorem Converged.hop (converged : Converged net switches adjacent) {x dst : VID}
    (inside : x ∈ switches) (target : dst ∈ switches) (apart : x ≠ dst) :
    ∃ next ∈ switches, adjacent x next ∧ Hop net dst x next ∧ (next = dst ∨
      NextHop VID.logicalDistance (· ∈ switches) adjacent x (x.logicalDistance dst) next) := by
  have far := VID.logicalDistance_gt_of_ne (converged.switchVid x inside)
    (converged.switchVid dst target) apart
  have notOwn : ¬x.logicalDistance dst ≤ 16 := by omega
  have switch : dst.getSwitchVID = dst := converged.switchVid dst target
  have single := converged.interface x inside
  have port := converged.portOf_self inside
  have count : (net x).numinterfaces = 1 := by
    rw [RoutePacket.numinterfaces, single.count]
  by_cases neighbor : (net x).neighbors.Knows dst
  · have edge := ((converged.neighbors x inside dst).mp neighbor).2
    refine ⟨dst, target, edge, ?_, Or.inl rfl⟩
    have looked := NeighborTable.lookupEntry_of_knows (converged.attached x inside) neighbor
    simp only [Hop, RoutePacket.getPort, notOwn, if_false, switch, looked, port, count]
    exact ⟨far, Int.le_refl 0, by decide, trivial⟩
  · obtain ⟨nh, g, route, nhInside, edge, hop⟩ := converged.nextHop inside target apart
    have known := (converged.neighbors x inside nh).mpr ⟨nhInside, edge⟩
    have looked := NeighborTable.lookupEntry_of_knows (converged.attached x inside) known
    have unknown := NeighborTable.lookupEntry_eq_none_iff.mpr neighbor
    refine ⟨nh, nhInside, edge, ?_, Or.inr hop⟩
    simp only [Hop, RoutePacket.getPort, notOwn, if_false, switch, unknown,
      RouteTable.getRouteDefault_of_single single far, route, looked, port, count]
    exact ⟨far, Int.le_refl 0, by decide, trivial⟩

/-- From every switch, following `getPort` for `dst` leads over links to `dst` without visiting a
switch twice. -/
theorem Converged.delivery (converged : Converged net switches adjacent) {x dst : VID}
    (inside : x ∈ switches) (target : dst ∈ switches) :
    ∃ path, Path (fun source next => next ∈ switches ∧ adjacent source next ∧
        Hop net dst source next)
      dst x path ∧ path.Nodup := by
  have tree := VID.logicalDistance_isTreeDistance
  refine exists_path (· ∈ switches) (fun source =>
    rank VID.logicalDistance (· ∈ switches) adjacent source
      (source.logicalDistance dst)) ?_ x inside
  intro source sourceInside apart
  obtain ⟨next, nextInside, edge, hop, arrives | rule⟩ := converged.hop sourceInside target apart
  · refine ⟨next, nextInside, ⟨nextInside, edge, hop⟩, ?_⟩
    subst next
    exact rank_lt_of_lt _ _ _ _ _ (by rw [tree.self]; exact tree.pos_iff.mpr apart)
  · exact ⟨next, nextInside, ⟨nextInside, edge, hop⟩, rule.rank_lt tree apart⟩

def lineA : VID := 0x010000000000
def lineB : VID := 0x010100000000
def lineC : VID := 0x020000000000

def lineAdjacent (x y : VID) : Prop :=
  (x, y) ∈ [(lineA, lineB), (lineB, lineA), (lineB, lineC), (lineC, lineB)]

def lineSwitch (x : VID) (neighbors : List VID) (routes : List (Nat × VID × VID)) :
    RoutePacket where
  hosts := HostTable.empty
  interfaces := InterfaceTable.single x x
  neighbors := HashTable.insertAll (fun n => ⟨n, x, x⟩) ∅ neighbors
  routes := routes.foldl (fun table route =>
    table.updateEntry (InterfaceTable.single x x) x route.1 route.2.1 route.2.2 true)
      RouteTable.empty

def lineNetwork (x : VID) : RoutePacket :=
  if x = lineA then lineSwitch lineA [lineB] [(33, lineB, lineA), (42, lineB, lineB)]
  else if x = lineB then lineSwitch lineB [lineA, lineC] [(33, lineA, lineB), (42, lineC, lineB)]
  else lineSwitch lineC [lineB] [(42, lineB, lineC)]

theorem lineNetwork_A :
    lineNetwork lineA = lineSwitch lineA [lineB] [(33, lineB, lineA), (42, lineB, lineB)] :=
  if_pos rfl

theorem lineNetwork_B :
    lineNetwork lineB = lineSwitch lineB [lineA, lineC] [(33, lineA, lineB),
      (42, lineC, lineB)] := by
  rw [lineNetwork, if_neg (by decide), if_pos rfl]

theorem lineNetwork_C : lineNetwork lineC = lineSwitch lineC [lineB] [(42, lineB, lineC)] := by
  rw [lineNetwork, if_neg (by decide), if_neg (by decide)]

theorem mem_line {x : VID} : x ∈ ({lineA, lineB, lineC} : Finset VID) ↔
    x = lineA ∨ x = lineB ∨ x = lineC := by
  simp only [Finset.mem_insert, Finset.mem_singleton]

theorem line_switchVid : ∀ x ∈ ({lineA, lineB, lineC} : Finset VID), x.IsSwitchVID := by
  intro x inside
  rcases mem_line.mp inside with rfl | rfl | rfl <;> decide

theorem lineSwitch_lookup (x : VID) (neighbors : List VID) (routes : List (Nat × VID × VID))
    (n : VID) :
    (lineSwitch x neighbors routes).neighbors.lookup n =
      if n ∈ neighbors then some ⟨n, x, x⟩ else none :=
  HashTable.lookup_insertAll _ _ _ _

theorem lineSwitch_knows (x : VID) (neighbors : List VID) (routes : List (Nat × VID × VID))
    (n : VID) :
    (lineSwitch x neighbors routes).neighbors.Knows n ↔ n ∈ neighbors := by
  simp only [NeighborTable.Knows, lineSwitch_lookup]
  constructor
  · rintro ⟨mac, entry, found, rfl⟩
    split at found
    · cases found
      assumption
    · cases found
  · intro member
    exact ⟨n, ⟨n, x, x⟩, if_pos member, rfl⟩

theorem lineSwitch_over (x : VID) (neighbors : List VID) (routes : List (Nat × VID × VID)) :
    (lineSwitch x neighbors routes).neighbors.Over x := by
  intro mac entry found
  rw [lineSwitch_lookup] at found
  split at found
  · cases found
    rfl
  · cases found

theorem lineNetwork_neighbors {x : VID} (inside : x ∈ ({lineA, lineB, lineC} : Finset VID))
    (n : VID) :
    (lineNetwork x).neighbors.Knows n ↔
      n ∈ ({lineA, lineB, lineC} : Finset VID) ∧ lineAdjacent x n := by
  have apart : lineA ≠ lineB ∧ lineA ≠ lineC ∧ lineB ≠ lineC := by decide
  obtain ⟨first, second, third⟩ := apart
  rw [mem_line]
  rcases mem_line.mp inside with rfl | rfl | rfl
  · rw [lineNetwork_A, lineSwitch_knows]
    simp only [lineAdjacent, List.mem_cons, Prod.mk.injEq, List.not_mem_nil, or_false]
    tauto
  · rw [lineNetwork_B, lineSwitch_knows]
    simp only [lineAdjacent, List.mem_cons, Prod.mk.injEq, List.not_mem_nil, or_false]
    tauto
  · rw [lineNetwork_C, lineSwitch_knows]
    simp only [lineAdjacent, List.mem_cons, Prod.mk.injEq, List.not_mem_nil, or_false]
    tauto

theorem lineAdjacent_iff {x y : VID} : lineAdjacent x y ↔
    x = lineA ∧ y = lineB ∨ x = lineB ∧ y = lineA ∨ x = lineB ∧ y = lineC ∨
      x = lineC ∧ y = lineB := by
  simp only [lineAdjacent, List.mem_cons, Prod.mk.injEq, List.not_mem_nil, or_false]

theorem lineDistances : lineA.logicalDistance lineB = 33 ∧ lineA.logicalDistance lineC = 42 ∧
    lineB.logicalDistance lineC = 42 ∧ lineB.logicalDistance lineA = 33 ∧
    lineC.logicalDistance lineA = 42 ∧ lineC.logicalDistance lineB = 42 := by decide

theorem lineRoutes : (lineNetwork lineA).routes.defaultRoute 0 33 = some (lineB, lineA) ∧
    (lineNetwork lineA).routes.defaultRoute 0 42 = some (lineB, lineB) ∧
    (lineNetwork lineB).routes.defaultRoute 0 33 = some (lineA, lineB) ∧
    (lineNetwork lineB).routes.defaultRoute 0 42 = some (lineC, lineB) ∧
    (lineNetwork lineC).routes.defaultRoute 0 42 = some (lineB, lineC) := by decide +kernel

theorem line_prefixes (vid : VID) (level : Nat) :
    ConnectedWithin lineAdjacent (SamePrefix {lineA, lineB, lineC} vid level) := by
  have tree := VID.logicalDistance_isTreeDistance
  obtain ⟨ab, ac, -⟩ := lineDistances
  intro source target sourceInside targetInside
  have step {x y : VID} (edge : lineAdjacent x y)
      (left : SamePrefix {lineA, lineB, lineC} vid level x)
      (right : SamePrefix {lineA, lineB, lineC} vid level y) :
      Relation.ReflTransGen (fun left right => lineAdjacent left right ∧
        SamePrefix {lineA, lineB, lineC} vid level left ∧
        SamePrefix {lineA, lineB, lineC} vid level right) x y := .single ⟨edge, left, right⟩
  have middle (first : SamePrefix {lineA, lineB, lineC} vid level lineA)
      (last : SamePrefix {lineA, lineB, lineC} vid level lineC) :
      SamePrefix {lineA, lineB, lineC} vid level lineB := by
    rw [samePrefix_iff] at first last ⊢
    have across := tree.le_max lineA vid lineC
    have near := tree.le_max vid lineA lineB
    rw [tree.comm lineA vid] at across
    exact ⟨by decide, by omega⟩
  rcases mem_line.mp sourceInside.1 with rfl | rfl | rfl <;>
    rcases mem_line.mp targetInside.1 with rfl | rfl | rfl
  · exact .refl
  · exact step (by simp [lineAdjacent_iff]) sourceInside targetInside
  · have between := middle sourceInside targetInside
    exact (step (by simp [lineAdjacent_iff]) sourceInside between).trans
      (step (by simp [lineAdjacent_iff]) between targetInside)
  · exact step (by simp [lineAdjacent_iff]) sourceInside targetInside
  · exact .refl
  · exact step (by simp [lineAdjacent_iff]) sourceInside targetInside
  · have between := middle targetInside sourceInside
    exact (step (by simp [lineAdjacent_iff]) sourceInside between).trans
      (step (by simp [lineAdjacent_iff]) between targetInside)
  · exact step (by simp [lineAdjacent_iff]) sourceInside targetInside
  · exact .refl

theorem lineNetwork_interfaces {x : VID} (inside : x ∈ ({lineA, lineB, lineC} : Finset VID)) :
    (lineNetwork x).interfaces.IsSingle x := by
  rcases mem_line.mp inside with rfl | rfl | rfl
  · rw [lineNetwork_A]
    exact InterfaceTable.single_isSingle _ _
  · rw [lineNetwork_B]
    exact InterfaceTable.single_isSingle _ _
  · rw [lineNetwork_C]
    exact InterfaceTable.single_isSingle _ _

theorem lineNetwork_over {x : VID} (inside : x ∈ ({lineA, lineB, lineC} : Finset VID)) :
    (lineNetwork x).neighbors.Over x := by
  rcases mem_line.mp inside with rfl | rfl | rfl
  · rw [lineNetwork_A]
    exact lineSwitch_over _ _ _
  · rw [lineNetwork_B]
    exact lineSwitch_over _ _ _
  · rw [lineNetwork_C]
    exact lineSwitch_over _ _ _

theorem lineNetwork_converged : Converged lineNetwork {lineA, lineB, lineC} lineAdjacent where
  switchVid := line_switchVid
  symmetric := by
    intro x y edge
    rw [lineAdjacent_iff] at edge ⊢
    tauto
  prefixes := line_prefixes
  interface := fun _ inside => lineNetwork_interfaces inside
  neighbors := fun _ inside n => lineNetwork_neighbors inside n
  attached := fun _ inside => lineNetwork_over inside
  direct := by
    rintro x - k ⟨n, nInside, edge, rfl⟩
    obtain ⟨ab, ac, bc, ba, ca, cb⟩ := lineDistances
    obtain ⟨routeAB, routeAC, routeBA, routeBC, routeC⟩ := lineRoutes
    refine ⟨n, nInside, edge, rfl, ?_⟩
    rcases lineAdjacent_iff.mp edge with ⟨rfl, rfl⟩ | ⟨rfl, rfl⟩ | ⟨rfl, rfl⟩ | ⟨rfl, rfl⟩
    · rw [ab, routeAB]
    · rw [ba, routeBA]
    · rw [bc, routeBC]
    · rw [cb, routeC]
  indirect := by
    rintro x inside k ⟨y, yInside, rfl⟩ none g closest
    have tree := VID.logicalDistance_isTreeDistance
    obtain ⟨ab, ac, bc, ba, ca, cb⟩ := lineDistances
    obtain ⟨routeAB, routeAC, -⟩ := lineRoutes
    have alone (neighbor : lineAdjacent x y) : False := none y yInside neighbor rfl
    have different : x ≠ y := by
      rintro rfl
      have below := closest.gateway.near
      rw [tree.self] at below
      exact Nat.not_lt_zero _ below
    rw [lineAdjacent_iff] at alone
    have ends : x = lineA ∧ y = lineC := by
      rcases mem_line.mp inside with rfl | rfl | rfl <;>
        rcases mem_line.mp yInside with rfl | rfl | rfl
      · exact (different rfl).elim
      · exact (alone (by simp)).elim
      · exact ⟨rfl, rfl⟩
      · exact (alone (by simp)).elim
      · exact (different rfl).elim
      · exact (alone (by simp)).elim
      · exact (none lineB (by decide) (by simp [lineAdjacent_iff]) (by rw [ca, cb])).elim
      · exact (alone (by simp)).elim
      · exact (different rfl).elim
    obtain ⟨rfl, rfl⟩ := ends
    obtain rfl : g = lineB := by
      obtain ⟨gInside, near, n, -, edge, away⟩ := closest.gateway
      rcases mem_line.mp gInside with rfl | rfl | rfl
      · rcases lineAdjacent_iff.mp edge with
          ⟨-, rfl⟩ | ⟨impossible, -⟩ | ⟨impossible, -⟩ | ⟨impossible, -⟩
        · omega
        all_goals exact absurd impossible (by decide)
      · rfl
      · omega
    refine ⟨lineB, lineA, ?_, by rw [ac, routeAC]⟩
    rw [RouteTable.getRouteDefault_of_single (lineNetwork_interfaces inside) (by omega), ab,
      routeAB]

theorem delivery_line :
    ∃ path, Path (fun source next => next ∈ ({lineA, lineB, lineC} : Finset VID) ∧
      lineAdjacent source next ∧ Hop lineNetwork lineC source next) lineC lineA path ∧ path.Nodup :=
  Converged.delivery lineNetwork_converged (by decide) (by decide)

end Forwarding

end Veil
