import Veil.ControlWalk

/-! What a round of a switch with one interface writes and sends, and what the answer to a query
writes, for its default routes. -/

namespace Veil

open GatewayRouting

/-- A network in which every switch has one interface, with its VID, its links are the same both
ways, and the code's own limits hold: the levels that a round queries, the hops that a packet
lives for, and the number of edges that a rendezvous point can count. -/
structure ControlNetwork.Planned (net : ControlNetwork VID) (switches : Finset VID)
    (adjacent : VID → VID → Prop) : Prop where
  layout : Forwarding.Layout switches adjacent
  apart : ∀ x, ¬adjacent x x
  interface : ∀ x ∈ switches, (net.interfaces x).IsSingle x
  absent : ∀ x vid i, (net.interfaces x).interfaces.lookup vid = some i → x ∈ switches
  marked : ∀ x ∈ switches, (net.interfaces x).isvidset.lookup 0 = some true
  done : ∀ x ∈ switches, (net.interfaces x).isVIDAssignmentDone = true
  wire : ∀ x ∈ switches, ∀ place, place ∈ net.wire x 0 ↔
    place.1 ∈ switches ∧ adjacent x place.1 ∧ place.2 = 0
  queried : ∀ x ∈ switches, ∀ y ∈ switches, x.logicalDistance y ≤ activeVidLen * 8
  short : ∀ path : List VID, path.Nodup → path.IsChain adjacent → (∀ v ∈ path, v ∈ switches) →
    path.length ≤ maxTtl.toNat
  counted : ∀ x ∈ switches, ∀ k, ∀ edges : List RendezvousEdge, edges.Nodup →
    (∀ edge ∈ edges, edge.src ∈ switches ∧ edge.dest ∈ switches ∧ adjacent edge.src edge.dest ∧
      RendezvousTable.qualifies k x edge) → edges.length < 256

def NeighborTable.lastNeighbor (table : NeighborTable) (x : VID) (level : Nat) : Option VID :=
  (table.entries.map (·.2.neighborVID)).reverse.find? fun n => n.logicalDistance x == level

namespace ControlNetwork

open Forwarding (Layout Chooses Ideal Nearest Heading Trail SameContent Stray)

variable {net : ControlNetwork VID} {switches : Finset VID} {adjacent : VID → VID → Prop}

section Static

variable (planned : net.Planned switches adjacent)
include planned

theorem Planned.owns_iff {x v : VID} : net.Owns x v ↔ v = x ∧ x ∈ switches := by
  constructor
  · rintro ⟨i, own⟩
    have inside := planned.absent x v i own
    exact ⟨((planned.interface x inside).interfaces v i |>.mp own).1, inside⟩
  · rintro ⟨rfl, inside⟩
    exact ⟨0, (planned.interface v inside).interfaces v 0 |>.mpr ⟨rfl, rfl⟩⟩

theorem Planned.wired {x v n : VID} (wired : net.Wired x v n) :
    v = x ∧ x ∈ switches ∧ n ∈ switches ∧ adjacent x n := by
  obtain ⟨i, t, j, own, other, heard⟩ := wired
  obtain ⟨rfl, inside⟩ := planned.owns_iff.mp ⟨i, own⟩
  obtain ⟨rfl, -⟩ := planned.owns_iff.mp ⟨j, other⟩
  obtain rfl := ((planned.interface v inside).interfaces v i |>.mp own).2
  obtain ⟨member, edge, -⟩ := (planned.wire v inside (n, j)).mp heard
  exact ⟨rfl, inside, member, edge⟩

theorem Planned.link {v n : VID} (link : net.Link v n) (apart : v ≠ n) :
    v ∈ switches ∧ n ∈ switches ∧ adjacent v n := by
  obtain ⟨x, wired | ⟨own, other⟩⟩ := link
  · obtain ⟨rfl, inside, member, edge⟩ := planned.wired wired
    exact ⟨inside, member, edge⟩
  · exact absurd ((planned.owns_iff.mp own).1.trans (planned.owns_iff.mp other).1.symm) apart

theorem Planned.assigned : net.Assigned where
  marked := by
    intro x vid i own
    obtain ⟨rfl, inside⟩ := planned.owns_iff.mp ⟨i, own⟩
    obtain rfl := ((planned.interface vid inside).interfaces vid i |>.mp own).2
    exact planned.marked vid inside
  switchVid := by
    intro x vid i own
    obtain ⟨rfl, inside⟩ := planned.owns_iff.mp ⟨i, own⟩
    exact planned.layout.switchVid vid inside

theorem Planned.lookupVidEntry {x vid : VID} (inside : x ∈ switches) :
    ((net.interfaces x).lookupVidEntry vid).1 = true ↔ vid = x := by
  constructor
  · intro known
    rw [InterfaceTable.lookupVidEntry] at known
    split at known
    · rename_i i found
      exact ((planned.interface x inside).interfaces vid i |>.mp found).1
    · cases known
  · rintro rfl
    rw [(planned.interface vid inside).lookupVidEntry_self]

theorem Planned.accepts_iff {x : VID} (inside : x ∈ switches) {frame : Frame} :
    ProcessRDV.accepts (net.interfaces x) frame ↔ frame.dhost = x ∧ frame.dvid = x := by
  rw [ProcessRDV.accepts, Bool.and_eq_true, planned.lookupVidEntry inside,
    planned.lookupVidEntry inside]

end Static

section Rounds

variable {x : VID} {interfaces : InterfaceTable} (one : interfaces.IsSingle x)
include one

theorem keys_of_single : interfaces.interfaces.keys = [x] := by
  have members (vid : VID) : vid ∈ interfaces.interfaces.keys ↔ vid = x := by
    rw [← AList.mem_keys, HashTable.mem_iff_lookup]
    constructor
    · rintro ⟨i, found⟩
      exact ((one.interfaces vid i).mp found).1
    · rintro rfl
      exact ⟨0, (one.interfaces vid 0).mpr ⟨rfl, rfl⟩⟩
  refine List.perm_singleton.mp
    ((List.perm_ext_iff_of_nodup ?_ (List.nodup_singleton x)).mpr fun vid =>
    (members vid).trans List.mem_singleton.symm)
  exact AList.keys_nodup interfaces.interfaces

theorem defaultRoute_announced {pairs : List (VID × VID)} (own : ∀ pair ∈ pairs, pair.1 = x)
    (routes : RouteTable) (j : Nat) :
    (pairs.foldl (BuildRouteTable.announceRoute interfaces) routes).defaultRoute 0 j =
      (((pairs.map (·.2)).reverse.find? fun n => n.logicalDistance x == j).map fun n => (n, x)).or
        (routes.defaultRoute 0 j) := by
  induction pairs using List.reverseRecOn with
  | nil => rfl
  | append_singleton earlier pair ih =>
      have before := ih fun other member => own other (List.mem_append_left _ member)
      obtain ⟨v, n⟩ := pair
      obtain rfl : v = x := own (v, n) (List.mem_append_right _ List.mem_cons_self)
      have found := (one.interfaces v 0).mpr ⟨rfl, rfl⟩
      rw [List.foldl_append, List.foldl_cons, List.foldl_nil, BuildRouteTable.announceRoute,
        RouteTable.defaultRoute_updateEntry found, before, List.map_append, List.reverse_append]
      by_cases level : j = n.logicalDistance v
      · simp [level]
      · simp [level, Ne.symm level]

end Rounds

theorem Planned.announcements {x : VID} (planned : net.Planned switches adjacent)
    (inside : x ∈ switches) {tables : ControlSwitch} (truthful : net.Truthful x tables) :
    BuildRouteTable.apart tables.builder.announcements =
      BuildRouteTable.apart
        (tables.neighbors.entries.map fun entry => (x, entry.2.neighborVID)) := by
  have tree := VID.logicalDistance_isTreeDistance
  have attached : (tables.neighbors.entries.map fun entry => (entry.2.myVid, entry.2.neighborVID)) =
      tables.neighbors.entries.map fun entry => (x, entry.2.neighborVID) := by
    refine List.map_congr_left fun entry member => ?_
    have wired := truthful.neighbors entry.1 entry.2 (AList.mem_lookup_iff.mpr member)
    rw [(planned.wired wired).1]
  have keys : tables.builder.interfaces.interfaces.keys = [x] := by
    rw [ControlSwitch.builder, truthful.interfaces]
    exact keys_of_single (planned.interface x inside)
  rw [BuildRouteTable.announcements, keys]
  simp [BuildRouteTable.apart, ControlSwitch.builder, attached, tree.self]

theorem rdvQuery_level (x : VID) {level : Nat} (listed : level ∈ BuildRouteTable.queryLevels) :
    ((BuildRouteTable.rdvQuery x level).byteAt 0).toNat = level := by
  have high := ((BuildRouteTable.mem_queryLevels level).mp listed).2
  have carried : (BuildRouteTable.rdvQuery x level).byteAt 0 = BitVec.ofNat 8 level := rfl
  rw [carried, BitVec.toNat_ofNat, Nat.mod_eq_of_lt (by omega)]

structure Rounded (x : VID) (tables : ControlSwitch) (after : BuildRouteTable) (sent : List Frame) :
    Prop where
  interfaces : after.interfaces = tables.interfaces
  neighbors : after.neighbors = tables.neighbors
  routes : ∀ j ≠ 0, after.routes.defaultRoute 0 j =
    ((tables.neighbors.lastNeighbor x j).map fun n => (n, x)).or (tables.routes.defaultRoute 0 j)
  frames : ∀ frame ∈ sent, (∃ n, tables.neighbors.Knows n ∧ x.logicalDistance n ≠ 0 ∧
    frame = BuildRouteTable.rdvPublish x n (x.logicalDistance n)) ∨
      ∃ level ∈ BuildRouteTable.queryLevels, frame = BuildRouteTable.rdvQuery x level
  publishes : ∀ n, tables.neighbors.Knows n → x.logicalDistance n ≠ 0 →
    BuildRouteTable.rdvPublish x n (x.logicalDistance n) ∈ sent
  queries : ∀ level ∈ BuildRouteTable.queryLevels, BuildRouteTable.rdvQuery x level ∈ sent

theorem Planned.rounded {x : VID} (planned : net.Planned switches adjacent) (inside : x ∈ switches)
    {tables : ControlSwitch} (truthful : net.Truthful x tables) :
    Rounded x tables tables.builder.runTimer.1 tables.builder.runTimer.2 := by
  have tree := VID.logicalDistance_isTreeDistance
  have done : tables.builder.interfaces.isVIDAssignmentDone = true := by
    rw [ControlSwitch.builder, truthful.interfaces]
    exact planned.done x inside
  have one : tables.builder.interfaces.IsSingle x := by
    rw [ControlSwitch.builder, truthful.interfaces]
    exact planned.interface x inside
  have visited {n : VID} : (x, n) ∈ BuildRouteTable.apart
      (tables.neighbors.entries.map fun entry => (x, entry.2.neighborVID)) ↔
        tables.neighbors.Knows n ∧ x.logicalDistance n ≠ 0 := by
    rw [BuildRouteTable.mem_apart, tree.comm n x]
    refine and_congr_left fun _ => ⟨fun member => ?_, fun known => ?_⟩
    · obtain ⟨⟨mac, entry⟩, stored, same⟩ := List.mem_map.mp member
      exact ⟨mac, entry, AList.mem_lookup_iff.mpr stored, (Prod.mk.inj same).2⟩
    · obtain ⟨mac, entry, found, named⟩ := known
      exact List.mem_map.mpr ⟨⟨mac, entry⟩, AList.mem_lookup_iff.mp found, by rw [named]⟩
  have firsts {pair : VID × VID} (member : pair ∈ BuildRouteTable.apart
      (tables.neighbors.entries.map fun entry => (x, entry.2.neighborVID))) : pair.1 = x := by
    obtain ⟨entry, -, rfl⟩ := List.mem_map.mp (BuildRouteTable.mem_apart.mp member).1
    rfl
  have keys := keys_of_single one
  rw [BuildRouteTable.runTimer_eq (truthful.attached planned.assigned) done,
    planned.announcements inside truthful, keys]
  refine ⟨rfl, rfl, fun j positive => ?_, fun frame member => ?_, fun n known apart => ?_,
    fun level listed => ?_⟩
  · have named (ns : List VID) : (BuildRouteTable.apart (ns.map fun n => (x, n))).map (·.2) =
        ns.filter fun n => n.logicalDistance x ≠ 0 := by
      rw [BuildRouteTable.apart, List.filter_map, List.map_map]
      exact List.map_id _
    have asked : (fun n : VID => decide (decide (n.logicalDistance x ≠ 0) = true ∧
        (n.logicalDistance x == j) = true)) = fun n => n.logicalDistance x == j := by
      funext n
      by_cases level : n.logicalDistance x = j
      · simp [level, positive]
      · simp [level]
    have pairs : (tables.neighbors.entries.map fun entry => (x, entry.2.neighborVID)) =
        (tables.neighbors.entries.map (·.2.neighborVID)).map fun n => (x, n) := by
      rw [List.map_map]
      rfl
    rw [defaultRoute_announced one (fun _ => firsts), pairs, named, NeighborTable.lastNeighbor,
      ← List.filter_reverse, List.find?_filter, asked]
    rfl
  · rcases List.mem_append.mp member with published | queried
    · obtain ⟨⟨v, n⟩, announced, rfl⟩ := List.mem_map.mp published
      obtain rfl : v = x := firsts announced
      obtain ⟨known, apart⟩ := visited.mp announced
      exact Or.inl ⟨n, known, apart, by rw [tree.comm n v]⟩
    · rw [List.flatMap_singleton] at queried
      obtain ⟨level, listed, rfl⟩ := List.mem_map.mp queried
      exact Or.inr ⟨level, listed, rfl⟩
  · refine List.mem_append_left _ (List.mem_map.mpr ⟨(x, n), visited.mpr ⟨known, apart⟩, ?_⟩)
    rw [tree.comm n x]
  · refine List.mem_append_right _ ?_
    rw [List.flatMap_singleton]
    exact List.mem_map_of_mem listed

theorem find?_set_of_neg {α : Type} {p : α → Bool} {entries : List α} {j : Nat} {value : α}
    (old : ∀ entry, entries[j]? = some entry → p entry = false) (new : p value = false) :
    (entries.set j value).find? p = entries.find? p := by
  induction entries generalizing j with
  | nil => rfl
  | cons entry rest ih =>
      cases j with
      | zero =>
          rw [List.set_cons_zero, List.find?_cons_of_neg (by simp [new]),
            List.find?_cons_of_neg (by simp [old entry rfl])]
      | succ j =>
          rw [List.set_cons_succ, List.find?_cons, List.find?_cons,
            ih fun other found => old other found]

theorem defaultEntry_addAlternate (bucket : Bucket) (nexthop gateway : VID) :
    (bucket.addAlternate nexthop gateway).defaultEntry = bucket.defaultEntry := by
  rw [Bucket.addAlternate]
  split
  · rename_i j free
    rw [Bucket.defaultEntry, Bucket.defaultEntry, Vector.toList_setIfInBounds]
    refine find?_set_of_neg (fun entry found => ?_) rfl
    obtain ⟨inside, invalid, -⟩ := List.findIdx?_eq_some_iff_getElem.mp free
    rw [List.getElem?_eq_getElem inside, Option.some.injEq] at found
    subst entry
    rw [Bool.not_eq_true'] at invalid
    rw [invalid, Bool.false_and]
  · rfl

theorem defaultRoute_alternate {interfaces : InterfaceTable} {x : VID} (one : interfaces.IsSingle x)
    (routes : RouteTable) (b : Nat) (nh g : VID) (level : Nat) :
    (routes.updateEntry interfaces x b nh g false).defaultRoute 0 level =
      routes.defaultRoute 0 level := by
  have found := (one.interfaces x 0).mpr ⟨rfl, rfl⟩
  rw [RouteTable.defaultRoute, RouteTable.defaultRoute, RouteTable.updateEntry, found]
  dsimp only
  rw [RouteTable.bucket?_setBucket]
  split
  · rename_i same
    rw [same.2, Option.bind_some, if_neg (by decide), defaultEntry_addAlternate]
    cases routes.bucket? 0 b with
    | none => rfl
    | some bucket => rfl
  · rfl

theorem defaultRoute_learnGateway {interfaces : InterfaceTable} {x : VID}
    (one : interfaces.IsSingle x) {frame : Frame} (own : frame.dvid = x) (routes : RouteTable)
    {j : Nat} (later : j ≠ 0) (level : Nat) :
    (ProcessRDV.learnGateway interfaces frame routes j).defaultRoute 0 level =
      routes.defaultRoute 0 level := by
  have alternate : (j == 0) = false := beq_false_of_ne later
  simp only [ProcessRDV.learnGateway, own, alternate]
  split
  · split
    · exact defaultRoute_alternate one routes _ _ _ level
    · rfl
  · rfl

theorem defaultRoute_learned {interfaces : InterfaceTable} {x : VID} (one : interfaces.IsSingle x)
    {frame : Frame} (own : frame.dvid = x) (routes : RouteTable) (count level : Nat) :
    ((List.range count).foldl (ProcessRDV.learnGateway interfaces frame)
        routes).defaultRoute 0 level =
      if 0 < count then (ProcessRDV.learnGateway interfaces frame routes 0).defaultRoute 0 level
      else routes.defaultRoute 0 level := by
  induction count with
  | zero => rfl
  | succ count ih =>
      rw [List.range_succ, List.foldl_append, List.foldl_cons, List.foldl_nil,
        if_pos (Nat.succ_pos count)]
      cases count with
      | zero => rfl
      | succ count =>
          rw [defaultRoute_learnGateway one own _ (Nat.succ_ne_zero count), ih,
            if_pos (Nat.succ_pos count)]

theorem defaultRoute_learned_first {interfaces : InterfaceTable} {x : VID}
    (one : interfaces.IsSingle x) {frame : Frame} (own : frame.dvid = x) (routes : RouteTable)
    (level : Nat) :
    (ProcessRDV.learnGateway interfaces frame routes 0).defaultRoute 0 level =
      if 16 < x.logicalDistance (frame.switchVidAt 2) ∧ level = (frame.byteAt 0).toNat then
        ((routes.defaultRoute 0 (x.logicalDistance (frame.switchVidAt 2))).map
          fun hop => (hop.1, frame.switchVidAt 2)).or (routes.defaultRoute 0 level)
      else routes.defaultRoute 0 level := by
  have known := (one.interfaces x 0).mpr ⟨rfl, rfl⟩
  simp only [ProcessRDV.learnGateway, own, Nat.mul_zero, Nat.add_zero, beq_self_eq_true]
  by_cases far : 16 < x.logicalDistance (frame.switchVidAt 2)
  · rw [if_pos far, RouteTable.getRouteDefault_of_single one far]
    cases found : routes.defaultRoute 0 (x.logicalDistance (frame.switchVidAt 2)) with
    | none => simp
    | some hop =>
        obtain ⟨nh, gw⟩ := hop
        dsimp only
        rw [RouteTable.defaultRoute_updateEntry known]
        by_cases same : level = (frame.byteAt 0).toNat
        · rw [if_pos same, if_pos ⟨far, same⟩]
          rfl
        · rw [if_neg same, if_neg fun both => same both.2]
  · rw [if_neg far, if_neg fun both => far both.1]

theorem defaultRoute_learned_of_ne {interfaces : InterfaceTable} {x : VID}
    (one : interfaces.IsSingle x) {frame : Frame} (own : frame.dvid = x) (routes : RouteTable)
    (count : Nat) {level : Nat} (other : level ≠ (frame.byteAt 0).toNat) :
    ((List.range count).foldl (ProcessRDV.learnGateway interfaces frame)
        routes).defaultRoute 0 level =
      routes.defaultRoute 0 level := by
  rw [defaultRoute_learned one own]
  split
  · rw [defaultRoute_learned_first one own, if_neg fun both => other both.2]
  · rfl

end ControlNetwork

end Veil
