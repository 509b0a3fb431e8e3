import Veil.SimJava.TableUpdate

/-! The routing table of a Java switch in every order of its updates, deletions and expiries:
which routes it can hold, and that each leads to a neighbour. -/

namespace Veil

namespace SimJava

/-- What happens to the table, with the times that the clock shows. The list of an update is what
the edges of a rendezvous switch give for the level that `k_str` spells. -/
inductive TableOperation
  | rtBuilder (clock : Nat → Int)
  | updateRTEntry (clock : Nat → Int) (edges : RdvTable) (k_str : List Char)
  | delEntry (time : Int) (entry : TimedEntry Vid)
  | delNexthop (time : Int) (nexthop : Vid)
  | checkEntryExpire (curTime : Int)

namespace RoutingSwitch

variable {Pid : Type} [DecidableEq Pid]

/-- A call of `updateRTEntry` with the digits of a list, if the list is there. -/
def answered (node : RoutingSwitch Pid) (clock : Nat → Int) (edges : RdvTable) (k_str : List Char) :
    TimedTable Vid :=
  match parseInt 10 k_str, edges.findEntry (localHex 4 node.veil_ID.bits) k_str with
  | some bucket, some gwList =>
      if gwList = [] then node.rTable else (node.updateRTEntry clock (localHex 12 gwList) bucket).2
  | _, _ => node.rTable

/-- An exception leaves the table as it is then. -/
def apply (node : RoutingSwitch Pid) : TableOperation → RoutingSwitch Pid
  | .rtBuilder clock => node.rtBuilder clock
  | .updateRTEntry clock edges k_str => { node with rTable := node.answered clock edges k_str }
  | .delEntry time entry => { node with rTable := node.rTable.delEntry time entry }
  | .delNexthop time nexthop =>
      match node.rTable.delNexthop time nexthop with
      | none => node
      | some (_, rTable) => { node with rTable }
  | .checkEntryExpire curTime =>
      match node.rTable.checkEntryExpire curTime with
      | none => node
      | some (_, rTable) => { node with rTable }

/-- Before `RTbuilder` has looked for the VIDs of the neighbours. -/
def start (veil_ID : Vid) (pids : List Pid) (vid_hosts : List (Pid × Vid)) : RoutingSwitch Pid where
  veil_ID
  adj_hosts := pids.map fun pid => (pid, none)
  vid_hosts
  rTable := []

def run (node : RoutingSwitch Pid) (operations : List TableOperation) : RoutingSwitch Pid :=
  operations.foldl apply node

/-- `targetPhysID` of `sendPacket`: a neighbour without a VID throws, and `notset` ends the
process. -/
def targetPhysID : List (Pid × Option Vid) → Vid → Option (Option Pid)
  | [], _ => some none
  | (_, none) :: _, _ => none
  | (pid, some vid) :: rest, nexthop =>
      if vid = nexthop then some (some pid) else targetPhysID rest nexthop

/-! ### Routes -/

section Routes

variable (veil_ID : Vid) (pids : List Pid) (vid_hosts : List (Pid × Vid))

/-- A route of bucket, nexthop and gateway. Only those of the switch itself cross the level. -/
structure IsRoute (route : Nat × Vid × Vid) : Prop where
  neighbor : ∃ pid ∈ pids, findVid vid_hosts pid none = some route.2.1
  near : veil_ID.distance route.2.2 < route.1
  reach : veil_ID.distance route.2.1 ≤ route.1
  own : veil_ID.distance route.2.1 = route.1 ↔ route.2.2 = veil_ID

structure IsRouting (rTable : TimedTable Vid) : Prop where
  ordered : rTable.Ordered
  routes : ∀ route ∈ rTable.map TimedEntry.key, IsRoute veil_ID pids vid_hosts route

def located : List (Pid × Option Vid) := pids.map fun pid => (pid, findVid vid_hosts pid none)

def Apart : Prop := ∀ pid ∈ pids, ∃ vid, findVid vid_hosts pid none = some vid ∧ vid ≠ veil_ID

structure Sound (node : RoutingSwitch Pid) : Prop where
  switch : node.veil_ID = veil_ID
  hosts : node.vid_hosts = vid_hosts
  neighbors : node.adj_hosts = located pids vid_hosts ∨
    node.adj_hosts = pids.map (fun pid => (pid, none)) ∧ node.rTable = []
  routing : IsRouting veil_ID pids vid_hosts node.rTable

end Routes

variable {veil_ID : Vid} {pids : List Pid} {vid_hosts : List (Pid × Vid)}

theorem IsRouting.nil : IsRouting veil_ID pids vid_hosts [] where
  ordered := ⟨.nil, fun _ => Nat.zero_le 3, .nil⟩
  routes := fun _ member => absurd member List.not_mem_nil

theorem IsRouting.addEntry {rTable : TimedTable Vid}
    (routing : IsRouting veil_ID pids vid_hosts rTable) (time : Int) {newEntry : TimedEntry Vid}
    (route : IsRoute veil_ID pids vid_hosts newEntry.key) :
    IsRouting veil_ID pids vid_hosts (rTable.addEntry time newEntry) where
  ordered := routing.ordered.addEntry time newEntry
  routes := fun other member => by
    rcases TimedTable.mem_keys_addEntry.mp member with old | ⟨rfl, -⟩
    · exact routing.routes other old
    · exact route

theorem IsRouting.sublist {rTable other : TimedTable Vid}
    (routing : IsRouting veil_ID pids vid_hosts rTable) (fewer : other.Sublist rTable) :
    IsRouting veil_ID pids vid_hosts other where
  ordered := routing.ordered.sublist fewer
  routes := fun route member => routing.routes route ((fewer.map TimedEntry.key).subset member)

theorem findVid_eq (vid_hosts : List (Pid × Vid)) (pid : Pid) (before : Option Vid) :
    findVid vid_hosts pid before = (findVid vid_hosts pid none).or before := by
  induction vid_hosts generalizing before with
  | nil => rfl
  | cons host vid_hosts ih =>
      have step (before : Option Vid) : findVid (host :: vid_hosts) pid before =
          findVid vid_hosts pid (if host.1 = pid then some host.2 else before) := rfl
      rw [step, step, ih, ih (if host.1 = pid then some host.2 else none), Option.or_assoc]
      congr 1
      split
      · rfl
      · rfl

theorem findVid_of_some {pid : Pid} {vid : Vid} (found : findVid vid_hosts pid none = some vid)
    (before : Option Vid) : findVid vid_hosts pid before = some vid := by
  rw [findVid_eq, found]
  rfl

/-! ### The neighbours -/

theorem buildFrom_sound {node : RoutingSwitch Pid} (clock : Nat → Int)
    {rows : List (Pid × Option Vid)}
    (apart : ∀ row ∈ rows, row.1 ∈ pids ∧ ∃ vid, findVid node.vid_hosts row.1 none = some vid ∧
      vid ≠ node.veil_ID)
    (adj_vid : Option Vid) {rTable : TimedTable Vid}
    (routing : IsRouting node.veil_ID pids node.vid_hosts rTable) :
    let built := node.buildFrom clock rows adj_vid rTable
    built.1 = rows.map (fun row => (row.1, findVid node.vid_hosts row.1 none)) ∧
      IsRouting node.veil_ID pids node.vid_hosts built.2.1 := by
  induction rows generalizing adj_vid rTable with
  | nil => exact ⟨rfl, routing⟩
  | cons row rest ih =>
      obtain ⟨pid, before⟩ := row
      obtain ⟨inside, vid, found, differs⟩ := apart (pid, before) List.mem_cons_self
      have far : 1 ≤ node.veil_ID.distance vid := Vid.isTreeDistance.pos_iff.mpr (Ne.symm differs)
      have route : IsRoute node.veil_ID pids node.vid_hosts
          (⟨node.veil_ID.distance vid, vid, node.veil_ID, 0⟩ : TimedEntry Vid).key := by
        refine ⟨⟨pid, inside, found⟩, ?_, Nat.le_refl _, iff_of_true rfl rfl⟩
        exact (Vid.isTreeDistance.self node.veil_ID).trans_lt far
      obtain ⟨rows_after, routing_after⟩ :=
        ih (fun other member => apart other (List.mem_cons_of_mem _ member))
        (some vid) (routing.addEntry (clock rest.length) route)
      rw [buildFrom, findVid_of_some found, findVid_of_some found]
      dsimp only at rows_after routing_after ⊢
      rw [if_pos far]
      dsimp only
      rw [rows_after, List.map_cons, found]
      exact ⟨rfl, routing_after⟩

theorem Sound.rows {node : RoutingSwitch Pid} (sound : Sound veil_ID pids vid_hosts node) :
    node.adj_hosts.map Prod.fst = pids := by
  rcases sound.neighbors with known | ⟨fresh, -⟩
  · rw [known, located, List.map_map]
    exact List.map_id'' (fun _ => rfl) pids
  · rw [fresh, List.map_map]
    exact List.map_id'' (fun _ => rfl) pids

theorem Sound.rtBuilder {node : RoutingSwitch Pid} (sound : Sound veil_ID pids vid_hosts node)
    (apart : Apart veil_ID pids vid_hosts) (clock : Nat → Int) :
    Sound veil_ID pids vid_hosts (node.rtBuilder clock) := by
  obtain rfl := sound.switch
  obtain rfl := sound.hosts
  have rows := sound.rows
  have each : ∀ row ∈ node.adj_hosts, row.1 ∈ pids ∧
      ∃ vid, findVid node.vid_hosts row.1 none = some vid ∧ vid ≠ node.veil_ID :=
        fun row member => by
    have inside : row.1 ∈ pids := by
      rw [← rows]
      exact List.mem_map_of_mem member
    exact ⟨inside, apart row.1 inside⟩
  obtain ⟨found, routing⟩ := buildFrom_sound clock each none sound.routing
  refine ⟨rfl, rfl, Or.inl ?_, routing⟩
  rw [located, ← rows, List.map_map]
  exact found

/-! ### Updates -/

def slotsOf (gateways : List Vid) : List (Option Vid) :=
  (gateways.take 3).map some ++ List.replicate (3 - gateways.length) none

omit [DecidableEq Pid] in
theorem lists_padded {node : RoutingSwitch Pid} {gateways : List Vid} {bucket : Nat}
    (some_gateway : gateways ≠ [])
    (read : ∀ gateway ∈ gateways, gateway.high = false ∧ node.veil_ID.distance gateway < bucket) :
    node.Lists (localHex 12 (RdvTable.padded gateways)) bucket (slotsOf gateways) where
  spelled := by
    have front : List.Forall₂ Spells ((gateways.take 3).map fun gateway => localHex 4 gateway.bits)
        ((gateways.take 3).map some) := by
      rw [List.forall₂_map_left_iff, List.forall₂_map_right_iff, List.forall₂_same]
      intro gateway member
      exact ⟨length_localHex 4 _, vidOfHex_localHex (read gateway (List.mem_of_mem_take member)).1⟩
    have back (count : Nat) :
        List.Forall₂ Spells (List.replicate count (localHex 4 (List.replicate 32 true)))
        (List.replicate count none) := by
      have ones : Spells (localHex 4 (List.replicate 32 true)) none :=
        ⟨length_localHex 4 _, by decide +kernel⟩
      induction count with
      | zero => exact .nil
      | succ count ih => exact .cons ones ih
    refine ⟨(RdvTable.blocks gateways).map (localHex 4), RdvTable.localHex_padded some_gateway, ?_⟩
    rw [RdvTable.blocks, List.map_append, List.map_map, List.map_replicate, slotsOf]
    exact List.rel_append front (back _)
  three := by
    rw [slotsOf, List.length_append, List.length_map, List.length_take, List.length_replicate]
    omega
  near := fun gateway member => by
    rcases List.mem_append.mp member with front | back
    · obtain ⟨other, inside, same⟩ := List.mem_map.mp front
      cases same
      exact (read gateway (List.mem_of_mem_take inside)).2
    · exact absurd (List.mem_replicate.mp back).2 (Option.some_ne_none gateway)

omit [DecidableEq Pid] in
theorem ownNexthop_spec {node : RoutingSwitch Pid} {bucket : Nat} {rows : List (Pid × Option Vid)}
    {nexthop : Vid} (found : (node.ownNexthop bucket rows).join = some nexthop) :
    node.veil_ID.distance nexthop = bucket ∧ ∃ pid, (pid, some nexthop) ∈ rows := by
  induction rows with
  | nil => cases found
  | cons row rest ih =>
      obtain ⟨pid, vid⟩ := row
      cases vid with
      | none => cases found
      | some vid =>
          rw [ownNexthop] at found
          split at found
          · rename_i level
            cases found
            exact ⟨level.symm, pid, List.mem_cons_self⟩
          · obtain ⟨level, other, member⟩ := ih found
            exact ⟨level, other, List.mem_cons_of_mem _ member⟩

def Rows (pids : List Pid) (vid_hosts : List (Pid × Vid)) (rows : List (Pid × Option Vid)) : Prop :=
  ∀ pid vid, (pid, some vid) ∈ rows → pid ∈ pids ∧ findVid vid_hosts pid none = some vid

/-- A nexthop of a neighbour at the level is for the switch itself, and one that is copied from a
lower bucket does not cross the level. -/
theorem route_of_nexthop {node : RoutingSwitch Pid} {bucket : Nat} {rTable : TimedTable Vid}
    {gateway nexthop : Vid} (rows : Rows pids vid_hosts node.adj_hosts)
    (routing : IsRouting node.veil_ID pids vid_hosts rTable)
    (near : node.veil_ID.distance gateway < bucket)
    (found : (node.nexthopFor bucket rTable gateway).join = some nexthop) :
    IsRoute node.veil_ID pids vid_hosts (bucket, nexthop, gateway) := by
  have tree := Vid.isTreeDistance
  rw [nexthopFor] at found
  by_cases self : node.veil_ID.distance gateway = 0
  · rw [if_pos self] at found
    obtain ⟨level, pid, member⟩ := ownNexthop_spec found
    obtain ⟨inside, name⟩ := rows pid nexthop member
    exact ⟨⟨pid, inside, name⟩, near, Nat.le_of_eq level,
      iff_of_true level (tree.eq_zero_iff.mp self).symm⟩
  · rw [if_neg self, Option.join_some, TimedTable.firstNexthop_eq_keys] at found
    obtain ⟨route, first, rfl⟩ := Option.map_eq_some_iff.mp found
    have level : route.1 = node.veil_ID.distance gateway := by simpa using List.find?_some first
    obtain ⟨neighbor, -, reach, -⟩ := routing.routes route (List.mem_of_find?_eq_some first)
    have below : node.veil_ID.distance route.2.1 < bucket := Nat.lt_of_le_of_lt reach (level ▸ near)
    refine ⟨neighbor, near, Nat.le_of_lt below,
      iff_of_false (Nat.ne_of_lt below) fun same => self ?_⟩
    exact tree.eq_zero_iff.mpr same.symm

theorem install_routing {node : RoutingSwitch Pid} {bucket : Nat} {slots : List (Option Vid)}
    (rows : Rows pids vid_hosts node.adj_hosts)
    (near : ∀ gateway, some gateway ∈ slots → node.veil_ID.distance gateway < bucket)
    (clock : Nat → Int) (ij : Nat) {rTable : TimedTable Vid}
    (routing : IsRouting node.veil_ID pids vid_hosts rTable) :
    IsRouting node.veil_ID pids vid_hosts (node.install clock bucket ij slots rTable) := by
  induction slots generalizing ij rTable with
  | nil => exact routing
  | cons slot slots ih =>
      have later := fun gateway member => near gateway (List.mem_cons_of_mem _ member)
      cases slot with
      | none => exact ih later (ij + 1) routing
      | some gateway =>
          rw [install]
          split
          · exact routing
          · rename_i nexthop found
            have route := route_of_nexthop rows routing (near gateway List.mem_cons_self) found
            exact ih later (ij + 1) (routing.addEntry (clock ij) route)

omit [DecidableEq Pid] in
theorem install_nil {node : RoutingSwitch Pid} (fresh : ∀ row ∈ node.adj_hosts, row.2 = none)
    (clock : Nat → Int) (bucket ij : Nat) (slots : List (Option Vid)) :
    node.install clock bucket ij slots [] = [] := by
  induction slots generalizing ij with
  | nil => rfl
  | cons slot slots ih =>
      cases slot with
      | none => exact ih (ij + 1)
      | some gateway =>
          rw [install]
          split
          · rfl
          · rename_i nexthop found
            rw [nexthopFor] at found
            split at found
            · obtain ⟨-, pid, member⟩ := ownNexthop_spec found
              exact absurd (fresh _ member) (Option.some_ne_none nexthop)
            · cases found

theorem rows_located (pids : List Pid) (vid_hosts : List (Pid × Vid)) :
    Rows pids vid_hosts (located pids vid_hosts) := by
  intro pid vid member
  obtain ⟨other, inside, same⟩ := List.mem_map.mp member
  obtain ⟨rfl, name⟩ := Prod.mk.inj same
  exact ⟨inside, name⟩

theorem Sound.answered {node : RoutingSwitch Pid} (sound : Sound veil_ID pids vid_hosts node)
    (clock : Nat → Int) (edges : RdvTable) (k_str : List Char) :
    Sound veil_ID pids vid_hosts { node with rTable := node.answered clock edges k_str } := by
  rw [RoutingSwitch.answered]
  split
  · rename_i bucket gwList level found
    obtain ⟨k, parsed, padded⟩ := RdvTable.findEntry_eq_padded found
    obtain rfl : bucket = k := Option.some.inj (level.symm.trans parsed)
    by_cases none : edges.nearEnds node.veil_ID bucket = []
    · rw [padded, none, RdvTable.padded, if_pos rfl, if_pos rfl]
      exact sound
    · have read : ∀ gateway ∈ edges.nearEnds node.veil_ID bucket,
          gateway.high = false ∧ node.veil_ID.distance gateway < bucket := fun gateway member =>
        have spec := RdvTable.mem_nearEnds_spec member
        ⟨spec.1, spec.2.1⟩
      obtain ⟨gateway, inside⟩ := List.exists_mem_of_ne_nil _ none
      obtain ⟨-, -, far, level⟩ := RdvTable.mem_nearEnds_spec inside
      have le_bits : bucket ≤ 32 := level ▸ Nat.sub_le 32 _
      have lists := lists_padded none read
      have filled : gwList ≠ [] := by
        rw [padded]
        exact List.ne_nil_of_length_pos
          (Nat.lt_of_lt_of_le (by decide) (RdvTable.take_padded none).1)
      rw [if_neg filled, padded, (updateRTEntry_eq clock lists le_bits).1]
      obtain ⟨rfl, rfl, neighbors, routing⟩ := sound
      refine ⟨rfl, rfl, ?_, ?_⟩
      · rcases neighbors with known | ⟨fresh, empty⟩
        · exact Or.inl known
        · refine Or.inr ⟨fresh, ?_⟩
          dsimp only
          rw [empty]
          refine install_nil (fun row member => ?_) clock bucket 0 _
          rw [fresh] at member
          obtain ⟨pid, -, rfl⟩ := List.mem_map.mp member
          rfl
      · refine install_routing ?_ lists.near clock 0 routing
        rcases neighbors with known | ⟨fresh, -⟩
        · rw [known]
          exact rows_located pids node.vid_hosts
        · intro pid vid member
          rw [fresh] at member
          obtain ⟨other, -, same⟩ := List.mem_map.mp member
          cases same
  · exact sound

theorem Sound.sublist {node : RoutingSwitch Pid} (sound : Sound veil_ID pids vid_hosts node)
    {rTable : TimedTable Vid} (fewer : rTable.Sublist node.rTable) :
    Sound veil_ID pids vid_hosts { node with rTable } where
  switch := sound.switch
  hosts := sound.hosts
  neighbors := by
    rcases sound.neighbors with known | ⟨fresh, empty⟩
    · exact Or.inl known
    · rw [empty] at fewer
      exact Or.inr ⟨fresh, List.sublist_nil.mp fewer⟩
  routing := sound.routing.sublist fewer

theorem Sound.apply {node : RoutingSwitch Pid} (sound : Sound veil_ID pids vid_hosts node)
    (apart : Apart veil_ID pids vid_hosts) (operation : TableOperation) :
    Sound veil_ID pids vid_hosts (node.apply operation) := by
  cases operation with
  | rtBuilder clock => exact sound.rtBuilder apart clock
  | updateRTEntry clock edges k_str => exact sound.answered clock edges k_str
  | delEntry time entry => exact sound.sublist (TimedTable.delEntry_sublist _ _ _)
  | delNexthop time nexthop =>
      obtain ⟨returned, after, deleted, fewer⟩ := node.rTable.delNexthop_sublist time nexthop
      rw [RoutingSwitch.apply, deleted]
      exact sound.sublist fewer
  | checkEntryExpire curTime =>
      rw [RoutingSwitch.apply, TimedTable.checkEntryExpire_eq]
      exact sound.sublist List.filter_sublist

theorem start_sound (veil_ID : Vid) (pids : List Pid) (vid_hosts : List (Pid × Vid)) :
    Sound veil_ID pids vid_hosts (start veil_ID pids vid_hosts) where
  switch := rfl
  hosts := rfl
  neighbors := Or.inr ⟨rfl, rfl⟩
  routing := .nil

theorem Sound.run {node : RoutingSwitch Pid} (sound : Sound veil_ID pids vid_hosts node)
    (apart : Apart veil_ID pids vid_hosts) (operations : List TableOperation) :
    Sound veil_ID pids vid_hosts (node.run operations) := by
  induction operations generalizing node with
  | nil => exact sound
  | cons operation operations ih => exact ih (sound.apply apart operation)

/-! ### Every run -/

theorem targetPhysID_located (apart : Apart veil_ID pids vid_hosts) {nexthop : Vid}
    (neighbor : ∃ pid ∈ pids, findVid vid_hosts pid none = some nexthop) :
    ∃ pid ∈ pids, targetPhysID (located pids vid_hosts) nexthop = some (some pid) := by
  induction pids with
  | nil =>
      obtain ⟨pid, absent, -⟩ := neighbor
      exact absurd absent List.not_mem_nil
  | cons first rest ih =>
      obtain ⟨vid, found, -⟩ := apart first List.mem_cons_self
      have later : Apart veil_ID rest vid_hosts :=
        fun pid member => apart pid (List.mem_cons_of_mem _ member)
      rw [located, List.map_cons, found, targetPhysID, ← located]
      by_cases here : vid = nexthop
      · rw [if_pos here]
        exact ⟨first, List.mem_cons_self, rfl⟩
      · rw [if_neg here]
        obtain ⟨pid, member, name⟩ := neighbor
        rcases List.mem_cons.mp member with rfl | behind
        · exact absurd (Option.some.inj (found.symm.trans name)) here
        · obtain ⟨target, inside, resolved⟩ := ih later ⟨pid, behind, name⟩
          exact ⟨target, List.mem_cons_of_mem _ inside, resolved⟩

/-- In every run the table is sorted by bucket, with at most three entries in each and no two that
are equal. Every entry leads to a neighbour, towards a gateway nearer than its bucket. -/
theorem run_routing (veil_ID : Vid) (pids : List Pid) (vid_hosts : List (Pid × Vid))
    (apart : Apart veil_ID pids vid_hosts) (operations : List TableOperation) :
    let node := (start veil_ID pids vid_hosts).run operations
    node.rTable.Ordered ∧ ∀ entry ∈ node.rTable,
      (∃ pid ∈ pids, findVid vid_hosts pid none = some entry.nexthop) ∧
      (∃ pid ∈ pids, targetPhysID node.adj_hosts entry.nexthop = some (some pid)) ∧
      veil_ID.distance entry.gateway < entry.bucket ∧
        veil_ID.distance entry.nexthop ≤ entry.bucket ∧
      (veil_ID.distance entry.nexthop = entry.bucket ↔ entry.gateway = veil_ID) := by
  have sound := (start_sound veil_ID pids vid_hosts).run apart operations
  refine ⟨sound.routing.ordered, fun entry member => ?_⟩
  obtain ⟨neighbor, near, reach, own⟩ := sound.routing.routes entry.key (List.mem_map_of_mem member)
  refine ⟨neighbor, ?_, near, reach, own⟩
  rcases sound.neighbors with known | ⟨-, empty⟩
  · rw [known]
    exact targetPhysID_located apart neighbor
  · rw [empty] at member
    exact absurd member List.not_mem_nil

/-- The switch `0` with its neighbour `1`, which it enters, loses and finds again, and which is
the gateway to two levels. The route to the lower one expires. -/
def pairRun : List TableOperation :=
  [.rtBuilder fun _ => 0,
    .updateRTEntry (fun _ => 5) [⟨localHex 4 (Vid.ofNat 1).bits,
      localHex 4 (Vid.ofNat 2).bits⟩] ['2'],
    .delNexthop 7 (Vid.ofNat 1), .rtBuilder fun _ => 9,
    .updateRTEntry (fun _ => 11) [⟨localHex 4 (Vid.ofNat 1).bits,
      localHex 4 (Vid.ofNat 4).bits⟩] ['3'],
    .checkEntryExpire 90007]

theorem run_routing_pair :
    let node := (start (Vid.ofNat 0) [1] pair.vid_hosts).run pairRun
    node.rTable = [⟨1, Vid.ofNat 1, Vid.ofNat 0, 9⟩, ⟨3, Vid.ofNat 1, Vid.ofNat 1, 11⟩] ∧
      node.rTable.Ordered ∧
      ∀ entry ∈ node.rTable, (Vid.ofNat 0).distance entry.gateway < entry.bucket ∧
        ((Vid.ofNat 0).distance entry.nexthop = entry.bucket ↔ entry.gateway = Vid.ofNat 0) := by
  have apart : Apart (Vid.ofNat 0) [1] pair.vid_hosts := fun pid member => by
    rw [List.mem_singleton.mp member]
    exact ⟨Vid.ofNat 1, rfl, by decide +kernel⟩
  obtain ⟨ordered, routes⟩ := run_routing (Vid.ofNat 0) [1] pair.vid_hosts apart pairRun
  refine ⟨by decide +kernel, ordered, fun entry member => ?_⟩
  obtain ⟨-, -, near, -, own⟩ := routes entry member
  exact ⟨near, own⟩

end RoutingSwitch

end SimJava

end Veil
