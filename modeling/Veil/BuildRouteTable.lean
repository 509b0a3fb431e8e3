import Veil.NeighborTable
import Veil.Rendezvous

/-! The periodic round of a switch, from `buildroutetable.cc`: routes to the physical neighbours and
between its own interfaces, then a query for every level of the tree. -/

namespace Veil

namespace BuildRouteTable

def rdvPublish (myinterface nexthop : VID) (i : Nat) : Frame where
  dhost := myinterface.calculateRdvPoint i
  shost := myinterface
  etherType := etherTypeVeil
  svid := myinterface
  dvid := myinterface.calculateRdvPoint i
  veilType := veilRdvPublish
  ttl := maxTtl
  optional := 0
  payload := rdvPublishPayload i nexthop
  reroute := false
  port := 0

def rdvQuery (myinterface : VID) (i : Nat) : Frame where
  dhost := myinterface.calculateRdvPoint i
  shost := myinterface
  etherType := etherTypeVeil
  svid := myinterface
  dvid := myinterface.calculateRdvPoint i
  veilType := veilRdvQuery
  ttl := maxTtl
  optional := 0
  payload := rdvQueryPayload i
  reroute := false
  port := 0

def queryLevels : List Nat :=
  List.range' (hostLen * 8 + 1) (activeVidLen * 8 - hostLen * 8)

end BuildRouteTable

structure BuildRouteTable where
  neighbors : NeighborTable
  routes : RouteTable
  interfaces : InterfaceTable

namespace BuildRouteTable

/-- Whether the interface `vid` has its VID set. Reading a VID that is no interface any more
stores it with index zero, and an index without a mark is stored as not set. -/
def readSet (interfaces : InterfaceTable) (vid : VID) : InterfaceTable × Bool :=
  let interfaces := match interfaces.interfaces.lookup vid with
    | some _ => interfaces
    | none => { interfaces with interfaces := interfaces.interfaces.insert vid 0 }
  let i := (interfaces.interfaces.lookup vid).getD 0
  match interfaces.isvidset.lookup i with
  | some isset => (interfaces, isset)
  | none => ({ interfaces with isvidset := interfaces.isvidset.insert i false }, false)

def announce (tables : BuildRouteTable) (sent : List Frame) (myinterface nexthop : VID) :
    BuildRouteTable × List Frame :=
  let ldist := nexthop.logicalDistance myinterface
  if ldist = 0 then (tables, sent)
  else
    ({ tables with
        routes :=
          tables.routes.updateEntry tables.interfaces myinterface ldist nexthop myinterface true },
      sent ++ [rdvPublish myinterface nexthop ldist])

def visitNeighbor (state : BuildRouteTable × List Frame) (nte : NeighborTableEntry) :
    BuildRouteTable × List Frame :=
  let (interfaces, isset) := readSet state.1.interfaces nte.myVid
  let tables := { state.1 with interfaces }
  if isset then tables.announce state.2 nte.myVid nte.neighborVID else (tables, state.2)

def visitInterface (state : BuildRouteTable × List Frame) (int1 : VID) :
    BuildRouteTable × List Frame :=
  let (interfaces, isset) := readSet state.1.interfaces int1
  let tables := { state.1 with interfaces }
  if isset then
    interfaces.interfaces.keys.foldl (fun state int2 => state.1.announce state.2 int1 int2)
      (tables, state.2)
  else (tables, state.2)

def queryInterface (state : BuildRouteTable × List Frame) (myinterface : VID) :
    BuildRouteTable × List Frame :=
  let (interfaces, isset) := readSet state.1.interfaces myinterface
  ({ state.1 with interfaces },
    if isset then state.2 ++ queryLevels.map (rdvQuery myinterface) else state.2)

def runTimer (tables : BuildRouteTable) : BuildRouteTable × List Frame :=
  if tables.interfaces.isVIDAssignmentDone then
    let state := (tables.neighbors.entries.map (·.2)).foldl visitNeighbor (tables, [])
    let state := state.1.interfaces.interfaces.keys.foldl visitInterface state
    state.1.interfaces.interfaces.keys.foldl queryInterface state
  else (tables, [])

theorem mem_queryLevels (level : Nat) : level ∈ queryLevels ↔ 17 ≤ level ∧ level ≤ 32 := by
  simp only [queryLevels, List.mem_range'_1, hostLen, activeVidLen]
  omega

def Marked (interfaces : InterfaceTable) (vid : VID) : Prop :=
  ∃ i, interfaces.interfaces.lookup vid = some i ∧ interfaces.isvidset.lookup i = some true

theorem readSet_of_marked {interfaces : InterfaceTable} {vid : VID}
    (marked : Marked interfaces vid) :
    readSet interfaces vid = (interfaces, true) := by
  obtain ⟨i, found, mark⟩ := marked
  unfold readSet
  rw [found]
  dsimp only
  rw [found, Option.getD_some, mark]

def Announces (tables : BuildRouteTable) (myinterface nexthop : VID) : Prop :=
  (∃ mac nte, tables.neighbors.lookup mac = some nte ∧ nte.myVid = myinterface ∧
    nte.neighborVID = nexthop) ∨
  (∃ i j, tables.interfaces.interfaces.lookup myinterface = some i ∧
    tables.interfaces.interfaces.lookup nexthop = some j)

theorem runTimer_invariant {tables : BuildRouteTable} (holds : RouteTable → Prop)
    (marked : ∀ vid i, tables.interfaces.interfaces.lookup vid = some i →
      tables.interfaces.isvidset.lookup i = some true)
    (attached : tables.interfaces.isVIDAssignmentDone = true → ∀ mac nte,
      tables.neighbors.lookup mac = some nte → Marked tables.interfaces nte.myVid)
    (kept : ∀ routes myinterface nexthop, tables.Announces myinterface nexthop →
      nexthop.logicalDistance myinterface ≠ 0 → holds routes →
      holds (routes.updateEntry tables.interfaces myinterface (nexthop.logicalDistance myinterface)
        nexthop myinterface true))
    (before : holds tables.routes) :
    tables.runTimer.1.interfaces = tables.interfaces ∧
      tables.runTimer.1.neighbors = tables.neighbors ∧ holds tables.runTimer.1.routes := by
  let Kept (state : BuildRouteTable × List Frame) : Prop :=
    state.1.interfaces = tables.interfaces ∧ state.1.neighbors = tables.neighbors ∧
      holds state.1.routes
  have announced (state : BuildRouteTable × List Frame) (steady : Kept state)
      {myinterface nexthop : VID} (heard : tables.Announces myinterface nexthop) :
      Kept (state.1.announce state.2 myinterface nexthop) := by
    obtain ⟨sameInterfaces, sameNeighbors, routes⟩ := steady
    simp only [announce]
    split
    · exact ⟨sameInterfaces, sameNeighbors, routes⟩
    · rename_i apart
      refine ⟨sameInterfaces, sameNeighbors, ?_⟩
      dsimp only
      rw [sameInterfaces]
      exact kept _ _ _ heard apart routes
  have stored (vid : VID) (key : vid ∈ tables.interfaces.interfaces.keys) :
      ∃ i, tables.interfaces.interfaces.lookup vid = some i :=
    (HashTable.mem_iff_lookup _ vid).mp (AList.mem_keys.mpr key)
  have markedKey (vid : VID) (key : vid ∈ tables.interfaces.interfaces.keys) :
      Marked tables.interfaces vid := by
    obtain ⟨i, found⟩ := stored vid key
    exact ⟨i, found, marked vid i found⟩
  have neighborWalk (done : tables.interfaces.isVIDAssignmentDone = true) :
      Kept ((tables.neighbors.entries.map (·.2)).foldl visitNeighbor (tables, [])) := by
    refine List.foldlRecOn _ _ ⟨rfl, rfl, before⟩ ?_
    intro state steady nte visited
    obtain ⟨⟨mac, entry⟩, member, rfl⟩ := List.mem_map.mp visited
    have found : tables.neighbors.lookup mac = some entry := AList.mem_lookup_iff.mpr member
    simp only [visitNeighbor, steady.1, readSet_of_marked (attached done mac entry found), if_true]
    exact announced ({ state.1 with interfaces := tables.interfaces }, state.2) ⟨rfl, steady.2⟩
      (Or.inl ⟨mac, entry, found, rfl, rfl⟩)
  have interfaceWalk (state : BuildRouteTable × List Frame) (steady : Kept state) :
      Kept (state.1.interfaces.interfaces.keys.foldl visitInterface state) := by
    rw [steady.1]
    refine List.foldlRecOn _ _ steady ?_
    intro state steady int1 key
    simp only [visitInterface, steady.1, readSet_of_marked (markedKey int1 key), if_true]
    refine List.foldlRecOn _ _
      (show Kept ({ state.1 with interfaces := tables.interfaces }, state.2)
      from ⟨rfl, steady.2⟩) ?_
    intro inner steady int2 other
    obtain ⟨i, found⟩ := stored int1 key
    obtain ⟨j, reached⟩ := stored int2 other
    exact announced inner steady (Or.inr ⟨i, j, found, reached⟩)
  have queryWalk (state : BuildRouteTable × List Frame) (steady : Kept state) :
      Kept (state.1.interfaces.interfaces.keys.foldl queryInterface state) := by
    rw [steady.1]
    refine List.foldlRecOn _ _ steady ?_
    intro state steady myinterface key
    simp only [queryInterface, steady.1, readSet_of_marked (markedKey myinterface key), if_true]
    exact ⟨rfl, steady.2⟩
  rw [runTimer]
  split
  · rename_i done
    exact queryWalk _ (interfaceWalk _ (neighborWalk done))
  · exact ⟨rfl, rfl, before⟩

/-- What reading marks may do to the tables of the interfaces: entries are added, none is
changed. -/
structure Extends (before after : InterfaceTable) : Prop where
  rinterfaces : after.rinterfaces = before.rinterfaces
  marks : ∀ i, after.isvidset.lookup i = some true ↔ before.isvidset.lookup i = some true
  found : ∀ vid, (before.interfaces.lookup vid).isSome → (after.interfaces.lookup vid).isSome

theorem Extends.refl (interfaces : InterfaceTable) : Extends interfaces interfaces :=
  ⟨rfl, fun _ => Iff.rfl, fun _ present => present⟩

theorem Extends.trans {first second third : InterfaceTable} (earlier : Extends first second)
    (later : Extends second third) : Extends first third :=
  ⟨later.rinterfaces.trans earlier.rinterfaces, fun i => (later.marks i).trans (earlier.marks i),
    fun vid present => later.found vid (earlier.found vid present)⟩

theorem readSet_extends (interfaces : InterfaceTable) (vid : VID) :
    Extends interfaces (readSet interfaces vid).1 ∧
      ((readSet interfaces vid).1.interfaces.lookup vid).isSome := by
  have stored : Extends interfaces { interfaces with
      interfaces := interfaces.interfaces.insert vid 0 } := by
    refine ⟨rfl, fun _ => Iff.rfl, fun other present => ?_⟩
    rw [HashTable.lookup_insert_ite]
    split
    · rfl
    · exact present
  have marked (table : InterfaceTable) (i : Nat) (missing : table.isvidset.lookup i = none) :
      Extends table { table with isvidset := table.isvidset.insert i false } := by
    refine ⟨rfl, fun other => ?_, fun _ present => present⟩
    rw [HashTable.lookup_insert_ite]
    split
    · rename_i same
      subst other
      rw [missing]
      exact iff_of_false nofun nofun
    · rfl
  have read (table : InterfaceTable) (present : (table.interfaces.lookup vid).isSome) :
      let i := (table.interfaces.lookup vid).getD 0
      let result : InterfaceTable × Bool := match table.isvidset.lookup i with
        | some isset => (table, isset)
        | none => ({ table with isvidset := table.isvidset.insert i false }, false)
      Extends table result.1 ∧ (result.1.interfaces.lookup vid).isSome := by
    dsimp only
    split
    · exact ⟨.refl table, present⟩
    · rename_i missing
      exact ⟨marked table _ missing, present⟩
  unfold readSet
  cases known : interfaces.interfaces.lookup vid with
  | some i => exact read interfaces (by simp [known])
  | none =>
      have after := read { interfaces with interfaces := interfaces.interfaces.insert vid 0 }
        (by simp)
      exact ⟨stored.trans after.1, after.2⟩

theorem announce_interfaces (tables : BuildRouteTable) (sent : List Frame)
    (myinterface nexthop : VID) :
    (tables.announce sent myinterface nexthop).1.interfaces = tables.interfaces := by
  simp only [announce]
  split <;> rfl

theorem foldl_extends {α : Type}
    (visit : BuildRouteTable × List Frame → α → BuildRouteTable × List Frame)
    (extended : ∀ state entry, Extends state.1.interfaces (visit state entry).1.interfaces)
    (entries : List α) (state : BuildRouteTable × List Frame) :
    Extends state.1.interfaces (entries.foldl visit state).1.interfaces := by
  induction entries generalizing state with
  | nil => exact .refl _
  | cons entry rest ih => exact (extended state entry).trans (ih (visit state entry))

theorem visitNeighbor_extends (state : BuildRouteTable × List Frame) (nte : NeighborTableEntry) :
    Extends state.1.interfaces (visitNeighbor state nte).1.interfaces ∧
      ((visitNeighbor state nte).1.interfaces.interfaces.lookup nte.myVid).isSome := by
  have read := readSet_extends state.1.interfaces nte.myVid
  simp only [visitNeighbor]
  split
  · rw [announce_interfaces]
    exact read
  · exact read

theorem visitInterface_extends (state : BuildRouteTable × List Frame) (int1 : VID) :
    Extends state.1.interfaces (visitInterface state int1).1.interfaces := by
  have read := (readSet_extends state.1.interfaces int1).1
  simp only [visitInterface]
  split
  · refine read.trans
      (foldl_extends _ (fun inner int2 => ?_) _ ({ state.1 with interfaces := _ }, state.2))
    rw [announce_interfaces]
    exact .refl _
  · exact read

theorem runTimer_extends {tables : BuildRouteTable}
    (done : tables.interfaces.isVIDAssignmentDone = true) :
    Extends tables.interfaces tables.runTimer.1.interfaces ∧ ∀ mac nte,
      tables.neighbors.lookup mac = some nte →
        (tables.runTimer.1.interfaces.interfaces.lookup nte.myVid).isSome := by
  have walk (entries : List NeighborTableEntry) (state : BuildRouteTable × List Frame) :
      Extends state.1.interfaces (entries.foldl visitNeighbor state).1.interfaces ∧
        ∀ nte ∈ entries, ((entries.foldl visitNeighbor state).1.interfaces.interfaces.lookup
          nte.myVid).isSome := by
    induction entries generalizing state with
    | nil => exact ⟨.refl _, nofun⟩
    | cons nte rest ih =>
        have first := visitNeighbor_extends state nte
        have later := ih (visitNeighbor state nte)
        refine ⟨first.1.trans later.1, List.forall_mem_cons.mpr ⟨?_, later.2⟩⟩
        exact later.1.found nte.myVid first.2
  have visited := walk (tables.neighbors.entries.map (·.2)) (tables, [])
  have remaining (state : BuildRouteTable × List Frame) :=
    foldl_extends visitInterface visitInterface_extends state.1.interfaces.interfaces.keys state
  have queried (state : BuildRouteTable × List Frame) :=
    foldl_extends queryInterface (fun inner myinterface =>
      (readSet_extends inner.1.interfaces myinterface).1) state.1.interfaces.interfaces.keys state
  have rest :=
    (remaining ((tables.neighbors.entries.map (·.2)).foldl visitNeighbor (tables, []))).trans
    (queried _)
  rw [runTimer, if_pos done]
  refine ⟨visited.1.trans rest, fun mac nte found => rest.found nte.myVid (visited.2 nte ?_)⟩
  exact List.mem_map.mpr ⟨⟨mac, nte⟩, AList.mem_lookup_iff.mp found, rfl⟩

structure Attached (tables : BuildRouteTable) : Prop where
  interfaces : ∀ vid i, tables.interfaces.interfaces.lookup vid = some i →
    tables.interfaces.isvidset.lookup i = some true
  neighbors : ∀ mac nte, tables.neighbors.lookup mac = some nte → Marked tables.interfaces nte.myVid

def announcements (tables : BuildRouteTable) : List (VID × VID) :=
  (tables.neighbors.entries.map fun entry => (entry.2.myVid, entry.2.neighborVID)) ++
    tables.interfaces.interfaces.keys.flatMap fun int1 =>
      tables.interfaces.interfaces.keys.map fun int2 => (int1, int2)

def announceRoute (interfaces : InterfaceTable) (routes : RouteTable) (pair : VID × VID) :
    RouteTable :=
  routes.updateEntry interfaces pair.1 (pair.2.logicalDistance pair.1) pair.2 pair.1 true

def apart (pairs : List (VID × VID)) : List (VID × VID) :=
  pairs.filter fun pair => pair.2.logicalDistance pair.1 ≠ 0

theorem foldl_announce (pairs : List (VID × VID)) (tables : BuildRouteTable) (sent : List Frame) :
    pairs.foldl (fun state pair => state.1.announce state.2 pair.1 pair.2) (tables, sent) =
      ({ tables with
          routes := (apart pairs).foldl (announceRoute tables.interfaces) tables.routes },
        sent ++ (apart pairs).map fun pair =>
          rdvPublish pair.1 pair.2 (pair.2.logicalDistance pair.1)) := by
  induction pairs generalizing tables sent with
  | nil => simp only [apart, List.foldl_nil, List.filter_nil, List.map_nil, List.append_nil]
  | cons pair rest ih =>
      rw [List.foldl_cons, announce]
      by_cases zero : pair.2.logicalDistance pair.1 = 0
      · have dropped : apart (pair :: rest) = apart rest := List.filter_cons_of_neg (by simp [zero])
        rw [if_pos zero, ih, dropped]
      · have kept : apart (pair :: rest) = pair :: apart rest :=
          List.filter_cons_of_pos (by simp [zero])
        rw [if_neg zero, ih, kept, List.foldl_cons, List.map_cons, List.append_assoc,
          List.singleton_append, announceRoute]

theorem mem_apart {pairs : List (VID × VID)} {pair : VID × VID} :
    pair ∈ apart pairs ↔ pair ∈ pairs ∧ pair.2.logicalDistance pair.1 ≠ 0 := by
  rw [apart, List.mem_filter, decide_eq_true_iff]

theorem announces_of_mem {tables : BuildRouteTable} {pair : VID × VID}
    (visited : pair ∈ tables.announcements) :
    tables.Announces pair.1 pair.2 := by
  rcases List.mem_append.mp visited with neighbor | own
  · obtain ⟨⟨mac, nte⟩, member, rfl⟩ := List.mem_map.mp neighbor
    exact Or.inl ⟨mac, nte, AList.mem_lookup_iff.mpr member, rfl, rfl⟩
  · obtain ⟨int1, first, inner⟩ := List.mem_flatMap.mp own
    obtain ⟨int2, second, rfl⟩ := List.mem_map.mp inner
    obtain ⟨i, found⟩ := (HashTable.mem_iff_lookup _ int1).mp (AList.mem_keys.mpr first)
    obtain ⟨j, reached⟩ := (HashTable.mem_iff_lookup _ int2).mp (AList.mem_keys.mpr second)
    exact Or.inr ⟨i, j, found, reached⟩

theorem runTimer_eq {tables : BuildRouteTable} (attached : tables.Attached)
    (done : tables.interfaces.isVIDAssignmentDone = true) :
    tables.runTimer =
      ({ tables with
          routes := (apart tables.announcements).foldl (announceRoute tables.interfaces)
            tables.routes },
        (apart tables.announcements).map (fun pair =>
          rdvPublish pair.1 pair.2 (pair.2.logicalDistance pair.1)) ++
        tables.interfaces.interfaces.keys.flatMap fun vid => queryLevels.map (rdvQuery vid)) := by
  have markedKey (vid : VID) (key : vid ∈ tables.interfaces.interfaces.keys) :
      Marked tables.interfaces vid := by
    obtain ⟨i, found⟩ := (HashTable.mem_iff_lookup _ vid).mp (AList.mem_keys.mpr key)
    exact ⟨i, found, attached.interfaces vid i found⟩
  -- as long as the marks are set, reading them leaves the interfaces alone
  have visitNeighbors (entries : List NeighborTableEntry) (state : BuildRouteTable × List Frame)
      (same : state.1.interfaces = tables.interfaces)
      (marked : ∀ nte ∈ entries, Marked tables.interfaces nte.myVid) :
      entries.foldl visitNeighbor state =
          (entries.map fun nte => (nte.myVid, nte.neighborVID)).foldl
        (fun state pair => state.1.announce state.2 pair.1 pair.2) state := by
    induction entries generalizing state with
    | nil => rfl
    | cons nte rest ih =>
        have visit : visitNeighbor state nte =
            state.1.announce state.2 nte.myVid nte.neighborVID := by
          rw [visitNeighbor, same, readSet_of_marked (marked nte List.mem_cons_self), ← same]
          rfl
        rw [List.foldl_cons, List.map_cons, List.foldl_cons, visit]
        exact ih _ ((announce_interfaces ..).trans same) fun other later =>
          marked other (List.mem_cons_of_mem _ later)
  have visitInterfaces (keys : List VID) (state : BuildRouteTable × List Frame)
      (same : state.1.interfaces = tables.interfaces)
      (marked : ∀ vid ∈ keys, Marked tables.interfaces vid) :
      keys.foldl visitInterface state = (keys.flatMap fun int1 =>
        tables.interfaces.interfaces.keys.map fun int2 => (int1, int2)).foldl
          (fun state pair => state.1.announce state.2 pair.1 pair.2) state := by
    induction keys generalizing state with
    | nil => rfl
    | cons vid rest ih =>
        have visit : visitInterface state vid = (tables.interfaces.interfaces.keys.map fun int2 =>
            (vid, int2)).foldl (fun state pair =>
              state.1.announce state.2 pair.1 pair.2) state := by
          rw [visitInterface, same, readSet_of_marked (marked vid List.mem_cons_self),
            List.foldl_map,
            ← same]
          rfl
        rw [List.foldl_cons, List.flatMap_cons, List.foldl_append, visit]
        refine ih _ ?_ fun other later => marked other (List.mem_cons_of_mem _ later)
        rw [foldl_announce]
        exact same
  have queryInterfaces (keys : List VID) (state : BuildRouteTable × List Frame)
      (same : state.1.interfaces = tables.interfaces)
      (marked : ∀ vid ∈ keys, Marked tables.interfaces vid) :
      keys.foldl queryInterface state =
        (state.1, state.2 ++ keys.flatMap fun vid => queryLevels.map (rdvQuery vid)) := by
    induction keys generalizing state with
    | nil => rw [List.foldl_nil, List.flatMap_nil, List.append_nil]
    | cons vid rest ih =>
        have visit : queryInterface state vid =
            (state.1, state.2 ++ queryLevels.map (rdvQuery vid)) := by
          rw [queryInterface, same, readSet_of_marked (marked vid List.mem_cons_self), ← same]
          rfl
        rw [List.foldl_cons, List.flatMap_cons, visit,
          ih (state.1, state.2 ++ queryLevels.map (rdvQuery vid)) same fun other later =>
            marked other (List.mem_cons_of_mem _ later), List.append_assoc]
  rw [runTimer, if_pos done]
  dsimp only
  rw [visitNeighbors _ (tables, []) rfl fun nte member => by
    obtain ⟨⟨mac, entry⟩, stored, rfl⟩ := List.mem_map.mp member
    exact attached.neighbors mac entry (AList.mem_lookup_iff.mpr stored)]
  rw [List.map_map, foldl_announce, visitInterfaces _ _ rfl markedKey, foldl_announce,
    queryInterfaces _ _ rfl markedKey]
  simp only [announcements, apart, List.filter_append, List.foldl_append, List.map_append,
    List.nil_append, Function.comp_def]

end BuildRouteTable

end Veil
