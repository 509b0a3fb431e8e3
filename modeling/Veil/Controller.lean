import Veil.Library.Transition
import Veil.UniqueVids

/-! The mappings of the controller between the switches and their VIDs, over whole runs of reports,
assignments and time. -/

namespace Veil

namespace NetworkTopo

open HashTable

structure OneToOne (topo : NetworkTopo) : Prop where
  distinct : ∀ mac other vid, topo.ether2vid.lookup mac = some vid →
    topo.ether2vid.lookup other = some vid → mac = other
  back : ∀ mac vid, topo.ether2vid.lookup mac = some vid → topo.vid2ether.lookup vid = some mac
  only : ∀ vid ∈ topo.vid2ether, ∃ mac, topo.ether2vid.lookup mac = some vid

theorem oneToOne_iff (topo : NetworkTopo) :
    topo.OneToOne ↔ IsInverse topo.ether2vid topo.vid2ether := by
  constructor
  · intro oneToOne mac vid
    refine ⟨oneToOne.back mac vid, fun found => ?_⟩
    obtain ⟨owner, given⟩ := oneToOne.only vid (mem_of_lookup found)
    rw [oneToOne.back owner vid given, Option.some.injEq] at found
    exact found ▸ given
  · intro inverse
    refine ⟨?_, fun mac vid => (inverse mac vid).mp, ?_⟩
    · intro mac other vid found otherFound
      rw [inverse] at found otherFound
      rw [found, Option.some.injEq] at otherFound
      exact otherFound
    · intro vid present
      obtain ⟨mac, found⟩ := (mem_iff_lookup _ _).mp present
      exact ⟨mac, (inverse mac vid).mpr found⟩

theorem processLocalTopo_mappings (topo : NetworkTopo) (now : Nat) (frame : Frame) :
    (topo.processLocalTopo now frame).ether2vid = topo.ether2vid ∧
      (topo.processLocalTopo now frame).vid2ether = topo.vid2ether := by
  have loop (neighbors : List EtherAddress) (learned : NetworkTopo) :
      (neighbors.foldl (fun topo neighmac =>
        ((topo.addAnEdge frame.svid neighmac).1.addAnEdge neighmac frame.svid).1)
            learned).ether2vid =
          learned.ether2vid ∧
      (neighbors.foldl (fun topo neighmac =>
        ((topo.addAnEdge frame.svid neighmac).1.addAnEdge neighmac frame.svid).1)
            learned).vid2ether =
          learned.vid2ether := by
    induction neighbors generalizing learned with
    | nil => exact ⟨rfl, rfl⟩
    | cons neighmac rest ih => exact ih _
  exact loop _ _

theorem OneToOne.forget {topo : NetworkTopo} (oneToOne : topo.OneToOne) (node : EtherAddress) :
    (topo.forget node).OneToOne := by
  rw [oneToOne_iff] at oneToOne ⊢
  simp only [NetworkTopo.forget]
  split
  · exact oneToOne
  · rename_i vid found
    exact oneToOne.erase found

theorem OneToOne.purge {topo : NetworkTopo} (oneToOne : topo.OneToOne) (now : Nat)
    (walk : List EtherAddress) : (topo.purge now walk).OneToOne := by
  rw [NetworkTopo.purge]
  induction walk generalizing topo with
  | nil => exact oneToOne
  | cons node rest ih =>
      rw [List.foldl_cons]
      split
      · exact ih (oneToOne.forget node)
      · exact ih oneToOne

theorem assign_same (state : NetworkTopo × Bool) (node : EtherAddress × List Bool)
    (same : state.1.ether2vid.lookup node.1 = some (convert node.2)) :
    (assign state node).1 = state.1 := by
  simp only [assign, same, ne_eq, not_true_eq_false, if_false]

theorem assign_new (state : NetworkTopo × Bool) (node : EtherAddress × List Bool)
    (absent : state.1.ether2vid.lookup node.1 = none) :
    (assign state node).1.ether2vid = state.1.ether2vid.insert node.1 (convert node.2) ∧
      (assign state node).1.vid2ether = state.1.vid2ether.insert (convert node.2) node.1 := by
  simp only [assign, absent, and_self]

def Settled (topo : NetworkTopo) (stored : EtherAddress → Prop) (name : EtherAddress → VID) :
    Prop :=
  ∀ mac vid, topo.ether2vid.lookup mac = some vid → stored mac ∧ name mac = vid

theorem OneToOne.assign {state : NetworkTopo × Bool} {stored : EtherAddress → Prop}
    {name : EtherAddress → VID}
    (distinct : ∀ mac other, stored mac → stored other → name mac = name other → mac = other)
    (oneToOne : state.1.OneToOne) (settled : state.1.Settled stored name)
    {node : EtherAddress × List Bool} (member : stored node.1)
    (spells : convert node.2 = name node.1) :
    (assign state node).1.OneToOne ∧ (NetworkTopo.assign state node).1.Settled stored name := by
  by_cases same : state.1.ether2vid.lookup node.1 = some (convert node.2)
  · rw [assign_same state node same]
    exact ⟨oneToOne, settled⟩
  · have absent : state.1.ether2vid.lookup node.1 = none := by
      cases found : state.1.ether2vid.lookup node.1 with
      | none => rfl
      | some old =>
          rw [found, (settled node.1 old found).2.symm, spells] at same
          exact (same rfl).elim
    refine ⟨?_, ?_⟩
    · rw [oneToOne_iff] at oneToOne ⊢
      rw [(assign_new state node absent).1, (assign_new state node absent).2]
      -- an owner of the VID would have it spelled, as this node has
      refine oneToOne.insert absent ?_
      cases taken : state.1.vid2ether.lookup (convert node.2) with
      | none => rfl
      | some owner =>
          obtain ⟨ownerStored, named⟩ := settled owner _ ((oneToOne owner _).mpr taken)
          have own := distinct owner node.1 ownerStored member (named.trans spells)
          rw [← oneToOne, own, absent] at taken
          cases taken
    · intro mac vid found
      rw [assign_lookup] at found
      split at found
      · rename_i own
        cases found
        exact own ▸ ⟨member, spells.symm⟩
      · exact settled mac vid found

theorem OneToOne.foldl_assign {stored : EtherAddress → Prop} {name : EtherAddress → VID}
    (distinct : ∀ mac other, stored mac → stored other → name mac = name other → mac = other)
    (nodes : List (EtherAddress × List Bool))
    (spells : ∀ node ∈ nodes, stored node.1 ∧ convert node.2 = name node.1)
    (state : NetworkTopo × Bool) (oneToOne : state.1.OneToOne)
    (settled : state.1.Settled stored name) :
    (nodes.foldl NetworkTopo.assign state).1.OneToOne := by
  induction nodes generalizing state with
  | nil => exact oneToOne
  | cons first rest ih =>
      obtain ⟨member, named⟩ := spells first List.mem_cons_self
      obtain ⟨kept, still⟩ := oneToOne.assign distinct settled member named
      exact ih (fun node later => spells node (List.mem_cons_of_mem _ later)) _ kept still

structure Steady (topo : NetworkTopo) (now : Nat) (macs : IterationOrder EtherAddress)
    (labels : IterationOrder Nat) : Prop where
  connected : topo.Connected now
  few : topo.networktopo.keys.length ≤ 5001
  settled : topo.Settled (fun mac => mac ∈ topo.networktopo) (topo.spelled macs labels)

section Perform

variable {topo : NetworkTopo} {now : Nat} {macs : IterationOrder EtherAddress}
  {labels : IterationOrder Nat}

theorem Connected.spells (network : topo.Connected now) (few : topo.networktopo.keys.length ≤ 5001)
    {node : EtherAddress × List Bool}
    (member : node ∈ (topo.ids macs).zip (spread (topo.node2vid macs labels))) :
    node.1 ∈ topo.networktopo ∧ convert node.2 = topo.spelled macs labels node.1 := by
  obtain ⟨i, found⟩ := List.mem_iff_getElem?.mp member
  obtain ⟨mac, string⟩ := List.getElem?_zip_eq_some.mp found
  have bound := (List.getElem?_eq_some_iff.mp mac).1
  rw [spread_eq, List.getElem?_map, network.node2vid_eq few macs labels bound, Option.map_some,
    Option.some.injEq, vidlen_eq macs labels network.stored] at string
  exact ⟨(mem_iff_ids macs node.1).mpr ⟨i, mac⟩, by rw [spelled_eq labels mac, string]⟩

theorem OneToOne.performVIDAssignment (oneToOne : topo.OneToOne)
    (steady : (topo.purged now macs).networktopo.keys.length ≤ 1 ∨
      32 < ((topo.purged now macs).tree macs labels).height ∨
      (topo.purged now macs).Steady now macs labels) :
    (topo.performVIDAssignment now macs labels).1.OneToOne := by
  have purged : (topo.purged now macs).OneToOne := oneToOne.purge now _
  by_cases alone : (topo.purged now macs).networktopo.keys.length ≤ 1
  · rw [performVIDAssignment_alone alone]
    exact purged
  · have several : 2 ≤ (topo.purged now macs).networktopo.keys.length := by omega
    have nonempty : 0 < (topo.purged now macs).networktopo.keys.length := by omega
    have height := vidlen_eq macs labels nonempty
    by_cases long : 32 < ((topo.purged now macs).tree macs labels).height
    · rw [performVIDAssignment_refused several (height ▸ long)]
      exact purged
    · have settles := (steady.resolve_left alone).resolve_left long
      rw [performVIDAssignment_eq several (by omega)]
      refine OneToOne.foldl_assign ?_ _
        (fun node member => settles.connected.spells settles.few member)
        (topo.purged now macs, false) purged settles.settled
      intro mac other stored otherStored same
      exact settles.connected.spelled_inj settles.few macs labels (by omega) stored otherStored same

theorem exists_shared (several : 2 ≤ (topo.purged now macs).networktopo.keys.length)
    (fits : vidlen ((topo.purged now macs).node2vid macs labels) ≤ 32)
    (many : 1 < ((topo.purged now macs).cluster macs labels).1.clusterTopo.keys.length) :
    ∃ mac other vid, mac ≠ other ∧
      (topo.performVIDAssignment now macs labels).1.ether2vid.lookup mac = some vid ∧
      (topo.performVIDAssignment now macs labels).1.ether2vid.lookup other = some vid := by
  have nonempty : 0 < (topo.purged now macs).networktopo.keys.length := by omega
  obtain ⟨labelled, length, -⟩ := cluster_labelled macs labels nonempty
  obtain ⟨label, present, different⟩ := Clusters.exists_other many 0
  have given (label : Nat)
      (live : Clusters.Live ((topo.purged now macs).cluster macs labels).1.nodes label) :
      ∃ i, ∃ bound : i < ((topo.purged now macs).ids macs).length,
        Clusters.Belongs ((topo.purged now macs).cluster macs labels).1.nodes i label ∧
        (topo.performVIDAssignment now macs labels).1.ether2vid.lookup
            (((topo.purged now macs).ids macs)[i]) =
          some (convert
            (withRoom (vidlen ((topo.purged now macs).node2vid macs labels)) [true])) := by
    -- its string spells one whatever its length, so its VID does not depend on the cluster
    obtain ⟨i, leaf, one⟩ := ((topo.purged now macs).forest macs labels label).exists_value_one
    have belongs := (labelled.represents.leaves label live i).mp leaf
    obtain ⟨node, found, cluster⟩ := belongs
    have bound : i < ((topo.purged now macs).ids macs).length :=
      length ▸ (List.getElem?_eq_some_iff.mp found).1
    have string : ((topo.purged now macs).node2vid macs labels)[i]? = some node.vid := by
      rw [node2vid, List.getElem?_map, found, Option.map_some]
    refine ⟨i, bound, ⟨node, found, cluster⟩, ?_⟩
    rw [assigned several fits (List.getElem?_eq_getElem bound) string, Option.some.injEq]
    refine convert_congr ?_
    rw [value_withRoom, value_withRoom, labelled.represents.code i node found, cluster, one]
    rfl
  obtain ⟨i, bound, inside, found⟩ := given 0 (Clusters.live_iff.mpr ⟨0, labelled.zero⟩)
  obtain ⟨j, otherBound, otherInside, otherFound⟩ := given label ((labelled.live label).mp present)
  refine ⟨_, _, _, fun same => different ?_, found, otherFound⟩
  have position := ((nodup_ids macs).getElem_inj_iff).mp same
  subst j
  exact otherInside.unique inside

/-- On a disconnected topology without self-edges two switches get one VID. -/
theorem disconnected_not_oneToOne (several : 2 ≤ (topo.purged now macs).networktopo.keys.length)
    (selfless : ∀ node, ¬Lists (topo.purged now macs).networktopo node node)
    (fits : vidlen ((topo.purged now macs).node2vid macs labels) ≤ 32)
    (disconnected : ¬ConnectedWithin (Linked (topo.purged now macs).networktopo) fun node =>
      node ∈ (topo.purged now macs).networktopo) :
    ¬(topo.performVIDAssignment now macs labels).1.OneToOne := by
  have nonempty : 0 < (topo.purged now macs).networktopo.keys.length := by omega
  intro oneToOne
  by_cases many : 1 < ((topo.purged now macs).cluster macs labels).1.clusterTopo.keys.length
  · obtain ⟨mac, other, vid, different, found, otherFound⟩ := exists_shared several fits many
    exact different (oneToOne.distinct mac other vid found otherFound)
  · refine disconnected ?_
    have invariant := cluster_invariant macs labels selfless nonempty
    have leaf := (mem_tree_iff nonempty (Nat.not_lt.mp many)).mpr (by rwa [length_ids])
    have whole :=
      (invariant.joined 0 (Clusters.live_iff.mpr ⟨0, invariant.quotient.zero⟩)).alike_connected
      (fun _ _ => Adjacent.symm) 0 leaf
    have bounded (i : Nat) (inside : i ∈ ((topo.purged now macs).tree macs labels).leaves) :=
      (mem_tree_iff nonempty (Nat.not_lt.mp many)).mp inside
    refine (ConnectedWithin.of_byIndex whole fun i inside => bounded i inside.1).congr fun node =>
      ?_
    rw [mem_iff_ids macs]
    constructor
    · rintro ⟨i, -, found⟩
      exact ⟨i, found⟩
    · rintro ⟨i, found⟩
      exact ⟨i, ⟨(mem_tree_iff nonempty (Nat.not_lt.mp many)).mpr
        (List.getElem?_eq_some_iff.mp found).1, rfl⟩, found⟩

theorem performVIDAssignment_purged (network : (topo.purged now macs).Connected now) :
    topo.performVIDAssignment now macs labels =
      (topo.purged now macs).performVIDAssignment now macs labels := by
  have again := network.purged_eq macs
  simp only [purged] at again
  simp only [performVIDAssignment, purged, again]

theorem foldl_assign_mem {vid : VID} (nodes : List (EtherAddress × List Bool))
    (state : NetworkTopo × Bool) (present : vid ∈ state.1.vid2ether) :
    vid ∈ (nodes.foldl assign state).1.vid2ether := by
  induction nodes generalizing state with
  | nil => exact present
  | cons first rest ih =>
      rw [List.foldl_cons]
      refine ih _ ?_
      simp only [assign]
      split
      · split
        · exact (AList.mem_insert _).mpr (Or.inr present)
        · exact present
      · exact (AList.mem_insert _).mpr (Or.inr present)

section Changes

variable (network : (topo.purged now macs).Connected now)
  (few : (topo.purged now macs).networktopo.keys.length ≤ 5001)
  (fits : vidlen ((topo.purged now macs).node2vid macs labels) ≤ 32)
include network fits

theorem Connected.unstored_lookup {mac : EtherAddress}
    (unstored : mac ∉ (topo.purged now macs).networktopo) :
    (topo.performVIDAssignment now macs labels).1.ether2vid.lookup mac =
      (topo.purged now macs).ether2vid.lookup mac := by
  rw [performVIDAssignment_eq network.several fits]
  refine foldl_assign_other (fun member => unstored ?_) _
  rw [List.map_fst_zip (by
    rw [spread_eq, List.length_map, length_node2vid macs labels network.stored])] at member
  exact (mem_ids macs mac).mp member

include few

theorem Connected.leftover_not_oneToOne (oneToOne : topo.OneToOne) {mac : EtherAddress} {vid : VID}
    (stored : mac ∈ (topo.purged now macs).networktopo)
    (given : (topo.purged now macs).ether2vid.lookup mac = some vid)
    (lost : ∀ other ∈ (topo.purged now macs).networktopo,
      (topo.purged now macs).spelled macs labels other ≠ vid) :
    ¬(topo.performVIDAssignment now macs labels).1.OneToOne := by
  intro after
  have before : (topo.purged now macs).OneToOne := oneToOne.purge now _
  -- the assignment erases nothing from vid2ether
  have present : vid ∈ (topo.performVIDAssignment now macs labels).1.vid2ether := by
    rw [performVIDAssignment_eq network.several fits]
    exact foldl_assign_mem _ _ (mem_of_lookup (before.back mac vid given))
  obtain ⟨owner, found⟩ := after.only vid present
  by_cases ownerStored : owner ∈ (topo.purged now macs).networktopo
  · rw [performVIDAssignment_purged network,
      network.assigned_spelled few macs labels fits ownerStored, Option.some.injEq] at found
    exact lost owner ownerStored found
  · rw [network.unstored_lookup fits ownerStored] at found
    exact ownerStored (before.distinct owner mac vid found given ▸ stored)

theorem Connected.unstored_not_oneToOne {mac other : EtherAddress}
    (unstored : mac ∉ (topo.purged now macs).networktopo)
    (otherStored : other ∈ (topo.purged now macs).networktopo)
    (given : (topo.purged now macs).ether2vid.lookup mac =
      some ((topo.purged now macs).spelled macs labels other)) :
    ¬(topo.performVIDAssignment now macs labels).1.OneToOne := by
  intro after
  have found := network.assigned_spelled few macs labels fits otherStored
  rw [← performVIDAssignment_purged network] at found
  have same := after.distinct mac other _
    (by rw [network.unstored_lookup fits unstored, given]) found
  exact unstored (same ▸ otherStored)

end Changes

end Perform

end NetworkTopo

def localTopoToVCC (ethsrc vccmac parentToVcc : EtherAddress) (neighbors : List EtherAddress) :
    Frame where
  dhost := parentToVcc
  shost := ethsrc
  etherType := etherTypeVeil
  svid := ethsrc
  dvid := vccmac
  veilType := veilLocalTopoToVcc
  ttl := maxTtl
  optional := 0
  payload := Bytes.ofWord 2 (BitVec.ofNat 16 neighbors.length) ++ neighbors.flatMap (Bytes.ofWord 6)
  reroute := false
  port := 0

structure Controller where
  now : Nat
  topo : NetworkTopo

inductive ControllerAction where
  | report (frame : Frame)
  | pass (seconds : Nat)
  | perform (macs : HashTable.IterationOrder EtherAddress) (labels : HashTable.IterationOrder Nat)

namespace Controller

open Transition
open NetworkTopo (Connected)

def Initial (state : Controller) : Prop := state.topo = .empty

def apply (state : Controller) : ControllerAction → Controller
  | .report frame => { state with topo := state.topo.processLocalTopo state.now frame }
  | .pass seconds => { state with now := state.now + seconds }
  | .perform macs labels =>
      { state with topo := (state.topo.performVIDAssignment state.now macs labels).1 }

def Step (state : Controller) (action : ControllerAction) (after : Controller) : Prop :=
  after = state.apply action

/-- An assignment is steady when the nodes that the purge leaves are at most one, or get no VIDs
because the tree is too high, or are connected and keep the VIDs that they have. -/
def Steady (state : Controller) : ControllerAction → Prop
  | .report _ => True
  | .pass _ => True
  | .perform macs labels =>
      (state.topo.purged state.now macs).networktopo.keys.length ≤ 1 ∨
        32 < ((state.topo.purged state.now macs).tree macs labels).height ∨
        (state.topo.purged state.now macs).Steady state.now macs labels

theorem apply_oneToOne {state : Controller} (oneToOne : state.topo.OneToOne)
    {action : ControllerAction} (steady : state.Steady action) :
    (state.apply action).topo.OneToOne := by
  cases action with
  | report frame =>
      obtain ⟨forward, backward⟩ := state.topo.processLocalTopo_mappings state.now frame
      rw [NetworkTopo.oneToOne_iff] at oneToOne ⊢
      simp only [apply, forward, backward]
      exact oneToOne
  | pass seconds => exact oneToOne
  | perform macs labels => exact oneToOne.performVIDAssignment steady

/-- A run whose assignments are all steady gives no VID twice. -/
theorem steady_oneToOne {state : Controller} (run : Reaches Initial Step Steady state) :
    state.topo.OneToOne := by
  refine run.invariant (fun state => state.topo.OneToOne) ?_ ?_
  · intro state initial
    rw [initial, NetworkTopo.oneToOne_iff]
    exact fun _ _ => iff_of_false nofun nofun
  · rintro state action after oneToOne steady rfl
    exact apply_oneToOne oneToOne steady

theorem steady_oneToOne_pair :
    ((Controller.mk 0 (.star 1 [2])).apply (.perform (.stored _) (.stored _))).topo.OneToOne := by
  have begins : Initial ⟨0, .empty⟩ := rfl
  have first : Step ⟨0, .empty⟩ (.report (localTopoToVCC 1 9 9 [2]))
      ((Controller.mk 0 .empty).apply (.report (localTopoToVCC 1 9 9 [2]))) := rfl
  have second : Step ((Controller.mk 0 .empty).apply (.report (localTopoToVCC 1 9 9 [2])))
      (.report (localTopoToVCC 2 9 9 [1])) ⟨0, .star 1 [2]⟩ := by rfl
  have third : Step ⟨0, .star 1 [2]⟩ (.perform (.stored _) (.stored _))
      ((Controller.mk 0 (.star 1 [2])).apply (.perform (.stored _) (.stored _))) := rfl
  refine steady_oneToOne (.next (.next (.next (.start begins) ?_ first) ?_ second) ?_ third)
  · trivial
  · trivial
  · have network : (NetworkTopo.star 1 [2]).Connected 0 :=
      NetworkTopo.star_connected (by decide) (by decide)
    refine Or.inr (Or.inr ?_)
    change ((NetworkTopo.star 1 [2]).purged 0 (.stored _)).Steady 0 (.stored _) (.stored _)
    rw [network.purged_eq]
    exact ⟨network, by decide +kernel, fun _ _ found => nomatch found⟩

/-- The switches 1 and 2 are both neighbours of 3, whose own report has not arrived yet. -/
theorem reachable_not_oneToOne :
    ∃ state, Reachable Initial Step state ∧ ¬state.topo.OneToOne := by
  refine ⟨[.report (localTopoToVCC 1 9 9 [3]), .report (localTopoToVCC 2 9 9 [3]),
      .perform (.stored _) (.stored _)].foldl apply ⟨0, .empty⟩,
    Reaches.foldl apply _ (.start rfl), fun oneToOne => ?_⟩
  exact absurd
    (oneToOne.distinct 1 2 0x000000040000 (by decide +kernel) (by decide +kernel)) (by decide)

end Controller

end Veil
