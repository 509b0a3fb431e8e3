import Veil.ClusterLoop

/-! From the reports to the graph that the clustering works on, when the symmetrised topology of the
stored nodes is connected. -/

namespace Veil

namespace NetworkTopo

open HashTable
open Clusters (Neighbors Belongs Live Represents Labelled Ended Quotient Invariant)

def Lists (networktopo : HashTable EtherAddress (List EtherAddress)) (node other : EtherAddress) :
    Prop :=
  ∃ neighbors, networktopo.lookup node = some neighbors ∧ other ∈ neighbors

def Linked (networktopo : HashTable EtherAddress (List EtherAddress)) (node other : EtherAddress) :
    Prop :=
  node ∈ networktopo ∧ other ∈ networktopo ∧
    (Lists networktopo node other ∨ Lists networktopo other node)

theorem Linked.symm {networktopo : HashTable EtherAddress (List EtherAddress)}
    {node other : EtherAddress} (linked : Linked networktopo node other) :
    Linked networktopo other node :=
  ⟨linked.2.1, linked.1, linked.2.2.symm⟩

/-- A connected network of at least two nodes, whose reports are fresh and list no node as its own
neighbour. -/
structure Connected (topo : NetworkTopo) (now : Nat) : Prop where
  fresh : ∀ node ∈ topo.networktopo, topo.outdated now node = false
  selfless : ∀ node, ¬Lists topo.networktopo node node
  connected : ConnectedWithin (Linked topo.networktopo) fun node => node ∈ topo.networktopo
  several : 2 ≤ topo.networktopo.keys.length

def Adjacent (networktopo : HashTable EtherAddress (List EtherAddress)) (ids : List EtherAddress)
    (i j : Nat) : Prop :=
  ∃ node other, ids[i]? = some node ∧ ids[j]? = some other ∧ Linked networktopo node other

theorem Adjacent.symm {networktopo : HashTable EtherAddress (List EtherAddress)}
    {ids : List EtherAddress} {i j : Nat} (adjacent : Adjacent networktopo ids i j) :
    Adjacent networktopo ids j i := by
  obtain ⟨node, other, first, last, linked⟩ := adjacent
  exact ⟨other, node, last, first, linked.symm⟩

theorem foldl_iff {α β : Type} (holds : β → Prop) {adds : α → Prop} (step : β → α → β)
    (each : ∀ state x, holds (step state x) ↔ adds x ∨ holds state) (start : β)
    (elements : List α) :
    holds (elements.foldl step start) ↔ (∃ x ∈ elements, adds x) ∨ holds start := by
  induction elements generalizing start with
  | nil => simp
  | cons first rest ih =>
      rw [List.foldl_cons, ih, each]
      simp only [List.mem_cons, exists_eq_or_imp]
      exact ⟨fun either => either.elim (fun later => Or.inl (Or.inr later)) (fun now =>
        now.elim (fun own => Or.inl (Or.inl own)) Or.inr), fun either => either.elim (fun added =>
        added.elim (fun own => Or.inr (Or.inl own)) Or.inl) fun before => Or.inr (Or.inr before)⟩

theorem neighbors_setEdge (nodes : HashTable Nat (HashTable Nat Nat)) (nodeid neighid i j : Nat) :
    Neighbors (setEdge nodes nodeid neighid) i j ↔
      (i = nodeid ∧ j = neighid) ∨ Neighbors nodes i j := by
  rw [Clusters.neighbors_iff, Clusters.neighbors_iff, setEdge, lookup_insert_ite]
  by_cases same : i = nodeid
  · subst i
    rw [if_pos rfl, Option.getD_some, AList.mem_insert]
    simp
  · simp [same]

theorem neighbors_learnNeighbor (ids : List EtherAddress) (nodeid : Nat)
    (nodes : HashTable Nat (HashTable Nat Nat)) (neigh : EtherAddress) (i j : Nat) :
    Neighbors (learnNeighbor ids nodeid nodes neigh) i j ↔
      (neigh ∈ ids ∧ ((i = nodeid ∧ j = ids.idxOf neigh) ∨ (i = ids.idxOf neigh ∧ j = nodeid))) ∨
        Neighbors nodes i j := by
  rw [learnNeighbor]
  by_cases known : neigh ∈ ids
  · rw [if_pos known, neighbors_setEdge, neighbors_setEdge, ← or_assoc]
    simp only [known, true_and, or_comm]
  · simp [known]

theorem idxOf_eq_iff {α : Type} [DecidableEq α] {ids : List α} (unique : ids.Nodup) {node : α}
    {i : Nat} :
    (node ∈ ids ∧ ids.idxOf node = i) ↔ ids[i]? = some node := by
  constructor
  · rintro ⟨member, rfl⟩
    rw [List.getElem?_eq_getElem (List.idxOf_lt_length_of_mem member), List.getElem_idxOf]
  · intro found
    obtain ⟨bound, rfl⟩ := List.getElem?_eq_some_iff.mp found
    exact ⟨List.getElem_mem bound, unique.idxOf_getElem i bound⟩

theorem neighbors_learnTopology {networktopo : HashTable EtherAddress (List EtherAddress)}
    {ids walk : List EtherAddress} (unique : ids.Nodup)
    (stored : ∀ node, node ∈ ids ↔ node ∈ networktopo)
    (walked : ∀ node, node ∈ walk ↔ node ∈ networktopo) (i j : Nat) :
    Neighbors (learnTopology networktopo ids walk) i j ↔ Adjacent networktopo ids i j := by
  have inner (nodes : HashTable Nat (HashTable Nat Nat)) (node : EtherAddress) :=
    foldl_iff (fun nodes => Neighbors nodes i j) (learnNeighbor ids (ids.idxOf node))
      (fun nodes neigh => neighbors_learnNeighbor ids (ids.idxOf node) nodes neigh i j) nodes
      ((networktopo.lookup node).getD [])
  have empty : ¬Neighbors (insertAll (fun _ => ∅) ∅ (List.range ids.length)) i j := by
    rw [Clusters.neighbors_iff, lookup_insertAll]
    split <;> exact AList.notMem_empty j
  have listed (node neigh : EtherAddress) : neigh ∈ (networktopo.lookup node).getD [] ↔
      Lists networktopo node neigh := by
    cases found : networktopo.lookup node with
    | none => simp [Lists, found]
    | some neighbors => simp [Lists, found]
  have present (node neigh : EtherAddress) (lists : Lists networktopo node neigh) :
      node ∈ networktopo := by
    obtain ⟨neighbors, found, -⟩ := lists
    exact mem_of_lookup found
  rw [learnTopology, foldl_iff (fun nodes => Neighbors nodes i j) _ inner]
  simp only [empty, or_false, listed]
  constructor
  · rintro ⟨node, -, neigh, lists, known, ⟨rfl, rfl⟩ | ⟨rfl, rfl⟩⟩
    · exact ⟨node, neigh, (idxOf_eq_iff unique).mp ⟨(stored node).mpr (present _ _ lists), rfl⟩,
        (idxOf_eq_iff unique).mp ⟨known, rfl⟩, present _ _ lists,
          (stored neigh).mp known, Or.inl lists⟩
    · exact ⟨neigh, node, (idxOf_eq_iff unique).mp ⟨known, rfl⟩,
        (idxOf_eq_iff unique).mp ⟨(stored node).mpr (present _ _ lists), rfl⟩,
          (stored neigh).mp known,
        present _ _ lists, Or.inr lists⟩
  · rintro ⟨node, other, first, last, nodeStored, otherStored, lists⟩
    obtain ⟨nodeKnown, rfl⟩ := (idxOf_eq_iff unique).mpr first
    obtain ⟨otherKnown, rfl⟩ := (idxOf_eq_iff unique).mpr last
    rcases lists with lists | lists
    · exact ⟨node, (walked node).mpr nodeStored, other, lists, otherKnown, Or.inl ⟨rfl, rfl⟩⟩
    · exact ⟨other, (walked other).mpr otherStored, node, lists, nodeKnown, Or.inr ⟨rfl, rfl⟩⟩

section Initial

variable (count : Nat) (nodes : HashTable Nat (HashTable Nat Nat))

theorem getElem?_initial (i : Nat) (node : ClusterNode) :
    (initialClusters count nodes).nodes[i]? = some node ↔ i < count ∧ node = ⟨i, [true]⟩ := by
  simp only [initialClusters, List.getElem?_map, Option.map_eq_some_iff, List.getElem?_eq_some_iff,
    List.length_range, List.getElem_range]
  constructor
  · rintro ⟨_, ⟨bound, rfl⟩, rfl⟩
    exact ⟨bound, rfl⟩
  · rintro ⟨bound, rfl⟩
    exact ⟨i, ⟨bound, rfl⟩, rfl⟩

theorem belongs_initial (i label : Nat) :
    Belongs (initialClusters count nodes).nodes i label ↔ i < count ∧ i = label := by
  simp only [Belongs, getElem?_initial]
  constructor
  · rintro ⟨_, ⟨bound, rfl⟩, rfl⟩
    exact ⟨bound, rfl⟩
  · rintro ⟨bound, rfl⟩
    exact ⟨_, ⟨bound, rfl⟩, rfl⟩

theorem live_initial (label : Nat) :
    Live (initialClusters count nodes).nodes label ↔ label < count := by
  simp only [Clusters.live_iff, belongs_initial]
  exact ⟨fun ⟨_, bound, same⟩ => same ▸ bound, fun bound => ⟨label, bound, rfl⟩⟩

theorem mem_initial (label : Nat) :
    label ∈ (initialClusters count nodes).clusterTopo ↔ label < count := by
  rw [initialClusters, mem_insertAll, List.mem_range]
  exact or_iff_left (AList.notMem_empty label)

theorem neighbors_initial (i j : Nat) :
    Neighbors (initialClusters count nodes).clusterTopo i j ↔ i < count ∧ Neighbors nodes i j := by
  rw [Clusters.neighbors_iff, Clusters.neighbors_iff, initialClusters, lookup_insertAll]
  by_cases bound : i < count
  · rw [if_pos (List.mem_range.mpr bound), Option.getD_some, mem_insertAll, ← AList.mem_keys]
    exact ⟨fun either => ⟨bound, either.resolve_right (AList.notMem_empty j)⟩,
      fun both => Or.inl both.2⟩
  · rw [if_neg fun member => bound (List.mem_range.mp member)]
    exact ⟨fun member => (AList.notMem_empty j member).elim, fun both => (bound both.1).elim⟩

theorem initial_represents : Represents (initialClusters count nodes).nodes .leaf where
  leaves := by
    intro label live i
    rw [belongs_initial, Dendrogram.leaves, List.mem_singleton]
    exact ⟨fun same => ⟨same ▸ (live_initial count nodes label).mp live, same⟩, fun both => both.2⟩
  code := by
    intro i node found
    obtain ⟨-, rfl⟩ := (getElem?_initial count nodes i node).mp found
    rfl

theorem initial_labelled (positive : 0 < count) : Labelled (initialClusters count nodes) .leaf where
  represents := initial_represents count nodes
  apart := fun _ _ => trivial
  live := by
    intro label
    rw [mem_initial, live_initial]
  zero := (belongs_initial count nodes 0 0).mpr ⟨positive, rfl⟩

theorem initial_invariant {adjacent : Nat → Nat → Prop} (positive : 0 < count)
    (graph : ∀ i j, Neighbors nodes i j ↔ adjacent i j)
    (inside : ∀ i j, adjacent i j → i < count ∧ j < count) (loopless : ∀ i, ¬adjacent i i) :
    Invariant adjacent (initialClusters count nodes) .leaf where
  represents := initial_represents count nodes
  joined := fun _ _ => trivial
  quotient := {
    live := (initial_labelled count nodes positive).live
    neighbors := by
      intro first last
      rw [neighbors_initial, graph]
      simp only [belongs_initial]
      constructor
      · rintro ⟨bound, edge⟩
        refine ⟨?_, first, last, ⟨bound, rfl⟩, ⟨(inside _ _ edge).2, rfl⟩, edge⟩
        rintro rfl
        exact loopless _ edge
      · rintro ⟨-, i, j, ⟨bound, rfl⟩, ⟨-, rfl⟩, edge⟩
        exact ⟨bound, edge⟩
    unmarked := by
      intro label neighbors found other
      rw [initialClusters, lookup_insertAll] at found
      split at found
      · cases found
        rw [lookup_insertAll]
        split <;> exact fun zero => nomatch zero
      · cases found
    zero := (initial_labelled count nodes positive).zero }

end Initial

section Network

variable {topo : NetworkTopo} (macs : IterationOrder EtherAddress) (labels : IterationOrder Nat)

theorem nodup_ids : (topo.ids macs).Nodup := macs.nodup_arrange _ topo.networktopo.keys_nodup

theorem mem_ids (node : EtherAddress) : node ∈ topo.ids macs ↔ node ∈ topo.networktopo := by
  rw [ids, macs.mem_arrange, AList.mem_keys]

theorem length_ids : (topo.ids macs).length = topo.networktopo.keys.length :=
  macs.length_arrange _ _

theorem mem_iff_ids (node : EtherAddress) :
    node ∈ topo.networktopo ↔ ∃ i : Nat, (topo.ids macs)[i]? = some node := by
  rw [← mem_ids macs, List.mem_iff_getElem?]

theorem length_firstClusters : (topo.firstClusters macs).nodes.length = (topo.ids macs).length := by
  simp [firstClusters, initialClusters]

theorem length_keys_firstClusters :
    (topo.firstClusters macs).clusterTopo.keys.length = topo.networktopo.keys.length := by
  rw [firstClusters, initialClusters, length_keys_insertAll _ List.nodup_range, List.length_range,
    length_ids]

def forest (topo : NetworkTopo) (macs : IterationOrder EtherAddress) (labels : IterationOrder Nat) :
    Nat → Dendrogram Nat :=
  Clusters.grow labels maxIter (topo.firstClusters macs).node2cluster
    (topo.firstClusters macs).clusterTopo .leaf

/-- The tree of all the nodes, when there is one cluster; otherwise that of the first node. -/
def tree (topo : NetworkTopo) (macs : IterationOrder EtherAddress) (labels : IterationOrder Nat) :
    Dendrogram Nat :=
  topo.forest macs labels 0

theorem cluster_labelled (stored : 0 < topo.networktopo.keys.length) :
    Labelled (topo.cluster macs labels).1 (topo.forest macs labels) ∧
      (topo.cluster macs labels).1.nodes.length = (topo.ids macs).length ∧
      Ended labels maxIter topo.networktopo.keys.length (topo.cluster macs labels).1
        (topo.cluster macs labels).2 := by
  have first : Labelled (topo.firstClusters macs) .leaf :=
    initial_labelled _ _ (by rwa [length_ids])
  obtain ⟨labelled, -, length, ends⟩ :=
    first.clusterLoop (fun _ _ => True) trivial (fun _ _ _ _ _ _ => trivial) labels maxIter
  rw [length_firstClusters] at length
  rw [length_keys_firstClusters] at ends
  exact ⟨labelled, length, ends⟩

theorem first_invariant (selfless : ∀ node, ¬Lists topo.networktopo node node)
    (stored : 0 < topo.networktopo.keys.length) :
    Invariant (Adjacent topo.networktopo (topo.ids macs)) (topo.firstClusters macs) .leaf := by
  refine initial_invariant _ _ (by rwa [length_ids])
    (neighbors_learnTopology (nodup_ids macs) (mem_ids macs) fun node => ?_) ?_ ?_
  · rw [macs.mem_arrange, AList.mem_keys]
  · rintro i j ⟨node, other, first, last, -⟩
    exact ⟨(List.getElem?_eq_some_iff.mp first).1, (List.getElem?_eq_some_iff.mp last).1⟩
  · rintro i ⟨node, other, first, last, -, -, lists⟩
    rw [first, Option.some.injEq] at last
    subst other
    exact lists.elim (selfless node) (selfless node)

theorem cluster_invariant (selfless : ∀ node, ¬Lists topo.networktopo node node)
    (stored : 0 < topo.networktopo.keys.length) :
    Invariant (Adjacent topo.networktopo (topo.ids macs)) (topo.cluster macs labels).1
      (topo.forest macs labels) := by
  have start := first_invariant macs selfless stored
  exact (start.labelled.clusterLoop _ start
    (fun _ _ _ _ before edge => before.join (fun _ _ => Adjacent.symm) edge) labels maxIter).2.1

theorem length_node2vid (stored : 0 < topo.networktopo.keys.length) :
    (topo.node2vid macs labels).length = (topo.ids macs).length := by
  rw [node2vid, List.length_map, (cluster_labelled macs labels stored).2.1]

theorem vidlen_eq (stored : 0 < topo.networktopo.keys.length) :
    vidlen (topo.node2vid macs labels) = (topo.tree macs labels).height := by
  have labelled := (cluster_labelled macs labels stored).1
  obtain ⟨node, found, cluster⟩ := labelled.zero
  have length := labelled.represents.length found
  rw [cluster] at length
  rw [vidlen, node2vid, List.headD_eq_head?_getD, List.head?_map, List.head?_eq_getElem?, found,
    Option.map_some, Option.getD_some, length]
  rfl

theorem mem_tree (stored : 0 < topo.networktopo.keys.length) {i : Nat} :
    i ∈ (topo.tree macs labels).leaves ↔ Belongs (topo.cluster macs labels).1.nodes i 0 := by
  have labelled := (cluster_labelled macs labels stored).1
  exact labelled.represents.leaves 0 (Clusters.live_iff.mpr ⟨0, labelled.zero⟩) i

theorem tree_apart (stored : 0 < topo.networktopo.keys.length) :
    (topo.tree macs labels).Joined fun _ _ => True := by
  have labelled := (cluster_labelled macs labels stored).1
  exact labelled.apart 0 (Clusters.live_iff.mpr ⟨0, labelled.zero⟩)

theorem node2vid_tree (stored : 0 < topo.networktopo.keys.length) {i : Nat}
    (leaf : i ∈ (topo.tree macs labels).leaves) :
    (topo.node2vid macs labels)[i]? = some ((topo.tree macs labels).code i) := by
  obtain ⟨node, found, cluster⟩ := (mem_tree macs labels stored).mp leaf
  rw [node2vid, List.getElem?_map, found, Option.map_some,
    (cluster_labelled macs labels stored).1.represents.code i node found, cluster]
  rfl

end Network

section Connected

variable {topo : NetworkTopo} {now : Nat} (macs : IterationOrder EtherAddress)

theorem Connected.purge_eq (network : topo.Connected now) {walk : List EtherAddress}
    (stored : ∀ node ∈ walk, node ∈ topo.networktopo) : topo.purge now walk = topo := by
  rw [purge]
  induction walk with
  | nil => rfl
  | cons node rest ih =>
      have fresh := network.fresh node (stored node List.mem_cons_self)
      rw [List.foldl_cons, fresh, if_neg Bool.false_ne_true]
      exact ih fun other member => stored other (List.mem_cons_of_mem _ member)

theorem Connected.ids_connected (network : topo.Connected now) :
    ConnectedWithin (Adjacent topo.networktopo (topo.ids macs)) fun i =>
      i < (topo.ids macs).length :=
  (network.connected.congr fun node => (mem_ids macs node).symm).byIndex (nodup_ids macs)

/-- On a connected network the loop does not break out, and the strings of its clusters are the
codes of the forest; with at most 5001 nodes it ends with one cluster. -/
theorem Connected.cluster (network : topo.Connected now) (labels : IterationOrder Nat) :
    Invariant (Adjacent topo.networktopo (topo.ids macs)) (topo.cluster macs labels).1
        (topo.forest macs labels) ∧
      (topo.cluster macs labels).1.nodes.length = (topo.ids macs).length ∧
      (topo.cluster macs labels).2 ≠ .brokeOut ∧
      (topo.networktopo.keys.length ≤ 5001 →
        (topo.cluster macs labels).1.clusterTopo.keys.length ≤ 1 ∧
        (topo.cluster macs labels).2 = .oneCluster) := by
  have start := first_invariant macs network.selfless
    (Nat.lt_of_lt_of_le Nat.two_pos network.several)
  have ends := start.clusterLoop (fun _ _ => Adjacent.symm)
    (length_firstClusters macs ▸ network.ids_connected macs) labels maxIter
  rw [length_firstClusters, length_keys_firstClusters] at ends
  exact ends

end Connected

def star (centre : EtherAddress) (leaves : List EtherAddress) : NetworkTopo where
  networktopo := (insertAll (fun _ => [centre]) ∅ leaves).insert centre leaves
  ether2vid := ∅
  vid2ether := ∅
  lastNodeUpdateTime := insertAll (fun _ => 0) ∅ (centre :: leaves)

section Star

variable {centre : EtherAddress} {leaves : List EtherAddress}

theorem mem_star (node : EtherAddress) :
    node ∈ (star centre leaves).networktopo ↔ node = centre ∨ node ∈ leaves := by
  rw [star, AList.mem_insert, mem_insertAll, or_iff_left (AList.notMem_empty node)]

theorem lists_star (outside : centre ∉ leaves) (node other : EtherAddress) :
    Lists (star centre leaves).networktopo node other ↔
      (node = centre ∧ other ∈ leaves) ∨ (node ∈ leaves ∧ other = centre) := by
  rw [Lists, star]
  simp only [lookup_insert_ite, lookup_insertAll]
  by_cases same : node = centre
  · subst node
    simp [outside]
  · by_cases leaf : node ∈ leaves
    · simp [same, leaf]
    · simp [same, leaf]

theorem star_connected (nonempty : leaves ≠ []) (outside : centre ∉ leaves) :
    (star centre leaves).Connected 0 where
  fresh := by
    intro node stored
    have known : node ∈ centre :: leaves := List.mem_cons.mpr ((mem_star node).mp stored)
    simp only [outdated, star, lookup_insertAll, if_pos known]
    rfl
  selfless := by
    intro node lists
    rcases (lists_star outside node node).mp lists with ⟨rfl, leaf⟩ | ⟨leaf, rfl⟩
    · exact outside leaf
    · exact outside leaf
  connected := by
    have centreStored : centre ∈ (star centre leaves).networktopo :=
      (mem_star centre).mpr (Or.inl rfl)
    refine ConnectedWithin.of_center centreStored fun node stored different => ?_
    have leaf := ((mem_star node).mp stored).resolve_left different
    have lists := (lists_star outside centre node).mpr (Or.inl ⟨rfl, leaf⟩)
    exact ⟨⟨stored, centreStored, Or.inr lists⟩, centreStored, stored, Or.inl lists⟩
  several := by
    obtain ⟨leaf, member⟩ := List.exists_mem_of_ne_nil leaves nonempty
    have both : [centre, leaf] ⊆ (star centre leaves).networktopo.keys := by
      intro node inside
      rw [← AList.mem_keys, mem_star]
      rcases List.mem_pair.mp inside with rfl | rfl
      · exact Or.inl rfl
      · exact Or.inr member
    have different : centre ≠ leaf := fun same => outside (same ▸ member)
    exact (List.subperm_of_subset (by simpa using different) both).length_le

end Star

end NetworkTopo

end Veil
