import Veil.Assignment

/-! The VIDs of a connected network: one cluster, different VIDs, and connected subtrees. -/

namespace Veil

theorem VID.byte_eq_zero {vid : VID} (switch : vid.IsSwitchVID) {i : Nat} (last : 4 ≤ i)
    (small : i ≤ 5) :
    vid.byte i = 0 := by
  apply BitVec.eq_of_getLsbD_eq
  intro bit bound
  rw [VID.getLsbD_byte]
  have inside : 8 * (5 - i) + bit < 48 := by omega
  have cleared : vid.getLsbD (8 * (5 - i) + bit) =
      (vid.clearBelow 16).getLsbD (8 * (5 - i) + bit) := by
    rw [← VID.getSwitchVID_eq, switch]
  have low : ¬16 ≤ 8 * (5 - i) + bit := by omega
  have zero : (0 : BitVec 8).getLsbD bit = false := BitVec.getLsbD_zero
  rw [cleared, VID.getLsbD_clearBelow _ _ _ inside, zero]
  simp [low]

namespace NetworkTopo

open HashTable
open Clusters (Neighbors Belongs Live)

theorem mem_tree_iff {topo : NetworkTopo} {macs : IterationOrder EtherAddress}
    {labels : IterationOrder Nat} (stored : 0 < topo.networktopo.keys.length)
    (one : (topo.cluster macs labels).1.clusterTopo.keys.length ≤ 1) {i : Nat} :
    i ∈ (topo.tree macs labels).leaves ↔ i < (topo.ids macs).length := by
  obtain ⟨labelled, length, -⟩ := cluster_labelled macs labels stored
  rw [mem_tree macs labels stored, ← length]
  constructor
  · rintro ⟨node, found, -⟩
    exact (List.getElem?_eq_some_iff.mp found).1
  · intro bound
    have found := List.getElem?_eq_getElem bound
    have present (label : Nat) (j : Nat)
        (inside : Belongs (topo.cluster macs labels).1.nodes j label) :
        label ∈ (topo.cluster macs labels).1.clusterTopo.keys :=
      AList.mem_keys.mp ((labelled.live label).mpr (Clusters.live_iff.mpr ⟨j, inside⟩))
    have own := present _ i ⟨_, found, rfl⟩
    have first := present 0 0 labelled.zero
    obtain ⟨only, single⟩ := List.length_eq_one_iff.mp
      (Nat.le_antisymm one (List.length_pos_of_mem first))
    rw [single, List.mem_singleton] at own first
    exact ⟨_, found, own.trans first.symm⟩

def spelled (topo : NetworkTopo) (macs : IterationOrder EtherAddress) (labels : IterationOrder Nat)
    (mac : EtherAddress) : VID :=
  convert (withRoom (topo.tree macs labels).height
    ((topo.tree macs labels).code ((topo.ids macs).idxOf mac)))

theorem spelled_eq {topo : NetworkTopo} {macs : IterationOrder EtherAddress}
    (labels : IterationOrder Nat) {i : Nat} {mac : EtherAddress}
    (node : (topo.ids macs)[i]? = some mac) :
    topo.spelled macs labels mac =
      convert (withRoom (topo.tree macs labels).height ((topo.tree macs labels).code i)) := by
  rw [spelled, ((idxOf_eq_iff (nodup_ids macs)).mpr node).2]

section Connected

variable {topo : NetworkTopo} {now : Nat} (network : topo.Connected now)
  (few : topo.networktopo.keys.length ≤ 5001) (macs : IterationOrder EtherAddress)
  (labels : IterationOrder Nat)
include network

theorem Connected.stored : 0 < topo.networktopo.keys.length :=
  Nat.lt_of_lt_of_le Nat.two_pos network.several

include few

theorem Connected.mem_leaves {i : Nat} :
    i ∈ (topo.tree macs labels).leaves ↔ i < (topo.ids macs).length :=
  mem_tree_iff network.stored ((network.cluster macs labels).2.2.2 few).1

theorem Connected.node2vid_eq {i : Nat} (bound : i < (topo.ids macs).length) :
    (topo.node2vid macs labels)[i]? = some ((topo.tree macs labels).code i) :=
  node2vid_tree macs labels network.stored ((network.mem_leaves few macs labels).mpr bound)

theorem Connected.spelled_inj (fits : (topo.tree macs labels).height ≤ 32)
    {mac other : EtherAddress} (stored : mac ∈ topo.networktopo)
    (otherStored : other ∈ topo.networktopo)
    (same : topo.spelled macs labels mac = topo.spelled macs labels other) : mac = other := by
  obtain ⟨i, node⟩ := (mem_iff_ids macs mac).mp stored
  obtain ⟨j, otherNode⟩ := (mem_iff_ids macs other).mp otherStored
  have length (k : Nat) : (withRoom (topo.tree macs labels).height
      ((topo.tree macs labels).code k)).length =
        32 := length_withRoom fits (Dendrogram.length_code _ k)
  have leaf (k : Nat) (member : EtherAddress) (found : (topo.ids macs)[k]? = some member) :
      k ∈ (topo.tree macs labels).leaves :=
    (network.mem_leaves few macs labels).mpr (List.getElem?_eq_some_iff.mp found).1
  rw [spelled_eq labels node, spelled_eq labels otherNode, convert_inj (length i) (length j),
    withRoom_inj] at same
  have position := (topo.tree macs labels).code_inj (leaf i mac node) (leaf j other otherNode) same
  rw [← position, node, Option.some.injEq] at otherNode
  exact otherNode

theorem Connected.assigned_spelled (fits : vidlen (topo.node2vid macs labels) ≤ 32)
    {mac : EtherAddress} (stored : mac ∈ topo.networktopo) :
    (topo.performVIDAssignment now macs labels).1.ether2vid.lookup mac =
      some (topo.spelled macs labels mac) := by
  obtain ⟨i, node⟩ := (mem_iff_ids macs mac).mp stored
  have bound := (List.getElem?_eq_some_iff.mp node).1
  have several := network.several
  have string : ((topo.purged now macs).node2vid macs labels)[i]? =
      some ((topo.tree macs labels).code i) := by
    rw [network.purged_eq macs]
    exact network.node2vid_eq few macs labels bound
  rw [spelled_eq labels node, ← vidlen_eq macs labels network.stored]
  rw [← network.purged_eq macs] at fits node several
  have lookup := assigned several fits node string
  rwa [network.purged_eq macs] at lookup

end Connected

structure UniquelyNamed (topo after : NetworkTopo) : Prop where
  named : ∀ mac ∈ topo.networktopo, ∃ vid, after.ether2vid.lookup mac = some vid ∧ vid ≠ 0 ∧
    vid.byte 4 = 0 ∧ vid.byte 5 = 0
  distinct : ∀ mac ∈ topo.networktopo, ∀ other ∈ topo.networktopo,
    after.ether2vid.lookup mac = after.ether2vid.lookup other → mac = other

section Connected

variable {topo : NetworkTopo} {now : Nat} (network : topo.Connected now)
  (macs : IterationOrder EtherAddress) (labels : IterationOrder Nat)
include network

theorem Connected.uniquelyNamed (few : topo.networktopo.keys.length ≤ 5001)
    (fits : vidlen (topo.node2vid macs labels) ≤ 32) :
    UniquelyNamed topo (topo.performVIDAssignment now macs labels).1 := by
  have height := vidlen_eq macs labels network.stored
  refine ⟨?_, ?_⟩
  · intro mac stored
    have length : (withRoom (topo.tree macs labels).height
        ((topo.tree macs labels).code ((topo.ids macs).idxOf mac))).length = 32 :=
      length_withRoom (height ▸ fits) (Dendrogram.length_code _ _)
    have switch := convert_isSwitchVID (Nat.le_of_eq length)
    refine ⟨_, network.assigned_spelled few macs labels fits stored, ?_,
      VID.byte_eq_zero switch (by decide) (by decide),
        VID.byte_eq_zero switch (by decide) (by decide)⟩
    intro zero
    have positive := BitString.value_pos
      ((topo.tree macs labels).getLast?_code ((topo.ids macs).idxOf mac))
    have number := convert_toNat (Nat.le_of_eq length)
    have none : (0 : VID).toNat = 0 := rfl
    rw [spelled] at zero
    rw [zero, none, value_withRoom] at number
    have product := Nat.mul_pos positive
      (Nat.two_pow_pos
        (32 - (topo.tree macs labels).height - (30 - (topo.tree macs labels).height)))
    omega
  · intro mac stored other otherStored same
    rw [network.assigned_spelled few macs labels fits stored,
      network.assigned_spelled few macs labels fits otherStored, Option.some.injEq] at same
    exact network.spelled_inj few macs labels (height ▸ fits) stored otherStored same

/-- The loop ends with one cluster; the strings have one length and are distinct; and when they
fit, so are the VIDs. -/
theorem Connected.unique_vids (few : topo.networktopo.keys.length ≤ 5000) :
    (topo.cluster macs labels).2 = .oneCluster ∧
      (topo.cluster macs labels).1.clusterTopo.keys.length = 1 ∧
      (topo.node2vid macs labels).length = topo.networktopo.keys.length ∧
      (∀ bits ∈ topo.node2vid macs labels, bits.length = vidlen (topo.node2vid macs labels)) ∧
      (topo.node2vid macs labels).Nodup ∧
      (vidlen (topo.node2vid macs labels) ≤ 32 →
        UniquelyNamed topo (topo.performVIDAssignment now macs labels).1) := by
  have bounded : topo.networktopo.keys.length ≤ 5001 := by omega
  obtain ⟨invariant, -, -, ends⟩ := network.cluster macs labels
  obtain ⟨one, exit⟩ := ends bounded
  have zero : 0 ∈ (topo.cluster macs labels).1.clusterTopo.keys := AList.mem_keys.mp
    ((invariant.quotient.live 0).mpr (Clusters.live_iff.mpr ⟨0, invariant.quotient.zero⟩))
  have length := length_node2vid macs labels network.stored
  have string (i : Nat) (bits : List Bool) (found : (topo.node2vid macs labels)[i]? = some bits) :
      i ∈ (topo.tree macs labels).leaves ∧ bits = (topo.tree macs labels).code i := by
    have bound := (List.getElem?_eq_some_iff.mp found).1
    rw [length] at bound
    rw [network.node2vid_eq bounded macs labels bound, Option.some.injEq] at found
    exact ⟨(network.mem_leaves bounded macs labels).mpr bound, found.symm⟩
  refine ⟨exit, Nat.le_antisymm one (List.length_pos_of_mem zero),
    length.trans (length_ids macs), ?_, ?_,
    network.uniquelyNamed macs labels bounded⟩
  · intro bits member
    obtain ⟨i, found⟩ := List.mem_iff_getElem?.mp member
    rw [(string i bits found).2, Dendrogram.length_code, vidlen_eq macs labels network.stored]
  · rw [List.nodup_iff_injective_getElem]
    rintro ⟨i, bound⟩ ⟨j, otherBound⟩ same
    obtain ⟨leaf, code⟩ := string i _ (List.getElem?_eq_getElem bound)
    obtain ⟨otherLeaf, otherCode⟩ := string j _ (List.getElem?_eq_getElem otherBound)
    simp only at same
    rw [code, otherCode] at same
    exact Fin.ext ((topo.tree macs labels).code_inj leaf otherLeaf same)

omit network in
theorem unique_vids_pair :
    UniquelyNamed (star 1 [2]) ((star 1 [2]).performVIDAssignment 0 (.stored _) (.stored _)).1 :=
  ((star_connected (by decide) (by decide)).unique_vids (.stored _) (.stored _)
    (by decide +kernel)).2.2.2.2.2 (by decide +kernel)

/-- The nodes whose VIDs are within a distance of a VID are connected. -/
theorem Connected.subtree_connected (few : topo.networktopo.keys.length ≤ 5000)
    (fits : vidlen (topo.node2vid macs labels) ≤ 32) {mac : EtherAddress} {vid : VID}
    (stored : mac ∈ topo.networktopo)
    (assigned : (topo.performVIDAssignment now macs labels).1.ether2vid.lookup mac = some vid)
    (level : Nat) : ConnectedWithin (Linked topo.networktopo) fun other =>
      other ∈ topo.networktopo ∧ ∃ otherVid,
        (topo.performVIDAssignment now macs labels).1.ether2vid.lookup other = some otherVid ∧
          vid.logicalDistance otherVid ≤ level := by
  have bounded : topo.networktopo.keys.length ≤ 5001 := by omega
  obtain ⟨i, node⟩ := (mem_iff_ids macs mac).mp stored
  have leaf := (network.mem_leaves bounded macs labels).mpr (List.getElem?_eq_some_iff.mp node).1
  rw [network.assigned_spelled bounded macs labels fits stored, spelled_eq labels node,
    Option.some.injEq] at assigned
  subst vid
  have height := vidlen_eq macs labels network.stored
  have near (k : Nat) : (convert (withRoom (topo.tree macs labels).height
      ((topo.tree macs labels).code i))).logicalDistance
          (convert (withRoom (topo.tree macs labels).height
        ((topo.tree macs labels).code k))) ≤ level ↔
      ((topo.tree macs labels).code k).take (48 - level - (30 - (topo.tree macs labels).height)) =
        ((topo.tree macs labels).code i).take
          (48 - level - (30 - (topo.tree macs labels).height)) := by
    rw [logicalDistance_convert (length_withRoom (height ▸ fits) (Dendrogram.length_code _ i))
      (length_withRoom (height ▸ fits) (Dendrogram.length_code _ k)),
      take_withRoom (Dendrogram.length_code _ i) (Dendrogram.length_code _ k), eq_comm]
  have invariant := (network.cluster macs labels).1
  have alike :=
    (invariant.joined 0 (Clusters.live_iff.mpr ⟨0, invariant.quotient.zero⟩)).alike_connected
    (fun _ _ => Adjacent.symm) (48 - level - (30 - (topo.tree macs labels).height)) leaf
  refine (ConnectedWithin.of_byIndex alike fun k inside => ?_).congr fun other => ?_
  · exact (network.mem_leaves bounded macs labels).mp inside.1
  · constructor
    · rintro ⟨k, ⟨inside, same⟩, otherNode⟩
      have otherStored := (mem_iff_ids macs other).mpr ⟨k, otherNode⟩
      refine ⟨otherStored, _, network.assigned_spelled bounded macs labels fits otherStored, ?_⟩
      rw [spelled_eq labels otherNode]
      exact (near k).mpr same
    · rintro ⟨otherStored, otherVid, found, close⟩
      obtain ⟨k, otherNode⟩ := (mem_iff_ids macs other).mp otherStored
      rw [network.assigned_spelled bounded macs labels fits otherStored,
        spelled_eq labels otherNode,
        Option.some.injEq] at found
      subst otherVid
      refine ⟨k, ⟨?_, (near k).mp close⟩, otherNode⟩
      exact (network.mem_leaves bounded macs labels).mpr (List.getElem?_eq_some_iff.mp otherNode).1

omit network in
theorem subtree_connected_pair : ConnectedWithin (Linked (star 1 [2]).networktopo) fun other =>
    other ∈ (star 1 [2]).networktopo ∧ ∃ otherVid,
      ((star 1 [2]).performVIDAssignment 0 (.stored _) (.stored _)).1.ether2vid.lookup other =
        some otherVid ∧ VID.logicalDistance 0x0000000c0000 otherVid ≤ 20 :=
  (star_connected (by decide) (by decide)).subtree_connected (.stored _) (.stored _)
      (by decide +kernel)
    (by decide +kernel) ((mem_star 1).mpr (Or.inl rfl)) (by decide +kernel) 20

end Connected

end NetworkTopo

end Veil
