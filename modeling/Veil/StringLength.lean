import Veil.QueriedLevels

/-! How long the strings of a connected network get, and when they fit into a VID. They are as
long as the tree is high: at most as long as there are nodes, and in a star exactly so. -/

namespace Veil

namespace NetworkTopo

open HashTable

section Connected

variable {topo : NetworkTopo} {now : Nat} (network : topo.Connected now)
  (macs : IterationOrder EtherAddress) (labels : IterationOrder Nat)
include network

theorem Connected.leaves_perm (few : topo.networktopo.keys.length ≤ 5000) :
    (topo.tree macs labels).leaves.Perm (List.range topo.networktopo.keys.length) := by
  refine (List.perm_ext_iff_of_nodup (tree_apart macs labels network.stored).nodup_leaves
    List.nodup_range).mpr fun i => ?_
  rw [network.mem_leaves (by omega) macs labels, length_ids, List.mem_range]

theorem Connected.tree_joined :
    (topo.tree macs labels).Joined (Adjacent topo.networktopo (topo.ids macs)) := by
  obtain ⟨invariant, -⟩ := network.cluster macs labels
  exact invariant.joined 0 (Clusters.live_iff.mpr ⟨0, invariant.quotient.zero⟩)

theorem Connected.length_spread (fits : (topo.tree macs labels).height ≤ 32)
    (few : topo.networktopo.keys.length ≤ 5000) :
    ∀ bits ∈ spread (topo.node2vid macs labels), bits.length = 32 := by
  have height := vidlen_eq macs labels network.stored
  intro bits member
  rw [spread_eq] at member
  obtain ⟨string, inside, rfl⟩ := List.mem_map.mp member
  rw [height]
  refine length_withRoom fits ?_
  rw [← height]
  exact (network.unique_vids macs labels few).2.2.2.1 string inside

/-- The strings fit, and every node gets its VID, or the mappings are left alone; up to 32 nodes
they fit. -/
theorem Connected.assigned_or_refused (few : topo.networktopo.keys.length ≤ 5000) :
    (∀ bits ∈ topo.node2vid macs labels, bits.length = (topo.tree macs labels).height) ∧
      ((topo.tree macs labels).height ≤ 32 →
        (∀ bits ∈ spread (topo.node2vid macs labels), bits.length = 32) ∧
          ∀ mac ∈ topo.networktopo,
              (topo.performVIDAssignment now macs labels).1.ether2vid.lookup mac =
            some (topo.spelled macs labels mac)) ∧
      (32 < (topo.tree macs labels).height →
        topo.performVIDAssignment now macs labels = (topo, true)) ∧
      (topo.networktopo.keys.length ≤ 32 → (topo.tree macs labels).height ≤ 32) := by
  have height := vidlen_eq macs labels network.stored
  refine ⟨?_, fun fits => ⟨network.length_spread macs labels fits few, fun mac stored => ?_⟩,
    fun long => ?_,
    fun small => ?_⟩
  · rw [← height]
    exact (network.unique_vids macs labels few).2.2.2.1
  · exact network.assigned_spelled (by omega) macs labels (height ▸ fits) stored
  · have refused := @performVIDAssignment_refused topo now macs labels
    rw [network.purged_eq macs] at refused
    exact refused network.several (height ▸ long)
  · exact (tree_height_le macs labels network.stored).trans small

end Connected

theorem assigned_or_refused_pair :
    (∀ bits ∈ (star 1 [2]).node2vid (.stored _) (.stored _),
        bits.length = ((star 1 [2]).tree (.stored _) (.stored _)).height) ∧
      (((star 1 [2]).tree (.stored _) (.stored _)).height ≤ 32 →
        (∀ bits ∈ spread ((star 1 [2]).node2vid (.stored _) (.stored _)), bits.length = 32) ∧
          ∀ mac ∈ (star 1 [2]).networktopo,
            ((star 1 [2]).performVIDAssignment 0 (.stored _) (.stored _)).1.ether2vid.lookup mac =
              some ((star 1 [2]).spelled (.stored _) (.stored _) mac)) ∧
      (32 < ((star 1 [2]).tree (.stored _) (.stored _)).height →
        (star 1 [2]).performVIDAssignment 0 (.stored _) (.stored _) = (star 1 [2], true)) ∧
      ((star 1 [2]).networktopo.keys.length ≤ 32 →
        ((star 1 [2]).tree (.stored _) (.stored _)).height ≤ 32) :=
  (star_connected (by decide) (by decide)).assigned_or_refused (.stored _) (.stored _) (by decide)

section Star

variable {centre : EtherAddress} {leaves : List EtherAddress} (nonempty : leaves ≠ [])
  (outside : centre ∉ leaves)

theorem length_keys_star (outside : centre ∉ leaves) (unique : leaves.Nodup) :
    (star centre leaves).networktopo.keys.length = leaves.length + 1 := by
  have absent : centre ∉ (insertAll (fun _ => [centre]) ∅ leaves).keys := by
    rw [← AList.mem_keys, mem_insertAll]
    exact not_or.mpr ⟨outside, AList.notMem_empty centre⟩
  rw [star, AList.keys_insert, List.erase_of_not_mem absent, List.length_cons,
    length_keys_insertAll _ unique]

include nonempty outside

theorem height_star (few : (star centre leaves).networktopo.keys.length ≤ 5000)
    (macs : IterationOrder EtherAddress) (labels : IterationOrder Nat) :
    ((star centre leaves).tree macs labels).height =
      (star centre leaves).networktopo.keys.length := by
  have network := star_connected nonempty outside
  have through :
      ∀ i j, Adjacent (star centre leaves).networktopo ((star centre leaves).ids macs) i j →
      i = ((star centre leaves).ids macs).idxOf centre ∨
        j = ((star centre leaves).ids macs).idxOf centre := by
    rintro i j ⟨node, other, first, last, -, -, lists⟩
    have position (k : Nat) (found : ((star centre leaves).ids macs)[k]? = some centre) :
        k = ((star centre leaves).ids macs).idxOf centre :=
      ((idxOf_eq_iff (nodup_ids macs)).mpr found).2.symm
    rw [lists_star outside, lists_star outside] at lists
    rcases lists with (⟨rfl, -⟩ | ⟨-, rfl⟩) | (⟨rfl, -⟩ | ⟨-, rfl⟩)
    · exact Or.inl (position i first)
    · exact Or.inr (position j last)
    · exact Or.inr (position j last)
    · exact Or.inl (position i first)
  rw [(network.tree_joined macs labels).height_eq_of_center through,
    (network.leaves_perm macs labels few).length_eq, List.length_range]

theorem star_refused (few : (star centre leaves).networktopo.keys.length ≤ 5000)
    (many : 32 < (star centre leaves).networktopo.keys.length) (macs : IterationOrder EtherAddress)
    (labels : IterationOrder Nat) :
    (star centre leaves).performVIDAssignment 0 macs labels = (star centre leaves, true) :=
  ((star_connected nonempty outside).assigned_or_refused macs labels few).2.2.1
    (by rwa [height_star nonempty outside few macs labels])

end Star

theorem exists_refused {count : Nat} (many : 32 < count) (few : count ≤ 5000) :
    ∃ topo : NetworkTopo, topo.Connected 0 ∧ topo.networktopo.keys.length = count ∧
      topo.ether2vid = ∅ ∧
      ∀ macs labels, topo.performVIDAssignment 0 macs labels = (topo, true) := by
  have unique : ((List.range (count - 1)).map fun i => BitVec.ofNat 48 (i + 1)).Nodup := by
    refine List.Nodup.map_on (fun i lower j upper same => ?_) List.nodup_range
    rw [List.mem_range] at lower upper
    bv_omega
  have outside : (0 : EtherAddress) ∉ (List.range (count - 1)).map fun i =>
      BitVec.ofNat 48 (i + 1) := by
    rw [List.mem_map]
    rintro ⟨i, inside, same⟩
    rw [List.mem_range] at inside
    bv_omega
  have nonempty : ((List.range (count - 1)).map fun i => BitVec.ofNat 48 (i + 1)) ≠ [] :=
    List.ne_nil_of_length_pos (by rw [List.length_map, List.length_range]; omega)
  have size := length_keys_star outside unique
  rw [List.length_map, List.length_range, Nat.sub_add_cancel (by omega)] at size
  exact ⟨star 0 _, star_connected nonempty outside, size, rfl,
    star_refused nonempty outside (size.le.trans few) (many.trans_eq size.symm)⟩

/-- A switch with 32 neighbours. -/
theorem not_always_assigned :
    ¬∀ (topo : NetworkTopo) (now : Nat) (macs : IterationOrder EtherAddress)
        (labels : IterationOrder Nat),
      topo.Connected now → topo.networktopo.keys.length ≤ 5000 →
        (∀ bits ∈ spread (topo.node2vid macs labels), bits.length ≤ 32) ∧
          ∀ mac ∈ topo.networktopo, ∃ vid,
            (topo.performVIDAssignment now macs labels).1.ether2vid.lookup mac = some vid := by
  intro always
  obtain ⟨topo, network, size, unassigned, refused⟩ :=
    @exists_refused 33 (by decide) (by decide)
  obtain ⟨mac, rest, keys⟩ := List.exists_cons_of_length_eq_add_one size
  have stored : mac ∈ topo.networktopo := AList.mem_keys.mpr (keys ▸ List.mem_cons_self)
  obtain ⟨vid, assigned⟩ := (always topo 0 (.stored _) (.stored _) network (by omega)).2 mac stored
  rw [refused, unassigned] at assigned
  cases assigned

end NetworkTopo

end Veil
