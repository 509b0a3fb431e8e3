import Veil.BuildRouteTable
import Veil.UniqueVids

/-! Which levels of the tree separate two switches, and whether `buildroutetable.cc` queries them.
The strings of a tree of height `h` end two bits above the host part, so the levels go up to `18 +
h`; the queries stop at level 32. -/

namespace Veil

namespace NetworkTopo

open HashTable

def AllQueried (topo : NetworkTopo) : Prop :=
  ∀ mac ∈ topo.networktopo, ∀ other ∈ topo.networktopo, ∀ u v,
    topo.ether2vid.lookup mac = some u → topo.ether2vid.lookup other = some v → u ≠ v →
      u.logicalDistance v ∈ BuildRouteTable.queryLevels

theorem foldl_assign_networktopo (nodes : List (EtherAddress × List Bool))
    (state : NetworkTopo × Bool) :
    (nodes.foldl assign state).1.networktopo = state.1.networktopo := by
  induction nodes generalizing state with
  | nil => rfl
  | cons first rest ih =>
      rw [List.foldl_cons, ih]
      simp only [assign]
      split
      · split <;> rfl
      · rfl

section Levels

variable {topo : NetworkTopo} {now : Nat} {macs : IterationOrder EtherAddress}
  {labels : IterationOrder Nat}

theorem eq_of_alone (alone : topo.networktopo.keys.length ≤ 1) {mac other : EtherAddress}
    (stored : mac ∈ topo.networktopo) (otherStored : other ∈ topo.networktopo) : mac = other := by
  rw [AList.mem_keys] at stored otherStored
  obtain ⟨only, single⟩ := List.length_eq_one_iff.mp
    (Nat.le_antisymm alone (List.length_pos_of_mem stored))
  rw [single, List.mem_singleton] at stored otherStored
  exact stored.trans otherStored.symm

theorem height_alone (alone : topo.networktopo.keys.length ≤ 1) :
    (topo.tree macs labels).height = 1 := by
  have kept : topo.forest macs labels = .leaf :=
    Clusters.grow_alone labels maxIter _ (by rwa [length_keys_firstClusters]) _
  rw [tree, kept]
  rfl

theorem logicalDistance_convert_low {length : Nat} (low : length ≤ 14) {left right : List Bool}
    (leftFits : (withRoom length left).length ≤ 32)
    (rightFits : (withRoom length right).length ≤ 32) :
    (convert (withRoom length left)).logicalDistance (convert (withRoom length right)) ≤ 32 := by
  have small (bits : List Bool) (fits : (withRoom length bits).length ≤ 32) :
      (convert (withRoom length bits)).toNat >>> 32 = 0 := by
    have bound := BitString.value_lt bits
    have suffix : 32 - length - (30 - length) = 2 := by omega
    have short : bits.length ≤ 14 := by
      simp only [withRoom, List.length_append, List.length_replicate] at fits
      omega
    have power : 2 ^ bits.length ≤ 2 ^ 14 := Nat.pow_le_pow_right Nat.two_pos short
    rw [convert_toNat fits, value_withRoom, suffix, Nat.shiftRight_eq_div_pow]
    omega
  rw [VID.logicalDistance_eq, prefixDistance.le_iff, small left leftFits, small right rightFits]

theorem logicalDistance_convert_high {length : Nat} (high : 15 ≤ length) (fits : length ≤ 32)
    {left right : List Bool} (leftLength : left.length = length)
    (rightLength : right.length = length) (first : left.head? ≠ right.head?) :
    32 < (convert (withRoom length left)).logicalDistance (convert (withRoom length right)) := by
  by_contra near
  rw [Nat.not_lt, logicalDistance_convert (length_withRoom fits leftLength)
    (length_withRoom fits rightLength), take_withRoom leftLength rightLength] at near
  obtain ⟨count, positive⟩ : ∃ count, 48 - 32 - (30 - length) = count + 1 :=
    ⟨48 - 32 - (30 - length) - 1, by omega⟩
  rw [positive] at near
  have same := congrArg List.head? near
  rw [List.head?_take, List.head?_take] at same
  simp at same
  exact first same

theorem vidlen_le_of_spread {node2vid : List (List Bool)} (nonempty : node2vid ≠ [])
    (fits : ∀ bits ∈ spread node2vid, bits.length ≤ 32) : vidlen node2vid ≤ 32 := by
  obtain ⟨first, rest, rfl⟩ := List.exists_cons_of_ne_nil nonempty
  have length := fits (withRoom (vidlen (first :: rest)) first)
    (by rw [spread_eq]; exact List.mem_map_of_mem List.mem_cons_self)
  simp only [withRoom, vidlen, List.headD_cons, List.length_append,
    List.length_replicate] at length ⊢
  omega

theorem performVIDAssignment_networktopo (topo : NetworkTopo) (now : Nat)
    (macs : IterationOrder EtherAddress) (labels : IterationOrder Nat) :
    (topo.performVIDAssignment now macs labels).1.networktopo =
      (topo.purged now macs).networktopo := by
  simp only [performVIDAssignment]
  split
  · rfl
  · split
    · rfl
    · exact foldl_assign_networktopo _ _

theorem exists_string (several : 2 ≤ (topo.purged now macs).networktopo.keys.length)
    (fits : ∀ bits ∈ spread ((topo.purged now macs).node2vid macs labels), bits.length ≤ 32)
    {mac : EtherAddress} (stored : mac ∈ (topo.purged now macs).networktopo) :
    ∃ bits, (withRoom ((topo.purged now macs).tree macs labels).height bits).length ≤ 32 ∧
      (topo.performVIDAssignment now macs labels).1.ether2vid.lookup mac =
        some (convert (withRoom ((topo.purged now macs).tree macs labels).height bits)) := by
  have nonempty : 0 < (topo.purged now macs).networktopo.keys.length := by omega
  obtain ⟨i, node⟩ := (mem_iff_ids macs mac).mp stored
  have bound := (List.getElem?_eq_some_iff.mp node).1
  rw [← length_node2vid macs labels nonempty] at bound
  have string := List.getElem?_eq_getElem bound
  rw [← vidlen_eq macs labels nonempty]
  refine ⟨_, fits _ ?_,
    assigned several (vidlen_le_of_spread (node2vid_ne_nil macs labels nonempty) fits) node string⟩
  rw [spread_eq]
  exact List.mem_map_of_mem (List.getElem_mem bound)

theorem queried_of_alone (alone : (topo.purged now macs).networktopo.keys.length ≤ 1) :
    AllQueried (topo.performVIDAssignment now macs labels).1 := by
  rw [performVIDAssignment_alone alone]
  intro mac stored other otherStored u v found otherFound different
  rw [eq_of_alone alone stored otherStored, otherFound, Option.some.injEq] at found
  exact (different found.symm).elim

theorem queried_of_low (several : 2 ≤ (topo.purged now macs).networktopo.keys.length)
    (fits : ∀ bits ∈ spread ((topo.purged now macs).node2vid macs labels), bits.length ≤ 32)
    (low : ((topo.purged now macs).tree macs labels).height ≤ 14) :
    AllQueried (topo.performVIDAssignment now macs labels).1 := by
  intro mac stored other otherStored u v found otherFound different
  rw [performVIDAssignment_networktopo] at stored otherStored
  obtain ⟨bits, bitsFit, given⟩ := exists_string several fits stored
  obtain ⟨otherBits, otherFit, otherGiven⟩ := exists_string several fits otherStored
  rw [given, Option.some.injEq] at found
  rw [otherGiven, Option.some.injEq] at otherFound
  subst u v
  exact (BuildRouteTable.mem_queryLevels _).mpr
    ⟨VID.logicalDistance_gt_of_ne (convert_isSwitchVID bitsFit)
    (convert_isSwitchVID otherFit) different, logicalDistance_convert_low low bitsFit otherFit⟩

theorem assigned_leaf (several : 2 ≤ (topo.purged now macs).networktopo.keys.length)
    (fits : vidlen ((topo.purged now macs).node2vid macs labels) ≤ 32) {i : Nat}
    (leaf : i ∈ ((topo.purged now macs).tree macs labels).leaves) :
    ∃ mac ∈ (topo.performVIDAssignment now macs labels).1.networktopo,
      (topo.performVIDAssignment now macs labels).1.ether2vid.lookup mac =
        some (convert (withRoom ((topo.purged now macs).tree macs labels).height
          (((topo.purged now macs).tree macs labels).code i))) := by
  have nonempty : 0 < (topo.purged now macs).networktopo.keys.length := by omega
  have string := node2vid_tree macs labels nonempty leaf
  have bound := (List.getElem?_eq_some_iff.mp string).1
  rw [length_node2vid macs labels nonempty] at bound
  refine ⟨((topo.purged now macs).ids macs)[i], ?_, ?_⟩
  · rw [performVIDAssignment_networktopo]
    exact (mem_ids macs _).mp (List.getElem_mem bound)
  · rw [← vidlen_eq macs labels nonempty]
    exact assigned several fits (List.getElem?_eq_getElem bound) string

theorem not_queried_of_high (several : 2 ≤ (topo.purged now macs).networktopo.keys.length)
    (fits : vidlen ((topo.purged now macs).node2vid macs labels) ≤ 32)
    (high : 15 ≤ ((topo.purged now macs).tree macs labels).height) :
    ¬AllQueried (topo.performVIDAssignment now macs labels).1 := by
  intro queried
  have nonempty : 0 < (topo.purged now macs).networktopo.keys.length := by omega
  have height := vidlen_eq macs labels nonempty
  -- one node of each half, whose strings differ in the first bit
  obtain ⟨left, leftLeaf, right, rightLeaf, leftFirst, rightFirst⟩ :=
    Dendrogram.exists_first_bits (tree_apart macs labels nonempty) (by omega)
  obtain ⟨mac, stored, found⟩ := assigned_leaf several fits leftLeaf
  obtain ⟨other, otherStored, otherFound⟩ := assigned_leaf several fits rightLeaf
  have far := logicalDistance_convert_high high (height ▸ fits)
    (Dendrogram.length_code ((topo.purged now macs).tree macs labels) left)
    (Dendrogram.length_code ((topo.purged now macs).tree macs labels) right)
    (by rw [leftFirst, rightFirst]; decide)
  have level := queried mac stored other otherStored _ _ found otherFound (by
    intro same
    rw [same, VID.logicalDistance_eq, prefixDistance, Nat.xor_self] at far
    exact absurd far (by decide))
  exact absurd ((BuildRouteTable.mem_queryLevels _).mp level).2 (Nat.not_le.mpr far)

/-- When the VIDs fit, every level between them is queried exactly when the merges nest at most 14
deep. -/
theorem queried_iff
    (fits : ∀ bits ∈ spread ((topo.purged now macs).node2vid macs labels), bits.length ≤ 32) :
    AllQueried (topo.performVIDAssignment now macs labels).1 ↔
      ((topo.purged now macs).tree macs labels).height ≤ 14 := by
  by_cases alone : (topo.purged now macs).networktopo.keys.length ≤ 1
  · rw [height_alone alone]
    exact iff_of_true (queried_of_alone alone) (by decide)
  · have several : 2 ≤ (topo.purged now macs).networktopo.keys.length := by omega
    have short := vidlen_le_of_spread (node2vid_ne_nil macs labels (by omega)) fits
    constructor
    · intro queried
      by_contra high
      exact not_queried_of_high several short (by omega) queried
    · exact queried_of_low several fits

end Levels

theorem queried_iff_star :
    AllQueried ((star 1 [2, 3, 4]).performVIDAssignment 0 (.stored _) (.stored _)).1 ↔
    (((star 1 [2, 3, 4]).purged 0 (.stored _)).tree (.stored _) (.stored _)).height ≤ 14 :=
  queried_iff (by decide +kernel)

/-- A switch with fourteen neighbours: the tree is fifteen high, and two VIDs are 33 levels
apart. -/
theorem exists_unqueried : ∃ (topo : NetworkTopo) (now : Nat) (macs : IterationOrder EtherAddress)
    (labels : IterationOrder Nat), topo.Connected now ∧
      (∀ bits ∈ spread ((topo.purged now macs).node2vid macs labels), bits.length ≤ 32) ∧
      ¬AllQueried (topo.performVIDAssignment now macs labels).1 := by
  refine ⟨star 1 [2, 3, 4, 5, 6, 7, 8, 9, 10, 11, 12, 13, 14, 15], 0, .stored _, .stored _,
    star_connected (by decide) (by decide), by decide +kernel, ?_⟩
  intro queried
  have level := queried 1 (by decide +kernel) 14 (by decide +kernel) 0x0000000c0000 0x000100040000
    (by decide +kernel) (by decide +kernel) (by decide)
  exact absurd level (by decide +kernel)

theorem tree_height_le {topo : NetworkTopo} (macs : IterationOrder EtherAddress)
    (labels : IterationOrder Nat) (stored : 0 < topo.networktopo.keys.length) :
    (topo.tree macs labels).height ≤ topo.networktopo.keys.length := by
  have inside : (topo.tree macs labels).leaves ⊆ List.range (topo.ids macs).length := by
    intro i leaf
    have bound := (List.getElem?_eq_some_iff.mp (node2vid_tree macs labels stored leaf)).1
    rwa [List.mem_range, ← length_node2vid macs labels stored]
  have few := ((tree_apart macs labels stored).nodup_leaves.subperm inside).length_le
  rw [List.length_range, length_ids] at few
  exact Nat.le_trans (topo.tree macs labels).height_le_length_leaves few

theorem queried_of_few {topo : NetworkTopo} {now : Nat} {macs : IterationOrder EtherAddress}
    {labels : IterationOrder Nat} (few : (topo.purged now macs).networktopo.keys.length ≤ 14)
    (fits : ∀ bits ∈ spread ((topo.purged now macs).node2vid macs labels), bits.length ≤ 32) :
    AllQueried (topo.performVIDAssignment now macs labels).1 := by
  by_cases alone : (topo.purged now macs).networktopo.keys.length ≤ 1
  · exact queried_of_alone alone
  · exact queried_of_low (by omega) fits (Nat.le_trans (tree_height_le macs labels (by omega)) few)

end NetworkTopo

end Veil
