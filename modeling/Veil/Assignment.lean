import Veil.Topology

/-! From the bit strings of the clustering to the VIDs of the nodes. -/

namespace Veil

namespace NetworkTopo

open HashTable

def withRoom (length : Nat) (bits : List Bool) : List Bool :=
  List.replicate (30 - length) false ++ bits ++ List.replicate (32 - length - (30 - length)) false

theorem addRoom_eq (rounds : Nat) (prefixlen : Int) (node2vid : List (List Bool)) :
    addRoom rounds prefixlen node2vid = node2vid.map fun bits =>
      List.replicate (min rounds prefixlen.toNat) false ++ bits ++
        List.replicate (rounds - prefixlen.toNat) false := by
  induction rounds generalizing prefixlen node2vid with
  | zero => simp [addRoom]
  | succ rounds ih =>
      rw [addRoom, ih, List.map_map]
      refine List.map_congr_left fun bits _ => ?_
      by_cases positive : 0 < prefixlen
      · have front : min (rounds + 1) prefixlen.toNat =
            min rounds (prefixlen - 1).toNat + 1 := by omega
        have back : rounds + 1 - prefixlen.toNat = rounds - (prefixlen - 1).toNat := by omega
        simp only [Function.comp_apply, if_pos positive, front, back, List.replicate_succ',
          List.append_assoc,
          List.cons_append, List.nil_append]
      · have front : prefixlen.toNat = 0 := by omega
        simp only [Function.comp_apply, if_neg positive, front, Int.toNat_zero, Nat.min_zero,
          List.replicate_zero, List.nil_append, Nat.sub_zero, List.replicate_succ,
            List.append_assoc,
          List.singleton_append]

theorem spread_eq (node2vid : List (List Bool)) :
    spread node2vid = node2vid.map (withRoom (vidlen node2vid)) := by
  have front : (32 - 2 - (vidlen node2vid : Int)).toNat = 30 - vidlen node2vid := by omega
  have all : min (32 - vidlen node2vid) (30 - vidlen node2vid) = 30 - vidlen node2vid := by omega
  rw [spread, addRoom_eq, front, all]
  rfl

theorem length_withRoom {length : Nat} (fits : length ≤ 32) {bits : List Bool}
    (same : bits.length = length) : (withRoom length bits).length = 32 := by
  simp only [withRoom, List.length_append, List.length_replicate]
  omega

theorem take_withRoom {length : Nat} {left right : List Bool} (leftLength : left.length = length)
    (rightLength : right.length = length) (count : Nat) :
    (withRoom length left).take count = (withRoom length right).take count ↔
      left.take (count - (30 - length)) = right.take (count - (30 - length)) := by
  simp only [withRoom, List.take_append, List.length_append, List.length_replicate, leftLength,
    rightLength, List.append_cancel_right_eq, List.append_cancel_left_eq]

theorem withRoom_inj {length : Nat} {left right : List Bool} :
    withRoom length left = withRoom length right ↔ left = right := by
  simp only [withRoom, List.append_cancel_right_eq, List.append_cancel_left_eq]

theorem value_withRoom (length : Nat) (bits : List Bool) : BitString.value (withRoom length bits) =
    BitString.value bits * 2 ^ (32 - length - (30 - length)) := by
  rw [withRoom, BitString.value_append, BitString.value_append, BitString.value_replicate_false,
    BitString.value_replicate_false, List.length_replicate, Nat.zero_mul,
      Nat.zero_add, Nat.add_zero]

theorem convert_toNat {bits : List Bool} (fits : bits.length ≤ 32) :
    (convert bits).toNat = BitString.value bits * 2 ^ 16 := by
  have small : BitString.value bits < 2 ^ 32 :=
    Nat.lt_of_lt_of_le (BitString.value_lt bits) (Nat.pow_le_pow_right (by decide) fits)
  have number : strtoul bits % 2 ^ 32 = BitString.value bits := by
    rw [strtoul, Nat.min_eq_left (by omega), Nat.mod_eq_of_lt small]
  have whole : convert bits = BitVec.ofNat 48 (BitString.value bits <<< 16) := by
    have four : List.range 4 = [0, 1, 2, 3] := rfl
    rw [convert, number, four]
    apply BitVec.eq_of_getLsbD_eq
    intro bit bound
    simp only [List.foldl_cons, List.foldl_nil, VID.getLsbD_setByte _ _ _ _ bound,
      BitVec.getLsbD_ofNat,
      bound, decide_true, Bool.true_and, Nat.testBit_shiftRight, Nat.testBit_mod_two_pow,
      Nat.testBit_shiftLeft]
    generalize BitString.value bits = number
    have low : (0 : VID).getLsbD bit = false := BitVec.getLsbD_zero
    rw [low]
    grind
  rw [whole, BitVec.toNat_ofNat, Nat.shiftLeft_eq, Nat.mod_eq_of_lt (by omega)]

theorem convert_congr {left right : List Bool}
    (same : BitString.value left = BitString.value right) :
    convert left = convert right := by
  rw [convert, convert, strtoul, strtoul, same]

theorem convert_isSwitchVID {bits : List Bool} (fits : bits.length ≤ 32) :
    (convert bits).IsSwitchVID := by
  rw [VID.isSwitchVID_iff, convert_toNat fits, Nat.mul_mod_left]

theorem logicalDistance_convert {left right : List Bool} (leftLength : left.length = 32)
    (rightLength : right.length = 32) (level : Nat) :
    (convert left).logicalDistance (convert right) ≤ level ↔
      left.take (48 - level) = right.take (48 - level) := by
  by_cases high : 48 ≤ level
  · have none : 48 - level = 0 := by omega
    rw [none]
    exact ⟨fun _ => rfl, fun _ => Nat.le_trans (VID.logicalDistance_le _ _) high⟩
  · rw [VID.logicalDistance_eq, prefixDistance.le_iff, convert_toNat (Nat.le_of_eq leftLength),
      convert_toNat (Nat.le_of_eq rightLength), ← Nat.shiftLeft_eq, ← Nat.shiftLeft_eq]
    by_cases upper : 16 ≤ level
    · obtain ⟨shift, rfl⟩ := Nat.exists_eq_add_of_le upper
      have kept : 32 - shift = 48 - (16 + shift) := by omega
      rw [Nat.shiftRight_add, Nat.shiftRight_add, Nat.shiftLeft_shiftRight,
        Nat.shiftLeft_shiftRight,
        BitString.value_shiftRight left (by omega),
          BitString.value_shiftRight right (by omega), leftLength,
        rightLength, kept]
      exact BitString.value_inj (by simp [leftLength, rightLength])
    · have whole (bits : List Bool) (length : bits.length = 32) : bits.take (48 - level) = bits :=
        List.take_of_length_le (by omega)
      rw [← Nat.shiftLeft_sub _ (by omega), ← Nat.shiftLeft_sub _ (by omega), Nat.shiftLeft_eq,
        Nat.shiftLeft_eq, Nat.mul_left_inj (Nat.two_pow_pos _).ne', whole left leftLength,
        whole right rightLength]
      exact BitString.value_inj (leftLength.trans rightLength.symm)

theorem convert_inj {left right : List Bool} (leftLength : left.length = 32)
    (rightLength : right.length = 32) : convert left = convert right ↔ left = right := by
  rw [← BitVec.toNat_inj, convert_toNat (Nat.le_of_eq leftLength),
    convert_toNat (Nat.le_of_eq rightLength),
    Nat.mul_left_inj (Nat.two_pow_pos 16).ne',
      BitString.value_inj (leftLength.trans rightLength.symm)]

theorem assign_lookup (state : NetworkTopo × Bool) (node : EtherAddress × List Bool)
    (mac : EtherAddress) : (assign state node).1.ether2vid.lookup mac =
      if mac = node.1 then some (convert node.2) else state.1.ether2vid.lookup mac := by
  simp only [assign]
  cases found : state.1.ether2vid.lookup node.1 with
  | none => exact lookup_insert_ite _ _ _ _
  | some old =>
      dsimp only
      split
      · exact lookup_insert_ite _ _ _ _
      · rename_i same
        split
        · rename_i own
          rw [own, found, not_not.mp same]
        · rfl

theorem foldl_assign_other {nodes : List (EtherAddress × List Bool)} {mac : EtherAddress}
    (other : mac ∉ nodes.map (·.1)) (state : NetworkTopo × Bool) :
    (nodes.foldl assign state).1.ether2vid.lookup mac = state.1.ether2vid.lookup mac := by
  induction nodes generalizing state with
  | nil => rfl
  | cons first rest ih =>
      rw [List.map_cons, List.mem_cons, not_or] at other
      rw [List.foldl_cons, ih other.2, assign_lookup, if_neg other.1]

theorem foldl_assign_lookup {nodes : List (EtherAddress × List Bool)}
    (unique : (nodes.map (·.1)).Nodup) (state : NetworkTopo × Bool)
    (node : EtherAddress × List Bool) (member : node ∈ nodes) :
    (nodes.foldl assign state).1.ether2vid.lookup node.1 = some (convert node.2) := by
  induction nodes generalizing state with
  | nil => cases member
  | cons first rest ih =>
      rw [List.map_cons, List.nodup_cons] at unique
      rw [List.foldl_cons]
      rcases List.mem_cons.mp member with rfl | later
      · rw [foldl_assign_other unique.1, assign_lookup, if_pos rfl]
      · exact ih unique.2 _ later

def purged (topo : NetworkTopo) (now : Nat) (macs : IterationOrder EtherAddress) : NetworkTopo :=
  topo.purge now (macs.arrange 0 topo.networktopo.keys)

section Network

variable {topo : NetworkTopo} {now : Nat} {macs : IterationOrder EtherAddress}
  {labels : IterationOrder Nat}

theorem performVIDAssignment_alone (alone : (topo.purged now macs).networktopo.keys.length ≤ 1) :
    topo.performVIDAssignment now macs labels = (topo.purged now macs, false) :=
  if_pos alone

theorem vidlen_spread {node2vid : List (List Bool)} (nonempty : node2vid ≠ []) :
    vidlen (spread node2vid) = max 32 (vidlen node2vid) := by
  obtain ⟨first, rest, rfl⟩ := List.exists_cons_of_ne_nil nonempty
  simp only [spread_eq, vidlen, List.map_cons, List.headD_cons, withRoom, List.length_append,
    List.length_replicate]
  omega

theorem node2vid_ne_nil (macs : IterationOrder EtherAddress) (labels : IterationOrder Nat)
    (stored : 0 < topo.networktopo.keys.length) : topo.node2vid macs labels ≠ [] := by
  intro empty
  have length := length_node2vid macs labels stored
  rw [empty, length_ids, List.length_nil] at length
  omega

theorem performVIDAssignment_refused (several : 2 ≤ (topo.purged now macs).networktopo.keys.length)
    (long : 32 < vidlen ((topo.purged now macs).node2vid macs labels)) :
    topo.performVIDAssignment now macs labels = (topo.purged now macs, true) := by
  have nonempty : 0 < (topo.purged now macs).networktopo.keys.length := by omega
  have room := vidlen_spread (node2vid_ne_nil macs labels nonempty)
  simp only [performVIDAssignment]
  rw [purged] at several long room
  rw [if_neg (by omega), if_pos (by omega)]
  rfl

theorem performVIDAssignment_eq (several : 2 ≤ (topo.purged now macs).networktopo.keys.length)
    (fits : vidlen ((topo.purged now macs).node2vid macs labels) ≤ 32) :
    topo.performVIDAssignment now macs labels =
      (((topo.purged now macs).ids macs).zip
          (spread ((topo.purged now macs).node2vid macs labels))).foldl
        assign (topo.purged now macs, false) := by
  have nonempty : 0 < (topo.purged now macs).networktopo.keys.length := by omega
  have room := vidlen_spread (node2vid_ne_nil macs labels nonempty)
  simp only [performVIDAssignment]
  rw [purged] at several fits room
  rw [if_neg (by omega), if_neg (by omega)]
  rfl

theorem assigned (several : 2 ≤ (topo.purged now macs).networktopo.keys.length)
    (fits : vidlen ((topo.purged now macs).node2vid macs labels) ≤ 32) {i : Nat}
    {mac : EtherAddress} {bits : List Bool}
    (node : ((topo.purged now macs).ids macs)[i]? = some mac)
    (string : ((topo.purged now macs).node2vid macs labels)[i]? = some bits) :
    (topo.performVIDAssignment now macs labels).1.ether2vid.lookup mac =
      some (convert (withRoom (vidlen ((topo.purged now macs).node2vid macs labels)) bits)) := by
  rw [performVIDAssignment_eq several fits]
  refine foldl_assign_lookup ?_ (topo.purged now macs, false) (mac, _) ?_
  · rw [List.map_fst_zip
      (by rw [spread_eq, List.length_map, length_node2vid macs labels (by omega)])]
    exact nodup_ids macs
  · refine List.mem_iff_getElem?.mpr ⟨i, ?_⟩
    rw [List.getElem?_zip_eq_some, spread_eq, List.getElem?_map, string]
    exact ⟨node, rfl⟩

theorem Connected.purged_eq (network : topo.Connected now) (macs : IterationOrder EtherAddress) :
    topo.purged now macs = topo :=
  network.purge_eq fun _ member => AList.mem_keys.mpr ((macs.mem_arrange _ _ _).mp member)

end Network

end NetworkTopo

end Veil
