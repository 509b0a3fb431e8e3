import Mathlib.Data.List.Dedup
import Mathlib.Data.Set.Card
import Veil.SimJava.RemoteQuery
import Veil.SimJava.DataForwarding

/-! The list of gateways that a rendezvous switch answers with, from `findEntry` of
`RdvTable.java`, for both settings of `multipleRoute`, and how its bits are written as digits. -/

namespace Veil

namespace SimJava

/-- `leftPadString(Integer.toBinaryString(Integer.parseInt(s, 16)), K, '0')`. -/
def vidOfHex (s : List Char) : Option Vid := do
  let bits ← bitsOfHex s
  if length : bits.length = 32 then some ⟨bits, length⟩ else none

def Vid.ofNat (n : Nat) : Vid :=
  ⟨(List.range 32).map fun i => n.testBit (31 - i), by rw [List.length_map, List.length_range]⟩

theorem vidOfHex_localHex {v : Vid} (low : v.high = false) :
    vidOfHex (localHex 4 v.bits) = some v := by
  rw [vidOfHex, Vid.bitsOfHex_low low]
  exact dif_pos v.length

theorem bitsOfHex_vid {s : List Char} {bits : List Bool} (read : bitsOfHex s = some bits) :
    ∃ v : Vid, v.bits = bits ∧ v.high = false ∧ vidOfHex s = some v := by
  obtain ⟨n, parsed, rfl⟩ := Option.map_eq_some_iff.mp read
  have small : n < 2 ^ 31 := by
    rw [parseInt] at parsed
    split at parsed
    · cases parsed
    · exact of_decide_eq_true (Option.filter_eq_some_iff.mp parsed).2
  have length : (leftPadString (toBinaryString n) 32 false).length = 32 := by
    have short : (toBinaryString n).length ≤ 32 := by
      rw [toBinaryString]
      split
      · decide
      · rw [List.length_reverse, Nat.size_eq_bits_len, Nat.size_le]
        exact Nat.lt_trans small (by decide)
    rw [leftPadString, List.length_append, List.length_replicate]
    omega
  refine ⟨⟨_, length⟩, rfl, ?_, ?_⟩
  · rw [← Vid.value_lt_iff]
    exact (SimPy.value_bin2str n 32).trans_lt small
  · rw [vidOfHex, read]
    exact dif_pos length

namespace RdvTable

/-! ### The near ends of edges -/

/-- The end of an edge nearer than the level, when the other end is at its distance. -/
def nearEnd (host : Vid) (k : Nat) (edge : RdvEdge) : Option Vid :=
  match vidOfHex edge.src, vidOfHex edge.dst with
  | some src, some dst =>
      if vidDist host.bits src.bits < k ∧ vidDist host.bits dst.bits = k then some src
      else if vidDist host.bits dst.bits < k ∧ vidDist host.bits src.bits = k then some dst
      else none
  | _, _ => none

def nearEnds (table : RdvTable) (host : Vid) (k : Nat) : List Vid :=
  table.filterMap (nearEnd host k)

def Readable (table : RdvTable) : Prop :=
  ∀ edge ∈ table, ∃ src dst : Vid, bitsOfHex edge.src = some src.bits ∧
    bitsOfHex edge.dst = some dst.bits ∧
    vidOfHex edge.src = some src ∧ vidOfHex edge.dst = some dst

theorem Readable.of_cons {edge : RdvEdge} {table : RdvTable} (readable : Readable (edge :: table)) :
    table.Readable := fun other member => readable other (List.mem_cons_of_mem _ member)

theorem gateway_eq {host src dst : Vid} {k : Nat} {edge : RdvEdge}
    (from_src : vidOfHex edge.src = some src) (from_dst : vidOfHex edge.dst = some dst) :
    gateway host.bits k src.bits dst.bits = ((nearEnd host k edge).map Vid.bits).getD [] := by
  rw [nearEnd, from_src, from_dst, gateway]
  dsimp only
  split
  · rfl
  · split
    · rfl
    · rfl

theorem vidOfHex_low {s : List Char} {v : Vid} (read : vidOfHex s = some v) : v.high = false := by
  obtain ⟨bits, from_digits, found⟩ := Option.bind_eq_some_iff.mp read
  obtain ⟨w, -, low, same⟩ := bitsOfHex_vid from_digits
  rw [read, Option.some.injEq] at same
  rwa [same]

theorem nearEnd_spec {host gateway : Vid} {k : Nat} {edge : RdvEdge}
    (found : nearEnd host k edge = some gateway) :
    gateway.high = false ∧ host.distance gateway < k ∧ ∃ far, host.distance far = k := by
  rw [nearEnd] at found
  split at found
  · rename_i src dst from_src from_dst
    split at found
    · rename_i ahead
      cases found
      exact ⟨vidOfHex_low from_src, ahead.1, dst, ahead.2⟩
    · split at found
      · rename_i behind
        cases found
        exact ⟨vidOfHex_low from_dst, behind.1, src, behind.2⟩
      · cases found
  · cases found

theorem mem_nearEnds_spec {table : RdvTable} {host gateway : Vid} {k : Nat}
    (member : gateway ∈ table.nearEnds host k) :
    gateway.high = false ∧ host.distance gateway < k ∧ ∃ far, host.distance far = k := by
  obtain ⟨edge, -, found⟩ := List.mem_filterMap.mp member
  exact nearEnd_spec found

theorem length_gateways (gateways : List Vid) :
    (gateways.flatMap Vid.bits).length = 32 * gateways.length := by
  induction gateways with
  | nil => rfl
  | cons gateway gateways ih =>
      rw [List.flatMap_cons, List.length_append, gateway.length, ih, List.length_cons]
      omega

theorem flatMap_gateway {table : RdvTable} (readable : table.Readable) (host : Vid) (k : Nat) :
    (table.flatMap fun edge =>
      gateway host.bits k ((bitsOfHex edge.src).getD []) ((bitsOfHex edge.dst).getD [])) =
        (table.nearEnds host k).flatMap Vid.bits := by
  induction table with
  | nil => rfl
  | cons edge rest ih =>
      obtain ⟨src, dst, src_bits, dst_bits, from_src, from_dst⟩ := readable edge List.mem_cons_self
      rw [List.flatMap_cons, ih readable.of_cons, src_bits, dst_bits, Option.getD_some,
        Option.getD_some,
        gateway_eq from_src from_dst, nearEnds, nearEnds, List.filterMap_cons]
      cases nearEnd host k edge with
      | none => rfl
      | some near => rfl

theorem collect_nearEnds {table : RdvTable} (readable : table.Readable) (host : Vid) (k : Nat) :
    collect host.bits k table [] = some ((table.nearEnds host k).flatMap Vid.bits, false) := by
  have reads (edge : RdvEdge) (member : edge ∈ table) : ∃ src dst : Vid,
      bitsOfHex edge.src = some src.bits ∧ bitsOfHex edge.dst = some dst.bits := by
    obtain ⟨src, dst, src_bits, dst_bits, -⟩ := readable edge member
    exact ⟨src, dst, src_bits, dst_bits⟩
  rw [collect_eq reads host.bits k [] rfl, List.nil_append, flatMap_gateway readable]

theorem collectIn_false {table : RdvTable} (readable : table.Readable) (host : Vid) (k : Nat) :
    collectIn false host.bits k table [] =
      some (((table.nearEnds host k).head?.map Vid.bits).getD [],
        (table.nearEnds host k).head?.isSome) := by
  induction table with
  | nil => rfl
  | cons edge rest ih =>
      obtain ⟨src, dst, src_bits, dst_bits, from_src, from_dst⟩ := readable edge List.mem_cons_self
      simp only [collectIn, src_bits, dst_bits, Option.bind_eq_bind, Option.bind_some,
        List.nil_append,
        @gateway_eq host src dst k edge from_src from_dst, nearEnds, List.filterMap_cons]
      cases nearEnd host k edge with
      | none => exact ih readable.of_cons
      | some near =>
          have filled : near.bits ≠ [] := List.ne_nil_of_length_pos (by rw [near.length]; decide)
          simp [filled]

theorem readable_of_collect {host : List Bool} {k : Nat} {table : RdvTable} {gwList : List Bool}
    {result : List Bool × Bool} (whole : gwList.length % 32 = 0)
    (collected : collect host k table gwList = some result) : table.Readable := by
  induction table generalizing gwList with
  | nil => exact fun edge member => absurd member List.not_mem_nil
  | cons edge rest ih =>
      rw [collect_cons] at collected
      obtain ⟨src_bits, from_src, collected⟩ := Option.bind_eq_some_iff.mp collected
      obtain ⟨dst_bits, from_dst, collected⟩ := Option.bind_eq_some_iff.mp collected
      obtain ⟨src, rfl, -, src_read⟩ := bitsOfHex_vid from_src
      obtain ⟨dst, rfl, -, dst_read⟩ := bitsOfHex_vid from_dst
      have further := length_gateway host k src dst
      have stays : (gwList ++ gateway host k src.bits dst.bits).length % 32 = 0 := by
        rw [List.length_append]
        omega
      rw [if_neg (by omega)] at collected
      have later := ih stays collected
      intro other member
      rcases List.mem_cons.mp member with rfl | member
      · exact ⟨src, dst, from_src, from_dst, src_read, dst_read⟩
      · exact later other member

/-! ### The list -/

def padded (gateways : List Vid) : List Bool :=
  if gateways = [] then [] else rightPadString (gateways.flatMap Vid.bits) 96 true

def blocks (gateways : List Vid) : List (List Bool) :=
  (gateways.take 3).map Vid.bits ++ List.replicate (3 - gateways.length) (List.replicate 32 true)

theorem flatten_blocks (gateways : List Vid) : (blocks gateways).flatten =
    (gateways.take 3).flatMap Vid.bits ++ List.replicate (32 * (3 - gateways.length)) true := by
  rw [blocks, List.flatten_append, ← List.flatMap_def,
    List.flatten_replicate_replicate, Nat.mul_comm]

theorem length_of_mem_blocks {gateways : List Vid} {block : List Bool}
    (member : block ∈ blocks gateways) :
    block.length = 32 := by
  rcases List.mem_append.mp member with front | ones
  · obtain ⟨gateway, -, rfl⟩ := List.mem_map.mp front
    exact gateway.length
  · rw [(List.mem_replicate.mp ones).2, List.length_replicate]

theorem length_blocks (gateways : List Vid) : (blocks gateways).length = 3 := by
  rw [blocks, List.length_append, List.length_map, List.length_take, List.length_replicate]
  omega

theorem padded_eq {gateways : List Vid} (some_gateway : gateways ≠ []) :
    padded gateways = (blocks gateways).flatten ++ (gateways.drop 3).flatMap Vid.bits := by
  have size := length_gateways gateways
  rw [padded, if_neg some_gateway, rightPadString, size, flatten_blocks]
  rcases Nat.lt_or_ge gateways.length 3 with few | many
  · rw [List.take_of_length_le (Nat.le_of_lt few), List.drop_of_length_le (Nat.le_of_lt few),
      List.flatMap_nil,
      List.append_nil]
    congr 2
    omega
  · have none_missing : 3 - gateways.length = 0 := Nat.sub_eq_zero_of_le many
    have long : 96 - 32 * gateways.length = 0 := by omega
    rw [none_missing, long, Nat.mul_zero, List.replicate_zero, List.append_nil, List.append_nil,
      ← List.flatMap_append, List.take_append_drop]

theorem take_padded {gateways : List Vid} (some_gateway : gateways ≠ []) :
    96 ≤ (padded gateways).length ∧ (padded gateways).take 96 = (blocks gateways).flatten := by
  have size : (blocks gateways).flatten.length = 96 := by
    rw [List.length_flatten, List.map_congr_left fun block member => length_of_mem_blocks member,
      List.map_const',
      length_blocks]
    rfl
  rw [padded_eq some_gateway, List.length_append, size]
  exact ⟨Nat.le_add_right _ _, List.take_left' size⟩

theorem Spelled.readable {table : RdvTable} (spelled : table.Spelled) : table.Readable := by
  intro edge member
  obtain ⟨src, dst, src_low, dst_low, rfl⟩ := spelled edge member
  exact ⟨src, dst, Vid.bitsOfHex_low src_low, Vid.bitsOfHex_low dst_low, vidOfHex_localHex src_low,
    vidOfHex_localHex dst_low⟩

theorem padded_flatMap (gateways : List Vid) :
    (if gateways.flatMap Vid.bits = [] then gateways.flatMap Vid.bits
    else rightPadString (gateways.flatMap Vid.bits) 96 true) = padded gateways := by
  have empty : gateways.flatMap Vid.bits = [] ↔ gateways = [] := by
    rw [← List.length_eq_zero_iff, length_gateways, Nat.mul_eq_zero, List.length_eq_zero_iff]
    exact or_iff_right (by decide)
  rw [padded]
  simp only [empty]
  split
  · exact empty.mpr ‹_›
  · rfl

theorem findEntryIn_eq {table : RdvTable} (readable : table.Readable) {host : Vid}
    (low : host.high = false) (multipleRoute : Bool) (k_str : List Char) :
    table.findEntryIn multipleRoute (localHex 4 host.bits) k_str =
      (parseInt 10 k_str).map fun k =>
        if multipleRoute then padded (table.nearEnds host k)
        else ((table.nearEnds host k).head?.map Vid.bits).getD [] := by
  rw [findEntryIn, Vid.bitsOfHex_low low]
  cases parseInt 10 k_str with
  | none => rfl
  | some k =>
      cases multipleRoute with
      | true =>
          have loop := collect_nearEnds readable host k
          rw [collect] at loop
          simp only [Option.bind_eq_bind, Option.bind_some, Option.map_some, loop,
            Bool.false_eq_true, false_or, Option.pure_def, if_true, padded_flatMap]
      | false =>
          simp only [Option.bind_eq_bind, Option.bind_some, Option.map_some,
            collectIn_false readable,
            Option.pure_def, Bool.false_eq_true, if_false]
          cases (table.nearEnds host k).head? with
          | none => rfl
          | some near => rfl

theorem findEntryIn_high {host : Vid} (high : host.high = true) (table : RdvTable)
    (multipleRoute : Bool) (k_str : List Char) :
    table.findEntryIn multipleRoute (localHex 4 host.bits) k_str = none := by
  rw [findEntryIn, Vid.bitsOfHex_localHex, high]
  cases parseInt 10 k_str with
  | none => rfl
  | some k => rfl

theorem findEntry_eq_padded {table : RdvTable} {host : Vid} {k_str : List Char} {gwList : List Bool}
    (found : table.findEntry (localHex 4 host.bits) k_str = some gwList) :
    ∃ k, parseInt 10 k_str = some k ∧ gwList = padded (table.nearEnds host k) := by
  have read := found
  rw [findEntry_collect] at read
  obtain ⟨k, parsed, read⟩ := Option.bind_eq_some_iff.mp read
  obtain ⟨host_bits, from_svid, read⟩ := Option.bind_eq_some_iff.mp read
  obtain ⟨result, collected, -⟩ := Option.bind_eq_some_iff.mp read
  have low : host.high = false := by
    rw [Vid.bitsOfHex_localHex] at from_svid
    split at from_svid
    · cases from_svid
    · exact Bool.eq_false_iff.mpr ‹_›
  have readable : table.Readable := @readable_of_collect _ _ _ [] _ rfl collected
  rw [findEntry, findEntryIn_eq readable low, parsed] at found
  exact ⟨k, parsed, (Option.some.inj found).symm⟩

/-! ### The digits of a list -/

end RdvTable

theorem localHex_append {front : List Bool} {count : Nat} (size : front.length = 8 * count)
    (more : Nat) (s : List Bool) :
    localHex (count + more) (front ++ s) = localHex count front ++ localHex more s := by
  rw [localHex, List.range_add, List.flatMap_append, List.flatMap_map, localHex, localHex]
  congr 1
  · refine List.flatMap_congr fun i member => ?_
    have inside : 8 * i + 8 ≤ front.length := by
      have bound := List.mem_range.mp member
      omega
    rw [substring, substring, List.take_append_of_le_length inside]
  · refine List.flatMap_congr fun i _ => ?_
    have start : 8 * (count + i) = front.length + 8 * i := by omega
    rw [substring, substring, start, Nat.add_assoc, List.take_length_add_append,
      List.drop_length_add_append]

theorem localHex_flatten {list : List (List Bool)} (sizes : ∀ block ∈ list, block.length = 32)
    (rest : List Bool) :
    localHex (4 * list.length) (list.flatten ++ rest) = (list.map (localHex 4)).flatten := by
  induction list with
  | nil => rfl
  | cons block list ih =>
      have later := ih fun other member => sizes other (List.mem_cons_of_mem _ member)
      have count : 4 * (block :: list).length = 4 + 4 * list.length := by
        rw [List.length_cons]
        omega
      rw [count, List.flatten_cons, List.append_assoc,
        localHex_append (sizes block List.mem_cons_self), later,
        List.map_cons, List.flatten_cons]

namespace RdvTable

theorem localHex_padded {gateways : List Vid} (some_gateway : gateways ≠ []) :
    localHex 12 (padded gateways) = ((blocks gateways).map (localHex 4)).flatten := by
  have sizes : ∀ block ∈ blocks gateways, block.length = 32 := fun _ => length_of_mem_blocks
  have digits := localHex_flatten sizes ((gateways.drop 3).flatMap Vid.bits)
  rwa [length_blocks, ← padded_eq some_gateway] at digits

/-! ### What the list should carry -/

def NearEnd (table : RdvTable) (host : Vid) (k : Nat) (gateway : Vid) : Prop :=
  ∃ edge ∈ table, ∃ far : Vid, vidDist host.bits gateway.bits < k ∧ vidDist host.bits far.bits = k ∧
    (edge = ⟨localHex 4 gateway.bits, localHex 4 far.bits⟩ ∨
      edge = ⟨localHex 4 far.bits, localHex 4 gateway.bits⟩)

/-- Nothing without a gateway, and else up to three distinct ones in 96 bits. -/
def Carries (multipleRoute : Bool) (table : RdvTable) (host : Vid) (k : Nat) : Prop :=
  ∃ result, table.findEntryIn multipleRoute (localHex 4 host.bits)
      (Nat.toDigits 10 k) = some result ∧
    (result = [] ↔ ∀ edge ∈ table, ¬Serves host k edge) ∧
    (result ≠ [] → 96 ≤ result.length ∧ ∃ gateways : List Vid, gateways.Nodup ∧
      (∀ gateway ∈ gateways, NearEnd table host k gateway) ∧
      gateways.length =
        (if multipleRoute then min 3 {gateway | NearEnd table host k gateway}.ncard else 1) ∧
      result.take 96 = gateways.flatMap Vid.bits ++
        List.replicate (32 * (3 - gateways.length)) true)

theorem mem_nearEnds_iff {table : RdvTable} (spelled : table.Spelled) {host : Vid} {k : Nat}
    {gateway : Vid} :
    gateway ∈ table.nearEnds host k ↔ NearEnd table host k gateway := by
  rw [nearEnds, List.mem_filterMap, NearEnd]
  refine exists_congr fun edge => and_congr_right fun member => ?_
  obtain ⟨src, dst, src_low, dst_low, rfl⟩ := spelled edge member
  rw [nearEnd, vidOfHex_localHex src_low, vidOfHex_localHex dst_low]
  dsimp only
  constructor
  · intro found
    split at found
    · rename_i ahead
      cases found
      exact ⟨dst, ahead.1, ahead.2, Or.inl rfl⟩
    · split at found
      · rename_i behind
        cases found
        exact ⟨src, behind.1, behind.2, Or.inr rfl⟩
      · cases found
  · rintro ⟨far, near, level, same | same⟩
    · obtain ⟨first, second⟩ := RdvEdge.mk.inj same
      obtain rfl := Vid.localHex_inj src_low first
      obtain rfl := Vid.localHex_inj dst_low second
      rw [if_pos ⟨near, level⟩]
    · obtain ⟨first, second⟩ := RdvEdge.mk.inj same
      obtain rfl := Vid.localHex_inj src_low first
      obtain rfl := Vid.localHex_inj dst_low second
      rw [if_neg (by omega), if_pos ⟨near, level⟩]

theorem nearEnds_eq_nil_iff {table : RdvTable} (spelled : table.Spelled) {host : Vid} {k : Nat} :
    table.nearEnds host k = [] ↔ ∀ edge ∈ table, ¬Serves host k edge := by
  rw [List.eq_nil_iff_forall_not_mem]
  simp only [mem_nearEnds_iff spelled, NearEnd, Serves]
  constructor
  · rintro none edge member ⟨near, far, both⟩
    exact none near ⟨edge, member, far, both⟩
  · rintro none near ⟨edge, member, far, both⟩
    exact none edge member ⟨near, far, both⟩

theorem ncard_nearEnds {table : RdvTable} (spelled : table.Spelled) (host : Vid) (k : Nat) :
    {gateway | NearEnd table host k gateway}.ncard = (table.nearEnds host k).toFinset.card := by
  rw [← Set.ncard_coe_finset]
  congr 1
  ext gateway
  rw [Set.mem_ofPred_eq, List.coe_toFinset, Set.mem_ofPred_eq, mem_nearEnds_iff spelled]

/-- The blocks tell which gateways they are of: those of ones have the first bit. -/
theorem take_of_blocks {gateways others : List Vid}
    (low : ∀ gateway ∈ gateways, gateway.high = false)
    (others_low : ∀ gateway ∈ others, gateway.high = false)
    (same : blocks gateways = blocks others) :
    gateways.take 3 = others.take 3 := by
  have kept {list : List Vid} (low : ∀ gateway ∈ list, gateway.high = false) :
      (blocks list).filter (fun block => ! block.headD false) = (list.take 3).map Vid.bits := by
    have front : ((list.take 3).map Vid.bits).filter (fun block => ! block.headD false) =
        (list.take 3).map Vid.bits := by
      refine List.filter_eq_self.mpr fun block member => ?_
      obtain ⟨gateway, inside, rfl⟩ := List.mem_map.mp member
      rw [← Vid.high, low gateway (List.mem_of_mem_take inside)]
      rfl
    rw [blocks, List.filter_append, front, List.filter_replicate_of_neg (by decide),
      List.append_nil]
  have bits : (gateways.take 3).map Vid.bits = (others.take 3).map Vid.bits := by
    rw [← kept low, ← kept others_low, same]
  exact List.map_injective_iff.mpr (fun _ _ => Vid.ext) bits

theorem blocks_of_flatten {gateways others : List Vid}
    (same : (blocks gateways).flatten = (blocks others).flatten) :
    blocks gateways = blocks others := by
  have sizes (list : List Vid) : (blocks list).map List.length = List.replicate 3 32 := by
    rw [List.map_congr_left fun block member => length_of_mem_blocks member, List.map_const',
      length_blocks]
  exact List.eq_iff_flatten_eq.mpr ⟨same, by rw [sizes, sizes]⟩

section Answer

variable {table : RdvTable} (spelled : table.Spelled) {host : Vid} (low : host.high = false)
  {k : Nat}
  (le_bits : k ≤ 32)
include spelled low le_bits

theorem findEntryIn_level (multipleRoute : Bool) :
    table.findEntryIn multipleRoute (localHex 4 host.bits) (Nat.toDigits 10 k) =
      some (if multipleRoute then padded (table.nearEnds host k)
        else ((table.nearEnds host k).head?.map Vid.bits).getD []) := by
  rw [findEntryIn_eq spelled.readable low, (RemoteQuery.level_read k le_bits).2.2, Option.map_some]

theorem carries_unserved (none : table.nearEnds host k = []) (multipleRoute : Bool) :
    Carries multipleRoute table host k := by
  refine ⟨[], ?_, iff_of_true rfl ((nearEnds_eq_nil_iff spelled).mp none),
    fun differ => absurd rfl differ⟩
  rw [findEntryIn_level spelled low le_bits, none]
  cases multipleRoute with
  | true => rfl
  | false => rfl

theorem not_carries_single (served : table.nearEnds host k ≠ []) : ¬Carries false table host k := by
  rintro ⟨result, found, -, carried⟩
  obtain ⟨near, rest, ends⟩ := List.exists_cons_of_ne_nil served
  have single : result = near.bits := by
    rw [findEntryIn_level spelled low le_bits, ends] at found
    exact (Option.some.inj found).symm
  have filled : near.bits ≠ [] := List.ne_nil_of_length_pos (by rw [near.length]; decide)
  rw [single, near.length] at carried
  exact absurd (carried filled).1 (by decide)

theorem carries_several_iff (served : table.nearEnds host k ≠ []) :
    Carries true table host k ↔ ((table.nearEnds host k).take 3).Nodup := by
  obtain ⟨long, first⟩ := take_padded served
  have low_ends : ∀ gateway ∈ table.nearEnds host k, gateway.high = false := fun gateway member =>
    (mem_nearEnds_spec member).1
  have filled : padded (table.nearEnds host k) ≠ [] := List.ne_nil_of_length_pos (by omega)
  have found := findEntryIn_level spelled low le_bits true
  rw [if_pos rfl] at found
  rw [Carries, found, ← nearEnds_eq_nil_iff spelled]
  simp only [Option.some.injEq, exists_eq_left', filled, served, ne_eq, not_false_eq_true,
    forall_const, long,
    iff_self, first, ncard_nearEnds spelled, true_and, if_true]
  constructor
  · rintro ⟨gateways, nodup, ends, count, same⟩
    have few : gateways.take 3 = gateways := List.take_of_length_le (by omega)
    have blocks_same : (blocks (table.nearEnds host k)).flatten = (blocks gateways).flatten := by
      rw [same, flatten_blocks, few]
    have low_gateways : ∀ gateway ∈ gateways, gateway.high = false := fun gateway member =>
      low_ends gateway ((mem_nearEnds_iff spelled).mpr (ends gateway member))
    rw [take_of_blocks low_ends low_gateways (blocks_of_flatten blocks_same), few]
    exact nodup
  · intro nodup
    refine ⟨(table.nearEnds host k).take 3, nodup, fun gateway member => ?_, ?_, ?_⟩
    · exact (mem_nearEnds_iff spelled).mp (List.mem_of_mem_take member)
    · have least : ((table.nearEnds host k).take 3).length ≤
          (table.nearEnds host k).toFinset.card := by
        rw [← List.toFinset_card_of_nodup nodup]
        exact Finset.card_le_card fun gateway member =>
          List.mem_toFinset.mpr (List.mem_of_mem_take (List.mem_toFinset.mp member))
      have most := (table.nearEnds host k).toFinset_card_le
      rw [List.length_take] at least ⊢
      omega
    · rw [flatten_blocks, List.length_take]
      congr 3
      omega

end Answer

/-- The answer is as it should be exactly when the asker can be read and either no edge serves it
or there may be several routes and the first three near ends differ. -/
theorem carries_iff {table : RdvTable} (spelled : table.Spelled) (host : Vid) {k : Nat}
    (le_bits : k ≤ 32) (multipleRoute : Bool) :
    Carries multipleRoute table host k ↔ host.high = false ∧
      ((∀ edge ∈ table, ¬Serves host k edge) ∨
        multipleRoute = true ∧ ((table.nearEnds host k).take 3).Nodup) := by
  cases low : host.high with
  | true =>
      refine iff_of_false (fun carries => ?_) fun right => nomatch right.1
      obtain ⟨result, found, -⟩ := carries
      rw [findEntryIn_high low] at found
      cases found
  | false =>
      rw [eq_self_iff_true, true_and, ← nearEnds_eq_nil_iff spelled]
      by_cases none : table.nearEnds host k = []
      · exact iff_of_true (carries_unserved spelled low le_bits none multipleRoute) (Or.inl none)
      · rw [or_iff_right none]
        cases multipleRoute with
        | false =>
            exact iff_of_false (not_carries_single spelled low le_bits none) fun right =>
              nomatch right.1
        | true => rw [carries_several_iff spelled low le_bits none, eq_self_iff_true, true_and]

theorem carries_published : Carries true RemoteQuery.published RemoteQuery.asker 10 :=
  (carries_iff RemoteQuery.published_spelled RemoteQuery.asker (by decide) true).mpr
    ⟨by decide, Or.inr ⟨rfl, by decide +kernel⟩⟩

def publishedTwice : RdvTable := RemoteQuery.published ++
  [⟨localHex 4 RemoteQuery.near.bits, localHex 4 (Vid.ofNat 513).bits⟩]

theorem publishedTwice_spelled : publishedTwice.Spelled := by
  intro edge member
  rcases List.mem_append.mp member with first | second
  · exact RemoteQuery.published_spelled edge first
  · exact ⟨RemoteQuery.near, Vid.ofNat 513, by decide, by decide +kernel,
      List.mem_singleton.mp second⟩

/-- With one route only the answer is too short to be read, and with several a gateway comes
twice. -/
theorem not_carries_published : ¬Carries false RemoteQuery.published RemoteQuery.asker 10 ∧
  publishedTwice.Distinct ∧ ¬Carries true publishedTwice RemoteQuery.asker 10 := by
  have low : RemoteQuery.asker.high = false := by decide
  refine ⟨?_, by unfold Distinct; decide +kernel, ?_⟩
  · exact not_carries_single RemoteQuery.published_spelled low (by decide) (by decide +kernel)
  · rw [carries_several_iff publishedTwice_spelled low (by decide) (by decide +kernel)]
    decide +kernel

end RdvTable

end SimJava

end Veil
