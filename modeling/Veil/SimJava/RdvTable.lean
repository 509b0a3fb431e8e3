import Veil.SimJava.Strings

/-! The edges that a rendezvous switch knows, from `RdvTable.java` and `RdvEdge.java`. A table is
the list of its edges; the times of its entries only serve their expiry. -/

namespace Veil

namespace SimJava

structure RdvEdge where
  src : List Char
  dst : List Char
deriving DecidableEq

def RdvEdge.equals (edge other : RdvEdge) : Bool :=
  (edge.src = other.src && edge.dst = other.dst) || (edge.src = other.dst && edge.dst = other.src)

abbrev RdvTable := List RdvEdge

namespace RdvTable

def edgeExist (table : RdvTable) (edge : RdvEdge) : Bool :=
  table.any fun myedge => myedge.equals edge

def addEdge (table : RdvTable) (edge : RdvEdge) : RdvTable × Bool :=
  if table.edgeExist edge then (table, false) else (table ++ [edge], true)

def delEdge (table : RdvTable) (edge : RdvEdge) : RdvTable × Bool :=
  (table.eraseP fun myedge => myedge.equals edge, table.edgeExist edge)

def gateway (host : List Bool) (k : Nat) (src dst : List Bool) : List Bool :=
  if vidDist host src < k ∧ vidDist host dst = k then src
  else if vidDist host dst < k ∧ vidDist host src = k then dst
  else []

/-- The loop over the edges, and whether it has returned from within. -/
def collectIn (multipleRoute : Bool) (host : List Bool) (k : Nat) :
    RdvTable → List Bool → Option (List Bool × Bool)
  | [], gwList => some (gwList, false)
  | myedge :: rest, gwList => do
      let src ← bitsOfHex myedge.src
      let dst ← bitsOfHex myedge.dst
      let gateWay := gateway host k src dst
      let gwList := gwList ++ gateWay
      if gateWay ≠ [] ∧ multipleRoute = false then some (gwList, true)
      else if gwList.length = 24 then some (gwList, true)
        else collectIn multipleRoute host k rest gwList

/-- The gateways for the level that `k_str` spells, one after the other, and ones up to the length
of three. An exception gives no result. -/
def findEntryIn (multipleRoute : Bool) (table : RdvTable) (svid k_str : List Char) :
    Option (List Bool) := do
  let k ← parseInt 10 k_str
  let host ← bitsOfHex svid
  let (gwList, returned) ← collectIn multipleRoute host k table []
  return if returned ∨ gwList = [] then gwList else rightPadString gwList 96 true

/-- With the setting that the switches run with. -/
def collect (host : List Bool) (k : Nat) (table : RdvTable) (gwList : List Bool) :
    Option (List Bool × Bool) :=
  collectIn true host k table gwList

def findEntry (table : RdvTable) (svid k_str : List Char) : Option (List Bool) :=
  table.findEntryIn true svid k_str

theorem collect_cons (host : List Bool) (k : Nat) (myedge : RdvEdge) (rest : RdvTable)
    (gwList : List Bool) :
    collect host k (myedge :: rest) gwList = (do
      let src ← bitsOfHex myedge.src
      let dst ← bitsOfHex myedge.dst
      let gwList := gwList ++ gateway host k src dst
      if gwList.length = 24 then some (gwList, true) else collect host k rest gwList) := by
  rw [collect, collectIn]
  simp only [Bool.true_eq_false, and_false, if_false, collect]

theorem findEntry_collect (table : RdvTable) (svid k_str : List Char) :
    table.findEntry svid k_str = (do
      let k ← parseInt 10 k_str
      let host ← bitsOfHex svid
      let (gwList, returned) ← collect host k table []
      return if returned ∨ gwList = [] then gwList else rightPadString gwList 96 true) := rfl

def Distinct (table : RdvTable) : Prop := table.Pairwise fun edge other => edge.equals other = false

def record (update : Bool) (edge : RdvEdge) (table : RdvTable) : RdvTable :=
  if update then (table.delEdge edge).1 else (table.addEdge edge).1

theorem equals_congr {edge other : RdvEdge} (same : edge.equals other = true) (third : RdvEdge) :
    edge.equals third = other.equals third := by
  simp only [RdvEdge.equals, Bool.or_eq_true, Bool.and_eq_true, decide_eq_true_eq] at same
  rcases same with ⟨src, dst⟩ | ⟨src, dst⟩
  · rw [RdvEdge.equals, RdvEdge.equals, src, dst]
  · rw [RdvEdge.equals, RdvEdge.equals, src, dst, Bool.or_comm]
    simp only [Bool.and_comm]

theorem equals_self (edge : RdvEdge) : edge.equals edge = true := by simp [RdvEdge.equals]

theorem record_settled {update : Bool} {edge : RdvEdge} {table : RdvTable}
    (settled : table.edgeExist edge = !update) : table.record update edge = table := by
  cases update with
  | false => rw [record, if_neg Bool.false_ne_true, addEdge, if_pos (settled.trans Bool.not_false)]
  | true =>
      have absent : ∀ myedge ∈ table, ¬myedge.equals edge = true := List.any_eq_false.mp settled
      rw [record, if_pos rfl, delEdge, List.eraseP_of_forall_not absent]

theorem Distinct.record {table : RdvTable} (distinct : table.Distinct) (update : Bool)
    (edge : RdvEdge) :
    (table.record update edge).Distinct := by
  cases update with
  | true => exact distinct.sublist List.eraseP_sublist
  | false =>
      by_cases known : table.edgeExist edge = true
      · rw [record_settled known]
        exact distinct
      · rw [RdvTable.record, if_neg Bool.false_ne_true, addEdge, if_neg known]
        refine List.pairwise_append.mpr ⟨distinct, List.pairwise_singleton _ _, ?_⟩
        intro myedge member other last
        rw [List.mem_singleton.mp last]
        exact Bool.eq_false_iff.mpr
          (List.any_eq_false.mp (Bool.eq_false_iff.mpr known) myedge member)

theorem Distinct.edgeExist_delEdge {table : RdvTable} (distinct : table.Distinct) (edge : RdvEdge) :
    (table.delEdge edge).1.edgeExist edge = false := by
  induction table with
  | nil => rfl
  | cons myedge table ih =>
      obtain ⟨first, rest⟩ := List.pairwise_cons.mp distinct
      by_cases found : myedge.equals edge = true
      · rw [delEdge, List.eraseP_cons_of_pos (p := (RdvEdge.equals · edge)) found]
        refine List.any_eq_false.mpr fun other member same => ?_
        have clash := first other member
        rw [equals_congr found, ← equals_congr same, equals_self] at clash
        cases clash
      · rw [delEdge, List.eraseP_cons_of_neg (p := (RdvEdge.equals · edge)) found, edgeExist,
          List.any_cons,
          Bool.eq_false_iff.mpr found]
        exact ih rest

theorem Distinct.edgeExist_record {table : RdvTable} (distinct : table.Distinct) (update : Bool)
    (edge : RdvEdge) : (table.record update edge).edgeExist edge = !update := by
  cases update with
  | true => exact distinct.edgeExist_delEdge edge
  | false =>
      by_cases known : table.edgeExist edge = true
      · rw [record_settled known]
        exact known
      · rw [RdvTable.record, if_neg Bool.false_ne_true, addEdge, if_neg known, edgeExist,
          List.any_append,
          List.any_cons, equals_self, Bool.true_or, Bool.or_true]
        rfl

def Spelled (table : RdvTable) : Prop :=
  ∀ edge ∈ table, ∃ src dst : Vid, src.high = false ∧ dst.high = false ∧
    edge = ⟨localHex 4 src.bits, localHex 4 dst.bits⟩

def Serves (host : Vid) (k : Nat) (edge : RdvEdge) : Prop :=
  ∃ near far : Vid, vidDist host.bits near.bits < k ∧ vidDist host.bits far.bits = k ∧
    (edge = ⟨localHex 4 near.bits, localHex 4 far.bits⟩ ∨
      edge = ⟨localHex 4 far.bits, localHex 4 near.bits⟩)

def gatewayList (table : RdvTable) (host : Vid) (k : Nat) : List Bool :=
  let gwList := table.flatMap fun myedge =>
    gateway host.bits k ((bitsOfHex myedge.src).getD []) ((bitsOfHex myedge.dst).getD [])
  if gwList = [] then [] else rightPadString gwList 96 true

theorem length_gateway (host : List Bool) (k : Nat) (src dst : Vid) :
    (gateway host k src.bits dst.bits).length % 32 = 0 := by
  rw [gateway]
  split
  · rw [src.length]
  · split
    · rw [dst.length]
    · rfl

theorem Spelled.reads {table : RdvTable} (spelled : table.Spelled) :
    ∀ edge ∈ table, ∃ src dst : Vid,
    bitsOfHex edge.src = some src.bits ∧ bitsOfHex edge.dst = some dst.bits := by
  intro edge member
  obtain ⟨src, dst, src_low, dst_low, rfl⟩ := spelled edge member
  exact ⟨src, dst, Vid.bitsOfHex_low src_low, Vid.bitsOfHex_low dst_low⟩

/-- The loop never stops within: it looks for a length in digits, and the list is one of bits. -/
theorem collect_eq {table : RdvTable} (reads : ∀ edge ∈ table, ∃ src dst : Vid,
      bitsOfHex edge.src = some src.bits ∧ bitsOfHex edge.dst = some dst.bits)
    (host : List Bool) (k : Nat) (gwList : List Bool) (whole : gwList.length % 32 = 0) :
    collect host k table gwList = some (gwList ++ table.flatMap fun myedge =>
      gateway host k ((bitsOfHex myedge.src).getD []) ((bitsOfHex myedge.dst).getD []), false) := by
  induction table generalizing gwList with
  | nil => rw [collect, collectIn, List.flatMap_nil, List.append_nil]
  | cons myedge rest ih =>
      obtain ⟨src, dst, from_src, from_dst⟩ := reads myedge List.mem_cons_self
      have further := length_gateway host k src dst
      have stays : (gwList ++ gateway host k src.bits dst.bits).length % 32 = 0 := by
        rw [List.length_append]
        omega
      have goes_on : (gwList ++ gateway host k src.bits dst.bits).length ≠ 24 := by omega
      have later := ih (fun edge member => reads edge (List.mem_cons_of_mem _ member)) _ stays
      simp only [collect_cons, from_src, from_dst, Option.bind_eq_bind, Option.bind_some,
        if_neg goes_on, later,
        List.flatMap_cons, Option.getD_some, List.append_assoc]

theorem findEntry_eq {table : RdvTable} (spelled : table.Spelled) {host : Vid}
    (low : host.high = false) (k_str : List Char) :
    table.findEntry (localHex 4 host.bits) k_str =
      (parseInt 10 k_str).map (table.gatewayList host) := by
  rw [findEntry_collect]
  cases parseInt 10 k_str with
  | none => rfl
  | some k =>
      simp only [Vid.bitsOfHex_low low, Option.bind_eq_bind, Option.bind_some,
        collect_eq spelled.reads host.bits k [] rfl,
        List.nil_append, Option.map_some, gatewayList, Bool.false_eq_true, false_or,
          Option.pure_def]
      congr 1
      split
      · assumption
      · rfl

theorem gateway_ne_nil_iff (host : List Bool) (k : Nat) (src dst : Vid) :
    gateway host k src.bits dst.bits ≠ [] ↔
      (vidDist host src.bits < k ∧ vidDist host dst.bits = k) ∨
        (vidDist host dst.bits < k ∧ vidDist host src.bits = k) := by
  have filled (v : Vid) : v.bits ≠ [] := List.ne_nil_of_length_pos (by rw [v.length]; decide)
  rw [gateway]
  split
  · exact iff_of_true (filled src) (Or.inl ‹_›)
  · split
    · exact iff_of_true (filled dst) (Or.inr ‹_›)
    · exact iff_of_false (fun differ => differ rfl) (not_or.mpr ⟨‹_›, ‹_›⟩)

theorem gatewayList_ne_nil_iff {table : RdvTable} (spelled : table.Spelled) (host : Vid) (k : Nat) :
    table.gatewayList host k ≠ [] ↔ ∃ edge ∈ table, Serves host k edge := by
  have some_gateway : table.gatewayList host k ≠ [] ↔ ∃ edge ∈ table,
      gateway host.bits k ((bitsOfHex edge.src).getD []) ((bitsOfHex edge.dst).getD []) ≠ [] := by
    rw [gatewayList, ← not_forall_not]
    simp only [not_and, not_not]
    rw [← List.flatMap_eq_nil_iff]
    split
    · exact iff_of_false (fun differ => differ rfl) (fun differ => differ ‹_›)
    · refine iff_of_true (fun padded => ?_) ‹_›
      exact absurd (List.append_eq_nil_iff.mp padded).1 ‹_›
  rw [some_gateway]
  refine exists_congr fun edge => and_congr_right fun member => ?_
  obtain ⟨src, dst, src_low, dst_low, rfl⟩ := spelled edge member
  rw [Vid.bitsOfHex_low src_low, Vid.bitsOfHex_low dst_low, Option.getD_some, Option.getD_some,
    gateway_ne_nil_iff]
  constructor
  · rintro (⟨near, far⟩ | ⟨near, far⟩)
    · exact ⟨src, dst, near, far, Or.inl rfl⟩
    · exact ⟨dst, src, near, far, Or.inr rfl⟩
  · rintro ⟨near, far, near_below, far_level, same | same⟩
    · obtain ⟨first, second⟩ := RdvEdge.mk.inj same
      rw [Vid.localHex_inj src_low first, Vid.localHex_inj dst_low second]
      exact Or.inl ⟨near_below, far_level⟩
    · obtain ⟨first, second⟩ := RdvEdge.mk.inj same
      rw [Vid.localHex_inj src_low first, Vid.localHex_inj dst_low second]
      exact Or.inr ⟨near_below, far_level⟩

end RdvTable

end SimJava

end Veil
