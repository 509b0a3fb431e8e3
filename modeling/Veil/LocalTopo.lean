import Veil.ProcessVCCSTAdSub
import Veil.ReportOrder

/-! The reports of the switches about their interfaces and neighbours, from
`generateVCCSTAdSub.cc`, and the topology that the controller learns from them. -/

namespace Veil

namespace InterfaceTable

def macs (table : InterfaceTable) : List EtherAddress :=
  (List.range table.numInterfaces).map fun i => (table.getMacAddr i).getD 0

section Configured

variable {table : InterfaceTable} (configured : table.Configured)
include configured

theorem Configured.getMacAddr_eq {i : Nat} (inside : i < table.numInterfaces) :
    table.getMacAddr i = some ((table.getMacAddr i).getD 0) := by
  cases found : table.getMacAddr i with
  | none => exact absurd ((configured.ports i).mp found) (Nat.not_le.mpr inside)
  | some mac => rfl

theorem Configured.mac_inj {i j : Nat} (inside : i < table.numInterfaces)
    (other : j < table.numInterfaces)
    (same : (table.getMacAddr i).getD 0 = (table.getMacAddr j).getD 0) : i = j := by
  have first := (configured.inverse _ _).mpr (configured.getMacAddr_eq inside)
  have second := (configured.inverse _ _).mpr (configured.getMacAddr_eq other)
  rw [same, second] at first
  exact (Option.some.inj first).symm

theorem Configured.mem_macs (mac : EtherAddress) :
    mac ∈ table.macs ↔ ∃ i, table.etheraddToInterfaceIndex.lookup mac = some i := by
  rw [macs, List.mem_map]
  constructor
  · rintro ⟨i, inside, rfl⟩
    exact ⟨i, (configured.inverse _ _).mpr (configured.getMacAddr_eq (List.mem_range.mp inside))⟩
  · rintro ⟨i, found⟩
    have named : table.getMacAddr i = some mac := (configured.inverse mac i).mp found
    exact ⟨i, List.mem_range.mpr (configured.index_lt found), by rw [named, Option.getD_some]⟩

end Configured

end InterfaceTable

namespace NeighborTable

def neighborsOf (table : NeighborTable) (mac : EtherAddress) : List EtherAddress :=
  (table.entries.filter fun entry => entry.2.myMac == mac).map (·.1)

theorem mem_neighborsOf (table : NeighborTable) (mac neigh : EtherAddress) :
    neigh ∈ table.neighborsOf mac ↔ ∃ nte, table.lookup neigh = some nte ∧ nte.myMac = mac := by
  simp only [neighborsOf, List.mem_map, List.mem_filter, beq_iff_eq]
  constructor
  · rintro ⟨⟨neigh, nte⟩, ⟨member, same⟩, rfl⟩
    exact ⟨nte, AList.mem_lookup_iff.mpr member, same⟩
  · rintro ⟨nte, found, same⟩
    exact ⟨⟨neigh, nte⟩, ⟨AList.mem_lookup_iff.mp found, same⟩, rfl⟩

end NeighborTable

structure GenerateVCCSTAdSub where
  interfaces : InterfaceTable
  neighbors : NeighborTable
  ststate : SpanningTreeState

/-- A report as it is made: the port it is pushed to, if the way to the parent is known, the
frame, and how many bytes are written from the start of its payload on. -/
structure LocalTopoPacket where
  output : Option Nat
  frame : Frame
  written : Nat

namespace GenerateVCCSTAdSub

/-- The neighbours of each own interface. An entry for any other interface ends the call. -/
def myinterfaceNeighbors (g : GenerateVCCSTAdSub) :
    Option (HashTable EtherAddress (List EtherAddress)) :=
  g.neighbors.entries.foldlM (fun lists entry =>
    (lists.lookup entry.2.myMac).map fun vector => lists.insert entry.2.myMac (vector ++ [entry.1]))
    (HashTable.insertAll (fun _ => []) ∅ g.interfaces.macs)

/-- The port towards the parent. At the controller itself it is the one back to the classifier. -/
def interface2parent (g : GenerateVCCSTAdSub) (vccmac parentToVcc : EtherAddress) : Option Nat :=
  let port :=
    match g.interfaces.etheraddToInterfaceIndex.lookup vccmac with
    | some _ => some g.interfaces.numInterfaces
    | none => (g.neighbors.lookup parentToVcc).map fun (nte : NeighborTableEntry) =>
        -- an address without an interface reads as index zero
        (g.interfaces.etheraddToInterfaceIndex.lookup nte.myMac).getD 0
  port.filter fun port => port ≤ g.interfaces.numInterfaces

def siblings (interfaces : InterfaceTable) (i : Nat) : List EtherAddress :=
  ((List.range interfaces.numInterfaces).filter (i ≠ ·)).map fun j =>
    (interfaces.getMacAddr j).getD 0

/-- The packet is made for the number of neighbours as it is counted in sixteen bits. -/
def localTopoPacket (g : GenerateVCCSTAdSub) (vccmac parentToVcc : EtherAddress) (i : Nat)
    (vector : List EtherAddress) : LocalTopoPacket :=
  let ethsrc := (g.interfaces.getMacAddr i).getD 0
  let n_neigh := BitVec.ofNat 16 (g.interfaces.numInterfaces - 1 + vector.length)
  let reported := siblings g.interfaces i ++ vector
  let payload := Bytes.ofWord 2 n_neigh ++ reported.flatMap (Bytes.ofWord 6)
  { output := g.interface2parent vccmac parentToVcc
    frame := { localTopoToVCC ethsrc vccmac parentToVcc reported with
      payload := payload.take (2 + 6 * n_neigh.toNat) }
    written := payload.length }

/-- The loop over the interfaces. The neighbours of an interface are erased after its report. -/
def reportLoop (g : GenerateVCCSTAdSub) (vccmac parentToVcc : EtherAddress) :
    List Nat → HashTable EtherAddress (List EtherAddress) → List LocalTopoPacket
  | [], _ => []
  | i :: rest, lists =>
      let ethsrc := (g.interfaces.getMacAddr i).getD 0
      match lists.lookup ethsrc with
      | none => reportLoop g vccmac parentToVcc rest lists
      | some vector =>
          g.localTopoPacket vccmac parentToVcc i vector ::
            reportLoop g vccmac parentToVcc rest (lists.erase ethsrc)

def sendNeighborInfotoVCC (g : GenerateVCCSTAdSub) : List LocalTopoPacket :=
  match g.ststate.forwardingTableToVCC.entries.head? with
  | none => []
  | some ⟨vccmac, pe⟩ =>
      match g.myinterfaceNeighbors with
      | none => []
      | some lists => g.reportLoop vccmac pe.parentMac (List.range g.interfaces.numInterfaces) lists

theorem foldlM_neighbors {macs : List EtherAddress} (entries : List (Sigma fun _ : EtherAddress =>
    NeighborTableEntry)) (own : ∀ entry ∈ entries, entry.2.myMac ∈ macs)
    {lists : HashTable EtherAddress (List EtherAddress)} {before : EtherAddress → List EtherAddress}
    (listed : ∀ mac ∈ macs, lists.lookup mac = some (before mac)) :
    ∃ after, entries.foldlM (fun lists entry =>
        (lists.lookup entry.2.myMac).map fun vector =>
          lists.insert entry.2.myMac (vector ++ [entry.1]))
        lists = some after ∧
      ∀ mac ∈ macs, after.lookup mac =
        some (before mac ++ (entries.filter fun entry => entry.2.myMac == mac).map (·.1)) := by
  induction entries generalizing lists before with
  | nil =>
      refine ⟨lists, rfl, fun mac member => ?_⟩
      rw [listed mac member, List.filter_nil, List.map_nil, List.append_nil]
  | cons first rest ih =>
      rw [List.forall_mem_cons] at own
      have updated : ∀ mac ∈ macs,
          (lists.insert first.2.myMac (before first.2.myMac ++ [first.1])).lookup mac =
            some (before mac ++ if first.2.myMac = mac then [first.1] else []) := by
        intro mac member
        rw [HashTable.lookup_insert_ite]
        by_cases same : mac = first.2.myMac
        · rw [if_pos same, if_pos same.symm, same]
        · rw [if_neg same, if_neg (Ne.symm same), List.append_nil, listed mac member]
      obtain ⟨after, run, stored⟩ := ih own.2 updated
      refine ⟨after, ?_, fun mac member => ?_⟩
      · rw [List.foldlM_cons, listed _ own.1]
        exact run
      · rw [stored mac member, List.append_assoc, List.filter_cons]
        by_cases same : first.2.myMac = mac
        · simp [same]
        · simp [same]

theorem reportLoop_eq (g : GenerateVCCSTAdSub) (vccmac parentToVcc : EtherAddress)
    {neighbors : EtherAddress → List EtherAddress} {indices : List Nat}
    {lists : HashTable EtherAddress (List EtherAddress)}
    (distinct : (indices.map fun i => (g.interfaces.getMacAddr i).getD 0).Nodup)
    (listed : ∀ i ∈ indices, lists.lookup ((g.interfaces.getMacAddr i).getD 0) =
      some (neighbors ((g.interfaces.getMacAddr i).getD 0))) :
    g.reportLoop vccmac parentToVcc indices lists =
      indices.map fun i => g.localTopoPacket vccmac parentToVcc i
        (neighbors ((g.interfaces.getMacAddr i).getD 0)) := by
  induction indices generalizing lists with
  | nil => rfl
  | cons i rest ih =>
      rw [List.map_cons, List.nodup_cons] at distinct
      rw [List.forall_mem_cons] at listed
      rw [reportLoop, listed.1, List.map_cons]
      refine congrArg _ (ih distinct.2 fun j later => ?_)
      have other : (g.interfaces.getMacAddr j).getD 0 ≠ (g.interfaces.getMacAddr i).getD 0 :=
        fun same => distinct.1 (same ▸ List.mem_map_of_mem later)
      rw [HashTable.lookup_erase_ite, if_neg other, listed.2 j later]

structure Attached (g : GenerateVCCSTAdSub) (vccmac : EtherAddress) (pe : ParentEntry) : Prop where
  configured : g.interfaces.Configured
  own : ∀ neigh nte, g.neighbors.lookup neigh = some nte → nte.myMac ∈ g.interfaces.macs
  first : g.ststate.forwardingTableToVCC.entries.head? = some ⟨vccmac, pe⟩
  parent : vccmac ∈ g.interfaces.macs ∨ pe.parentMac ∈ g.neighbors

section Attached

variable {g : GenerateVCCSTAdSub} {vccmac : EtherAddress} {pe : ParentEntry}
  (attached : g.Attached vccmac pe)
include attached

theorem Attached.nodup_macs : g.interfaces.macs.Nodup := by
  refine List.Nodup.map_on ?_ List.nodup_range
  intro i inside j other same
  exact attached.configured.mac_inj (List.mem_range.mp inside) (List.mem_range.mp other) same

theorem Attached.sendNeighborInfotoVCC_eq :
    g.sendNeighborInfotoVCC = (List.range g.interfaces.numInterfaces).map fun i =>
      g.localTopoPacket vccmac pe.parentMac i
        (g.neighbors.neighborsOf ((g.interfaces.getMacAddr i).getD 0)) := by
  have start : ∀ mac ∈ g.interfaces.macs,
      (HashTable.insertAll (fun _ => ([] : List EtherAddress)) ∅ g.interfaces.macs).lookup mac =
        some [] := by
    intro mac member
    rw [HashTable.lookup_insertAll, if_pos member]
  have own : ∀ entry ∈ g.neighbors.entries, entry.2.myMac ∈ g.interfaces.macs := by
    rintro ⟨neigh, nte⟩ member
    exact attached.own neigh nte (AList.mem_lookup_iff.mpr member)
  obtain ⟨lists, run, listed⟩ := foldlM_neighbors g.neighbors.entries own start
  have learned : g.myinterfaceNeighbors = some lists := run
  rw [sendNeighborInfotoVCC, attached.first]
  simp only [learned]
  refine g.reportLoop_eq vccmac pe.parentMac attached.nodup_macs fun i inside => ?_
  exact listed _ (List.mem_map_of_mem inside)

theorem Attached.interface2parent_known :
    ∃ port, g.interface2parent vccmac pe.parentMac = some port := by
  rw [interface2parent]
  cases known : g.interfaces.etheraddToInterfaceIndex.lookup vccmac with
  | some i => exact ⟨_, Option.filter_eq_some_iff.mpr ⟨rfl, decide_eq_true (Nat.le_refl _)⟩⟩
  | none =>
      have elsewhere : vccmac ∉ g.interfaces.macs := by
        rw [attached.configured.mem_macs]
        rintro ⟨i, found⟩
        rw [known] at found
        cases found
      obtain ⟨nte, found⟩ := (HashTable.mem_iff_lookup _ _).mp
        (attached.parent.resolve_left elsewhere)
      obtain ⟨i, index⟩ := (attached.configured.mem_macs _).mp (attached.own _ nte found)
      refine ⟨i, Option.filter_eq_some_iff.mpr ⟨by simp [found, index], ?_⟩⟩
      exact decide_eq_true (Nat.le_of_lt (attached.configured.index_lt index))

theorem Attached.mem_siblings {i : Nat} (inside : i < g.interfaces.numInterfaces)
    (mac : EtherAddress) :
    mac ∈ siblings g.interfaces i ↔ mac ∈ g.interfaces.macs ∧
      mac ≠ (g.interfaces.getMacAddr i).getD 0 := by
  simp only [siblings, InterfaceTable.macs, List.mem_map, List.mem_filter, List.mem_range,
    decide_eq_true_eq]
  constructor
  · rintro ⟨j, ⟨other, different⟩, rfl⟩
    exact ⟨⟨j, other, rfl⟩, fun same =>
      different (attached.configured.mac_inj other inside same).symm⟩
  · rintro ⟨⟨j, other, rfl⟩, different⟩
    refine ⟨j, ⟨other, ?_⟩, rfl⟩
    rintro rfl
    exact different rfl

end Attached

theorem length_siblings (interfaces : InterfaceTable) {i : Nat}
    (inside : i < interfaces.numInterfaces) :
    (siblings interfaces i).length = interfaces.numInterfaces - 1 := by
  have others : (List.range interfaces.numInterfaces).filter (i ≠ ·) =
      (List.range interfaces.numInterfaces).erase i := by
    rw [List.nodup_range.erase_eq_filter]
    refine List.filter_congr fun j _ => ?_
    by_cases same : j = i
    · simp [same]
    · simp [same, Ne.symm same]
  rw [siblings, List.length_map, others, List.length_erase_of_mem (List.mem_range.mpr inside),
    List.length_range]

end GenerateVCCSTAdSub

namespace NetworkTopo

theorem reportedNeighbors_of_payload {frame : Frame} {reported : List EtherAddress}
    (carried : frame.payload =
      Bytes.ofWord 2 (BitVec.ofNat 16 reported.length) ++ reported.flatMap (Bytes.ofWord 6))
    (short : reported.length < 65536) : reportedNeighbors frame = reported := by
  have count : (frame.shortAt 0).toNat = reported.length := by
    rw [Frame.shortAt, carried, List.drop_zero, Bytes.toWord_ofWord_append _ _ (by decide),
      BitVec.toNat_ofNat, Nat.mod_eq_of_lt short]
  have each : ∀ i < reported.length, reported[i]? = some (frame.vidAt (2 + 6 * i)) := by
    intro i inside
    rw [Frame.vidAt, carried, Bytes.drop_ofWord_append _ _ (Nat.le_add_right _ _),
      Nat.add_sub_cancel_left,
      Bytes.toWord_drop_flatMap (List.getElem?_eq_getElem inside) (by decide)]
    exact List.getElem?_eq_getElem inside
  rw [reportedNeighbors, count]
  refine List.ext_getElem? fun i => ?_
  rw [List.getElem?_map]
  by_cases inside : i < reported.length
  · rw [List.getElem?_range inside, each i inside]
    rfl
  · rw [List.getElem?_eq_none (by simpa using inside),
      List.getElem?_eq_none (Nat.le_of_not_lt inside)]
    rfl

def Single (networktopo : HashTable EtherAddress (List EtherAddress)) : Prop :=
  ∀ node neighbors, networktopo.lookup node = some neighbors → neighbors.Nodup

theorem Single.addAnEdge {topo : NetworkTopo} (single : Single topo.networktopo)
    (fromMac toMac : EtherAddress) : Single (topo.addAnEdge fromMac toMac).1.networktopo := by
  intro node neighbors stored
  rw [NetworkTopo.addAnEdge, HashTable.lookup_insert_ite] at stored
  split at stored
  · have before : ((topo.networktopo.lookup fromMac).getD []).Nodup := by
      cases found : topo.networktopo.lookup fromMac with
      | none => exact List.nodup_nil
      | some listed => exact single fromMac listed found
    cases stored
    split
    · exact before
    · rename_i absent
      exact before.append (List.nodup_singleton _) (List.disjoint_singleton.mpr absent)
  · exact single node neighbors stored

theorem Single.processLocalTopo {topo : NetworkTopo} (single : Single topo.networktopo) (now : Nat)
    (frame : Frame) : Single (topo.processLocalTopo now frame).networktopo := by
  have removed : Single (topo.removeNode frame.svid).1.networktopo := by
    intro node neighbors stored
    rw [removeNode, HashTable.lookup_erase_ite] at stored
    split at stored
    · cases stored
    · exact single node neighbors stored
  have entered (reported : List EtherAddress) (learned : NetworkTopo)
      (before : Single learned.networktopo) :
      Single (reported.foldl (fun topo neighmac =>
        ((topo.addAnEdge frame.svid neighmac).1.addAnEdge neighmac frame.svid).1)
          learned).networktopo := by
    induction reported generalizing learned with
    | nil => exact before
    | cons neighmac rest ih => exact ih _ ((before.addAnEdge _ _).addAnEdge _ _)
  exact entered _ _ removed

theorem single_learn (reports : List (Nat × Frame)) : Single (learn reports).networktopo := by
  induction reports using List.reverseRecOn with
  | nil => exact fun node neighbors stored => nomatch stored
  | append_singleton reports report ih =>
      rw [learn_append]
      exact ih.processLocalTopo report.1 report.2

theorem mem_learn_iff {reports : List (Nat × Frame)} (once : (reports.map (·.2.svid)).Nodup)
    (symmetric : ∀ node other, Names reports node other → Names reports other node)
    (node : EtherAddress) :
    node ∈ (learn reports).networktopo ↔ ∃ other, Names reports node other := by
  constructor
  · intro stored
    obtain ⟨other, lists⟩ := exists_lists stored
    exact ⟨other, (names_of_lists lists).elim id (symmetric other node)⟩
  · rintro ⟨other, names⟩
    obtain ⟨neighbors, stored, -⟩ := lists_of_names once names
    exact HashTable.mem_of_lookup stored

end NetworkTopo

def LocalTopoPacket.Inside (packet : LocalTopoPacket) : Prop :=
  packet.written ≤ packet.frame.payload.length ∧
    2 + 6 * (packet.frame.shortAt 0).toNat ≤ packet.frame.payload.length

namespace GenerateVCCSTAdSub

open NetworkTopo

def neighborCount (g : GenerateVCCSTAdSub) (mac : EtherAddress) : Nat :=
  g.interfaces.numInterfaces - 1 + (g.neighbors.neighborsOf mac).length

theorem neighborCount_le (g : GenerateVCCSTAdSub) (mac : EtherAddress) :
    g.neighborCount mac ≤ g.interfaces.numInterfaces + g.neighbors.entries.length := by
  have few : (g.neighbors.neighborsOf mac).length ≤ g.neighbors.entries.length := by
    rw [NeighborTable.neighborsOf, List.length_map]
    exact List.length_filter_le _ _
  exact Nat.add_le_add (Nat.sub_le _ _) few

section Packet

variable (g : GenerateVCCSTAdSub) (vccmac parentToVcc : EtherAddress) {i : Nat}
  (inside : i < g.interfaces.numInterfaces)
include inside

theorem length_reported (vector : List EtherAddress) :
    (siblings g.interfaces i ++ vector).length =
      g.interfaces.numInterfaces - 1 + vector.length := by
  rw [List.length_append, length_siblings g.interfaces inside]

theorem localTopoPacket_written (vector : List EtherAddress) :
    (g.localTopoPacket vccmac parentToVcc i vector).written =
      2 + 6 * (g.interfaces.numInterfaces - 1 + vector.length) := by
  rw [localTopoPacket, List.length_append, Bytes.length_ofWord, Bytes.length_flatMap_ofWord,
    length_reported g inside]

theorem length_payload (vector : List EtherAddress) :
    (g.localTopoPacket vccmac parentToVcc i vector).frame.payload.length =
      2 + 6 * ((g.interfaces.numInterfaces - 1 + vector.length) % 65536) := by
  have written := g.localTopoPacket_written vccmac parentToVcc inside vector
  simp only [localTopoPacket] at written ⊢
  rw [List.length_take, written, BitVec.toNat_ofNat]
  omega

theorem payload_of_short {vector : List EtherAddress}
    (short : g.interfaces.numInterfaces - 1 + vector.length < 65536) :
    (g.localTopoPacket vccmac parentToVcc i vector).frame.payload =
      Bytes.ofWord 2 (BitVec.ofNat 16 (siblings g.interfaces i ++ vector).length) ++
        (siblings g.interfaces i ++ vector).flatMap (Bytes.ofWord 6) := by
  have written := g.localTopoPacket_written vccmac parentToVcc inside vector
  simp only [localTopoPacket] at written ⊢
  rw [List.take_of_length_le, length_reported g inside]
  rw [written, BitVec.toNat_ofNat, Nat.mod_eq_of_lt short]

theorem localTopoPacket_inside_iff (vector : List EtherAddress) :
    (g.localTopoPacket vccmac parentToVcc i vector).Inside ↔
      g.interfaces.numInterfaces - 1 + vector.length < 65536 := by
  rw [LocalTopoPacket.Inside, length_payload g vccmac parentToVcc inside,
    localTopoPacket_written g vccmac parentToVcc inside]
  constructor
  · intro fits
    omega
  · intro short
    rw [Frame.shortAt, payload_of_short g vccmac parentToVcc inside short, List.drop_zero,
      Bytes.toWord_ofWord_append _ _ (by decide), BitVec.toNat_ofNat, length_reported g inside]
    exact ⟨by omega, Nat.le_refl _⟩

theorem reportedNeighbors_localTopoPacket {vector : List EtherAddress}
    (short : g.interfaces.numInterfaces - 1 + vector.length < 65536) :
    reportedNeighbors (g.localTopoPacket vccmac parentToVcc i vector).frame =
      siblings g.interfaces i ++ vector :=
  reportedNeighbors_of_payload (payload_of_short g vccmac parentToVcc inside short)
    (by rwa [length_reported g inside])

end Packet

end GenerateVCCSTAdSub

end Veil
