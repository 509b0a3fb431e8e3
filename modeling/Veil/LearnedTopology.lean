import Veil.LocalTopo

/-! The network of the switches, and the topology that the controller learns from all their
reports. -/

namespace Veil

namespace GenerateVCCSTAdSub

open NetworkTopo

structure Cabled (switches : List GenerateVCCSTAdSub) : Prop where
  distinct : (switches.flatMap fun g => g.interfaces.macs).Nodup
  attached : ∀ g ∈ switches, ∃ vccmac pe, g.Attached vccmac pe
  symmetric : ∀ g ∈ switches, ∀ neigh nte, g.neighbors.lookup neigh = some nte →
    ∃ other ∈ switches, ∃ back, other.neighbors.lookup nte.myMac = some back ∧ back.myMac = neigh

def Joined (switches : List GenerateVCCSTAdSub) (mac other : EtherAddress) : Prop :=
  ∃ g ∈ switches, (mac ∈ g.interfaces.macs ∧ other ∈ g.interfaces.macs ∧ mac ≠ other) ∨
    mac ∈ g.neighbors.neighborsOf other ∨ other ∈ g.neighbors.neighborsOf mac

def reports (switches : List GenerateVCCSTAdSub) : List Frame :=
  switches.flatMap fun g =>
    (g.sendNeighborInfotoVCC.filter fun packet => packet.output.isSome).map (·.frame)

/-- The controller has the network as its topology, whatever the order of the reports, and no report
leaves its packet. -/
structure LearnsTopology (switches : List GenerateVCCSTAdSub) : Prop where
  inside : ∀ g ∈ switches, ∀ packet ∈ g.sendNeighborInfotoVCC, packet.Inside
  keys : ∀ now order, Processed (reports switches) now order → ∀ mac,
    mac ∈ (learn order).networktopo ↔ ∃ other, Joined switches mac other
  single : ∀ now order, Processed (reports switches) now order → Single (learn order).networktopo
  graph : ∀ now order, Processed (reports switches) now order → ∀ macs mac other,
    let topo := (learn order).purged now macs
    (∃ i j, (topo.ids macs)[i]? = some mac ∧ (topo.ids macs)[j]? = some other ∧
      Clusters.Neighbors (learnTopology topo.networktopo (topo.ids macs)
        (macs.arrange 2 topo.networktopo.keys)) i j) ↔ Joined switches mac other

theorem Joined.symm {switches : List GenerateVCCSTAdSub} {mac other : EtherAddress}
    (joined : Joined switches mac other) : Joined switches other mac := by
  obtain ⟨g, member, ⟨own, sibling, different⟩ | links⟩ := joined
  · exact ⟨g, member, Or.inl ⟨sibling, own, different.symm⟩⟩
  · exact ⟨g, member, Or.inr links.symm⟩

section Cabled

variable {switches : List GenerateVCCSTAdSub} (cabled : Cabled switches)
include cabled

theorem Cabled.mem_sent {g : GenerateVCCSTAdSub} (member : g ∈ switches)
    (packet : LocalTopoPacket) :
    packet ∈ g.sendNeighborInfotoVCC ↔ ∃ vccmac pe, g.Attached vccmac pe ∧
      ∃ i < g.interfaces.numInterfaces, packet = g.localTopoPacket vccmac pe.parentMac i
        (g.neighbors.neighborsOf ((g.interfaces.getMacAddr i).getD 0)) := by
  constructor
  · intro sent
    obtain ⟨vccmac, pe, attached⟩ := cabled.attached g member
    rw [attached.sendNeighborInfotoVCC_eq, List.mem_map] at sent
    obtain ⟨i, inside, rfl⟩ := sent
    exact ⟨vccmac, pe, attached, i, List.mem_range.mp inside, rfl⟩
  · rintro ⟨vccmac, pe, attached, i, inside, rfl⟩
    rw [attached.sendNeighborInfotoVCC_eq]
    exact List.mem_map_of_mem (List.mem_range.mpr inside)

theorem Cabled.mem_reports (frame : Frame) :
    frame ∈ reports switches ↔ ∃ g ∈ switches, ∃ vccmac pe, g.Attached vccmac pe ∧
      ∃ i < g.interfaces.numInterfaces, frame = (g.localTopoPacket vccmac pe.parentMac i
        (g.neighbors.neighborsOf ((g.interfaces.getMacAddr i).getD 0))).frame := by
  simp only [reports, List.mem_flatMap, List.mem_map, List.mem_filter]
  constructor
  · rintro ⟨g, member, packet, ⟨sent, -⟩, rfl⟩
    obtain ⟨vccmac, pe, attached, i, inside, rfl⟩ := (cabled.mem_sent member packet).mp sent
    exact ⟨g, member, vccmac, pe, attached, i, inside, rfl⟩
  · rintro ⟨g, member, vccmac, pe, attached, i, inside, rfl⟩
    obtain ⟨port, known⟩ := attached.interface2parent_known
    refine ⟨g, member, _,
      ⟨(cabled.mem_sent member _).mpr ⟨vccmac, pe, attached, i, inside, rfl⟩, ?_⟩, rfl⟩
    rw [localTopoPacket, known]
    rfl

theorem Cabled.once : ((reports switches).map (·.svid)).Nodup := by
  have sources : (reports switches).map (·.svid) = switches.flatMap fun g => g.interfaces.macs := by
    rw [reports, List.map_flatMap]
    refine List.flatMap_congr fun g member => ?_
    obtain ⟨vccmac, pe, attached⟩ := cabled.attached g member
    obtain ⟨port, known⟩ := attached.interface2parent_known
    have pushed : g.sendNeighborInfotoVCC.filter (fun packet => packet.output.isSome) =
        g.sendNeighborInfotoVCC := by
      refine List.filter_eq_self.mpr fun packet sent => ?_
      rw [attached.sendNeighborInfotoVCC_eq, List.mem_map] at sent
      obtain ⟨i, -, rfl⟩ := sent
      rw [localTopoPacket, known]
      rfl
    rw [pushed, attached.sendNeighborInfotoVCC_eq, List.map_map, List.map_map]
    rfl
  rw [sources]
  exact cabled.distinct

theorem Cabled.inside_iff :
    (∀ g ∈ switches, ∀ packet ∈ g.sendNeighborInfotoVCC, packet.Inside) ↔
      ∀ g ∈ switches, ∀ mac ∈ g.interfaces.macs, g.neighborCount mac < 65536 := by
  refine forall₂_congr fun g member => ?_
  constructor
  · intro inside mac own
    obtain ⟨vccmac, pe, attached⟩ := cabled.attached g member
    obtain ⟨i, bound, rfl⟩ := List.mem_map.mp own
    exact (localTopoPacket_inside_iff g vccmac pe.parentMac (List.mem_range.mp bound) _).mp
      (inside _
        ((cabled.mem_sent member _).mpr ⟨vccmac, pe, attached, i, List.mem_range.mp bound, rfl⟩))
  · intro short packet sent
    obtain ⟨vccmac, pe, attached, i, bound, rfl⟩ := (cabled.mem_sent member packet).mp sent
    exact (localTopoPacket_inside_iff g vccmac pe.parentMac bound _).mpr
      (short _ (List.mem_map_of_mem (List.mem_range.mpr bound)))

variable (short : ∀ g ∈ switches, ∀ mac ∈ g.interfaces.macs, g.neighborCount mac < 65536)
include short

theorem Cabled.reported_iff (mac other : EtherAddress) :
    (∃ frame ∈ reports switches, frame.svid = mac ∧ other ∈ reportedNeighbors frame) ↔
      Joined switches mac other := by
  have reported {g : GenerateVCCSTAdSub} {i : Nat} {vccmac : EtherAddress} {pe : ParentEntry}
      (member : g ∈ switches) (attached : g.Attached vccmac pe) (inside : i <
        g.interfaces.numInterfaces) :
      other ∈ reportedNeighbors (g.localTopoPacket vccmac pe.parentMac i
          (g.neighbors.neighborsOf ((g.interfaces.getMacAddr i).getD 0))).frame ↔
        (other ∈ g.interfaces.macs ∧ other ≠ (g.interfaces.getMacAddr i).getD 0) ∨
          other ∈ g.neighbors.neighborsOf ((g.interfaces.getMacAddr i).getD 0) := by
    rw [reportedNeighbors_localTopoPacket g vccmac pe.parentMac inside
      (short g member _ (List.mem_map_of_mem (List.mem_range.mpr inside))), List.mem_append,
      attached.mem_siblings inside]
  -- the report of `mac` by its own switch
  have sends {g : GenerateVCCSTAdSub} (member : g ∈ switches) (own : mac ∈ g.interfaces.macs)
      (names : (other ∈ g.interfaces.macs ∧ other ≠ mac) ∨ other ∈ g.neighbors.neighborsOf mac) :
      ∃ frame ∈ reports switches, frame.svid = mac ∧ other ∈ reportedNeighbors frame := by
    obtain ⟨vccmac, pe, attached⟩ := cabled.attached g member
    obtain ⟨i, inside, rfl⟩ := List.mem_map.mp own
    rw [List.mem_range] at inside
    exact ⟨_, (cabled.mem_reports _).mpr ⟨g, member, vccmac, pe, attached, i, inside, rfl⟩, rfl,
      (reported member attached inside).mpr names⟩
  have linked {g : GenerateVCCSTAdSub} {near : EtherAddress} (member : g ∈ switches)
      (links : other ∈ g.neighbors.neighborsOf near) : near ∈ g.interfaces.macs := by
    obtain ⟨vccmac, pe, attached⟩ := cabled.attached g member
    obtain ⟨nte, found, rfl⟩ := (g.neighbors.mem_neighborsOf _ _).mp links
    exact attached.own _ nte found
  constructor
  · rintro ⟨frame, sent, rfl, named⟩
    obtain ⟨g, member, vccmac, pe, attached, i, inside, rfl⟩ := (cabled.mem_reports frame).mp sent
    rcases (reported member attached inside).mp named with ⟨sibling, different⟩ | links
    · exact ⟨g, member, Or.inl ⟨List.mem_map_of_mem (List.mem_range.mpr inside), sibling,
        different.symm⟩⟩
    · exact ⟨g, member, Or.inr (Or.inr links)⟩
  · rintro ⟨g, member, ⟨own, sibling, different⟩ | back | links⟩
    · exact sends member own (Or.inl ⟨sibling, different.symm⟩)
    · -- the neighbour's switch sees the link too
      obtain ⟨nte, found, rfl⟩ := (g.neighbors.mem_neighborsOf _ _).mp back
      obtain ⟨owner, origin, entry, seen, same⟩ := cabled.symmetric g member mac nte found
      have links := (owner.neighbors.mem_neighborsOf _ _).mpr ⟨entry, seen, same⟩
      exact sends origin (linked origin links) (Or.inr links)
    · exact sends member (linked member links) (Or.inr links)

theorem Cabled.names_iff {now : Nat} {order : List (Nat × Frame)}
    (processed : Processed (reports switches) now order) (mac other : EtherAddress) :
    Names order mac other ↔ Joined switches mac other := by
  rw [processed.names_iff, cabled.reported_iff short]

theorem Cabled.emptyUnnamed : EmptyUnnamed (reports switches) := by
  intro report member none other origin named
  have joined := (cabled.reported_iff short _ _).mp ⟨other, origin, rfl, named⟩
  obtain ⟨again, sent, same, back⟩ := (cabled.reported_iff short _ _).mpr joined.symm
  rw [List.inj_on_of_nodup_map cabled.once sent member same, none] at back
  cases back

theorem Cabled.mem_purged {now : Nat} {order : List (Nat × Frame)}
    (processed : Processed (reports switches) now order)
    (macs : HashTable.IterationOrder EtherAddress) (mac : EtherAddress) :
    mac ∈ ((learn order).purged now macs).networktopo ↔ ∃ other, Joined switches mac other := by
  rw [processed.mem_graph cabled.once (cabled.emptyUnnamed short)]
  simp only [← cabled.reported_iff short]
  constructor
  · rintro ⟨frame, sent, source, some⟩
    obtain ⟨other, named⟩ := List.exists_mem_of_ne_nil _ some
    exact ⟨other, frame, sent, source, named⟩
  · rintro ⟨other, frame, sent, source, named⟩
    exact ⟨frame, sent, source, List.ne_nil_of_mem named⟩

theorem Cabled.linked_purged {now : Nat} {order : List (Nat × Frame)}
    (processed : Processed (reports switches) now order)
    (macs : HashTable.IterationOrder EtherAddress) (mac other : EtherAddress) :
    Linked ((learn order).purged now macs).networktopo mac other ↔ Joined switches mac other := by
  rw [processed.linked_graph cabled.once, cabled.mem_purged short processed,
    cabled.mem_purged short processed, cabled.names_iff short processed,
      cabled.names_iff short processed]
  constructor
  · rintro ⟨-, -, joined | joined⟩
    · exact joined
    · exact joined.symm
  · exact fun joined => ⟨⟨other, joined⟩, ⟨mac, joined.symm⟩, Or.inl joined⟩

theorem Cabled.learnsTopology : LearnsTopology switches where
  inside := cabled.inside_iff.mpr short
  keys := by
    intro now order processed mac
    rw [mem_learn_iff (processed.once cabled.once) ?_ mac]
    · simp only [cabled.names_iff short processed]
    · intro node other
      rw [cabled.names_iff short processed, cabled.names_iff short processed]
      exact Joined.symm
  single := fun _ order _ => single_learn order
  graph := by
    intro now order processed macs mac other topo
    have walked : ∀ node, node ∈ macs.arrange 2 topo.networktopo.keys ↔
        node ∈ topo.networktopo := by
      intro node
      rw [macs.mem_arrange, AList.mem_keys]
    simp only [neighbors_learnTopology (nodup_ids macs) (mem_ids macs) walked]
    rw [← cabled.linked_purged short processed macs mac other]
    constructor
    · rintro ⟨i, j, first, last, node, neighbor, named, neighborNamed, linked⟩
      rw [first, Option.some.injEq] at named
      rw [last, Option.some.injEq] at neighborNamed
      subst node neighbor
      exact linked
    · intro linked
      obtain ⟨i, first⟩ := (mem_iff_ids macs mac).mp linked.1
      obtain ⟨j, last⟩ := (mem_iff_ids macs other).mp linked.2.1
      exact ⟨i, j, first, last, mac, other, first, last, linked⟩

end Cabled

/-- The controller has the network as its topology, and all the packets are well formed, exactly
when no interface has more neighbours to report than sixteen bits can count. -/
theorem learnsTopology_iff {switches : List GenerateVCCSTAdSub} (cabled : Cabled switches) :
    LearnsTopology switches ↔
      ∀ g ∈ switches, ∀ mac ∈ g.interfaces.macs, g.neighborCount mac < 65536 :=
  ⟨fun learns => cabled.inside_iff.mp learns.inside, fun short => cabled.learnsTopology short⟩

def cable : List GenerateVCCSTAdSub :=
  [⟨.configure [(1, 1), (2, 2)] false, (∅ : NeighborTable).insert 3 ⟨0, 0, 2⟩,
      ⟨AList.singleton 1 ⟨0, 0, 0⟩, ∅⟩⟩,
    ⟨.configure [(3, 3)] false, (∅ : NeighborTable).insert 2 ⟨0, 0, 3⟩,
      ⟨AList.singleton 1 ⟨2, 1, 0⟩, ∅⟩⟩]

theorem cable_cabled : Cabled cable where
  distinct := by decide
  attached := by
    have only (key mac own : EtherAddress) {neigh : EtherAddress} {nte : NeighborTableEntry}
        (found : ((∅ : NeighborTable).insert key ⟨0, 0, own⟩).lookup neigh = some nte) :
        nte.myMac = own := by
      rw [HashTable.lookup_insert_ite] at found
      split at found
      · cases found
        rfl
      · cases found
    intro g member
    rcases List.mem_pair.mp member with rfl | rfl
    · refine ⟨1, ⟨0, 0, 0⟩, InterfaceTable.configure_configured false (by decide), ?_, rfl,
        Or.inl (by decide)⟩
      intro neigh nte found
      rw [only 3 neigh 2 found]
      decide
    · refine ⟨1, ⟨2, 1, 0⟩, InterfaceTable.configure_configured false (by decide), ?_, rfl,
        Or.inr ((AList.mem_insert _).mpr (Or.inl rfl))⟩
      intro neigh nte found
      rw [only 2 neigh 3 found]
      decide
  symmetric := by
    intro g member neigh nte found
    rcases List.mem_pair.mp member with rfl | rfl
    · rw [HashTable.lookup_insert_ite] at found
      split at found
      · rename_i same
        cases found
        exact ⟨_, List.mem_cons_of_mem _ List.mem_cons_self, _, AList.lookup_insert _, same.symm⟩
      · cases found
    · rw [HashTable.lookup_insert_ite] at found
      split at found
      · rename_i same
        cases found
        exact ⟨_, List.mem_cons_self, _, AList.lookup_insert _, same.symm⟩
      · cases found

theorem learnsTopology_cable : LearnsTopology cable := by
  refine (learnsTopology_iff cable_cabled).mpr fun g member mac _ => ?_
  have few := g.neighborCount_le mac
  rcases List.mem_pair.mp member with rfl | rfl
  · have interfaces := @InterfaceTable.numInterfaces_configure [(1, 1), (2, 2)] false (by decide)
    exact Nat.lt_of_le_of_lt few (by rw [interfaces]; decide)
  · have interfaces := @InterfaceTable.numInterfaces_configure [(3, 3)] false (by decide)
    exact Nat.lt_of_le_of_lt few (by rw [interfaces]; decide)

def controller (interfaces : InterfaceTable) : GenerateVCCSTAdSub :=
  ⟨interfaces, ∅, ⟨AList.singleton ((interfaces.getMacAddr 0).getD 0) ⟨0, 0, 0⟩, ∅⟩⟩

theorem controller_cabled {interfaces : InterfaceTable} (configured : interfaces.Configured)
    (some : 0 < interfaces.numInterfaces) : Cabled [controller interfaces] := by
  have attached : (controller interfaces).Attached ((interfaces.getMacAddr 0).getD 0) ⟨0, 0, 0⟩ :=
    ⟨configured, nofun, rfl, Or.inl (List.mem_map_of_mem (List.mem_range.mpr some))⟩
  refine ⟨?_, fun g member => ?_, fun g member neigh nte found => ?_⟩
  · rw [List.flatMap_singleton]
    exact attached.nodup_macs
  · rw [List.mem_singleton.mp member]
    exact ⟨_, _, attached⟩
  · rw [List.mem_singleton.mp member] at found
    cases found

theorem controller_not_learnsTopology {interfaces : InterfaceTable}
    (configured : interfaces.Configured) (many : 65536 < interfaces.numInterfaces) :
    ¬LearnsTopology [controller interfaces] := by
  intro learns
  have some := Nat.lt_of_le_of_lt (Nat.zero_le 65536) many
  have short := (controller_cabled configured some).inside_iff.mp learns.inside _
    List.mem_cons_self _
    (List.mem_map_of_mem (List.mem_range.mpr some))
  exact Nat.not_lt.mpr (Nat.le_sub_one_of_lt many) (Nat.lt_of_le_of_lt (Nat.le_add_right _ _) short)

/-- The controller with 65537 interfaces makes room for none of the other 65536. -/
theorem not_learnsTopology : ¬∀ switches, Cabled switches → LearnsTopology switches := by
  intro always
  have distinct (count : Nat) (bound : count ≤ 65537) : (((List.range count).map fun i =>
      (BitVec.ofNat 48 i, BitVec.ofNat 48 i)).map (·.2)).Nodup := by
    rw [List.map_map]
    refine List.Nodup.map_on ?_ List.nodup_range
    intro i inside j other same
    rw [List.mem_range] at inside other
    have values := congrArg BitVec.toNat same
    simp only [Function.comp_apply, BitVec.toNat_ofNat] at values
    omega
  obtain ⟨count, many, bound⟩ : ∃ count, 65536 < count ∧ count ≤ 65537 :=
    ⟨65537, by omega, Nat.le_refl _⟩
  have interfaces := InterfaceTable.numInterfaces_configure false (distinct count bound)
  rw [List.length_map, List.length_range] at interfaces
  have configured := InterfaceTable.configure_configured false (distinct count bound)
  exact controller_not_learnsTopology configured (Nat.lt_of_lt_of_eq many interfaces.symm)
    (always _ (controller_cabled configured (by omega)))

end GenerateVCCSTAdSub

end Veil
