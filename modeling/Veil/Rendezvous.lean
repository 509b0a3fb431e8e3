import Veil.Disposal
import Veil.Frame
import Veil.RouteTable

/-! Rendezvous: the edges a switch knows as a rendezvous point, from `rendezvoustable.hh` and
`rendezvoustable.cc`, and the packets about them, from `processrdv.cc`. -/

namespace Veil

structure RendezvousEdge where
  src : VID
  dest : VID
deriving DecidableEq

abbrev RendezvousTable := HashTable RendezvousEdge Unit

namespace RendezvousTable

def updateEntry (table : RendezvousTable) (src dest : VID) : RendezvousTable :=
  table.insert ⟨src, dest⟩ ()

def expire (table : RendezvousTable) (edge : RendezvousEdge) : RendezvousTable := table.erase edge

def qualifies (k : Nat) (svid : VID) (edge : RendezvousEdge) : Bool :=
  k == svid.logicalDistance edge.dest && decide (svid.logicalDistance edge.src < k)

structure Selection where
  bestXORDist : BitVec 32
  defaultgw : VID
  ngws : BitVec 8

def Selection.consider (svid : VID) (chosen : Selection) (edge : RendezvousEdge) : Selection :=
  let newdist := VID.xor edge.src svid
  -- an edge at the same distance replaces an earlier one, and every edge counts
  if newdist ≤ chosen.bestXORDist then ⟨newdist, edge.src, chosen.ngws + 1⟩
  else { chosen with ngws := chosen.ngws + 1 }

def closest (svid : VID) (edges : List RendezvousEdge) : Selection :=
  edges.foldl (Selection.consider svid) ⟨0xFFFFFFFF, 0, 0⟩

/-- The gateways: the default one, then others in the order of the table, up to the number of
edges and to `maxGwPerBucket`. -/
def getRdvPoint (table : RendezvousTable) (k : Nat) (svid : VID) : List VID :=
  let edges := table.keys.filter (qualifies k svid)
  let chosen := closest svid edges
  let ngws := min chosen.ngws.toNat maxGwPerBucket
  if 0 < ngws then
    chosen.defaultgw :: ((edges.map (·.src)).filter (· ≠ chosen.defaultgw)).take (ngws - 1)
  else []

def LastClosest (svid : VID) (sources : List VID) (gateway : VID) : Prop :=
  ∃ front back, sources = front ++ gateway :: back ∧
    (∀ source ∈ front, VID.xor gateway svid ≤ VID.xor source svid) ∧
      ∀ source ∈ back, VID.xor gateway svid < VID.xor source svid

theorem LastClosest.mem {svid : VID} {sources : List VID} {gateway : VID}
    (last : LastClosest svid sources gateway) : gateway ∈ sources := by
  obtain ⟨front, back, rfl, -⟩ := last
  simp

theorem LastClosest.least {svid : VID} {sources : List VID} {gateway : VID}
    (last : LastClosest svid sources gateway) :
    ∀ source ∈ sources, VID.xor gateway svid ≤ VID.xor source svid := by
  obtain ⟨front, back, rfl, least, farther⟩ := last
  intro source listed
  rcases List.mem_append.mp listed with before | after
  · exact least source before
  · rcases List.mem_cons.mp after with rfl | after
    · exact BitVec.le_refl _
    · exact BitVec.le_of_lt (farther source after)

theorem LastClosest.unique {svid : VID} {sources : List VID} {gateway other : VID}
    (last : LastClosest svid sources gateway) (otherLast : LastClosest svid sources other) :
    gateway = other := by
  obtain ⟨front, back, split, least, farther⟩ := last
  obtain ⟨otherFront, otherBack, otherSplit, otherLeast, otherFarther⟩ := otherLast
  rw [split] at otherSplit
  rcases List.append_eq_append_iff.mp otherSplit with ⟨between, rfl, later⟩ | ⟨between, rfl, later⟩
  · cases between with
    | nil => exact (List.cons.inj later).1
    | cons first between =>
        obtain ⟨rfl, rfl⟩ := List.cons.inj later
        exact absurd (otherLeast gateway (by simp)) (BitVec.not_le.mpr (farther other (by simp)))
  · cases between with
    | nil => exact (List.cons.inj later).1.symm
    | cons first between =>
        obtain ⟨rfl, rfl⟩ := List.cons.inj later
        exact absurd (least other (by simp)) (BitVec.not_le.mpr (otherFarther gateway (by simp)))

theorem closest_concat (svid : VID) (edges : List RendezvousEdge) (edge : RendezvousEdge) :
    closest svid (edges ++ [edge]) = (closest svid edges).consider svid edge := by
  rw [closest, List.foldl_append]
  rfl

/-- The loop invariant of the first pass: the source held is the last closest one of those seen. The
first edge is taken whatever its distance is, since no distance exceeds the initial one. -/
theorem closest_lastClosest (svid : VID) {edges : List RendezvousEdge} (some : edges ≠ []) :
    LastClosest svid (edges.map (·.src)) (closest svid edges).defaultgw ∧
      (closest svid edges).bestXORDist = VID.xor (closest svid edges).defaultgw svid := by
  induction edges using List.reverseRecOn with
  | nil => exact absurd rfl some
  | append_singleton edges edge ih =>
      rw [closest_concat, Selection.consider, List.map_append, List.map_singleton]
      cases edges with
      | nil =>
          have nearer : VID.xor edge.src svid ≤ 0xFFFFFFFF := by
            rw [BitVec.le_def]
            exact Nat.le_of_lt_succ (VID.xor edge.src svid).isLt
          rw [closest, List.foldl_nil, if_pos nearer]
          exact ⟨⟨[], [], rfl, by simp, by simp⟩, rfl⟩
      | cons first edges =>
          obtain ⟨last, best⟩ := ih (List.cons_ne_nil _ _)
          split
          · rename_i nearer
            rw [best] at nearer
            exact ⟨⟨_, [], rfl,
              fun source seen => BitVec.le_trans nearer (last.least source seen), by simp⟩,
              rfl⟩
          · rename_i notNearer
            rw [best] at notNearer
            obtain ⟨front, back, split, least, farther⟩ := last
            refine ⟨⟨front, back ++ [edge.src], by rw [split]; simp, least,
              fun source seen => ?_⟩, best⟩
            rcases List.mem_append.mp seen with before | added
            · exact farther source before
            · rw [List.mem_singleton.mp added]
              exact BitVec.not_le.mp notNearer

theorem closest_spec (svid : VID) {edges : List RendezvousEdge} (some : edges ≠ []) :
    (∃ edge ∈ edges, edge.src = (closest svid edges).defaultgw) ∧
      ∀ edge ∈ edges, VID.xor (closest svid edges).defaultgw svid ≤ VID.xor edge.src svid := by
  have last := (closest_lastClosest svid some).1
  refine ⟨List.mem_map.mp last.mem, fun edge visited => last.least edge.src ?_⟩
  exact List.mem_map_of_mem visited

theorem getRdvPoint_head {table : RendezvousTable} {k : Nat} {svid g : VID} {others : List VID}
    (answer : table.getRdvPoint k svid = g :: others) :
    (∃ edge ∈ table, qualifies k svid edge ∧ edge.src = g) ∧
      ∀ edge ∈ table, qualifies k svid edge → VID.xor g svid ≤ VID.xor edge.src svid := by
  rw [getRdvPoint] at answer
  split at answer
  · rename_i positive
    have some : table.keys.filter (qualifies k svid) ≠ [] := by
      intro nothing
      rw [nothing] at positive
      exact Nat.lt_irrefl 0 positive
    obtain rfl := (List.cons.inj answer).1
    obtain ⟨⟨edge, visited, same⟩, least⟩ := closest_spec svid some
    have member := List.mem_filter.mp visited
    refine ⟨⟨edge, AList.mem_keys.mpr member.1, member.2, same⟩, fun other stored qualified => ?_⟩
    exact least other (List.mem_filter.mpr ⟨AList.mem_keys.mp stored, qualified⟩)
  · cases answer

theorem length_getRdvPoint_le (table : RendezvousTable) (k : Nat) (svid : VID) :
    (table.getRdvPoint k svid).length ≤ maxGwPerBucket := by
  rw [getRdvPoint]
  split
  · rename_i positive
    rw [List.length_cons, List.length_take]
    omega
  · exact Nat.zero_le _

theorem mem_getRdvPoint {table : RendezvousTable} {k : Nat} {svid g : VID}
    (answer : g ∈ table.getRdvPoint k svid) :
    ∃ edge ∈ table, qualifies k svid edge ∧ edge.src = g := by
  cases gateways : table.getRdvPoint k svid with
  | nil =>
      rw [gateways] at answer
      cases answer
  | cons defaultgw others =>
      rw [gateways] at answer
      rcases List.mem_cons.mp answer with rfl | other
      · exact (getRdvPoint_head gateways).1
      · rw [getRdvPoint] at gateways
        split at gateways
        · obtain rfl := (List.cons.inj gateways).2
          have source := List.mem_of_mem_filter (List.mem_of_mem_take other)
          obtain ⟨edge, visited, same⟩ := List.mem_map.mp source
          have member := List.mem_filter.mp visited
          exact ⟨edge, AList.mem_keys.mpr member.1, member.2, same⟩
        · cases gateways

end RendezvousTable

def rdvQueryPayload (k : Nat) : List Bytes.Byte := [BitVec.ofNat 8 k, 0]

def rdvPublishPayload (k : Nat) (neighbor : VID) : List Bytes.Byte :=
  [BitVec.ofNat 8 k, 0] ++ (Bytes.ofWord 6 neighbor).take 4

def rdvReplyPayload (k : Bytes.Byte) (gateways : List VID) : List Bytes.Byte :=
  [k, BitVec.ofNat 8 gateways.length] ++
    (List.range maxGwPerBucket).flatMap fun i => (Bytes.ofWord 6 (gateways.getD i 0)).take 4

def Frame.switchVidAt (frame : Frame) (offset : Nat) : VID := (frame.vidAt offset).getSwitchVID

theorem switchVidAt_block {frame : Frame} {offset : Nat} {vid : VID} {rest : List Bytes.Byte}
    (block : frame.payload.drop offset = (Bytes.ofWord 6 vid).take 4 ++ rest) :
    frame.switchVidAt offset = vid.getSwitchVID := by
  rw [Frame.switchVidAt, Frame.vidAt, block, VID.getSwitchVID_eq, VID.getSwitchVID_eq]
  apply BitVec.eq_of_getLsbD_eq
  intro bit inside
  rw [VID.getLsbD_clearBelow _ _ _ inside, VID.getLsbD_clearBelow _ _ _ inside]
  by_cases high : 16 ≤ bit
  · have early : 6 - 1 - bit / 8 < 4 := by omega
    have position : 8 * (6 - 1 - (6 - 1 - bit / 8)) + bit % 8 = bit := by omega
    have small : bit % 8 < 8 := Nat.mod_lt _ (by decide)
    have byte : ((Bytes.ofWord 6 vid).take 4 ++ rest).getD (6 - 1 - bit / 8) 0 =
        (vid >>> (8 * (6 - 1 - (6 - 1 - bit / 8)))).setWidth 8 := by
      rw [← Bytes.getD_ofWord_append 6 vid [] (by omega), List.append_nil,
        List.getD_eq_getElem?_getD, List.getD_eq_getElem?_getD,
        List.getElem?_append_left (by simp; omega), List.getElem?_take_of_lt early]
    rw [Bytes.getLsbD_toWord 6 _ inside (by omega), byte, BitVec.getLsbD_setWidth,
      BitVec.getLsbD_ushiftRight, position]
    simp [small]
  · simp [high]

theorem rdvReplyPayload_gateway {frame : Frame} {k : Bytes.Byte} {gateways : List VID}
    (carried : frame.payload = rdvReplyPayload k gateways) {j : Nat} (slot : j < maxGwPerBucket) :
    frame.switchVidAt (2 + 4 * j) = (gateways.getD j 0).getSwitchVID := by
  have blocks : ∃ rest, frame.payload.drop (2 + 4 * j) =
      (Bytes.ofWord 6 (gateways.getD j 0)).take 4 ++ rest := by
    rw [carried, rdvReplyPayload, ← List.drop_drop]
    have few : j < 4 := slot
    interval_cases j
    all_goals exact ⟨_, by simp [maxGwPerBucket, List.range_succ]; rfl⟩
  obtain ⟨rest, block⟩ := blocks
  exact switchVidAt_block block

theorem rdvReply_near {frame : Frame} {rdvs : RendezvousTable} {k : Bytes.Byte}
    (carried : frame.payload = rdvReplyPayload k (rdvs.getRdvPoint k.toNat frame.dvid)) {j : Nat}
    (listed : j < (frame.byteAt 1).toNat)
    (far : 16 < frame.dvid.logicalDistance (frame.switchVidAt (2 + 4 * j))) :
    frame.dvid.logicalDistance (frame.switchVidAt (2 + 4 * j)) < (frame.byteAt 0).toNat := by
  have few := rdvs.length_getRdvPoint_le k.toNat frame.dvid
  have level : frame.byteAt 0 = k := by rw [Frame.byteAt, carried]; rfl
  have count : frame.byteAt 1 = BitVec.ofNat 8 (rdvs.getRdvPoint k.toNat frame.dvid).length := by
    rw [Frame.byteAt, carried]
    rfl
  rw [maxGwPerBucket] at few
  rw [count, BitVec.toNat_ofNat, Nat.mod_eq_of_lt (by omega)] at listed
  have gateway := rdvReplyPayload_gateway carried (show j <
    maxGwPerBucket by rw [maxGwPerBucket]; omega)
  have listedGateway : (rdvs.getRdvPoint k.toNat frame.dvid).getD j 0 ∈
      rdvs.getRdvPoint k.toNat frame.dvid := by
    rw [List.getD_eq_getElem _ _ listed]
    exact List.getElem_mem listed
  obtain ⟨edge, -, qualified, same⟩ := RendezvousTable.mem_getRdvPoint listedGateway
  simp only [RendezvousTable.qualifies, Bool.and_eq_true, decide_eq_true_eq, same] at qualified
  rw [gateway] at far ⊢
  rw [level]
  have tree := VID.logicalDistance_isTreeDistance
  have close := VID.logicalDistance_getSwitchVID ((rdvs.getRdvPoint k.toNat frame.dvid).getD j 0)
  have bound := tree.le_max frame.dvid ((rdvs.getRdvPoint k.toNat frame.dvid).getD j 0)
    ((rdvs.getRdvPoint k.toNat frame.dvid).getD j 0).getSwitchVID
  have near := qualified.2
  omega

structure ProcessRDV where
  routes : RouteTable
  rdvs : RendezvousTable
  interfaces : InterfaceTable

namespace ProcessRDV

def queryReply (frame : Frame) (myVid : VID) (gateways : List VID) : Frame where
  dhost := frame.svid
  shost := myVid
  etherType := etherTypeVeil
  svid := myVid
  dvid := frame.svid
  veilType := veilRdvReply
  ttl := maxTtl
  optional := 0
  payload := rdvReplyPayload (frame.byteAt 0) gateways
  reroute := false
  port := 0

def learnGateway (interfaces : InterfaceTable) (frame : Frame) (routes : RouteTable) (j : Nat) :
    RouteTable :=
  let gateway := frame.switchVidAt (2 + 4 * j)
  if 16 < frame.dvid.logicalDistance gateway then
    match routes.getRouteDefault interfaces gateway frame.dvid 0 with
    | some (nh, _) =>
        routes.updateEntry interfaces frame.dvid (frame.byteAt 0).toNat nh gateway (j == 0)
    | none => routes
  else routes

/-- Whether the frame is handled here: it has come to one of the switch's interfaces and is
destined to one, in all six bytes. -/
def accepts (interfaces : InterfaceTable) (frame : Frame) : Bool :=
  (interfaces.lookupVidEntry frame.dhost).1 && (interfaces.lookupVidEntry frame.dvid).1

/-- The tables after the call and what becomes of the frame, which is handed on when it has come
to the switch but is not destined to it. -/
def dispose (p : ProcessRDV) (frame : Frame) : ProcessRDV × Disposal Frame :=
  if ¬(p.interfaces.lookupVidEntry frame.dhost).1 then (p, .dropped)
  else if ¬(p.interfaces.lookupVidEntry frame.dvid).1 then (p, .handedOn frame)
  else if frame.veilType = veilRdvQuery then
    let gateways := p.rdvs.getRdvPoint (frame.byteAt 0).toNat frame.svid
    let myVid := (p.interfaces.lookupIntEntry frame.port).getD 0
    if 0 < gateways.length then (p, .replaced (queryReply frame myVid gateways)) else (p, .dropped)
  else if frame.veilType = veilRdvPublish then
    ({ p with rdvs := p.rdvs.updateEntry frame.svid (frame.switchVidAt 2) }, .dropped)
  else if frame.veilType = veilRdvReply then
    ({ p with
        routes := (List.range (frame.byteAt 1).toNat).foldl
          (learnGateway p.interfaces frame) p.routes },
      .dropped)
  else (p, .dropped)

def smaction (p : ProcessRDV) (frame : Frame) : ProcessRDV × Option Frame :=
  let (p, disposal) := p.dispose frame
  (p, disposal.packet)

end ProcessRDV

end Veil
