import Veil.ProcessVCCSTAdSub
import Veil.Rendezvous

/-! Which bytes of a frame are read by the two loops that run on a count in the frame: the
gateways of a reply in `processrdv.cc` and the neighbours of a report in `processVCCSTAdSub.cc`. -/

namespace Veil

open Bytes (Byte)

/-- Some bytes that are read, with the entry of `gw_vid` that they are taken for. -/
structure Access where
  offset : Nat
  count : Nat
  entry : Option Nat
deriving DecidableEq

namespace Access

def field (offset count : Nat) : Access := ⟨offset, count, none⟩

def Inside (frame : Frame) (access : Access) : Prop :=
  access.offset + access.count ≤ 30 + frame.payload.length

/-- A loop with what each of its rounds reads. -/
def loop {σ : Type} (step : σ → Nat → σ) (access : Nat → Access) (rounds : Nat)
    (state : σ × List Access) :
    σ × List Access :=
  (List.range rounds).foldl (fun state i => (step state.1 i, state.2 ++ [access i])) state

section Loop

variable {σ : Type} (step : σ → Nat → σ) (access : Nat → Access) (rounds : Nat)
  (state : σ × List Access)

theorem loop_eq : loop step access rounds state =
    ((List.range rounds).foldl step state.1, state.2 ++ (List.range rounds).map access) := by
  rw [loop]
  induction rounds with
  | zero => simp
  | succ rounds ih => simp [List.range_succ, List.foldl_append, ih]

end Loop

theorem inside_range_iff {frame : Frame} {access : Nat → Access} {start size : Nat}
    (offset : ∀ i, (access i).offset = start + size * i) (count : ∀ i, (access i).count = size)
    (fixed : start ≤ 30 + frame.payload.length) :
    (∀ a ∈ (List.range rounds).map access, a.Inside frame) ↔
      start + size * rounds ≤ 30 + frame.payload.length := by
  have ends (i : Nat) : (access i).Inside frame ↔
      start + size * (i + 1) ≤ 30 + frame.payload.length := by
    rw [Inside, offset, count, Nat.mul_succ, Nat.add_assoc]
  constructor
  · intro all
    cases rounds with
    | zero => simpa using fixed
    | succ rounds =>
        have last := all (access rounds) (List.mem_map_of_mem List.self_mem_range_succ)
        exact (ends rounds).mp last
  · intro whole a read
    obtain ⟨i, within, rfl⟩ := List.mem_map.mp read
    have bound : size * (i + 1) ≤ size * rounds :=
      Nat.mul_le_mul_left size (List.mem_range.mp within)
    exact (ends i).mpr (by omega)

end Access

open Access (field Inside)

namespace ProcessRDV

def gwVid (j : Nat) : Access := ⟨32 + 4 * j, 4, some j⟩

def learnGateways (interfaces : InterfaceTable) (frame : Frame) (routes : RouteTable) :
    RouteTable × List Access :=
  -- the bucket and the count
  Access.loop (learnGateway interfaces frame) gwVid (frame.byteAt 1).toNat
    (routes, [field 30 1, field 31 1])

def reads (p : ProcessRDV) (frame : Frame) : List Access :=
  field 0 6 ::
    if ¬(p.interfaces.lookupVidEntry frame.dhost).1 then []
    else field 14 6 :: field 20 6 ::
      if ¬(p.interfaces.lookupVidEntry frame.dvid).1 then []
      else field 26 2 ::
        if frame.veilType = veilRdvQuery then [field 30 1]
        else field 26 2 ::
          if frame.veilType = veilRdvPublish then [field 32 4]
          else field 26 2 ::
            if frame.veilType = veilRdvReply then (learnGateways p.interfaces frame p.routes).2
            else [field 26 2]

theorem smaction_reply (p : ProcessRDV) {frame : Frame} (reply : frame.veilType = veilRdvReply)
    (accepted : accepts p.interfaces frame = true) :
    p.smaction frame = ({ p with routes := (learnGateways p.interfaces frame p.routes).1 },
      none) := by
  obtain ⟨here, mine⟩ := Bool.and_eq_true_iff.mp accepted
  have noQuery : veilRdvReply ≠ veilRdvQuery := by decide
  have noPublish : veilRdvReply ≠ veilRdvPublish := by decide
  rw [smaction, dispose, if_neg (not_not.mpr here), if_neg (not_not.mpr mine), reply,
    if_neg noQuery,
    if_neg noPublish, if_pos rfl, learnGateways, Access.loop_eq]
  rfl

def replyHeaders : List Access :=
  [field 0 6, field 14 6, field 20 6, field 26 2, field 26 2, field 26 2, field 30 1, field 31 1]

theorem reads_reply (p : ProcessRDV) {frame : Frame} (reply : frame.veilType = veilRdvReply)
    (accepted : accepts p.interfaces frame = true) :
    p.reads frame = replyHeaders ++ (List.range (frame.byteAt 1).toNat).map gwVid := by
  obtain ⟨here, mine⟩ := Bool.and_eq_true_iff.mp accepted
  have noQuery : veilRdvReply ≠ veilRdvQuery := by decide
  have noPublish : veilRdvReply ≠ veilRdvPublish := by decide
  rw [reads, if_neg (not_not.mpr here), if_neg (not_not.mpr mine), reply, if_neg noQuery,
    if_neg noPublish,
    if_pos rfl, learnGateways, Access.loop_eq]
  rfl

theorem reads_refused (p : ProcessRDV) {frame : Frame}
    (refused : accepts p.interfaces frame = false) :
    ∀ access ∈ p.reads frame, access ∈ [field 0 6, field 14 6, field 20 6] := by
  rw [reads]
  by_cases here : (p.interfaces.lookupVidEntry frame.dhost).1 = true
  · have other : ¬(p.interfaces.lookupVidEntry frame.dvid).1 = true := by
      intro mine
      rw [accepts, here, mine] at refused
      cases refused
    rw [if_neg (not_not.mpr here), if_pos other]
    exact fun access read => read
  · rw [if_pos here]
    intro access read
    exact List.mem_cons.mpr (Or.inl (List.mem_singleton.mp read))

def ReadsInside (p : ProcessRDV) (frame : Frame) : Prop :=
  (∀ access ∈ p.reads frame, access.Inside frame) ∧
    ∀ access ∈ p.reads frame, ∀ j, access.entry = some j → j < maxGwPerBucket

theorem readsInside_iff (p : ProcessRDV) {frame : Frame} (fixed : 2 ≤ frame.payload.length)
    (reply : frame.veilType = veilRdvReply) :
    p.ReadsInside frame ↔ (accepts p.interfaces frame = true →
      (frame.byteAt 1).toNat ≤ maxGwPerBucket ∧
        2 + 4 * (frame.byteAt 1).toNat ≤ frame.payload.length) := by
  cases accepted : accepts p.interfaces frame with
  | false =>
      refine iff_of_true ⟨fun access read => ?_, fun access read j entry => ?_⟩ nofun
      · have header := p.reads_refused accepted access read
        simp only [List.mem_cons, List.not_mem_nil, or_false] at header
        rcases header with rfl | rfl | rfl
        all_goals
          simp only [Inside, field]
          omega
      · have header := p.reads_refused accepted access read
        simp only [List.mem_cons, List.not_mem_nil, or_false] at header
        rcases header with rfl | rfl | rfl
        all_goals cases entry
  | true =>
      have gateways := @Access.inside_range_iff (frame.byteAt 1).toNat frame gwVid 32 4
        (fun _ => rfl)
        (fun _ => rfl) (by omega)
      have headers : ∀ access ∈ replyHeaders, access.Inside frame ∧ access.entry = none := by
        intro access read
        simp only [replyHeaders, List.mem_cons, List.not_mem_nil, or_false] at read
        rcases read with rfl | rfl | rfl | rfl | rfl | rfl | rfl | rfl
        all_goals
          refine ⟨?_, rfl⟩
          simp only [Inside, field]
          omega
      rw [ReadsInside, p.reads_reply reply accepted]
      constructor
      · rintro ⟨inside, slots⟩ -
        refine ⟨?_, ?_⟩
        · refine Nat.le_of_not_lt fun more => ?_
          have fifth : gwVid maxGwPerBucket ∈ (List.range (frame.byteAt 1).toNat).map gwVid :=
            List.mem_map_of_mem (List.mem_range.mpr more)
          exact Nat.lt_irrefl _ (slots _ (List.mem_append_right _ fifth) maxGwPerBucket rfl)
        · have whole := gateways.mp fun access read => inside access (List.mem_append_right _ read)
          omega
      · intro bounds
        obtain ⟨few, whole⟩ := bounds rfl
        have each := gateways.mpr (by omega)
        refine ⟨fun access read => ?_, fun access read j entry => ?_⟩
        · rcases List.mem_append.mp read with header | gateway
          · exact (headers access header).1
          · exact each access gateway
        · rcases List.mem_append.mp read with header | gateway
          · exact absurd ((headers access header).2.symm.trans entry) (Option.some_ne_none j).symm
          · obtain ⟨k, within, rfl⟩ := List.mem_map.mp gateway
            obtain rfl : k = j := Option.some.inj entry
            exact Nat.lt_of_lt_of_le (List.mem_range.mp within) few

end ProcessRDV

namespace NetworkTopo

def neighborAddr (i : Nat) : Access := field (32 + 6 * i) 6

def learnNeighbors (topo : NetworkTopo) (frame : Frame) : NetworkTopo × List Access :=
  Access.loop (fun topo i =>
    ((topo.addAnEdge frame.svid (frame.vidAt (2 + 6 * i))).1.addAnEdge (frame.vidAt (2 + 6 * i))
      frame.svid).1)
    neighborAddr (frame.shortAt 0).toNat ((topo.removeNode frame.svid).1, [field 30 2])

theorem processLocalTopo_eq (topo : NetworkTopo) (now : Nat) (frame : Frame) :
    topo.processLocalTopo now frame =
      (topo.learnNeighbors frame).1.lastUpdateTimeForNode now frame.svid := by
  rw [processLocalTopo, reportedNeighbors, List.foldl_map, learnNeighbors, Access.loop_eq]

end NetworkTopo

namespace ProcessVCCSTAdSub

def localTopoReads (p : ProcessVCCSTAdSub) (frame : Frame) : List Access :=
  field 20 6 :: field 14 6 ::
    match p.interfaces.etheraddToInterfaceIndex.lookup frame.dvid with
    | some _ => (p.topo.learnNeighbors frame).2
    | none =>
        match (p.ststate.getParentNodeToVCC frame.dvid).bind p.neighbors.lookup with
        | none => []
        | some _ => if frame.ttl = 0 then [field 28 1] else [field 28 1, field 28 1]

def Controls (p : ProcessVCCSTAdSub) (frame : Frame) : Prop :=
  frame.dvid ∈ p.interfaces.etheraddToInterfaceIndex

theorem processLocalTopo_controls (p : ProcessVCCSTAdSub) (now : Nat) {frame : Frame}
    (controls : p.Controls frame) :
    p.processLocalTopo now frame = ({ p with
      topo := (p.topo.learnNeighbors frame).1.lastUpdateTimeForNode now frame.svid }, []) := by
  obtain ⟨i, found⟩ := (HashTable.mem_iff_lookup _ _).mp controls
  rw [processLocalTopo, found, ← NetworkTopo.processLocalTopo_eq]

theorem localTopoReads_controls (p : ProcessVCCSTAdSub) {frame : Frame}
    (controls : p.Controls frame) :
    p.localTopoReads frame = [field 20 6, field 14 6, field 30 2] ++
      (List.range (frame.shortAt 0).toNat).map NetworkTopo.neighborAddr := by
  obtain ⟨i, found⟩ := (HashTable.mem_iff_lookup _ _).mp controls
  rw [localTopoReads, found]
  dsimp only
  rw [NetworkTopo.learnNeighbors, Access.loop_eq]
  rfl

theorem localTopoReads_inside_iff (p : ProcessVCCSTAdSub) {frame : Frame}
    (fixed : 2 ≤ frame.payload.length) (controls : p.Controls frame) :
    (∀ access ∈ p.localTopoReads frame, access.Inside frame) ↔
      2 + 6 * (frame.shortAt 0).toNat ≤ frame.payload.length := by
  have neighbors := @Access.inside_range_iff (frame.shortAt 0).toNat frame
    NetworkTopo.neighborAddr 32 6
    (fun _ => rfl) (fun _ => rfl) (by omega)
  have headers : ∀ access ∈ [field 20 6, field 14 6, field 30 2], access.Inside frame := by
    intro access read
    simp only [List.mem_cons, List.not_mem_nil, or_false] at read
    rcases read with rfl | rfl | rfl
    all_goals
      simp only [Inside, field]
      omega
  rw [p.localTopoReads_controls controls, List.forall_mem_append, and_iff_right headers, neighbors]
  omega

end ProcessVCCSTAdSub

namespace CountedFrame

/-- Both loops stay inside the frame exactly when the count fits the length, and that of a reply
also `gw_vid`. -/
theorem counted_reads_iff (rdv : ProcessRDV) (vcc : ProcessVCCSTAdSub) {frame : Frame}
    (fixed : 2 ≤ frame.payload.length) :
    (frame.veilType = veilRdvReply →
      (rdv.ReadsInside frame ↔ (ProcessRDV.accepts rdv.interfaces frame = true →
        (frame.byteAt 1).toNat ≤ maxGwPerBucket ∧
          2 + 4 * (frame.byteAt 1).toNat ≤ frame.payload.length))) ∧
      (vcc.Controls frame → ((∀ access ∈ vcc.localTopoReads frame, access.Inside frame) ↔
        2 + 6 * (frame.shortAt 0).toNat ≤ frame.payload.length)) :=
  ⟨rdv.readsInside_iff fixed, vcc.localTopoReads_inside_iff fixed⟩

def interfaces : InterfaceTable := .single 0x010200000000 9

def rdv : ProcessRDV := ⟨.empty, ∅, interfaces⟩

def vcc : ProcessVCCSTAdSub := ⟨interfaces, ∅, .empty, .empty⟩

def addressed (dvid : VID) (veilType : BitVec 16) (payload : List Byte) : Frame where
  dhost := 0x010200000000
  shost := 0x010300000000
  etherType := etherTypeVeil
  svid := 0x010300000000
  dvid := dvid
  veilType := veilType
  ttl := maxTtl
  optional := 0
  payload := payload
  reroute := false
  port := 0

def reply (gwCount : Byte) : Frame :=
  addressed 0x010200000000 veilRdvReply (17 :: gwCount :: List.replicate 16 0)

def report : Frame := addressed 9 veilLocalTopoToVcc [0, 1]

theorem counted_reads_iff_two :
    (rdv.ReadsInside (reply 2) ↔ (ProcessRDV.accepts rdv.interfaces (reply 2) = true →
      ((reply 2).byteAt 1).toNat ≤ maxGwPerBucket ∧
        2 + 4 * ((reply 2).byteAt 1).toNat ≤ (reply 2).payload.length)) ∧
    ((∀ access ∈ vcc.localTopoReads report, access.Inside report) ↔
      2 + 6 * (report.shortAt 0).toNat ≤ report.payload.length) :=
  ⟨(counted_reads_iff rdv vcc (by decide)).1 rfl,
    (counted_reads_iff rdv vcc (by decide)).2 ((HashTable.mem_iff_lookup _ _).mpr ⟨0, rfl⟩)⟩

/-- A reply of five gateways with room for four. -/
theorem not_always_inside :
    ¬∀ (p : ProcessRDV) (q : ProcessVCCSTAdSub) (frame : Frame), 2 ≤ frame.payload.length →
      (frame.veilType = veilRdvReply → p.ReadsInside frame) ∧
        (q.Controls frame → ∀ access ∈ q.localTopoReads frame, access.Inside frame) := by
  intro always
  have inside := (always rdv vcc (reply 5) (by decide)).1 rfl
  have five := (rdv.readsInside_iff (by decide) rfl).mp inside (by decide)
  exact absurd five.1 (by decide)

end CountedFrame

end Veil
