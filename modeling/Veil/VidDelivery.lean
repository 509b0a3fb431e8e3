import Veil.VidCopies

/-! The tables of the switches while the VIDs arrive, in any order of the packets. -/

namespace Veil

namespace InterfaceTable

structure Received (start : InterfaceTable) (ether2vid : HashTable EtherAddress VID)
    (sets : Nat → Prop) (table : InterfaceTable) : Prop where
  index : table.etheraddToInterfaceIndex = start.etheraddToInterfaceIndex
  given : ∀ i mac, sets i → start.etheraddToInterfaceIndex.lookup mac = some i →
    table.rinterfaces.lookup i = ether2vid.lookup mac
  kept : ∀ i, ¬sets i → table.rinterfaces.lookup i = start.rinterfaces.lookup i
  marks : ∀ i, table.isvidset.lookup i = some true ↔ sets i
  done : table.isVIDAssignmentDone = true ↔ ∀ i < start.numInterfaces, sets i

variable {start table : InterfaceTable} {ether2vid : HashTable EtherAddress VID} {sets : Nat → Prop}

theorem Received.numInterfaces (received : start.Received ether2vid sets table) :
    table.numInterfaces = start.numInterfaces := by
  rw [InterfaceTable.numInterfaces, received.index, InterfaceTable.numInterfaces]

theorem Received.congr {same : Nat → Prop} (received : start.Received ether2vid sets table)
    (iff : ∀ i, same i ↔ sets i) : start.Received ether2vid same table := by
  have equal : same = sets := funext fun i => propext (iff i)
  exact equal ▸ received

theorem Received.assignVID (received : start.Received ether2vid sets table)
    (configured : start.Configured) {i : Nat} {mac : EtherAddress} {vid : VID}
    (index : start.etheraddToInterfaceIndex.lookup mac = some i)
    (assigned : ether2vid.lookup mac = some vid) :
    start.Received ether2vid (fun k => k = i ∨ sets k) (table.assignVID i vid) where
  index := received.index
  given := by
    intro k other set named
    rw [assignVID_rinterfaces]
    by_cases same : k = i
    · subst k
      have first := (configured.inverse mac i).mp index
      rw [(configured.inverse other i).mp named, Option.some.injEq] at first
      rw [if_pos rfl, first, assigned]
    · rw [if_neg same]
      exact received.given k other (set.resolve_left same) named
  kept := by
    intro k unset
    rw [assignVID_rinterfaces, if_neg fun same => unset (Or.inl same)]
    exact received.kept k fun set => unset (Or.inr set)
  marks := by
    intro k
    rw [assignVID_isvidset, received.marks]
  done := by
    rw [assignVID_done, received.numInterfaces]
    simp only [assignVID_isvidset, received.marks]

end InterfaceTable

namespace VidNetwork

variable {ι : Type} (net : VidNetwork ι)

/-! ### The tables -/

def Sets (packets : List (ι × Frame)) (s : ι) (i : Nat) : Prop :=
  ∃ frame, (s, frame) ∈ packets ∧
    ProcessVCCSTAdSub.assignedInterface (net.switches s).interfaces frame = some i

/-- The packets in flight follow from the dispatched ones, and the tables hold what those
delivered so far have set. -/
structure Tracks (ether2vid : HashTable EtherAddress VID) (state : VidDelivery ι) : Prop where
  run : Cascade.Run net.emits (net.dispatched ether2vid).inFlight state.delivered state.inFlight
  packets : ∀ packet ∈ state.inFlight, VidPacket net.vccmac ether2vid packet.2
  heard : ∀ packet ∈ state.delivered, VidPacket net.vccmac ether2vid packet.2
  neighbors : ∀ s, (state.switches s).neighbors = (net.switches s).neighbors
  ststate : ∀ s, (state.switches s).ststate = (net.switches s).ststate
  tables : ∀ s, (net.switches s).interfaces.Received ether2vid (net.Sets state.delivered s)
    (state.switches s).interfaces

theorem smaction_sent_congr {p q : ProcessVCCSTAdSub} {vccmac : EtherAddress}
    {ether2vid : HashTable EtherAddress VID} {frame : Frame}
    (vid : VidPacket vccmac ether2vid frame)
    (index : p.interfaces.etheraddToInterfaceIndex = q.interfaces.etheraddToInterfaceIndex)
    (neighbors : p.neighbors = q.neighbors) (ststate : p.ststate = q.ststate) (now time : Nat) :
    (p.smaction now frame).2 = (q.smaction time frame).2 := by
  have same (packet : Frame) : p.flood frame.svid packet = q.flood frame.svid packet := by
    simp only [ProcessVCCSTAdSub.flood, ProcessVCCSTAdSub.toNeighbor, index, neighbors, ststate]
  simp only [ProcessVCCSTAdSub.smaction_sent _ _ _ vid.etherType vid.veilType,
    ProcessVCCSTAdSub.processSwitchVID_sent, index, same]

theorem smaction_ststate {p : ProcessVCCSTAdSub} {vccmac : EtherAddress}
    {ether2vid : HashTable EtherAddress VID} {frame : Frame}
    (vid : VidPacket vccmac ether2vid frame) (now : Nat) :
    (p.smaction now frame).1.ststate = p.ststate := by
  have kinds : veilSwitchVidFromVcc ≠ veilVccSpanningTreeAd ∧
      veilSwitchVidFromVcc ≠ veilVccSpanningTreeSubs ∧
      veilSwitchVidFromVcc ≠ veilLocalTopoToVcc := by decide
  simp only [ProcessVCCSTAdSub.smaction, ProcessVCCSTAdSub.processSwitchVID,
    vid.etherType, vid.veilType,
    kinds, ne_eq, not_true_eq_false, not_false_eq_true, if_false, if_true, true_and]
  repeat' split
  all_goals rfl

section Deliver

variable [DecidableEq ι] (state : VidDelivery ι) (now : Nat) (before after : List (ι × Frame))
  (s t : ι)
  (frame : Frame)

theorem deliver_self :
    (net.deliver state now before after s frame).switches s =
      ((state.switches s).smaction now frame).1 :=
  Function.update_self _ _ _

theorem deliver_other (different : t ≠ s) :
    (net.deliver state now before after s frame).switches t = state.switches t :=
  Function.update_of_ne different _ _

theorem sets_deliver (i : Nat) :
    net.Sets (net.deliver state now before after s frame).delivered t i ↔
      (t = s ∧ ProcessVCCSTAdSub.assignedInterface (net.switches s).interfaces frame = some i) ∨
        net.Sets state.delivered t i := by
  simp only [deliver, Sets, List.mem_append, List.mem_singleton, Prod.mk.injEq]
  constructor
  · rintro ⟨other, earlier | ⟨rfl, rfl⟩, sets⟩
    · exact Or.inr ⟨other, earlier, sets⟩
    · exact Or.inl ⟨rfl, sets⟩
  · rintro (⟨rfl, sets⟩ | ⟨other, earlier, sets⟩)
    · exact ⟨frame, Or.inr ⟨rfl, rfl⟩, sets⟩
    · exact ⟨other, Or.inl earlier, sets⟩

end Deliver

section Run

variable {net} [DecidableEq ι] {depth : ι → Nat} (ready : net.Ready depth)
  {ether2vid : HashTable EtherAddress VID}
include ready

theorem Ready.tracks_deliver {state : VidDelivery ι} (tracks : net.Tracks ether2vid state)
    (now : Nat) {before after : List (ι × Frame)} {s : ι} {frame : Frame}
    (waiting : state.inFlight = before ++ (s, frame) :: after) :
    net.Tracks ether2vid (net.deliver state now before after s frame) := by
  have vid : VidPacket net.vccmac ether2vid frame :=
    tracks.packets (s, frame) (waiting ▸ List.mem_append_right _ List.mem_cons_self)
  have sent : net.receivers s ((state.switches s).smaction now frame).2 = net.emits (s, frame) := by
    rw [emits,
      smaction_sent_congr vid (tracks.tables s).index (tracks.neighbors s) (tracks.ststate s)]
  refine ⟨?_, ?_, ?_, ?_, ?_, ?_⟩
  · have run := tracks.run
    rw [waiting] at run
    rw [deliver, sent]
    exact run.handle
  · intro packet member
    rw [deliver, sent] at member
    rcases List.mem_append.mp member with old | new
    · refine tracks.packets packet (waiting ▸ ?_)
      rcases List.mem_append.mp old with first | last
      · exact List.mem_append_left _ first
      · exact List.mem_append_right _ (List.mem_cons_of_mem _ last)
    · exact emits_vid _ vid packet new
  · intro packet member
    rcases List.mem_append.mp member with old | new
    · exact tracks.heard packet old
    · rw [List.mem_singleton.mp new]
      exact vid
  · intro t
    by_cases same : t = s
    · subst t
      rw [deliver_self, ProcessVCCSTAdSub.smaction_neighbors, tracks.neighbors]
    · rw [deliver_other _ _ _ _ _ _ _ _ same, tracks.neighbors]
  · intro t
    by_cases same : t = s
    · subst t
      rw [deliver_self, smaction_ststate vid, tracks.ststate]
    · rw [deliver_other _ _ _ _ _ _ _ _ same, tracks.ststate]
  · intro t
    have table := tracks.tables t
    by_cases same : t = s
    · subst t
      have addressed : ProcessVCCSTAdSub.assignedInterface (state.switches s).interfaces frame =
          ProcessVCCSTAdSub.assignedInterface (net.switches s).interfaces frame := by
        simp only [ProcessVCCSTAdSub.assignedInterface, table.index]
      rw [deliver_self, ProcessVCCSTAdSub.smaction_interfaces, addressed]
      cases sets : ProcessVCCSTAdSub.assignedInterface (net.switches s).interfaces frame with
      | none =>
          refine table.congr fun i => ?_
          rw [sets_deliver, sets]
          exact or_iff_right fun none => Option.some_ne_none i none.2.symm
      | some k =>
          have index :
              (net.switches s).interfaces.etheraddToInterfaceIndex.lookup frame.dvid = some k := by
            rw [ProcessVCCSTAdSub.assignedInterface] at sets
            split at sets
            · exact sets
            · cases sets
          refine (table.assignVID (ready.configured s) index vid.assigned).congr fun i => ?_
          rw [sets_deliver, sets, and_iff_right rfl, Option.some.injEq, eq_comm]
    · rw [deliver_other _ _ _ _ _ _ _ _ same]
      refine table.congr fun i => ?_
      rw [sets_deliver]
      exact or_iff_right fun other => same other.1

omit [DecidableEq ι] in
theorem Ready.positive (s : ι) : 0 < (net.switches s).interfaces.numInterfaces := by
  have owns : ∃ mac, net.Owns s mac := by
    cases edge : net.parent s with
    | none => exact (ready.top s).mp edge ▸ ⟨_, ready.controller⟩
    | some p =>
        obtain ⟨mac, -, own⟩ := ready.known p s edge
        exact ⟨mac, own⟩
  obtain ⟨mac, own⟩ := owns
  obtain ⟨i, index⟩ := Option.isSome_iff_exists.mp own
  exact Nat.zero_lt_of_lt ((ready.configured s).index_lt index)

theorem Ready.tracks {state : VidDelivery ι} (reached : net.Reached ether2vid state) :
    net.Tracks ether2vid state := by
  refine Transition.Reaches.invariant (net.Tracks ether2vid) ?_ ?_ reached
  · rintro state rfl
    refine ⟨.start, dispatched_vid, nofun, fun _ => rfl, fun _ => rfl, fun s => ?_⟩
    have none (i : Nat) : ¬net.Sets [] s i := fun ⟨_, member, _⟩ => nomatch member
    refine ⟨rfl, fun i _ set => absurd set (none i), fun _ _ => rfl, fun i => ?_, ?_⟩
    · exact iff_of_false (ready.unassigned s i) (none i)
    · refine iff_of_false ?_ fun all => none 0 (all 0 (ready.positive s))
      rw [dispatched, ready.undone s]
      exact Bool.false_ne_true
  · rintro state now after tracks - ⟨_, _, _, _, waiting, rfl⟩
    exact ready.tracks_deliver tracks now waiting

omit [DecidableEq ι] in
theorem Ready.sets_iff {state : VidDelivery ι} (tracks : net.Tracks ether2vid state)
    (quiet : state.inFlight = []) {s : ι} {i : Nat} {mac : EtherAddress}
    (index : (net.switches s).interfaces.etheraddToInterfaceIndex.lookup mac = some i) :
    net.Sets state.delivered s i ↔ mac ∈ ether2vid := by
  have all := tracks.run
  rw [quiet] at all
  have heard := all.mem_of_quiet net.hops_emits
  constructor
  · rintro ⟨frame, delivered, sets⟩
    have vid := tracks.heard _ delivered
    rw [ProcessVCCSTAdSub.assignedInterface] at sets
    split at sets
    · have named := ((ready.configured s).inverse _ _).mp sets
      rw [((ready.configured s).inverse _ _).mp index, Option.some.injEq] at named
      exact named ▸ HashTable.mem_of_lookup vid.assigned
    · cases sets
  · intro member
    obtain ⟨vid, assigned⟩ := (HashTable.mem_iff_lookup _ _).mp member
    obtain ⟨ttl, hops, first, sent, frame, follows, own, rfl, same⟩ :=
      ready.comes assigned (Option.isSome_iff_exists.mpr ⟨i, index⟩ : net.Owns s mac)
    have packet := followers_vid (dispatched_vid first sent) _ follows
    refine ⟨frame, (heard _).mpr ⟨first, sent, follows⟩, ?_⟩
    rw [ProcessVCCSTAdSub.assignedInterface, if_pos]
    · exact index
    · refine ⟨packet.etherType, packet.veilType, own, fun none => ?_⟩
      rw [none] at same
      exact Nat.ne_of_gt hops same.symm

theorem Ready.assigned {state : VidDelivery ι} (reached : net.Reached ether2vid state)
    (quiet : state.inFlight = []) : net.Assigned ether2vid state := by
  have tracks := ready.tracks reached
  refine ⟨?_, ?_, ?_⟩
  · intro s i mac vid index found
    have set := (ready.sets_iff tracks quiet index).mpr (HashTable.mem_of_lookup found)
    rw [(tracks.tables s).given i mac set index, found]
  · intro s i other
    refine (tracks.tables s).kept i ?_
    rintro ⟨frame, delivered, sets⟩
    rw [ProcessVCCSTAdSub.assignedInterface] at sets
    split at sets
    · exact other _ (HashTable.mem_of_lookup (tracks.heard _ delivered).assigned) sets
    · cases sets
  · intro s
    rw [(tracks.tables s).done]
    constructor
    · intro all mac own
      obtain ⟨i, index⟩ := Option.isSome_iff_exists.mp own
      exact (ready.sets_iff tracks quiet index).mp (all i ((ready.configured s).index_lt index))
    · intro all i inside
      obtain ⟨mac, named⟩ : ∃ mac, (net.switches s).interfaces.getMacAddr i = some mac := by
        cases found : (net.switches s).interfaces.getMacAddr i with
        | none => exact absurd (((ready.configured s).ports i).mp found) (Nat.not_le.mpr inside)
        | some mac => exact ⟨mac, rfl⟩
      have index := ((ready.configured s).inverse mac i).mpr named
      exact (ready.sets_iff tracks quiet index).mpr
        (all mac (Option.isSome_iff_exists.mpr ⟨i, index⟩))

theorem Ready.taken_once (single : net.Single) {state : VidDelivery ι}
    (reached : net.Reached ether2vid state) : (net.taken state.delivered).Nodup :=
  (ready.tracks reached).run.nodup_image net.hops_emits _ _ (ready.taken_nodup single)

/-- Every interface gets its VID, and where each child is in the table of its parent with one
address only, no switch takes a packet twice. -/
theorem dispatch_delivers :
    net.Delivers ether2vid ∧
      (net.Single → ∀ state, net.Reached ether2vid state → (net.taken state.delivered).Nodup) := by
  refine ⟨⟨⟨_, fun state reached => (ready.tracks reached).run.length_le net.hops_emits⟩, ?_,
    fun state reached quiet => ready.assigned reached quiet⟩,
    fun single state reached => ready.taken_once single reached⟩
  intro state _ busy now
  cases waiting : state.inFlight with
  | nil => exact absurd waiting busy
  | cons first rest => exact ⟨_, [], rest, first.1, first.2, waiting, rfl⟩

end Run

/-! ### Two cables between two switches -/

def twoCables (known : List EtherAddress) : VidNetwork Bool where
  root := false
  parent s := if s then some false else none
  hears s _ := [!s]
  vccmac := 1
  switches s :=
    if s then ⟨.configure [(3, 3), (4, 4)] false, ∅, .empty, .empty⟩
    else
      ⟨.configure [(1, 1), (2, 2)] false,
        ((∅ : NeighborTable).insert 3 ⟨0, 0, 1⟩).insert 4 ⟨0, 0, 2⟩,
        ⟨∅, HashTable.insertAll (fun _ => ⟨1, 0⟩) ∅ known⟩, .empty⟩

theorem twoCables_owns (known : List EtherAddress) (s : Bool) (mac : EtherAddress) :
    (twoCables known).Owns s mac ↔ if s then mac = 3 ∨ mac = 4 else mac = 1 ∨ mac = 2 := by
  have either (first second : EtherAddress) :
      ((((∅ : HashTable EtherAddress Nat).insert first 0).insert second 1).lookup mac).isSome ↔
        mac = first ∨ mac = second := by
    rw [AList.lookup_isSome, AList.mem_insert, AList.mem_insert, or_comm]
    simp
  cases s with
  | true => exact either 3 4
  | false => exact either 1 2

theorem twoCables_table (known : List EtherAddress) (s : Bool) (mac : EtherAddress) :
    ((twoCables known).switches s).ststate.forwardingTableFromVCC.lookup mac =
      if s = false ∧ mac ∈ known then some ⟨1, 0⟩ else none := by
  cases s with
  | true => rfl
  | false =>
      simp only [twoCables, Bool.false_eq_true, if_false, HashTable.lookup_insertAll, true_and]
      rfl

theorem twoCables_ready {known : List EtherAddress} (some : known ≠ [])
    (addresses : ∀ mac ∈ known, mac = 3 ∨ mac = 4) :
    (twoCables known).Ready fun s => if s then 1 else 0 where
  top := by
    intro s
    cases s with
    | true => exact iff_of_false nofun nofun
    | false => exact iff_of_true rfl rfl
  depth_root := rfl
  depth_child := by
    intro s p edge
    cases s with
    | true =>
        cases edge
        rfl
    | false => cases edge
  low := by decide
  configured := by
    intro s
    cases s with
    | true => exact InterfaceTable.configure_configured false (by decide)
    | false => exact InterfaceTable.configure_configured false (by decide)
  unassigned := by
    intro s i
    cases s with
    | true => exact InterfaceTable.configure_marks _ i
    | false => exact InterfaceTable.configure_marks _ i
  undone := by
    intro s
    cases s with
    | true => rfl
    | false => rfl
  distinct := by
    intro s t mac first second
    rw [twoCables_owns] at first second
    cases s <;> cases t <;> simp_all <;> rcases first with rfl | rfl <;> simp at second
  controller := (twoCables_owns known false 1).mpr (Or.inl rfl)
  children := by
    intro s mac child found
    rw [twoCables_table] at found
    split at found
    · rename_i member
      cases found
      refine ⟨rfl, true, ?_, ?_⟩
      · rw [member.1]
        rfl
      · rw [twoCables_owns]
        exact addresses mac member.2
    · cases found
  known := by
    intro s c edge
    obtain ⟨mac, member⟩ := List.exists_mem_of_ne_nil _ some
    cases c with
    | false => cases edge
    | true =>
        cases s with
        | true => cases edge
        | false =>
            refine ⟨mac, ?_, ?_⟩
            · rw [← AList.lookup_isSome, twoCables_table, if_pos ⟨rfl, member⟩]
              rfl
            · rw [twoCables_owns]
              exact addresses mac member
  cabled := by
    intro s c mac member own
    rw [← AList.lookup_isSome, twoCables_table] at member
    split at member
    · rename_i listed
      rw [twoCables_owns] at own
      rcases addresses mac listed.2 with rfl | rfl
      · cases c with
        | true =>
            rw [listed.1]
            exact ⟨⟨0, 0, 1⟩, 0, rfl, rfl, List.mem_singleton_self _⟩
        | false => simp at own
      · cases c with
        | true =>
            rw [listed.1]
            exact ⟨⟨0, 0, 2⟩, 1, rfl, rfl, List.mem_singleton_self _⟩
        | false => simp at own
    · cases member
  heard := fun _ _ => List.nodup_singleton _

theorem dispatch_delivers_twoCables :
    (twoCables [3]).Delivers ((∅ : HashTable EtherAddress VID).insert 4 5) ∧
      ∀ state, (twoCables [3]).Reached ((∅ : HashTable EtherAddress VID).insert 4 5) state →
        ((twoCables [3]).taken state.delivered).Nodup := by
  have ready : (twoCables [3]).Ready fun s => if s then 1 else 0 :=
    twoCables_ready (List.cons_ne_nil _ _) (List.forall_mem_singleton.mpr (Or.inl rfl))
  refine ⟨(dispatch_delivers ready).1, (dispatch_delivers ready).2 ?_⟩
  intro s c mac member other otherMember _ _
  rw [← AList.lookup_isSome, twoCables_table] at member otherMember
  split at member
  · split at otherMember
    · rename_i first second
      rw [List.mem_singleton.mp first.2, List.mem_singleton.mp second.2]
    · cases otherMember
  · cases member

def unknownMac : HashTable EtherAddress VID := (∅ : HashTable EtherAddress VID).insert 9 5

def unknownMacPacket (mac shost : EtherAddress) : Frame :=
  { dispatchOneVidMacPair 1 9 5 with dhost := mac, shost := shost }

/-- A child that is in the table with both its addresses gets a packet for neither of them twice. -/
theorem not_taken_once : ¬∀ (ι : Type) [DecidableEq ι] (net : VidNetwork ι) (depth : ι → Nat)
    (ether2vid : HashTable EtherAddress VID), net.Ready depth → net.Whole →
    ∀ state, net.Reached ether2vid state → (net.taken state.delivered).Nodup := by
  intro always
  have ready : (twoCables [3, 4]).Ready fun s => if s then 1 else 0 :=
    twoCables_ready (List.cons_ne_nil _ _)
      (List.forall_mem_cons.mpr ⟨Or.inl rfl, List.forall_mem_singleton.mpr (Or.inr rfl)⟩)
  have whole : (twoCables [3, 4]).Whole := by
    intro s mac
    rw [← AList.lookup_isSome, twoCables_table]
    simp only [twoCables_owns]
    cases s with
    | true => simp [twoCables]
    | false => simp [twoCables]
  have copies : ((twoCables [3, 4]).dispatched unknownMac).inFlight =
      [] ++ (true, unknownMacPacket 4 2) :: [(true, unknownMacPacket 3 1)] := by
    decide +kernel
  have rest : ((twoCables [3, 4]).deliver ((twoCables [3, 4]).dispatched unknownMac) 0 []
      [(true, unknownMacPacket 3 1)] true (unknownMacPacket 4 2)).inFlight =
      [] ++ (true, unknownMacPacket 3 1) :: [] := by
    decide +kernel
  have once := always Bool _ _ _ ready whole _
    (.next (.next (.start rfl) trivial ⟨_, _, _, _, copies, rfl⟩) trivial
      (⟨_, _, _, _, rest, rfl⟩ : (twoCables [3, 4]).Step _ 0 _))
  have twice : ¬[((true, 9) : Bool × EtherAddress), (true, 9)].Nodup := by decide
  exact twice once

end VidNetwork

end Veil
