import Veil.VidNetwork

/-! The copies of one packet with a VID: each switch takes at most one of them for each address,
and the owner of the address takes one. -/

namespace Veil

namespace VidNetwork

variable {ι : Type} {net : VidNetwork ι}

section Ready

variable {depth : ι → Nat} (ready : net.Ready depth)
include ready

variable {ether2vid : HashTable EtherAddress VID}

def Spreads (net : VidNetwork ι) (packet : ι × Frame) : Prop :=
  (net.taken (net.followers packet)).Nodup ∧
    ∀ x ∈ net.taken (net.followers packet),
      net.Owns packet.1 packet.2.dhost ∧ net.Below packet.1 x.1 ∧ x.2 = packet.2.dvid

omit ready in
theorem mem_toNeighbor {s r : ι} {packet frame : Frame} {mac : EtherAddress}
    (member : (r, frame) ∈ net.receivers s ((net.switches s).toNeighbor packet mac).toList) :
    ∃ shost, frame = { packet with dhost := mac, shost := shost } := by
  obtain ⟨port, out, -⟩ := (net.mem_receivers _ _ _ _).mp member
  rw [Option.mem_toList, ProcessVCCSTAdSub.toNeighbor] at out
  split at out
  · cases out
  · obtain ⟨i, -, same⟩ := Option.map_eq_some_iff.mp out
    exact ⟨_, (congrArg Prod.snd same).symm⟩

theorem Ready.toNeighbor_spreads {s : ι} {packet : Frame} {mac : EtherAddress}
    (spreads : ∀ sent ∈ net.receivers s ((net.switches s).toNeighbor packet mac).toList,
      net.Spreads sent) :
    ((net.receivers s ((net.switches s).toNeighbor packet mac).toList).flatMap fun sent =>
      net.taken (net.followers sent)).Nodup ∧
    ∀ x ∈ (net.receivers s ((net.switches s).toNeighbor packet mac).toList).flatMap fun sent =>
      net.taken (net.followers sent), ∃ c, net.Owns c mac ∧ net.Below c x.1 ∧
        x.2 = packet.dvid := by
  constructor
  · refine List.nodup_flatMap.mpr ⟨fun sent member => (spreads sent member).1, ?_⟩
    have apart : (net.receivers s ((net.switches s).toNeighbor packet mac).toList).Pairwise
        fun first second => first.1 ≠ second.1 := by
      rw [← List.pairwise_map]
      cases copy : (net.switches s).toNeighbor packet mac with
      | none => exact List.Pairwise.nil
      | some out =>
          simp only [Option.toList_some, receivers, List.flatMap_singleton, List.map_map]
          have receivers : (if out.1 = (net.switches s).interfaces.numInterfaces then [s]
              else net.hears s out.1).Nodup := by
            split
            · exact List.nodup_singleton s
            · exact ready.heard s out.1
          rwa [show (Prod.fst ∘ fun r : ι => (r, out.2)) = id from rfl, List.map_id]
    refine apart.imp_of_mem fun {first second} firstMember secondMember different => ?_
    -- only the owner of the address takes its copy
    intro x firstTakes secondTakes
    obtain ⟨_, firstFrame⟩ := mem_toNeighbor firstMember
    obtain ⟨_, secondFrame⟩ := mem_toNeighbor secondMember
    have firstOwns := ((spreads first firstMember).2 x firstTakes).1
    have secondOwns := ((spreads second secondMember).2 x secondTakes).1
    rw [firstFrame] at firstOwns
    rw [secondFrame] at secondOwns
    exact different (ready.distinct _ _ _ firstOwns secondOwns)
  · intro x member
    obtain ⟨sent, sentMember, takes⟩ := List.mem_flatMap.mp member
    obtain ⟨own, below, carried⟩ := (spreads sent sentMember).2 x takes
    obtain ⟨_, frame⟩ := mem_toNeighbor sentMember
    rw [frame] at own carried
    exact ⟨sent.1, own, below, carried⟩

omit ready in
theorem receivers_flood (s : ι) (vccmac : EtherAddress) (packet : Frame) :
    net.receivers s ((net.switches s).flood vccmac packet) =
      (net.switches s).ststate.forwardingTableFromVCC.entries.flatMap fun child =>
        if child.2.vccMac = vccmac then
          net.receivers s ((net.switches s).toNeighbor packet child.1).toList
        else [] := by
  rw [receivers, ProcessVCCSTAdSub.flood, List.flatMap_assoc]
  refine List.flatMap_congr fun child _ => ?_
  split
  · rfl
  · rfl

omit ready in
theorem flood_vid {s : ι} {vccmac : EtherAddress} {packet : Frame}
    (vid : VidPacket vccmac ether2vid packet) :
    ∀ sent ∈ net.receivers s ((net.switches s).flood vccmac packet),
      VidPacket vccmac ether2vid sent.2 := by
  rintro ⟨r, frame⟩ member
  rw [receivers_flood] at member
  obtain ⟨child, -, copy⟩ := List.mem_flatMap.mp member
  split at copy
  · obtain ⟨shost, rfl⟩ := mem_toNeighbor copy
    exact vid.copy _ _
  · cases copy

theorem Ready.flood_spreads (single : net.Single) {s : ι} {vccmac : EtherAddress} {packet : Frame}
    (spreads : ∀ sent ∈ net.receivers s ((net.switches s).flood vccmac packet), net.Spreads sent) :
    ((net.receivers s ((net.switches s).flood vccmac packet)).flatMap fun sent =>
      net.taken (net.followers sent)).Nodup ∧
    ∀ x ∈ (net.receivers s ((net.switches s).flood vccmac packet)).flatMap fun sent =>
      net.taken (net.followers sent),
      ∃ c, net.parent c = some s ∧ net.Below c x.1 ∧ x.2 = packet.dvid := by
  have copies : ∀ child ∈ (net.switches s).ststate.forwardingTableFromVCC.entries,
      child.2.vccMac = vccmac → ∀ sent ∈
        net.receivers s ((net.switches s).toNeighbor packet child.1).toList, net.Spreads sent := by
    intro child member from_ sent copy
    refine spreads sent ?_
    rw [receivers_flood]
    refine List.mem_flatMap.mpr ⟨child, member, ?_⟩
    rwa [if_pos from_]
  have each : ∀ child ∈ (net.switches s).ststate.forwardingTableFromVCC.entries, ∀ x ∈
      (if child.2.vccMac = vccmac then
        net.receivers s ((net.switches s).toNeighbor packet child.1).toList
      else []).flatMap fun sent => net.taken (net.followers sent),
      ∃ c, net.parent c = some s ∧ net.Owns c child.1 ∧ net.Below c x.1 ∧ x.2 = packet.dvid := by
    intro child member x takes
    split at takes
    · rename_i from_
      obtain ⟨c, own, below, carried⟩ :=
        (ready.toNeighbor_spreads (copies child member from_)).2 x takes
      obtain ⟨-, d, edge, owner⟩ := ready.children s child.1 child.2
        (AList.mem_lookup_iff.mpr member)
      exact ⟨c, ready.distinct _ _ _ owner own ▸ edge, own, below, carried⟩
    · cases takes
  rw [receivers_flood, List.flatMap_assoc]
  constructor
  · refine List.nodup_flatMap.mpr ⟨fun child member => ?_, ?_⟩
    · split
      · rename_i from_
        exact (ready.toNeighbor_spreads (copies child member from_)).1
      · exact List.nodup_nil
    · have keys : (net.switches s).ststate.forwardingTableFromVCC.entries.Pairwise
          fun first second => first.1 ≠ second.1 :=
        List.pairwise_map.mp (net.switches s).ststate.forwardingTableFromVCC.nodupKeys
      refine keys.imp_of_mem fun {first second} firstMember secondMember different => ?_
      -- a switch below both is below one child, which is in the table once
      intro x firstTakes secondTakes
      obtain ⟨c, edge, own, below, -⟩ := each first firstMember x firstTakes
      obtain ⟨d, otherEdge, otherOwn, otherBelow, -⟩ := each second secondMember x secondTakes
      have same := ready.child_eq edge otherEdge below otherBelow
      subst d
      exact different (single s c _ (AList.mem_keys.mpr (List.mem_map_of_mem firstMember)) _
        (AList.mem_keys.mpr (List.mem_map_of_mem secondMember)) own otherOwn)
  · intro x member
    obtain ⟨child, childMember, takes⟩ := List.mem_flatMap.mp member
    obtain ⟨c, edge, -, below, carried⟩ := each child childMember x takes
    exact ⟨c, edge, below, carried⟩

theorem Ready.spreads (single : net.Single) {vccmac : EtherAddress} {packet : ι × Frame}
    (vid : VidPacket vccmac ether2vid packet.2) : net.Spreads packet := by
  induction packet using Cascade.cascade_induction net.hops_emits with
  | each packet ih =>
      obtain ⟨s, frame⟩ := packet
      rw [Spreads, taken_followers]
      by_cases own : net.Owns s frame.dhost
      swap
      · have silent : net.emits (s, frame) = [] := by
          rw [net.emits_eq vid, if_neg fun all => own all.1]
        rw [if_neg own, silent]
        exact ⟨List.nodup_nil, nofun⟩
      rw [if_pos own]
      by_cases goes : frame.ttl ≠ 0 ∧ ¬net.Owns s frame.dvid
      · rw [net.emits_eq vid, if_pos ⟨own, goes⟩] at ih ⊢
        obtain ⟨once, below⟩ := ready.flood_spreads single fun sent member =>
          ih sent member (flood_vid (vid.onward _ _ _) sent member)
        refine ⟨List.nodup_append.mpr ⟨List.nodup_singleton _, once, ?_⟩, ?_⟩
        · intro first member second later same
          rw [List.mem_singleton.mp member] at same
          subst second
          obtain ⟨c, edge, down, -⟩ := below _ later
          have high := ready.depth_le down
          rw [ready.depth_child _ _ edge] at high
          exact Nat.not_succ_le_self _ high
        · intro x member
          rcases List.mem_append.mp member with first | later
          · rw [List.mem_singleton.mp first]
            exact ⟨own, .refl, rfl⟩
          · obtain ⟨c, edge, down, carried⟩ := below x later
            exact ⟨own, down.head edge, carried⟩
      · rw [net.emits_eq vid, if_neg fun all => goes all.2]
        refine ⟨List.nodup_singleton _, fun x member => ?_⟩
        rw [List.mem_singleton.mp member]
        exact ⟨own, .refl, rfl⟩

omit ready in
theorem dispatch_vid {vccmac dstmac : EtherAddress} {dstvid : VID} {s : ι}
    (assigned : ether2vid.lookup dstmac = some dstvid) :
    ∀ sent ∈ net.receivers s ((net.switches s).dispatchVidMacPair vccmac dstmac dstvid),
      VidPacket vccmac ether2vid sent.2 ∧ sent.2.dvid = dstmac := by
  have carries : VidPacket vccmac ether2vid (dispatchOneVidMacPair vccmac dstmac dstvid) :=
    .dispatch assigned
  rintro ⟨r, frame⟩ member
  rw [ProcessVCCSTAdSub.dispatchVidMacPair] at member
  split at member
  · obtain ⟨port, out, -⟩ := (net.mem_receivers _ _ _ _).mp member
    rw [List.mem_singleton] at out
    obtain ⟨-, rfl⟩ := Prod.mk.inj out
    exact ⟨carries, rfl⟩
  split at member
  · obtain ⟨shost, rfl⟩ := mem_toNeighbor member
    exact ⟨carries.copy _ _, rfl⟩
  · refine ⟨flood_vid carries _ member, ?_⟩
    rw [receivers_flood] at member
    obtain ⟨child, -, copy⟩ := List.mem_flatMap.mp member
    split at copy
    · obtain ⟨shost, rfl⟩ := mem_toNeighbor copy
      rfl
    · cases copy

theorem Ready.dispatch_spreads (single : net.Single) {vccmac dstmac : EtherAddress} {dstvid : VID}
    (assigned : ether2vid.lookup dstmac = some dstvid) (s : ι) :
    ((net.receivers s
        ((net.switches s).dispatchVidMacPair vccmac dstmac dstvid)).flatMap fun sent =>
      net.taken (net.followers sent)).Nodup := by
  have spreads :
      ∀ sent ∈ net.receivers s ((net.switches s).dispatchVidMacPair vccmac dstmac dstvid),
      net.Spreads sent :=
    fun sent member => ready.spreads single (dispatch_vid assigned sent member).1
  rw [ProcessVCCSTAdSub.dispatchVidMacPair] at spreads ⊢
  split at spreads
  · have back (packet : Frame) :
        net.receivers s [((net.switches s).interfaces.numInterfaces, packet)] =
        [(s, packet)] := by
      rw [receivers, List.flatMap_singleton, if_pos rfl]
      rfl
    rw [back] at spreads ⊢
    rw [List.flatMap_singleton]
    exact (spreads _ (List.mem_singleton_self _)).1
  split at spreads
  · exact (ready.toNeighbor_spreads spreads).1
  · exact (ready.flood_spreads single spreads).1

theorem Ready.taken_nodup (single : net.Single) :
    (net.taken ((net.dispatched ether2vid).inFlight.flatMap net.followers)).Nodup := by
  have start : (net.dispatched ether2vid).inFlight = ether2vid.entries.flatMap fun entry =>
      net.receivers net.root
        ((net.switches net.root).dispatchVidMacPair net.vccmac entry.1 entry.2) := by
    rw [dispatched, receivers, ProcessVCCSTAdSub.dispatchVid, List.flatMap_assoc]
    rfl
  rw [taken_flatMap, start, List.flatMap_assoc]
  refine List.nodup_flatMap.mpr ⟨fun entry member => ?_, ?_⟩
  · exact ready.dispatch_spreads single (AList.mem_lookup_iff.mpr member) net.root
  · have keys : ether2vid.entries.Pairwise fun first second => first.1 ≠ second.1 :=
      List.pairwise_map.mp ether2vid.nodupKeys
    refine keys.imp_of_mem fun {first second} firstMember secondMember different => ?_
    -- each packet names the address it was dispatched for
    have names {entry : Sigma fun _ : EtherAddress => VID} (member : entry ∈ ether2vid.entries)
        {x : ι × EtherAddress} (takes : x ∈ (net.receivers net.root
          ((net.switches net.root).dispatchVidMacPair net.vccmac entry.1 entry.2)).flatMap
              fun sent =>
            net.taken (net.followers sent)) : x.2 = entry.1 := by
      obtain ⟨sent, sentMember, takes⟩ := List.mem_flatMap.mp takes
      obtain ⟨vid, same⟩ := dispatch_vid (AList.mem_lookup_iff.mpr member) sent sentMember
      exact ((ready.spreads single vid).2 x takes).2.2.trans same
    intro x firstTakes secondTakes
    exact different ((names firstMember firstTakes).symm.trans (names secondMember secondTakes))

theorem Ready.below_root (t : ι) : net.Below net.root t := by
  induction level : depth t using Nat.strongRecOn generalizing t with
  | ind size ih =>
      cases edge : net.parent t with
      | none =>
          rw [(ready.top t).mp edge]
          exact .refl
      | some p =>
          have higher := ready.depth_child t p edge
          exact (ih (depth p) (by omega) p rfl).tail edge

theorem Ready.toNeighbor_heard {s c : ι} {mac : EtherAddress}
    (known : mac ∈ (net.switches s).ststate.forwardingTableFromVCC) (own : net.Owns c mac)
    (packet : Frame) :
    ∃ frame, (c, frame) ∈ net.receivers s ((net.switches s).toNeighbor packet mac).toList ∧
      frame.dhost = mac ∧ frame.dvid = packet.dvid ∧ frame.ttl = packet.ttl := by
  obtain ⟨nte, i, neighbor, index, hears⟩ := ready.cabled s c mac known own
  have inside := (ready.configured s).index_lt index
  refine ⟨{ packet with dhost := mac, shost := nte.myMac }, ?_, rfl, rfl, rfl⟩
  rw [mem_receivers]
  refine ⟨i, ?_, by rwa [if_neg (Nat.ne_of_lt inside)]⟩
  rw [Option.mem_toList, ProcessVCCSTAdSub.toNeighbor, neighbor]
  exact Option.map_eq_some_iff.mpr ⟨i, index, rfl⟩

theorem Ready.flood_heard {s c : ι} (edge : net.parent c = some s) (packet : Frame) :
    ∃ frame, (c, frame) ∈ net.receivers s ((net.switches s).flood net.vccmac packet) ∧
      net.Owns c frame.dhost ∧ frame.dvid = packet.dvid ∧ frame.ttl = packet.ttl := by
  obtain ⟨mac, known, own⟩ := ready.known s c edge
  obtain ⟨frame, heard, rfl, dvid, ttl⟩ := ready.toNeighbor_heard known own packet
  obtain ⟨child, found⟩ := (HashTable.mem_iff_lookup _ _).mp known
  refine ⟨frame, ?_, own, dvid, ttl⟩
  rw [receivers_flood]
  refine List.mem_flatMap.mpr ⟨⟨frame.dhost, child⟩, AList.mem_lookup_iff.mp found, ?_⟩
  rwa [if_pos (ready.children _ _ _ found).1]

omit ready in
theorem emits_vid {vccmac : EtherAddress} (packet : ι × Frame)
    (vid : VidPacket vccmac ether2vid packet.2) :
    ∀ sent ∈ net.emits packet, VidPacket vccmac ether2vid sent.2 := by
  intro sent member
  rw [net.emits_eq vid] at member
  split at member
  · exact flood_vid (vid.onward _ _ _) sent member
  · cases member

omit ready in
theorem followers_vid {vccmac : EtherAddress} {packet : ι × Frame}
    (vid : VidPacket vccmac ether2vid packet.2) :
    ∀ follower ∈ net.followers packet, VidPacket vccmac ether2vid follower.2 :=
  Cascade.forall_mem_cascade net.hops_emits emits_vid vid

omit ready in
theorem dispatched_vid :
    ∀ packet ∈ (net.dispatched ether2vid).inFlight, VidPacket net.vccmac ether2vid packet.2 := by
  intro packet member
  rw [dispatched, receivers, ProcessVCCSTAdSub.dispatchVid, List.flatMap_assoc] at member
  obtain ⟨entry, entryMember, sent⟩ := List.mem_flatMap.mp member
  exact (dispatch_vid (AList.mem_lookup_iff.mpr entryMember) packet sent).1

omit ready in
def Comes (net : VidNetwork ι) (ether2vid : HashTable EtherAddress VID) (s : ι) (mac : EtherAddress)
    (ttl : Nat) : Prop :=
  ∃ first ∈ (net.dispatched ether2vid).inFlight, ∃ frame, (s, frame) ∈ net.followers first ∧
    net.Owns s frame.dhost ∧ frame.dvid = mac ∧ frame.ttl.toNat = ttl

section Comes

variable {mac : EtherAddress} {vid : VID} (assigned : ether2vid.lookup mac = some vid)
include assigned

omit ready in
theorem mem_dispatched {packet : ι × Frame} (sent : packet ∈ net.receivers net.root
    ((net.switches net.root).dispatchVidMacPair net.vccmac mac vid)) :
    packet ∈ (net.dispatched ether2vid).inFlight := by
  rw [dispatched, receivers, ProcessVCCSTAdSub.dispatchVid, List.flatMap_assoc]
  exact List.mem_flatMap.mpr ⟨⟨mac, vid⟩, AList.mem_lookup_iff.mp assigned, sent⟩

omit ready in
theorem comes_of_dispatch {s : ι} {frame : Frame} (sent : (s, frame) ∈ net.receivers net.root
    ((net.switches net.root).dispatchVidMacPair net.vccmac mac vid)) (own : net.Owns s frame.dhost)
    (dvid : frame.dvid = mac) (ttl : frame.ttl = maxTtl) : net.Comes ether2vid s mac maxTtl.toNat :=
  ⟨(s, frame), mem_dispatched assigned sent, frame,
      Cascade.mem_cascade_self net.hops_emits _, own, dvid,
    by rw [ttl]⟩

theorem Ready.comes_below {s t : ι} (owner : net.Owns t mac) (away : ¬net.Owns net.root mac)
    (unknown : mac ∉ (net.switches net.root).ststate.forwardingTableFromVCC)
    (reached : net.Below net.root s) (below : net.Below s t) (inner : s ≠ net.root) :
    net.Comes ether2vid s mac (maxTtl.toNat + 1 - depth s) := by
  induction reached with
  | refl => exact absurd rfl inner
  | @tail p s before edge ih =>
      have level := ready.depth_child s p edge
      by_cases top : p = net.root
      · subst p
        obtain ⟨frame, heard, own, dvid, ttl⟩ :=
          ready.flood_heard edge (dispatchOneVidMacPair net.vccmac mac vid)
        rw [level, ready.depth_root]
        refine comes_of_dispatch assigned ?_ own dvid ttl
        rw [ProcessVCCSTAdSub.dispatchVidMacPair]
        have missing := Option.not_isSome_iff_eq_none.mp away
        rw [missing, AList.lookup_eq_none.mpr unknown]
        exact heard
      · obtain ⟨first, sent, frame, follows, own, dvid, ttl⟩ := ih (below.head edge) top
        have low := ready.low s
        have lower := ready.depth_le below
        have goes : frame.ttl ≠ 0 := by
          intro none
          rw [none] at ttl
          simp only [BitVec.ofNat_eq_ofNat, BitVec.toNat_ofNat, Nat.zero_mod] at ttl
          omega
        have elsewhere : ¬net.Owns p frame.dvid := by
          intro owns
          have same := ready.distinct p t mac (dvid ▸ owns) owner
          subst t
          omega
        have vidPacket := followers_vid (dispatched_vid first sent) _ follows
        obtain ⟨next, heard, nextOwn, nextDvid, nextTtl⟩ := ready.flood_heard edge
          { frame with ttl := frame.ttl - 1, reroute := false, port := 0 }
        refine ⟨first, sent, next, ?_, nextOwn, nextDvid.trans dvid, ?_⟩
        · refine Cascade.mem_cascade_of_emits net.hops_emits follows ?_
          rw [net.emits_eq vidPacket, if_pos ⟨own, goes, elsewhere⟩]
          exact heard
        · rw [nextTtl]
          have less : (frame.ttl - 1).toNat = frame.ttl.toNat - 1 := by bv_omega
          rw [less, ttl]
          omega

theorem Ready.comes {t : ι} (owner : net.Owns t mac) :
    ∃ ttl, 0 < ttl ∧ net.Comes ether2vid t mac ttl := by
  by_cases atRoot : net.Owns net.root mac
  · rw [← ready.distinct _ _ _ atRoot owner]
    obtain ⟨i, index⟩ := Option.isSome_iff_exists.mp atRoot
    have sent : (net.root, dispatchOneVidMacPair net.vccmac mac vid) ∈ net.receivers net.root
        ((net.switches net.root).dispatchVidMacPair net.vccmac mac vid) := by
      rw [ProcessVCCSTAdSub.dispatchVidMacPair, index, mem_receivers]
      exact ⟨_, List.mem_singleton_self _, by rw [if_pos rfl]; exact List.mem_singleton_self _⟩
    exact ⟨_, by decide, comes_of_dispatch assigned sent atRoot rfl rfl⟩
  · by_cases known : mac ∈ (net.switches net.root).ststate.forwardingTableFromVCC
    · obtain ⟨frame, heard, dhost, dvid, ttl⟩ :=
        ready.toNeighbor_heard known owner (dispatchOneVidMacPair net.vccmac mac vid)
      refine ⟨_, by decide, comes_of_dispatch assigned ?_ (dhost ▸ owner) dvid ttl⟩
      obtain ⟨child, found⟩ := (HashTable.mem_iff_lookup _ _).mp known
      have missing := Option.not_isSome_iff_eq_none.mp atRoot
      rw [ProcessVCCSTAdSub.dispatchVidMacPair, missing, found]
      exact heard
    · have inner : t ≠ net.root := by
        rintro rfl
        exact atRoot owner
      have low := ready.low t
      exact ⟨_, by omega,
        ready.comes_below assigned owner atRoot known (ready.below_root t) .refl inner⟩

end Comes

end Ready

end VidNetwork

end Veil
