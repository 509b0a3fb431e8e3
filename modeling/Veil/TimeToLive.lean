import Veil.Packet
import Veil.ProcessARP
import Veil.Rendezvous
import Veil.RoutePacket

/-! How often a packet can pass through routers. A router counts its `ttl` down; of the elements
that hand a packet back to it, only the one that answers an ARP request writes a new one. -/

namespace Veil

def Frame.IsEncapArp (op : BitVec 16) (frame : Frame) : Prop :=
  frame.etherType = etherTypeVeil ∧ frame.veilType = veilEncapArp ∧ frame.shortAt 6 = op

theorem createArpReplyPacket_etherType (smac dmac : EtherAddress) (sip dip : IPAddress) :
    (createArpReplyPacket smac dmac sip dip).frame.etherType = etherTypeArp := by
  rw [Packet.frame, createArpReplyPacket]
  simp (disch := decide) only [Bytes.drop_ofWord_append, Nat.reduceSub, List.drop_zero,
    Bytes.toWord_ofWord_append]

theorem Frame.not_isEncapArp {frame : Frame} {op : BitVec 16}
    (converted : frame.veilType = noVidToAccessSwitch ∨ frame.veilType = veilEncapIp) :
    ¬frame.IsEncapArp op := by
  rintro ⟨-, arp, -⟩
  rw [arp] at converted
  exact absurd converted (by decide)

namespace Packet

/-- The router of some switch sends the packet `p` on as `q`, to another switch or back to the
elements of its own: it neither drops it nor puts it out on the port for errors. Another switch
sets the annotations anew. -/
def Forwarded (p q : Packet) : Prop :=
  ∃ r : RoutePacket, q.data = (r.smaction p.frame).2.1.bytes ∧
    0 ≤ (r.smaction p.frame).2.2 ∧ (r.smaction p.frame).2.2 ≠ r.numinterfaces + 1

/-- An element hands the packet `q` back to the router of its switch. A rendezvous query that is
answered is not handed back: its reply is another packet. -/
inductive HandedBack (q : Packet) : Packet → Prop
  | rdv (element : ProcessRDV) (frame : Frame) :
    ProcessRDV.accepts element.interfaces q.frame = false →
      (element.smaction q.frame).2 = some frame → HandedBack q (q.setFrame frame)
  | accessInfo (element : ProcessAccessInfo) (frame : Frame) :
      (element.smaction q.frame).2.2 = some frame → HandedBack q (q.setFrame frame)
  | arp (element : ProcessARP) (startrand : BitVec 16) (after : Packet) :
      (element.smaction startrand q).2.2 = some after → HandedBack q after
  | ip (element : ProcessIP) (startrand : BitVec 16) (after : Packet) :
      (element.smaction startrand q).2.2 = some after → HandedBack q after

def Answered (q after : Packet) : Prop :=
  q.frame.IsEncapArp arpopRequest ∧ after.frame.IsEncapArp arpopReply

/-- The packet is about to pass through a router for the `passes`-th time, and `answers` times it
has been turned into a reply. It is followed as long as it belongs to the overlay. -/
inductive Trip (entering : Packet) : Nat → Nat → Packet → Prop
  | enters : Trip entering 1 0 entering
  | returns {passes answers p q after} : Trip entering passes answers p →
      p.frame.etherType = etherTypeVeil → Forwarded p q → HandedBack q after → ¬Answered q after →
        Trip entering (passes + 1) answers after
  | replies {passes answers p q after} : Trip entering passes answers p →
      p.frame.etherType = etherTypeVeil → Forwarded p q → HandedBack q after → Answered q after →
        Trip entering (passes + 1) (answers + 1) after

theorem Forwarded.spec {p q : Packet} (forwarded : Forwarded p q)
    (veil : p.frame.etherType = etherTypeVeil) :
    30 ≤ q.data.length ∧ q.frame.etherType = etherTypeVeil ∧
      q.frame.ttl.toNat + 1 = p.frame.ttl.toNat ∧
      (q.frame.IsEncapArp arpopRequest → p.frame.IsEncapArp arpopRequest) := by
  obtain ⟨r, data, found, inside⟩ := forwarded
  have long : 30 ≤ q.data.length := by
    rw [data, Frame.length_bytes]
    omega
  refine ⟨long, ?_⟩
  rcases r.smaction_veil veil with dropped | ⟨dhost, shost, dvid, rewritten, exhausted⟩
  · rw [dropped] at found
    simp at found
  · have alive : p.frame.ttl ≠ 0 := by
      intro zero
      exact absurd (exhausted zero) inside
    have counted : (p.frame.ttl - 1).toNat + 1 = p.frame.ttl.toNat := by bv_omega
    rcases rewritten with sent | ⟨-, diverted⟩
    · rw [sent] at data
      rw [frame_of_data data]
      exact ⟨veil, counted, fun request => request⟩
    · obtain ⟨accvid, payload, access⟩ := createAnEncapsulatedPacketToAccessSwitch_eq
        { p.frame with dhost, shost, dvid, ttl := p.frame.ttl - 1 }
      rw [diverted, access] at data
      rw [frame_of_data data]
      exact ⟨veil, counted, fun request => absurd request (Frame.not_isEncapArp (Or.inl rfl))⟩

theorem setFrame_long (p : Packet) (frame : Frame) : 30 ≤ (p.setFrame frame).data.length := by
  rw [setFrame, Frame.length_bytes]
  omega

def Kept (q after : Packet) : Prop :=
  30 ≤ after.data.length ∧ after.frame.ttl = q.frame.ttl ∧
    (after.frame.IsEncapArp arpopRequest → q.frame.IsEncapArp arpopRequest)

theorem kept_setFrame {q : Packet} {frame : Frame} (ttl : frame.ttl = q.frame.ttl)
    (request : frame.IsEncapArp arpopRequest → q.frame.IsEncapArp arpopRequest) :
    Kept q (q.setFrame frame) := by
  refine ⟨setFrame_long q frame, ?_, ?_⟩
  · rw [frame_setFrame, ttl]
  · rw [frame_setFrame]
    exact request

theorem kept_rdv {q : Packet} {element : ProcessRDV} {frame : Frame}
    (refused : ProcessRDV.accepts element.interfaces q.frame = false)
    (back : (element.smaction q.frame).2 = some frame) : Kept q (q.setFrame frame) := by
  have same : frame = q.frame := by
    simp only [ProcessRDV.smaction, ProcessRDV.dispose] at back
    split at back
    · cases back
    · rename_i here
      split at back
      · exact (Option.some.inj back).symm
      · rename_i mine
        rw [not_not] at here mine
        rw [ProcessRDV.accepts, here, mine] at refused
        cases refused
  rw [same]
  exact kept_setFrame rfl fun request => request

theorem accessInfo_rewritten {element after : ProcessAccessInfo} {frame back : Frame}
    {pushed : List Frame} {disposal : Disposal Frame}
    (result : element.dispose frame = some (after, pushed, disposal))
    (returned : disposal.packet = some back) :
    back = frame ∨ back = { frame with reroute := true } ∨
      ∃ mydstvid, back = Veil.updateVidOnNoVidToAccessSwitchPacket frame mydstvid := by
  simp only [ProcessAccessInfo.dispose] at result
  split at result
  · split at result
    · split at result
      · cases result
        cases returned
      · cases result
        exact Or.inl (Option.some.inj returned).symm
    · split at result
      · split at result
        · obtain ⟨noVid, answered, same⟩ := Option.map_eq_some_iff.mp result
          cases same
          rw [ProcessAccessInfo.noVid] at answered
          split at answered
          · cases answered
          · split at answered
            · cases answered
              cases returned
            · split at answered
              · cases answered
                cases returned
              · cases answered
                exact Or.inr (Or.inr ⟨_, (Option.some.inj returned).symm⟩)
        · cases result
          exact Or.inl (Option.some.inj returned).symm
      · split at result
        · cases result
          cases returned
        · cases result
          exact Or.inr (Or.inl (Option.some.inj returned).symm)
  · cases result
    cases returned

theorem kept_accessInfo {q : Packet} {element : ProcessAccessInfo} {frame : Frame}
    (back : (element.smaction q.frame).2.2 = some frame) : Kept q (q.setFrame frame) := by
  rw [ProcessAccessInfo.smaction] at back
  split at back
  · cases back
  · rename_i result
    rcases accessInfo_rewritten result back with rfl | rfl | ⟨mydstvid, rfl⟩
    · exact kept_setFrame rfl fun request => request
    · exact kept_setFrame rfl fun request => request
    · exact kept_setFrame rfl fun request => absurd request (Frame.not_isEncapArp (Or.inr rfl))

theorem decapsulate_leaves {q : Packet} (long : 30 ≤ q.data.length) {count : Nat}
    (shim : count ≤ 22) (svid : VID) (dmac : EtherAddress) :
    (q.decapsulate count svid dmac).frame.etherType ≠ etherTypeVeil := by
  obtain ⟨pulled, rest⟩ : ∃ pulled, q.data.drop count = pulled := ⟨_, rfl⟩
  have enough : 8 ≤ pulled.length := by
    rw [← rest, List.length_drop]
    omega
  have typed : 8 ≤ (Bytes.write pulled 12 (Bytes.ofWord 2 etherTypeIp)).length := by
    simp only [Bytes.write, List.length_append, List.length_take, Bytes.length_ofWord]
    omega
  have addressed : 8 ≤ (Bytes.write (Bytes.write pulled 12 (Bytes.ofWord 2 etherTypeIp)) 0
      (Bytes.ofWord 6 dmac)).length := by
    rwa [Bytes.length_write (by rw [Bytes.length_ofWord]; omega)]
  have kept : (q.decapsulate count svid dmac).data.drop 12 =
      (Bytes.write pulled 12 (Bytes.ofWord 2 etherTypeIp)).drop 12 := by
    simp only [decapsulate, write, pull, rest]
    rw [Bytes.drop_write (by omega) (by rw [Bytes.length_ofWord]),
      Bytes.drop_write (Nat.zero_le _) (by rw [Bytes.length_ofWord]; omega)]
  have read : (q.decapsulate count svid dmac).frame.etherType =
      Bytes.toWord 16 2 ((Bytes.write pulled 12 (Bytes.ofWord 2 etherTypeIp)).drop 12) := by
    rw [frame, kept]
  rw [read]
  by_cases whole : 12 ≤ pulled.length
  · rw [Bytes.drop_write_self whole, Bytes.toWord_ofWord_append _ _ (by decide)]
    decide
  · -- without a whole header the type is not where it is read
    have short : pulled.length = 8 ∨ pulled.length = 9 ∨ pulled.length = 10 ∨
      pulled.length = 11 := by
      omega
    have written : Bytes.write pulled 12 (Bytes.ofWord 2 etherTypeIp) =
        pulled ++ Bytes.ofWord 2 etherTypeIp := by
      have beyond : pulled.drop (12 + (Bytes.ofWord 2 etherTypeIp).length) = [] :=
        List.drop_of_length_le (by omega)
      rw [Bytes.write, beyond, List.take_of_length_le (by omega), List.append_nil]
    rw [written, List.drop_append, List.drop_of_length_le (by omega), List.nil_append]
    rcases short with eight | nine | ten | eleven
    · rw [eight]
      decide
    · rw [nine]
      decide
    · rw [ten]
      decide
    · rw [eleven]
      decide

theorem kept_ip {q after : Packet} {element : ProcessIP} {startrand : BitVec 16}
    (long : 30 ≤ q.data.length) (veil : q.frame.etherType = etherTypeVeil)
    (back : (element.smaction startrand q).2.2 = some after)
    (inside : after.frame.etherType = etherTypeVeil) : Kept q after := by
  rw [ProcessIP.smaction_veil _ _ veil] at back
  simp only [ProcessIP.fromOverlay] at back
  have same : Kept q q := ⟨long, rfl, fun request => request⟩
  split at back
  · cases layout : ProcessIP.shim q.frame with
    | none =>
        simp only [layout] at back
        cases back
        exact same
    | some shim =>
        obtain ⟨count, dvid⟩ := shim
        simp only [layout] at back
        split at back
        · cases back
          have short : count ≤ 22 := by
            rw [ProcessIP.shim] at layout
            repeat' split at layout
            all_goals cases layout
            all_goals decide
          exact absurd inside (decapsulate_leaves long short _ _)
        · split at back
          · cases back
            obtain ⟨accvid, payload, access⟩ := createAnEncapsulatedPacketToAccessSwitch_eq q.frame
            refine ⟨?_, ?_, ?_⟩
            · rw [createAnEncapsulatedPacketToAccessSwitch_data long, Frame.length_bytes]
              omega
            · rw [createAnEncapsulatedPacketToAccessSwitch_frame long, access]
            · rw [createAnEncapsulatedPacketToAccessSwitch_frame long, access]
              exact fun request => absurd request (Frame.not_isEncapArp (Or.inl rfl))
          · cases back
            exact same
  · cases back

theorem length_of_shortAt {frame : Frame} (request : frame.shortAt 6 = arpopRequest) :
    8 ≤ frame.payload.length := by
  by_contra short
  have low : (frame.shortAt 6).getLsbD 0 = false := by
    have missing : (frame.payload.drop 6).getD 1 0 = (0 : Bytes.Byte) :=
      List.getD_eq_default _ _ (by rw [List.length_drop]; omega)
    rw [Frame.shortAt, Bytes.toWord_succ, missing]
    simp
  rw [request] at low
  exact absurd low (by decide)

theorem answered_reply {q : Packet} {element : ProcessARP} {ipvid : VID}
    (veil : q.frame.etherType = etherTypeVeil) (request : q.frame.IsEncapArp arpopRequest) :
    Answered q (q.setFrame (element.reply q.frame ipvid)) := by
  refine ⟨request, ?_⟩
  rw [frame_setFrame]
  refine ⟨veil, rfl, ?_⟩
  obtain ⟨before, old, rest, six, two, payload⟩ :
    ∃ before old rest, before.length = 6 ∧ old.length = 2 ∧
      q.frame.payload = before ++ (old ++ rest) := by
    have long := length_of_shortAt request.2.2
    refine ⟨q.frame.payload.take 6, (q.frame.payload.drop 6).take 2, q.frame.payload.drop 8,
      List.length_take_of_le (by omega),
        List.length_take_of_le (by rw [List.length_drop]; omega), ?_⟩
    have split := List.take_append_drop 2 (q.frame.payload.drop 6)
    rw [List.drop_drop] at split
    rw [split, List.take_append_drop]
  simp (disch := simp [six, two]) only [Frame.shortAt, ProcessARP.reply, payload,
    Bytes.write_append,
    Bytes.write_zero, six, Nat.reduceSub, Bytes.length_ofWord]
  rw [List.drop_left' six]
  exact Bytes.toWord_ofWord_append _ _ (by decide)

theorem kept_arp {q after : Packet} {element : ProcessARP} {startrand : BitVec 16}
    (long : 30 ≤ q.data.length) (veil : q.frame.etherType = etherTypeVeil)
    (back : (element.smaction startrand q).2.2 = some after)
    (inside : after.frame.etherType = etherTypeVeil) :
    Kept q after ∨ 30 ≤ after.data.length ∧ Answered q after ∧ after.frame.ttl = maxTtl := by
  rw [ProcessARP.smaction_veil _ _ veil] at back
  simp only [ProcessARP.fromOverlay] at back
  split at back
  · split at back
    · rename_i request
      split at back
      · split at back
        · cases back
          refine Or.inr ⟨setFrame_long q _, answered_reply veil ⟨veil, request⟩, ?_⟩
          rw [frame_setFrame]
          rfl
        · cases back
      · cases back
        exact Or.inl ⟨long, rfl, fun request => request⟩
    · split at back
      · split at back
        · split at back
          · cases back
            rw [createArpReplyPacket_etherType] at inside
            exact absurd inside (by decide)
          · cases back
        · cases back
          exact Or.inl ⟨long, rfl, fun request => request⟩
      · cases back
  · cases back

theorem HandedBack.spec {q after : Packet} (handed : HandedBack q after) (long : 30 ≤ q.data.length)
    (veil : q.frame.etherType = etherTypeVeil) (inside : after.frame.etherType = etherTypeVeil) :
    Kept q after ∨ 30 ≤ after.data.length ∧ Answered q after ∧ after.frame.ttl = maxTtl := by
  cases handed with
  | rdv element frame refused back => exact Or.inl (kept_rdv refused back)
  | accessInfo element frame back => exact Or.inl (kept_accessInfo back)
  | arp element startrand _ back => exact kept_arp long veil back inside
  | ip element startrand _ back => exact Or.inl (kept_ip long veil back inside)

structure Bounded (entering : Packet) (passes answers : Nat) (p : Packet) : Prop where
  within : passes ≤ entering.frame.ttl.toNat + 1 + answers * (maxTtl.toNat + 1)
  paid : p.frame.etherType = etherTypeVeil → 30 ≤ p.data.length ∧
    passes + p.frame.ttl.toNat ≤ entering.frame.ttl.toNat + 1 + answers * (maxTtl.toNat + 1)
  asked : answers = 0 ∧ (p.frame.IsEncapArp arpopRequest → entering.frame.IsEncapArp arpopRequest) ∨
    answers = 1 ∧ entering.frame.IsEncapArp arpopRequest ∧ ¬p.frame.IsEncapArp arpopRequest

theorem Trip.bounded {entering p : Packet} {passes answers : Nat} (long : 30 ≤ entering.data.length)
    (trip : Trip entering passes answers p) : Bounded entering passes answers p := by
  induction trip with
  | enters =>
      refine ⟨by omega, fun _ => ⟨long, by omega⟩, Or.inl ⟨rfl, fun request => request⟩⟩
  | returns _ veil forwarded handed unanswered ih =>
      obtain ⟨enough, overlay, counted, sameRequest⟩ := forwarded.spec veil
      have budget := (ih.paid veil).2
      have kept (inside : _ = etherTypeVeil) := (handed.spec enough overlay inside).resolve_right
        fun answered => unanswered answered.2.1
      refine ⟨by omega, fun inside => ⟨(kept inside).1, ?_⟩, ?_⟩
      · rw [(kept inside).2.1]
        omega
      · rcases ih.asked with ⟨none, request⟩ | ⟨one, request, settled⟩
        · exact Or.inl ⟨none, fun asks => request (sameRequest ((kept asks.1).2.2 asks))⟩
        · exact Or.inr ⟨one, request, fun asks => settled (sameRequest ((kept asks.1).2.2 asks))⟩
  | @replies passes answers _ _ _ _ veil forwarded handed answered ih =>
      obtain ⟨enough, overlay, counted, sameRequest⟩ := forwarded.spec veil
      have budget := (ih.paid veil).2
      have more := Nat.add_one_mul answers (maxTtl.toNat + 1)
      refine ⟨by omega, fun inside => ?_, ?_⟩
      · rcases handed.spec enough overlay inside with kept | reply
        · refine ⟨kept.1, ?_⟩
          rw [kept.2.1]
          omega
        · refine ⟨reply.1, ?_⟩
          rw [reply.2.2]
          omega
      · have asks := sameRequest answered.1
        have settled : ¬_ := fun request : Frame.IsEncapArp arpopRequest _ =>
          absurd (request.2.2.symm.trans answered.2.2.2) (by decide)
        rcases ih.asked with ⟨none, request⟩ | ⟨-, -, not⟩
        · exact Or.inr ⟨by omega, request asks, settled⟩
        · exact absurd asks not

/-- Whatever the tables of the switches hold, a packet passes through routers at most once more
than its `ttl` says. A request can be turned into a reply, once, and only that adds passes. -/
theorem trip_ends {entering p : Packet} {passes answers : Nat} (long : 30 ≤ entering.data.length)
    (trip : Trip entering passes answers p) :
    passes ≤ entering.frame.ttl.toNat + 1 + answers * (maxTtl.toNat + 1) ∧ answers ≤ 1 ∧
      (answers = 1 → entering.frame.IsEncapArp arpopRequest) := by
  have bounded := trip.bounded long
  refine ⟨bounded.within, ?_, ?_⟩
  · rcases bounded.asked with ⟨none, -⟩ | ⟨one, -⟩
    · omega
    · omega
  · rcases bounded.asked with ⟨none, -⟩ | ⟨-, request, -⟩
    · omega
    · exact fun _ => request

theorem trip_ends_answered :
    ∃ entering p, entering.frame.ttl = 1 ∧ Trip entering 2 1 p ∧
      2 ≤ entering.frame.ttl.toNat + 1 + 1 * (maxTtl.toNat + 1) := by
  obtain ⟨entering, request⟩ : ∃ entering : Packet, entering = Frame.packet
      ⟨0x10000, 0x20000, etherTypeVeil, 0x20003, 0x10000, veilEncapArp, 1, 0,
        etherArp arpopRequest 0x20003 1 0 2, true, 0⟩ := ⟨_, rfl⟩
  obtain ⟨switch, router⟩ : ∃ switch : RoutePacket,
      switch = ⟨.empty, .empty, .single 0x10000 0x1, ∅⟩ := ⟨_, rfl⟩
  obtain ⟨element, arp⟩ : ∃ element : ProcessARP, element =
      ⟨.empty, MappingTable.updateEntry ∅ 2 0x30001 0x10000 0x2, .single 0x10000 0x1⟩ := ⟨_, rfl⟩
  obtain ⟨q, routed⟩ : ∃ q, q = entering.setFrame (switch.smaction entering.frame).2.1 := ⟨_, rfl⟩
  have forwarded : Forwarded entering q := by
    refine ⟨switch, by rw [routed, setFrame], ?_, ?_⟩
    · rw [router, request]
      decide +kernel
    · rw [router, request]
      decide +kernel
  have back : (element.smaction 0 q).2.2 = some (q.setFrame (element.reply q.frame 0x30001)) := by
    rw [routed, router, request, arp]
    decide +kernel
  have veil : q.frame.etherType = etherTypeVeil := by
    rw [routed, router, request]
    decide +kernel
  have asks : q.frame.IsEncapArp arpopRequest := by
    rw [routed, router, request]
    exact ⟨by decide +kernel, by decide +kernel, by decide +kernel⟩
  have trip := (@Trip.enters entering).replies (by rw [request]; decide) forwarded
    (.arp element 0 _ back) (answered_reply veil asks)
  have ends := trip_ends (by rw [request]; decide) trip
  exact ⟨entering, _, by rw [request]; decide, trip, ends.1⟩

end Packet

end Veil
