import Veil.Library.WhileLoop
import Veil.RoutePacket

/-! The bit-flip loop of `smaction`. Whatever the tables hold, it ends at a destination that the
switch has an output for, and it only takes over bits of the switch's own VID. -/

namespace Veil

theorem VID.getLsbD_flipBit (vid : VID) {k : Nat} (positive : 1 ≤ k) (bound : k ≤ 48) (bit : Nat) :
    (vid.flipBit k).getLsbD bit = (vid.getLsbD bit != decide (k - 1 = bit)) := by
  simp only [BitVec.getLsbD, VID.flipBit_toNat vid positive bound, Nat.testBit_xor,
    Nat.testBit_two_pow]

theorem VID.getLsbD_flipBit_logicalDistance {vid other : VID}
    (apart : 1 ≤ vid.logicalDistance other) :
    (other.flipBit (vid.logicalDistance other)).getLsbD (vid.logicalDistance other - 1) =
      vid.getLsbD (vid.logicalDistance other - 1) := by
  have distance : prefixDistance vid.toNat other.toNat = vid.logicalDistance other - 1 + 1 := by
    rw [← VID.logicalDistance_eq]
    omega
  have differ := (prefixDistance.bits_of_eq distance).1
  rw [VID.getLsbD_flipBit other apart (VID.logicalDistance_le _ _)]
  simp only [BitVec.getLsbD, decide_true]
  revert differ
  cases vid.toNat.testBit (vid.logicalDistance other - 1) <;>
    cases other.toNat.testBit (vid.logicalDistance other - 1) <;> simp

namespace RoutePacket

open WhileLoop

def flipOnce (r : RoutePacket) (state : VID × PortLookup) : VID × PortLookup :=
  let flipped := state.1.flipBit state.2.k
  (flipped, r.getPort flipped state.2.dhost state.2.nexthop state.2.myVid)

theorem getPort_k_le (r : RoutePacket) (dstvid : VID) (dhost : EtherAddress) (nexthop myVid : VID) :
    (r.getPort dstvid dhost nexthop myVid).k ≤ 48 := by
  simp only [getPort]
  repeat' split
  all_goals exact VID.logicalDistance_le _ _

def NoPort (state : VID × PortLookup) : Prop := state.2.port < 0

theorem reroute_eq_iterate (r : RoutePacket) {fuel rounds : Nat} {dstvid : VID}
    {looked : PortLookup} (loop : EndsAfter NoPort r.flipOnce (dstvid, looked) rounds)
    (enough : rounds < fuel) :
    r.reroute fuel dstvid looked = r.flipOnce^[rounds] (dstvid, looked) := by
  induction rounds generalizing fuel dstvid looked with
  | zero =>
      cases fuel with
      | zero => exact absurd enough (Nat.lt_irrefl 0)
      | succ fuel =>
          have found : ¬looked.port < 0 := loop.ends
          rw [reroute, if_neg found, Function.iterate_zero, id_eq]
  | succ rounds ih =>
      cases fuel with
      | zero => exact absurd enough (Nat.not_lt_zero _)
      | succ fuel =>
          obtain ⟨goes, rest⟩ := loop.of_succ
          have none : looked.port < 0 := goes
          rw [reroute, if_pos none, Function.iterate_succ_apply]
          exact ih rest (Nat.lt_of_succ_lt_succ enough)

section Loop

variable {r : RoutePacket} {m dstvid : VID} {state : VID × PortLookup}

/-- What holds from round to round: a lookup without a port leaves the switch's VID alone and
reports a distance beyond the host part, and the bits that have changed are those of the VID. -/
structure Approaches (m dstvid : VID) (state : VID × PortLookup) : Prop where
  myVid_eq : NoPort state → state.2.myVid = m
  k_eq : NoPort state → state.2.k = m.logicalDistance state.1
  far : NoPort state → 16 < state.2.k
  agrees : ∀ bit, state.1.getLsbD bit ≠ dstvid.getLsbD bit → state.1.getLsbD bit = m.getLsbD bit

theorem approaches_getPort (dhost : EtherAddress) (nexthop : VID) {vid : VID}
    (agrees : ∀ bit, vid.getLsbD bit ≠ dstvid.getLsbD bit → vid.getLsbD bit = m.getLsbD bit) :
    Approaches m dstvid (vid, r.getPort vid dhost nexthop m) where
  myVid_eq := fun none => (r.getPort_of_neg none).1
  k_eq := fun none => (r.getPort_of_neg none).2.1
  far := fun none => (r.getPort_of_neg none).2.2.1
  agrees := agrees

theorem Approaches.flipOnce (holds : Approaches m dstvid state) (none : NoPort state) :
    Approaches m dstvid (r.flipOnce state) := by
  rw [RoutePacket.flipOnce, holds.myVid_eq none, holds.k_eq none]
  have far := holds.far none
  rw [holds.k_eq none] at far
  have apart : 1 ≤ m.logicalDistance state.1 := by omega
  refine approaches_getPort _ _ fun bit changed => ?_
  by_cases flipped : m.logicalDistance state.1 - 1 = bit
  · rw [← flipped]
    exact VID.getLsbD_flipBit_logicalDistance apart
  · have same : (state.1.flipBit (m.logicalDistance state.1)).getLsbD bit =
        state.1.getLsbD bit := by
      rw [VID.getLsbD_flipBit _ apart (VID.logicalDistance_le _ _)]
      simp [flipped]
    rw [same] at changed ⊢
    exact holds.agrees bit changed

theorem Approaches.closer (holds : Approaches m dstvid state) (none : NoPort state) :
    m.logicalDistance (r.flipOnce state).1 < m.logicalDistance state.1 := by
  have far := holds.far none
  rw [holds.k_eq none] at far
  rw [RoutePacket.flipOnce, holds.k_eq none]
  exact VID.logicalDistance_flipBit (by omega)

structure FindsOutput (r : RoutePacket) (dstvid : VID) (first : PortLookup) (rounds : Nat) :
    Prop where
  loop : EndsAfter NoPort r.flipOnce (dstvid, first) rounds
  few : rounds ≤ first.k - 16
  closer : ∀ i < rounds, first.myVid.logicalDistance (r.flipOnce^[i + 1] (dstvid, first)).1 <
    first.myVid.logicalDistance (r.flipOnce^[i] (dstvid, first)).1
  agrees : ∀ bit,
    (r.flipOnce^[rounds] (dstvid, first)).1.getLsbD bit ≠ dstvid.getLsbD bit →
      (r.flipOnce^[rounds] (dstvid, first)).1.getLsbD bit = first.myVid.getLsbD bit

theorem exists_findsOutput (r : RoutePacket) (dstvid : VID) (dhost : EtherAddress)
    (nexthop myVid : VID) :
    ∃ rounds, r.FindsOutput dstvid (r.getPort dstvid dhost nexthop myVid) rounds := by
  generalize same : r.getPort dstvid dhost nexthop myVid = first
  by_cases none : NoPort (dstvid, first)
  · have starts : Approaches myVid dstvid (dstvid, first) := by
      rw [← same]
      exact approaches_getPort dhost nexthop fun bit changed => absurd rfl changed
    have keeps (state : VID × PortLookup) (holds : Approaches myVid dstvid state)
        (none : NoPort state) :
        Approaches myVid dstvid (r.flipOnce state) := holds.flipOnce none
    have falls (state : VID × PortLookup) (holds : Approaches myVid dstvid state)
        (none : NoPort state) :
        myVid.logicalDistance (r.flipOnce state).1 < myVid.logicalDistance state.1 :=
          holds.closer none
    have above (state : VID × PortLookup) (holds : Approaches myVid dstvid state)
        (none : NoPort state) :
        16 < myVid.logicalDistance state.1 := holds.k_eq none ▸ holds.far none
    obtain ⟨rounds, few, loop⟩ := @exists_endsAfter _ NoPort r.flipOnce (Approaches myVid dstvid)
      (fun state => myVid.logicalDistance state.1) 16 keeps falls above (dstvid, first) starts
    have approaches := loop.invariant starts keeps
    have kept : first.myVid = myVid := starts.myVid_eq none
    refine ⟨rounds, loop, ?_, fun i before => ?_, ?_⟩
    · rwa [← starts.k_eq none] at few
    · rw [kept, Function.iterate_succ_apply']
      exact (approaches i (Nat.le_of_lt before)).closer (loop.continues i before)
    · rw [kept]
      exact (approaches rounds (Nat.le_refl _)).agrees
  · exact ⟨0, .zero none, Nat.zero_le _, fun i before => absurd before (Nat.not_lt_zero i),
      fun bit changed => absurd rfl changed⟩

theorem FindsOutput.reroute_eq {dhost : EtherAddress} {nexthop myVid : VID} {rounds : Nat}
    (output : r.FindsOutput dstvid (r.getPort dstvid dhost nexthop myVid) rounds) :
    r.reroute 48 dstvid (r.getPort dstvid dhost nexthop myVid) =
      r.flipOnce^[rounds] (dstvid, r.getPort dstvid dhost nexthop myVid) := by
  have few := output.few
  have bound := r.getPort_k_le dstvid dhost nexthop myVid
  exact r.reroute_eq_iterate output.loop (by omega)

theorem reroute_finds (r : RoutePacket) (dstvid : VID) (dhost : EtherAddress)
    (nexthop myVid : VID) :
    0 ≤ (r.reroute 48 dstvid (r.getPort dstvid dhost nexthop myVid)).2.port := by
  obtain ⟨rounds, output⟩ := r.exists_findsOutput dstvid dhost nexthop myVid
  rw [output.reroute_eq]
  exact Int.not_lt.mp output.loop.ends

end Loop

def beforeLoop (r : RoutePacket) (frame : Frame) (myVid : VID) : RoutePacket × Frame × PortLookup :=
  if frame.veilType = veilEncapMultipathIp then
    let (r, frame, looked) := r.multipath frame myVid
    (r, frame, r.getPort frame.dvid frame.dhost looked.nexthop looked.myVid)
  else (r, frame, r.getPort frame.dvid frame.dhost 0 myVid)

section Smaction

variable {r switch : RoutePacket} {frame entering : Frame} {myVid : VID} {first : PortLookup}

theorem beforeLoop_spec (enters : r.beforeLoop frame myVid = (switch, entering, first)) :
    switch.numinterfaces = r.numinterfaces ∧ (∃ dhost dvid, entering = { frame with dhost, dvid }) ∧
      ∃ nexthop vid, first = switch.getPort entering.dvid entering.dhost nexthop vid := by
  rw [beforeLoop] at enters
  split at enters
  · obtain ⟨same, dhost, dvid, rewritten⟩ := r.multipath_frame frame myVid
    obtain ⟨rfl, rfl, rfl⟩ := enters
    exact ⟨same, ⟨dhost, dvid, rewritten⟩, _, _, rfl⟩
  · obtain ⟨rfl, rfl, rfl⟩ := enters
    exact ⟨rfl, ⟨frame.dhost, frame.dvid, rfl⟩, _, _, rfl⟩

theorem forwardVeil_eq (enters : r.beforeLoop frame myVid = (switch, entering, first)) :
    r.forwardVeil frame myVid =
      let (dstvid, looked) :=
        if rerouted entering then switch.reroute 48 entering.dvid first else (entering.dvid, first)
      let sent := { entering with
        dvid := dstvid
        dhost := looked.nexthop
        shost := looked.myVid
        ttl := entering.ttl - 1 }
      if entering.ttl = 0 then (switch, sent, switch.numinterfaces + 1)
      else
        let port := if 0 ≤ looked.port then looked.port else switch.numinterfaces + 1
        if switch.numinterfaces < port ∧
            (entering.veilType = veilEncapMultipathIp ∨ entering.veilType = veilEncapIp) then
          (switch, createAnEncapsulatedPacketToAccessSwitch sent, switch.numinterfaces)
        else (switch, sent, port) := by
  rw [beforeLoop] at enters
  rw [forwardVeil]
  split at enters
  · rename_i multipath
    rw [if_pos multipath]
    obtain ⟨rfl, rfl, rfl⟩ := enters
    rfl
  · rename_i direct
    rw [if_neg direct]
    obtain ⟨rfl, rfl, rfl⟩ := enters
    rfl

/-- A frame that may be rerouted leaves on a port that is found, and the destination written into
it is the one that the port was found for. -/
theorem smaction_findsOutput (veil : frame.etherType = etherTypeVeil)
    (accepted : r.ownVid frame.dhost frame.shost frame.dhost frame.shost
      frame.svid.getSwitchVID = some myVid)
    (reroutable : rerouted frame) (enters : r.beforeLoop frame myVid = (switch, entering, first)) :
    ∃ rounds sent, switch.FindsOutput entering.dvid first rounds ∧
      let found := switch.flipOnce^[rounds] (entering.dvid, first)
      sent.dvid = found.1 ∧
        (frame.ttl = 0 → (r.smaction frame).2 = (sent, (r.numinterfaces : Int) + 1)) ∧
        (frame.ttl ≠ 0 → (r.smaction frame).2 = (sent, found.2.port) ∨
          r.numinterfaces < found.2.port ∧
            (r.smaction frame).2 = (createAnEncapsulatedPacketToAccessSwitch sent,
              (r.numinterfaces : Int))) := by
  obtain ⟨same, ⟨dhost, dvid, rfl⟩, nexthop, vid, rfl⟩ := beforeLoop_spec enters
  obtain ⟨rounds, output⟩ := switch.exists_findsOutput dvid dhost nexthop vid
  have loop := output.reroute_eq
  have ends := output.loop.ends
  have again : rerouted { frame with dhost, dvid } := reroutable
  rw [smaction, if_pos veil, accepted]
  dsimp only
  rw [forwardVeil_eq enters, if_pos again, loop]
  generalize switch.getPort dvid dhost nexthop vid = first at *
  obtain ⟨⟨destination, found⟩, final⟩ : ∃ state, switch.flipOnce^[rounds] (dvid, first) = state :=
    ⟨_, rfl⟩
  rw [NoPort, final] at ends
  rw [final]
  dsimp only at ends ⊢
  refine ⟨rounds, { frame with
    dhost := found.nexthop
    shost := found.myVid
    dvid := destination
    ttl := frame.ttl - 1 }, output, by rw [final], fun dead => ?_, fun alive => ?_⟩
  · rw [if_pos dead, same]
  · rw [if_neg alive, if_pos (Int.not_lt.mp ends), same, final]
    split
    · rename_i back
      exact Or.inr ⟨back.1, rfl⟩
    · exact Or.inl rfl

end Smaction

def alone : RoutePacket := ⟨.empty, .empty, .single 0x000000010000 0x000000000005, ∅⟩

def strayQuery : Frame :=
  ⟨0x000000010000, 0, etherTypeVeil, 0, 0x000000030000, veilRdvQuery, maxTtl, 0, [], false, 0⟩

theorem strayQuery_findsOutput : ∃ rounds sent,
    alone.FindsOutput 0x000000030000 ⟨-1, 18, 0, 0x000000010000, 0x000000010000⟩ rounds ∧
      let found := alone.flipOnce^[rounds]
        (0x000000030000, ⟨-1, 18, 0, 0x000000010000, 0x000000010000⟩)
      sent.dvid = found.1 ∧
        (strayQuery.ttl = 0 → (alone.smaction strayQuery).2 =
          (sent, (alone.numinterfaces : Int) + 1)) ∧
        (strayQuery.ttl ≠ 0 → (alone.smaction strayQuery).2 = (sent, found.2.port) ∨
          alone.numinterfaces < found.2.port ∧ (alone.smaction strayQuery).2 =
            (createAnEncapsulatedPacketToAccessSwitch sent, (alone.numinterfaces : Int))) :=
  @smaction_findsOutput alone alone strayQuery strayQuery 0x000000010000
    ⟨-1, 18, 0, 0x000000010000, 0x000000010000⟩ rfl rfl rfl rfl

end RoutePacket

end Veil
