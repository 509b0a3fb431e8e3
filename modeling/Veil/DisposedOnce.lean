import Veil.ProcessARP
import Veil.Rendezvous

/-! Whether the elements dispose of the packet that they are given exactly once. -/

namespace Veil

namespace ProcessIP

def disposal (p : ProcessIP) (startrand : BitVec 16) (packet : Packet) : Disposal Packet :=
  (p.dispose startrand packet).2.2

theorem once_toOwnHost (p : ProcessIP) (packet : Packet) (svid dvid : VID) :
    (p.toOwnHost packet svid dvid).2.Once := by
  rw [toOwnHost]
  split
  · split
    · exact Disposal.once_dropped
    · split
      · exact Disposal.once_handedOn _
      · exact Disposal.once_dropped
  · exact Disposal.once_handedOn _

theorem once_fromHost (p : ProcessIP) (startrand : BitVec 16) (packet : Packet) :
    (p.fromHost startrand packet).2.2.Once := by
  simp only [fromHost]
  split
  · exact once_toOwnHost _ packet _ _
  · exact Disposal.once_handedOn _

theorem once_fromOverlay (p : ProcessIP) (packet : Packet) : (p.fromOverlay packet).Once := by
  rw [fromOverlay]
  split
  · split
    · exact Disposal.once_handedOn _
    · split
      · exact Disposal.once_handedOn _
      · split <;> exact Disposal.once_handedOn _
  · exact Disposal.once_dropped

def MissesHost (p : ProcessIP) (dvid : VID) : Prop :=
  p.hosts.lookupVID dvid = none ∧ (p.interfaces.lookupVidEntry dvid.getSwitchVID).1 = true

instance (p : ProcessIP) (dvid : VID) : Decidable (p.MissesHost dvid) :=
  inferInstanceAs (Decidable (_ ∧ _))

theorem once_fromVeilIp_iff (p : ProcessIP) (packet : Packet) :
    (p.fromVeilIp packet).2.Once ↔ ¬p.MissesHost packet.frame.dhost := by
  rw [fromVeilIp, MissesHost]
  cases p.hosts.lookupVID packet.frame.dhost with
  | some dmac =>
      refine iff_of_true (Disposal.once_handedOn _) ?_
      rintro ⟨missing, -⟩
      cases missing
  | none =>
      dsimp only
      split
      · rename_i mine
        rw [Disposal.once_input_iff]
        exact iff_of_false (by decide) (not_not_intro ⟨rfl, mine⟩)
      · rename_i elsewhere
        exact iff_of_true (Disposal.once_handedOn _) fun missing => elsewhere missing.2

theorem once_disposal_iff (p : ProcessIP) (startrand : BitVec 16) (packet : Packet) :
    (p.disposal startrand packet).Once ↔
      ¬(packet.frame.etherType = etherTypeVeilIp ∧ p.MissesHost packet.frame.dhost) := by
  rw [disposal, dispose]
  split
  · rename_i ip
    have other : packet.frame.etherType ≠ etherTypeVeilIp := by
      rw [ip]
      decide
    exact iff_of_true (once_fromHost p startrand packet) fun both => other both.1
  split
  · rename_i veilIp
    rw [and_iff_right veilIp]
    exact once_fromVeilIp_iff p packet
  · rename_i other
    refine iff_of_true ?_ fun both => other both.1
    split
    · exact once_fromOverlay p packet
    · exact Disposal.once_dropped

end ProcessIP

namespace ProcessARP

def disposal (p : ProcessARP) (startrand : BitVec 16) (packet : Packet) : Disposal Packet :=
  (p.dispose startrand packet).2.2

theorem once_answer (p : ProcessARP) (packet : Packet) (esrc : EtherAddress) (src dst : IPAddress) :
    (p.answer packet esrc src dst).Once := by
  rw [answer]
  split
  · split
    · exact Disposal.once_replaced _
    · exact Disposal.once_dropped
  · split
    · exact Disposal.once_replaced _
    · split
      · exact Disposal.once_replaced _
      · exact Disposal.once_dropped

theorem once_fromOverlay (p : ProcessARP) (packet : Packet) : (p.fromOverlay packet).Once := by
  simp only [fromOverlay]
  split
  · split
    · split
      · split
        · exact Disposal.once_handedOn _
        · exact Disposal.once_dropped
      · exact Disposal.once_handedOn _
    split
    · split
      · split
        · exact Disposal.once_replaced _
        · exact Disposal.once_dropped
      · exact Disposal.once_handedOn _
    · exact Disposal.once_dropped
  · exact Disposal.once_dropped

theorem once_disposal (p : ProcessARP) (startrand : BitVec 16) (packet : Packet) :
    (p.disposal startrand packet).Once := by
  rw [disposal, dispose]
  split
  · simp only [fromHost]
    split
    · exact Disposal.once_dropped
    split
    · exact Disposal.once_dropped
    split
    · exact once_answer _ packet _ _ _
    · exact Disposal.once_dropped
  split
  · exact once_fromOverlay p packet
  · exact Disposal.once_dropped

end ProcessARP

namespace ProcessAccessInfo

def disposal (p : ProcessAccessInfo) (frame : Frame) : Option (Disposal Frame) :=
  (p.dispose frame).map fun result => result.2.2

def FailsAssertion (p : ProcessAccessInfo) (frame : Frame) : Prop :=
  (p.interfaces.lookupVidEntry frame.dhost).1 = true ∧
    (p.interfaces.lookupVidEntry frame.dvid).1 = true ∧
    frame.veilType = noVidToAccessSwitch ∧ frame.etherType ≠ etherTypeVeil

theorem noVid_once_iff (p : ProcessAccessInfo) (frame : Frame) (myVid : VID) :
    (∃ result, p.noVid frame myVid = some result ∧ result.2.Once) ↔
      frame.etherType = etherTypeVeil := by
  rw [noVid]
  split
  · rename_i other
    exact iff_of_false nofun other
  rename_i veil
  refine iff_of_true ?_ (not_not.mp veil)
  split
  · exact ⟨_, rfl, Disposal.once_dropped⟩
  split
  · exact ⟨_, rfl, Disposal.once_dropped⟩
  · exact ⟨_, rfl, Disposal.once_handedOn _⟩

theorem disposal_once_iff (p : ProcessAccessInfo) (frame : Frame) :
    (∃ disposal, p.disposal frame = some disposal ∧ disposal.Once) ↔ ¬p.FailsAssertion frame := by
  simp only [disposal, dispose, FailsAssertion]
  split
  · rename_i here
    rw [and_iff_right here]
    have different : veilMapUpdate ≠ noVidToAccessSwitch := by decide
    split
    · rename_i update
      refine iff_of_true ?_ fun fails => different (update.symm.trans fails.2.1)
      split
      · exact ⟨_, rfl, Disposal.once_dropped⟩
      · exact ⟨_, rfl, Disposal.once_handedOn _⟩
    split
    · rename_i kind
      split
      · rename_i mine
        rw [and_iff_right mine, and_iff_right kind, not_not,
          ← p.noVid_once_iff frame ((p.interfaces.lookupIntEntry frame.port).getD 0)]
        simp only [Option.map_map, Option.map_eq_some_iff, Function.comp_apply,
          exists_exists_and_eq_and]
      · rename_i notMine
        exact iff_of_true ⟨_, rfl, Disposal.once_handedOn _⟩ fun fails => notMine fails.1
    · rename_i kind
      refine iff_of_true ?_ fun fails => kind fails.2.1
      split
      · exact ⟨_, rfl, Disposal.once_dropped⟩
      · exact ⟨_, rfl, Disposal.once_handedOn _⟩
  · rename_i elsewhere
    exact iff_of_true ⟨_, rfl, Disposal.once_dropped⟩ fun fails => elsewhere fails.1

end ProcessAccessInfo

namespace ProcessRDV

def disposal (p : ProcessRDV) (frame : Frame) : Disposal Frame := (p.dispose frame).2

theorem once_disposal (p : ProcessRDV) (frame : Frame) : (p.disposal frame).Once := by
  rw [disposal, dispose]
  split
  · exact Disposal.once_dropped
  split
  · exact Disposal.once_handedOn frame
  split
  · dsimp only
    split
    · exact Disposal.once_replaced _
    · exact Disposal.once_dropped
  · split
    · exact Disposal.once_dropped
    · split
      · exact Disposal.once_dropped
      · exact Disposal.once_dropped

end ProcessRDV

inductive Call where
  | ip (p : ProcessIP) (startrand : BitVec 16) (packet : Packet)
  | arp (p : ProcessARP) (startrand : BitVec 16) (packet : Packet)
  | accessInfo (p : ProcessAccessInfo) (frame : Frame)
  | rdv (p : ProcessRDV) (frame : Frame)

namespace Call

/-- `smaction` comes to an end and disposes of its input exactly once. -/
def DisposesOnce : Call → Prop
  | ip p startrand packet => (p.disposal startrand packet).Once
  | arp p startrand packet => (p.disposal startrand packet).Once
  | accessInfo p frame => ∃ disposal, p.disposal frame = some disposal ∧ disposal.Once
  | rdv p frame => (p.disposal frame).Once

/-- An IP packet with VIDs for addresses whose host is missing here, or a failing assertion. -/
def GoesWrong : Call → Prop
  | ip p _ packet => packet.frame.etherType = etherTypeVeilIp ∧ p.MissesHost packet.frame.dhost
  | arp .. => False
  | accessInfo p frame => p.FailsAssertion frame
  | rdv .. => False

theorem disposesOnce_iff (call : Call) : call.DisposesOnce ↔ ¬call.GoesWrong := by
  cases call with
  | ip p startrand packet => exact p.once_disposal_iff startrand packet
  | arp p startrand packet => exact iff_of_true (p.once_disposal startrand packet) not_false
  | accessInfo p frame => exact p.disposal_once_iff frame
  | rdv p frame => exact iff_of_true (p.once_disposal frame) not_false

end Call

def hostless : ProcessIP where
  hosts := .empty
  interfaces := { InterfaceTable.empty with
    interfaces := (∅ : HashTable VID Nat).insert 0x000000010000 0
    rinterfaces := (∅ : HashTable Nat VID).insert 0 0x000000010000 }
  forwardingType := .addOverwrite

def strayPacket : Packet where
  headroom := []
  data := [0, 0, 0, 1, 0, 5] ++ [0, 0, 0, 2, 0, 7] ++ Bytes.ofWord 2 etherTypeVeilIp ++
    List.replicate 20 0
  reroute := false
  port := 0

theorem Call.not_always_disposesOnce : ¬∀ call : Call, call.DisposesOnce := by
  intro always
  exact (hostless.once_disposal_iff 0 strayPacket).mp
    (always (.ip hostless 0 strayPacket)) (by decide)

end Veil
