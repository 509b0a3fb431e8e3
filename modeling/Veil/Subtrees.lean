import Veil.BuildRouteTable

/-! The levels of the tree of VIDs, from `vid.hh`: which VIDs share a rendezvous point, and the
laws of their distance. -/

namespace Veil

namespace VID

/-- `vid[count] = value`. There is no result past the six bytes of the buffer. -/
def write (vid : VID) (count : Nat) (value : BitVec 8) : Option VID :=
  if count < vidLen then some (vid.setByte count value) else none

/-- The loop of `calculate_rdv_point`, which nothing but `copy_bits` ends. -/
def copyBytes (source : VID) (copyBits count : Nat) (vid : VID) : Option VID :=
  if 8 < copyBits then
    (vid.write count (source.byte count)).bind (copyBytes source (copyBits - 8) (count + 1))
  else if 0 < copyBits then
    vid.write count ((source.byte count >>> (8 - copyBits)) <<< (8 - copyBits))
  else some vid
termination_by copyBits

def rdvPointBuffer (vid : VID) (k : BitVec 16) : Option VID :=
  let copyBits : BitVec 16 := BitVec.ofNat 16 (vidLen * 8) - k + 1
  copyBytes vid copyBits.toNat 0 0

theorem copyBytes_eq (source : VID) (remaining copyBits : Nat) (few : remaining ≤ 6)
    (bound : copyBits ≤ 8 * remaining) (vid : VID) :
    copyBytes source copyBits (6 - remaining) vid =
      some (copyPrefix source remaining copyBits vid) := by
  induction remaining generalizing copyBits vid with
  | zero =>
      have none_left : copyBits = 0 := by omega
      rw [copyBytes, none_left]
      rfl
  | succ remaining ih =>
      have index : 6 - (remaining + 1) = 5 - remaining := by omega
      have next : 5 - remaining + 1 = 6 - remaining := by omega
      have inside : 5 - remaining < vidLen := by
        rw [vidLen]
        omega
      rw [copyBytes, copyPrefix, index, write, write, if_pos inside, if_pos inside]
      split
      · rw [Option.bind_some, next]
        exact ih (copyBits - 8) (by omega) (by omega) _
      · split
        · rfl
        · rfl

theorem rdvPointBuffer_eq (vid : VID) {k : Nat} (positive : 1 ≤ k) (bound : k ≤ 48) :
    vid.rdvPointBuffer (BitVec.ofNat 16 k) = some (vid.calculateRdvPoint k) := by
  have copied : (BitVec.ofNat 16 (vidLen * 8) - BitVec.ofNat 16 k + 1).toNat =
      vidLen * 8 - k + 1 := by
    have small : k % 65536 = k := Nat.mod_eq_of_lt (by omega)
    simp [vidLen, BitVec.toNat_add, BitVec.toNat_sub, small]
    omega
  rw [rdvPointBuffer, calculateRdvPoint]
  rw [copied]
  exact copyBytes_eq vid 6 _ (Nat.le_refl 6) (by rw [vidLen]; omega) 0

theorem clearBelow_eq_iff {vid other : VID} {level : Nat} :
    vid.clearBelow level = other.clearBelow level ↔ logicalDistance vid other ≤ level := by
  rw [logicalDistance_eq, prefixDistance.le_iff]
  constructor
  · intro same
    apply Nat.eq_of_testBit_eq
    intro bit
    rw [Nat.testBit_shiftRight, Nat.testBit_shiftRight]
    by_cases width : level + bit < 48
    · have cleared := congrArg (BitVec.getLsbD · (level + bit)) same
      rw [getLsbD_clearBelow _ _ _ width, getLsbD_clearBelow _ _ _ width,
        decide_eq_true (Nat.le_add_right level bit), Bool.true_and, Bool.true_and] at cleared
      exact cleared
    · have beyond (vid : VID) : vid.toNat.testBit (level + bit) = false :=
        BitVec.getLsbD_of_ge vid _ (Nat.le_of_not_lt width)
      rw [beyond, beyond]
  · intro shared
    rw [clearBelow, clearBelow]
    congr 1
    apply BitVec.eq_of_toNat_eq
    rwa [BitVec.toNat_ushiftRight, BitVec.toNat_ushiftRight]

theorem calculateRdvPoint_eq_iff {vid other : VID} {k : Nat} (positive : 1 ≤ k) (bound : k ≤ 48) :
    vid.calculateRdvPoint k = other.calculateRdvPoint k ↔ logicalDistance vid other < k := by
  rw [calculateRdvPoint_eq vid positive bound, calculateRdvPoint_eq other positive bound,
    clearBelow_eq_iff]
  omega

theorem clearBelow_clearBelow (vid : VID) (level : Nat) :
    (vid.clearBelow level).clearBelow level = vid.clearBelow level := by
  apply BitVec.eq_of_getLsbD_eq
  intro bit width
  rw [getLsbD_clearBelow _ _ _ width, getLsbD_clearBelow _ _ _ width, ← Bool.and_assoc,
    Bool.and_self]

theorem calculateRdvPoint_calculateRdvPoint (vid : VID) {k : Nat} (positive : 1 ≤ k)
    (bound : k ≤ 48) :
    (vid.calculateRdvPoint k).calculateRdvPoint k = vid.calculateRdvPoint k := by
  rw [calculateRdvPoint_eq _ positive bound, calculateRdvPoint_eq vid positive bound,
    clearBelow_clearBelow]

/-- A publish and a query come to one point exactly within one subtree. -/
theorem publish_meets_query_iff {k : Nat} (positive : 1 ≤ k) (bound : k ≤ 48) (u v : VID) :
    u.rdvPointBuffer (BitVec.ofNat 16 k) = some (u.calculateRdvPoint k) ∧
      (∀ bit < 48, (u.calculateRdvPoint k).getLsbD bit = (decide (k - 1 ≤ bit) && u.getLsbD bit)) ∧
      logicalDistance u (u.calculateRdvPoint k) < k ∧
      (u.calculateRdvPoint k).calculateRdvPoint k = u.calculateRdvPoint k ∧
      (u.calculateRdvPoint k = v.calculateRdvPoint k ↔ logicalDistance u v < k) ∧
      ∀ nexthop, ((BuildRouteTable.rdvPublish u nexthop k).dvid =
          (BuildRouteTable.rdvQuery v k).dvid ∧
        (BuildRouteTable.rdvPublish u nexthop k).dhost = (BuildRouteTable.rdvQuery v k).dhost ↔
          logicalDistance u v < k) := by
  have again := u.calculateRdvPoint_calculateRdvPoint positive bound
  have meets : u.calculateRdvPoint k = v.calculateRdvPoint k ↔ logicalDistance u v < k :=
    calculateRdvPoint_eq_iff positive bound
  refine ⟨u.rdvPointBuffer_eq positive bound, ?_, ?_, again, meets, fun nexthop => ?_⟩
  · intro bit width
    rw [calculateRdvPoint_eq u positive bound, getLsbD_clearBelow _ _ _ width]
  · exact (calculateRdvPoint_eq_iff positive bound).mp again.symm
  · exact (and_self_iff).trans meets

theorem publish_meets_query_nine : (0x010203040506 : VID).rdvPointBuffer (BitVec.ofNat 16 9) =
      some ((0x010203040506 : VID).calculateRdvPoint 9) ∧
    ((0x010203040506 : VID).calculateRdvPoint 9 = (0x010203040577 : VID).calculateRdvPoint 9 ↔
      logicalDistance 0x010203040506 0x010203040577 < 9) := by
  have point := publish_meets_query_iff (k := 9) (by decide) (by decide) 0x010203040506
    0x010203040577
  exact ⟨point.1, point.2.2.2.2.1⟩

def shifts : Nat → BitVec 8 → Nat → Nat
  | 0, _, count => count
  | fuel + 1, res, count => if res = 0 then count else shifts fuel (res >>> 1) (count + 1)

/-- The loop of `logical_distance`, without a bound on its counters. -/
def sharedBits (vid other : VID) : Nat → Nat → Nat
  | 0, lprefix => lprefix
  | remaining + 1, lprefix =>
      let i := 5 - remaining
      if vid.byte i = other.byte i then sharedBits vid other remaining ( lprefix + 8)
      else lprefix + (8 - shifts 8 (vid.byte i ^^^ other.byte i) 0)

theorem shifts_eq (fuel : Nat) (res count : BitVec 8) (room : count.toNat + fuel ≤ 255) :
    (shiftCount fuel res count).toNat = shifts fuel res count.toNat := by
  induction fuel generalizing res count with
  | zero => rfl
  | succ fuel ih =>
      have counted : (count + 1).toNat = count.toNat + 1 := by
        have one : (1 : BitVec 8).toNat = 1 := rfl
        rw [BitVec.toNat_add, one]
        omega
      rw [shiftCount, shifts]
      split
      · rfl
      · rw [ih (res >>> 1) (count + 1) (by omega), counted]

theorem shifts_le (fuel : Nat) (res : BitVec 8) (count : Nat) :
    shifts fuel res count ≤ count + fuel := by
  induction fuel generalizing res count with
  | zero => exact Nat.le_refl count
  | succ fuel ih =>
      rw [shifts]
      split
      · exact Nat.le_add_right _ _
      · have later := ih (res >>> 1) (count + 1)
        omega

theorem sharedBits_le (vid other : VID) (remaining lprefix : Nat) :
    sharedBits vid other remaining lprefix ≤ lprefix + 8 * remaining := by
  induction remaining generalizing lprefix with
  | zero => exact Nat.le_refl lprefix
  | succ remaining ih =>
      rw [sharedBits]
      split
      · have later := ih ( lprefix + 8)
        omega
      · omega

theorem commonPrefix_toNat (vid other : VID) (remaining : Nat) ( lprefix : BitVec 8)
    (room : lprefix.toNat + 8 * remaining ≤ 255) :
    (commonPrefix vid other remaining lprefix).toNat =
      sharedBits vid other remaining lprefix.toNat := by
  induction remaining generalizing lprefix with
  | zero => rfl
  | succ remaining ih =>
      have eight : (8 : BitVec 8).toNat = 8 := rfl
      rw [commonPrefix, sharedBits]
      split
      · have counted : ( lprefix + 8).toNat = lprefix.toNat + 8 := by
          rw [BitVec.toNat_add, eight]
          omega
        rw [ih ( lprefix + 8) (by omega), counted]
      · have count := shifts_eq 8 (vid.byte (5 - remaining) ^^^
          other.byte (5 - remaining)) 0 (by decide)
        have few := shifts_le 8 (vid.byte (5 - remaining) ^^^ other.byte (5 - remaining)) 0
        have zero : (0 : BitVec 8).toNat = 0 := rfl
        rw [zero] at count
        rw [← count] at few ⊢
        rw [BitVec.toNat_add, BitVec.toNat_sub, eight]
        omega

theorem logicalDistance_laws (a b c : VID) :
    logicalDistance a b = (a ^^^ b).toNat.size ∧ (logicalDistance a b = 0 ↔ a = b) ∧
      (sharedBits a b 6 0 ≤ 48 ∧ (commonPrefix a b 6 0).toNat = sharedBits a b 6 0 ∧
        ∀ i, shifts 8 (a.byte i ^^^ b.byte i) 0 ≤ 8 ∧
          (shiftCount 8 (a.byte i ^^^ b.byte i) 0).toNat = shifts 8 (a.byte i ^^^ b.byte i) 0) ∧
      logicalDistance a b = logicalDistance b a ∧
      logicalDistance a c ≤ max (logicalDistance a b) (logicalDistance b c) ∧
      (logicalDistance a b ≠ logicalDistance b c →
        logicalDistance a c = max (logicalDistance a b) (logicalDistance b c)) ∧
      (1 ≤ logicalDistance a b →
        logicalDistance a (b.flipBit (logicalDistance a b)) < logicalDistance a b) ∧
      (a.IsSwitchVID → b.IsSwitchVID → c.IsSwitchVID → xor a c < xor b c →
        logicalDistance a c ≤ logicalDistance b c) := by
  have tree := logicalDistance_isTreeDistance
  refine ⟨?_, tree.eq_zero_iff, ⟨sharedBits_le a b 6 0, ?_, ?_⟩, tree.comm a b,
    tree.le_max a b c, ?_,
    logicalDistance_flipBit, ?_⟩
  · rw [logicalDistance_eq, prefixDistance, BitVec.toNat_xor]
  · exact commonPrefix_toNat a b 6 0 (by decide)
  · intro i
    exact ⟨shifts_le 8 _ 0, shifts_eq 8 _ 0 (by decide)⟩
  · intro differ
    rcases Nat.lt_or_gt_of_ne differ with near | far
    · rw [tree.eq_of_lt near, Nat.max_eq_right (Nat.le_of_lt near)]
    · have turned : logicalDistance c b < logicalDistance b a := by
        rwa [tree.comm c b, tree.comm b a]
      rw [tree.comm a c, tree.eq_of_lt turned, tree.comm b a, Nat.max_eq_left (Nat.le_of_lt far)]
  · intro first second third closer
    rw [tree.comm a c, tree.comm b c]
    exact logicalDistance_le_of_xor_le third first second (BitVec.le_of_lt closer)

end VID

end Veil
