import Mathlib.Tactic.IntervalCases
import Veil.Library.TreeDistance

/-! Virtual identifiers, from `vid.hh`. A VID is six bytes, the first four of which name a switch
interface and the last two a host behind it. The byte loops of the source are kept as loops; the
lemmas after each say what it computes on the 48-bit number that the bytes spell. -/

namespace Veil

abbrev VID := BitVec 48
abbrev EtherAddress := BitVec 48
abbrev IPAddress := BitVec 32

def vidLen : Nat := 6
def hostLen : Nat := 2
def activeVidLen : Nat := 4

namespace VID

/-- `_data[i]`, the most significant byte first. -/
def byte (vid : VID) (i : Nat) : BitVec 8 := (vid >>> (8 * (5 - i))).setWidth 8

def setByte (vid : VID) (i : Nat) (value : BitVec 8) : VID :=
  (vid &&& ~~~((BitVec.allOnes 8).setWidth 48 <<< (8 * (5 - i)))) |||
    (value.setWidth 48 <<< (8 * (5 - i)))

theorem getLsbD_byte (vid : VID) (i bit : Nat) :
    (vid.byte i).getLsbD bit = (decide (bit < 8) && vid.getLsbD (8 * (5 - i) + bit)) := by
  simp [byte]

theorem getLsbD_setByte (vid : VID) (i bit : Nat) (value : BitVec 8) (bound : bit < 48) :
    (vid.setByte i value).getLsbD bit =
      if 8 * (5 - i) ≤ bit ∧ bit < 8 * (5 - i) + 8 then value.getLsbD (bit - 8 * (5 - i))
      else vid.getLsbD bit := by
  simp only [setByte, BitVec.getLsbD_or, BitVec.getLsbD_and, BitVec.getLsbD_not,
    BitVec.getLsbD_shiftLeft, BitVec.getLsbD_setWidth, BitVec.getLsbD_allOnes, bound, decide_true,
    Bool.true_and]
  by_cases low : bit < 8 * (5 - i)
  · have outside : ¬8 * (5 - i) ≤ bit := by omega
    simp [low, outside]
  · by_cases high : bit < 8 * (5 - i) + 8
    · have inside : bit - 8 * (5 - i) < 8 := by omega
      have width : bit - 8 * (5 - i) < 48 := by omega
      have lower : 8 * (5 - i) ≤ bit := by omega
      simp [low, high, inside, width, lower]
    · have outside : ¬bit - 8 * (5 - i) < 8 := by omega
      have beyond : value.getLsbD (bit - 8 * (5 - i)) = false :=
        BitVec.getLsbD_of_ge value _ (by omega)
      simp [low, high, outside, beyond]

def shiftCount : Nat → BitVec 8 → BitVec 8 → BitVec 8
  | 0, _, count => count
  | fuel + 1, res, count => if res = 0 then count else shiftCount fuel (res >>> 1) (count + 1)

def commonPrefix (vid other : VID) : Nat → BitVec 8 → BitVec 8
  | 0, lprefix => lprefix
  | remaining + 1, lprefix =>
      let i := 5 - remaining
      if vid.byte i = other.byte i then commonPrefix vid other remaining ( lprefix + 8)
      else lprefix + (8 - shiftCount 8 (vid.byte i ^^^ other.byte i) 0)

/-- The counters are `uint8_t`; the result is read as a number. -/
def logicalDistance (vid other : VID) : Nat := (48 - commonPrefix vid other 6 0).toNat

theorem shiftCount_toNat (fuel : Nat) (res count : BitVec 8) (enough : res.toNat < 2 ^ fuel)
    (room : count.toNat + fuel ≤ 255) :
    (shiftCount fuel res count).toNat = count.toNat + res.toNat.size := by
  induction fuel generalizing res count with
  | zero =>
      have zero : res.toNat = 0 := by omega
      simp [shiftCount, zero]
  | succ fuel ih =>
      simp only [shiftCount]
      split
      · rename_i cleared
        simp [cleared]
      · rename_i remains
        have positive : 0 < res.toNat := by
          rw [Nat.pos_iff_ne_zero]
          exact fun zero => remains (BitVec.eq_of_toNat_eq zero)
        have one : (1 : BitVec 8).toNat = 1 := rfl
        have halved : (res >>> 1).toNat = res.toNat >>> 1 := by simp
        have half : res.toNat >>> 1 = res.toNat / 2 := Nat.shiftRight_one _
        have counted : (count + 1).toNat = count.toNat + 1 := by
          rw [BitVec.toNat_add, one]
          omega
        rw [ih (res >>> 1) (count + 1) (by rw [halved]; omega) (by omega), halved, counted]
        rcases Nat.eq_zero_or_pos (res.toNat >>> 1) with last | more
        · have isOne : res.toNat = 1 := by omega
          simp [isOne]
        · rw [Nat.size_eq_add_size_shiftRight more]
          omega

theorem logicalDistance_eq (vid other : VID) :
    logicalDistance vid other = prefixDistance vid.toNat other.toNat := by
  have loop (remaining : Nat) (bound : remaining ≤ 6)
      (agree : prefixDistance vid.toNat other.toNat ≤ 8 * remaining) :
      (48 - commonPrefix vid other remaining (BitVec.ofNat 8 (8 * (6 - remaining)))).toNat =
        prefixDistance vid.toNat other.toNat := by
    induction remaining with
    | zero =>
        have none : prefixDistance vid.toNat other.toNat = 0 := by omega
        simp [commonPrefix, none]
    | succ remaining ih =>
        have few : remaining ≤ 5 := by omega
        have offset : 8 * (5 - (5 - remaining)) = 8 * remaining := by omega
        have difference : (vid.byte (5 - remaining) ^^^ other.byte (5 - remaining)).toNat =
            (vid.toNat ^^^ other.toNat) >>> (8 * remaining) := by
          have small : (vid.toNat ^^^ other.toNat) >>> (8 * remaining) < 2 ^ 8 := by
            rw [prefixDistance, Nat.size_le, show 8 * (remaining + 1) = 8 * remaining + 8 by omega,
              Nat.pow_add, Nat.mul_comm] at agree
            rw [Nat.shiftRight_eq_div_pow]
            exact Nat.div_lt_of_lt_mul (by rwa [Nat.mul_comm] at agree)
          rw [byte, byte, offset, ← BitVec.setWidth_xor, BitVec.toNat_setWidth,
            ← BitVec.ushiftRight_xor_distrib, BitVec.toNat_ushiftRight, BitVec.toNat_xor,
            Nat.mod_eq_of_lt small]
        simp only [commonPrefix]
        split
        · rename_i same
          have cleared : (vid.toNat ^^^ other.toNat) >>> (8 * remaining) = 0 := by
            rw [← difference, same, BitVec.xor_self]
            rfl
          have closer : prefixDistance vid.toNat other.toNat ≤ 8 * remaining := by
            rwa [prefixDistance.le_iff, ← Nat.xor_eq_zero_iff, ← Nat.shiftRight_xor_distrib]
          have advance : BitVec.ofNat 8 (8 * (6 - (remaining + 1))) + 8 =
              BitVec.ofNat 8 (8 * (6 - remaining)) := by
            interval_cases remaining <;> rfl
          rw [advance]
          exact ih (by omega) closer
        · rename_i differ
          have positive : 0 < (vid.toNat ^^^ other.toNat) >>> (8 * remaining) := by
            rw [Nat.pos_iff_ne_zero, ← difference]
            intro zero
            exact differ (BitVec.xor_eq_zero_iff.mp (BitVec.eq_of_toNat_eq zero))
          have counted := shiftCount_toNat 8
            (vid.byte (5 - remaining) ^^^ other.byte (5 - remaining)) 0
            (BitVec.isLt _) (by decide)
          rw [difference] at counted
          have total := Nat.size_eq_add_size_shiftRight positive
          have within : ((vid.toNat ^^^ other.toNat) >>> (8 * remaining)).size ≤ 8 := by
            rw [Nat.size_le, ← difference]
            exact BitVec.isLt _
          rw [prefixDistance, total]
          generalize shiftCount 8 (vid.byte (5 - remaining) ^^^
              other.byte (5 - remaining)) 0 = count
            at counted ⊢
          have zero : (0 : BitVec 8).toNat = 0 := rfl
          rw [zero, Nat.zero_add] at counted
          rw [← counted] at within ⊢
          interval_cases remaining <;> bv_omega
  simpa [logicalDistance] using loop 6 (by omega) (by
    rw [prefixDistance, Nat.size_le]
    exact Nat.xor_lt_two_pow vid.isLt other.isLt)

theorem logicalDistance_le (vid other : VID) : logicalDistance vid other ≤ 48 := by
  rw [logicalDistance_eq, prefixDistance, Nat.size_le]
  exact Nat.xor_lt_two_pow vid.isLt other.isLt

theorem logicalDistance_isTreeDistance : IsTreeDistance logicalDistance := by
  have named := prefixDistance.isTreeDistance.comap (fun vid : VID => vid.toNat)
    fun _ _ same => BitVec.eq_of_toNat_eq same
  have same : logicalDistance = fun vid other : VID => prefixDistance vid.toNat other.toNat :=
    funext fun vid => funext fun other => logicalDistance_eq vid other
  rw [same]
  exact named

def flipBitFrom (vid : VID) : Nat → Nat → VID
  | 0, _ => vid
  | remaining + 1, k =>
      if 8 < k then flipBitFrom vid remaining (k - 8)
      else vid.setByte remaining (vid.byte remaining ^^^ ((1 : BitVec 8) <<< (k - 1)))

def flipBit (vid : VID) (k : Nat) : VID := flipBitFrom vid 6 k

theorem setByte_xor (vid : VID) (i : Nat) (change : BitVec 8) :
    vid.setByte i (vid.byte i ^^^ change) = vid ^^^ (change.setWidth 48 <<< (8 * (5 - i))) := by
  apply BitVec.eq_of_getLsbD_eq
  intro bit bound
  rw [getLsbD_setByte _ _ _ _ bound]
  simp only [BitVec.getLsbD_xor, getLsbD_byte, BitVec.getLsbD_shiftLeft, BitVec.getLsbD_setWidth,
    bound, decide_true, Bool.true_and]
  by_cases inside : 8 * (5 - i) ≤ bit ∧ bit < 8 * (5 - i) + 8
  · have position : 8 * (5 - i) + (bit - 8 * (5 - i)) = bit := by omega
    have small : bit - 8 * (5 - i) < 8 := by omega
    have width : bit - 8 * (5 - i) < 48 := by omega
    have above : ¬bit < 8 * (5 - i) := by omega
    simp [inside, position, small, width, above]
  · rw [if_neg inside]
    by_cases low : bit < 8 * (5 - i)
    · simp [low]
    · have beyond : change.getLsbD (bit - 8 * (5 - i)) = false :=
        BitVec.getLsbD_of_ge change _ (by omega)
      simp [beyond]

theorem flipBit_toNat (vid : VID) {k : Nat} (positive : 1 ≤ k) (bound : k ≤ 48) :
    (flipBit vid k).toNat = vid.toNat ^^^ 2 ^ (k - 1) := by
  have loop (remaining k : Nat) (few : remaining ≤ 6) (positive : 1 ≤ k)
      (bound : k ≤ 8 * remaining) :
      flipBitFrom vid remaining k =
        vid ^^^ ((1 : BitVec 48) <<< (8 * (6 - remaining) + (k - 1))) := by
    induction remaining generalizing k with
    | zero => omega
    | succ remaining ih =>
        rw [flipBitFrom]
        split
        · rw [ih (k - 8) (by omega) (by omega) (by omega)]
          congr 2
          omega
        · rw [setByte_xor]
          congr 1
          have index : k - 1 < 8 := by omega
          have widened : ((1 : BitVec 8) <<< (k - 1)).setWidth 48 =
              (1 : BitVec 48) <<< (k - 1) := by
            generalize k - 1 = shift at index
            interval_cases shift <;> rfl
          rw [widened, ← BitVec.shiftLeft_add]
          congr 1
          omega
  have exponent : k - 1 < 48 := by omega
  have power : ((1 : BitVec 48) <<< (k - 1)).toNat = 2 ^ (k - 1) := by
    have below : 2 ^ (k - 1) < 2 ^ 48 := Nat.pow_lt_pow_right (by omega) exponent
    rw [BitVec.toNat_shiftLeft, Nat.shiftLeft_eq]
    exact (Nat.mod_eq_of_lt (by simpa using below)).trans (Nat.one_mul _)
  rw [flipBit, loop 6 k (by omega) positive bound, BitVec.toNat_xor]
  simp only [Nat.sub_self, Nat.mul_zero, Nat.zero_add]
  rw [power]

theorem logicalDistance_flipBit {vid other : VID} (apart : 1 ≤ logicalDistance vid other) :
    logicalDistance vid (other.flipBit (logicalDistance vid other)) <
      logicalDistance vid other := by
  rw [logicalDistance_eq vid (other.flipBit _), flipBit_toNat other apart (logicalDistance_le _ _)]
  exact prefixDistance.flip_lt (logicalDistance_eq vid other).symm apart

/-- Copies `copyBits` leading bits, whole bytes first; `count` is `6 - remaining`. -/
def copyPrefix (source : VID) : Nat → Nat → VID → VID
  | 0, _, vid => vid
  | remaining + 1, copyBits, vid =>
      let count := 5 - remaining
      if 8 < copyBits then
        copyPrefix source remaining (copyBits - 8) (vid.setByte count (source.byte count))
      else if 0 < copyBits then
        vid.setByte count ((source.byte count >>> (8 - copyBits)) <<< (8 - copyBits))
      else vid

def calculateRdvPoint (vid : VID) (k : Nat) : VID := copyPrefix vid 6 (vidLen * 8 - k + 1) 0

def getSwitchVID (vid : VID) : VID := (vid.setByte 5 0).setByte 4 0

/-- Big-endian value of the first four bytes of the difference. -/
def xor (a b : VID) : BitVec 32 :=
  [0, 1, 2, 3].foldl
    (fun dist i => dist + (a.byte i ^^^ b.byte i).setWidth 32 <<< (24 - i * 8)) 0

def clearBelow (vid : VID) (shift : Nat) : VID := (vid >>> shift) <<< shift

theorem getLsbD_clearBelow (vid : VID) (shift bit : Nat) (bound : bit < 48) :
    (vid.clearBelow shift).getLsbD bit = (decide (shift ≤ bit) && vid.getLsbD bit) := by
  simp only [clearBelow, BitVec.getLsbD_shiftLeft, BitVec.getLsbD_ushiftRight, bound, decide_true,
    Bool.true_and]
  by_cases low : bit < shift
  · have outside : ¬shift ≤ bit := by omega
    simp [low, outside]
  · have position : shift + (bit - shift) = bit := by omega
    have inside : shift ≤ bit := by omega
    simp [low, inside, position]

theorem copyPrefix_eq (source : VID) (remaining copyBits : Nat) (few : remaining ≤ 6)
    (positive : 1 ≤ copyBits) (bound : copyBits ≤ 8 * remaining) :
    copyPrefix source remaining copyBits (source.clearBelow (8 * remaining)) =
      source.clearBelow (8 * remaining - copyBits) := by
  induction remaining generalizing copyBits with
  | zero => omega
  | succ remaining ih =>
      have offset : 8 * (5 - (5 - remaining)) = 8 * remaining := by omega
      simp only [copyPrefix]
      split
      · have whole : (source.clearBelow (8 * (remaining + 1))).setByte (5 - remaining)
            (source.byte (5 - remaining)) = source.clearBelow (8 * remaining) := by
          apply BitVec.eq_of_getLsbD_eq
          intro bit width
          rw [getLsbD_setByte _ _ _ _ width, getLsbD_clearBelow _ _ _ width,
            getLsbD_clearBelow _ _ _ width, getLsbD_byte, offset]
          by_cases low : 8 * remaining ≤ bit
          · by_cases high : bit < 8 * remaining + 8
            · have position : 8 * remaining + (bit - 8 * remaining) = bit := by omega
              have small : bit - 8 * remaining < 8 := by omega
              simp [low, high, position, small]
            · have above : 8 * (remaining + 1) ≤ bit := by omega
              simp [low, high, above]
          · have above : ¬8 * (remaining + 1) ≤ bit := by omega
            simp [low, above]
        rw [whole, ih (copyBits - 8) (by omega) (by omega) (by omega)]
        congr 1
        omega
      · rw [if_pos (by omega)]
        apply BitVec.eq_of_getLsbD_eq
        intro bit width
        rw [getLsbD_setByte _ _ _ _ width, getLsbD_clearBelow _ _ _ width,
          getLsbD_clearBelow _ _ _ width, offset]
        simp only [BitVec.getLsbD_shiftLeft, BitVec.getLsbD_ushiftRight, getLsbD_byte, offset]
        by_cases low : 8 * remaining ≤ bit
        · by_cases high : bit < 8 * remaining + 8
          · by_cases kept : 8 * (remaining + 1) - copyBits ≤ bit
            · have inner : ¬bit - 8 * remaining < 8 - copyBits := by omega
              have small : bit - 8 * remaining < 8 := by omega
              have index : 8 - copyBits + (bit - 8 * remaining - (8 - copyBits)) < 8 := by omega
              have position : 8 * remaining +
                  (8 - copyBits + (bit - 8 * remaining - (8 - copyBits))) = bit := by omega
              simp [low, high, kept, inner, small, index, position]
            · have inner : bit - 8 * remaining < 8 - copyBits := by omega
              simp [low, high, kept, inner]
          · have above : 8 * (remaining + 1) ≤ bit := by omega
            have kept : 8 * (remaining + 1) - copyBits ≤ bit := by omega
            simp [low, high, above, kept]
        · have above : ¬8 * (remaining + 1) ≤ bit := by omega
          have dropped : ¬8 * (remaining + 1) - copyBits ≤ bit := by omega
          simp [low, above, dropped]

theorem calculateRdvPoint_eq (vid : VID) {k : Nat} (positive : 1 ≤ k) (bound : k ≤ 48) :
    vid.calculateRdvPoint k = vid.clearBelow (k - 1) := by
  have empty : (0 : VID) = vid.clearBelow (8 * 6) := by
    apply BitVec.eq_of_getLsbD_eq
    intro bit width
    have outside : ¬8 * 6 ≤ bit := by omega
    rw [getLsbD_clearBelow _ _ _ width]
    simp [outside]
  rw [calculateRdvPoint, empty,
    copyPrefix_eq vid 6 _ (by omega) (by omega) (by simp [vidLen]; omega)]
  congr 1
  simp only [vidLen]
  omega

theorem getSwitchVID_eq (vid : VID) : vid.getSwitchVID = vid.clearBelow 16 := by
  apply BitVec.eq_of_getLsbD_eq
  intro bit width
  rw [getSwitchVID, getLsbD_setByte _ _ _ _ width, getLsbD_setByte _ _ _ _ width,
    getLsbD_clearBelow _ _ _ width]
  by_cases low : 16 ≤ bit
  · have fifth : ¬(8 ≤ bit ∧ bit < 16) := by omega
    have sixth : ¬bit < 8 := by omega
    simp [low, fifth, sixth]
  · by_cases fifth : 8 ≤ bit
    · have upper : bit < 16 := by omega
      simp [low, fifth, upper]
    · have sixth : bit < 8 := by omega
      simp [low, fifth, sixth]

theorem xor_toNat (a b : VID) : (xor a b).toNat = (a.toNat ^^^ b.toNat) >>> 16 := by
  have bytes (i : Nat) : (a.byte i ^^^ b.byte i).toNat =
      (a.toNat ^^^ b.toNat) >>> (8 * (5 - i)) % 256 := by
    rw [byte, byte, ← BitVec.setWidth_xor, ← BitVec.ushiftRight_xor_distrib, BitVec.toNat_setWidth,
      BitVec.toNat_ushiftRight, BitVec.toNat_xor]
  have below : a.toNat ^^^ b.toNat < 2 ^ 48 := Nat.xor_lt_two_pow a.isLt b.isLt
  simp only [xor, List.foldl_cons, List.foldl_nil, BitVec.toNat_add, BitVec.toNat_shiftLeft,
    BitVec.toNat_setWidth, bytes, Nat.shiftLeft_eq, Nat.shiftRight_eq_div_pow]
  generalize a.toNat ^^^ b.toNat = difference at below
  simp
  omega

def IsSwitchVID (vid : VID) : Prop := vid.getSwitchVID = vid

instance (vid : VID) : Decidable vid.IsSwitchVID := inferInstanceAs (Decidable (_ = _))

theorem isSwitchVID_iff {vid : VID} : vid.IsSwitchVID ↔ vid.toNat % 2 ^ 16 = 0 := by
  rw [IsSwitchVID, getSwitchVID_eq, ← BitVec.toNat_inj, clearBelow, BitVec.toNat_shiftLeft,
    BitVec.toNat_ushiftRight, Nat.shiftRight_eq_div_pow, Nat.shiftLeft_eq]
  have bound := vid.isLt
  omega

theorem logicalDistance_getSwitchVID (vid : VID) : logicalDistance vid vid.getSwitchVID ≤ 16 := by
  rw [logicalDistance_eq, prefixDistance.le_iff, getSwitchVID_eq, clearBelow,
    BitVec.toNat_shiftLeft,
    BitVec.toNat_ushiftRight, Nat.shiftRight_eq_div_pow, Nat.shiftLeft_eq,
      Nat.shiftRight_eq_div_pow]
  have bound := vid.isLt
  omega

theorem logicalDistance_gt_of_ne {vid other : VID} (switch : vid.IsSwitchVID)
    (otherSwitch : other.IsSwitchVID) (different : vid ≠ other) :
    16 < logicalDistance vid other := by
  apply Nat.lt_of_not_le
  intro close
  rw [logicalDistance_eq, prefixDistance.le_iff] at close
  rw [isSwitchVID_iff] at switch otherSwitch
  apply different
  apply BitVec.eq_of_toNat_eq
  simp only [Nat.shiftRight_eq_div_pow] at close
  omega

theorem logicalDistance_le_of_xor_le {vid first second : VID} (switch : vid.IsSwitchVID)
    (firstSwitch : first.IsSwitchVID) (secondSwitch : second.IsSwitchVID)
    (closer : xor first vid ≤ xor second vid) :
    logicalDistance vid first ≤ logicalDistance vid second := by
  rw [BitVec.le_def, xor_toNat, xor_toNat, Nat.shiftRight_eq_div_pow, Nat.shiftRight_eq_div_pow]
    at closer
  rw [isSwitchVID_iff] at switch firstSwitch secondSwitch
  rw [logicalDistance_eq, logicalDistance_eq]
  apply prefixDistance.mono
  have aligned (other : VID) (otherSwitch : other.toNat % 2 ^ 16 = 0) :
      (other.toNat ^^^ vid.toNat) % 2 ^ 16 = 0 := by
    rw [Nat.xor_mod_two_pow, otherSwitch, switch, Nat.xor_self]
  have firstAligned := aligned first firstSwitch
  have secondAligned := aligned second secondSwitch
  rw [Nat.xor_comm vid.toNat, Nat.xor_comm vid.toNat]
  omega

theorem flipBit_isSwitchVID {vid : VID} (switch : vid.IsSwitchVID) {k : Nat} (above : 16 < k)
    (bound : k ≤ 48) : (vid.flipBit k).IsSwitchVID := by
  rw [isSwitchVID_iff] at switch ⊢
  have aligned : 2 ^ (k - 1) % 2 ^ 16 = 0 :=
    Nat.mod_eq_zero_of_dvd (Nat.pow_dvd_pow 2 (by omega))
  rw [flipBit_toNat vid (by omega) bound, Nat.xor_mod_two_pow, switch, aligned, Nat.xor_self]

theorem calculateRdvPoint_isSwitchVID (vid : VID) {k : Nat} (above : 17 ≤ k) (bound : k ≤ 48) :
    (vid.calculateRdvPoint k).IsSwitchVID := by
  have aligned : 2 ^ 16 ∣ 2 ^ (k - 1) := Nat.pow_dvd_pow 2 (by omega)
  rw [isSwitchVID_iff, calculateRdvPoint_eq vid (by omega) bound, clearBelow,
    BitVec.toNat_shiftLeft,
    Nat.mod_mod_of_dvd _ (by decide : 2 ^ 16 ∣ 2 ^ 48), Nat.shiftLeft_eq]
  exact Nat.mod_eq_zero_of_dvd (Nat.dvd_mul_left_of_dvd aligned _)

theorem calculateRdvPoint_congr {vid other : VID} {k : Nat} (near : logicalDistance vid other < k)
    (bound : k ≤ 48) : vid.calculateRdvPoint k = other.calculateRdvPoint k := by
  have shared : vid.toNat >>> (k - 1) = other.toNat >>> (k - 1) := by
    rw [← prefixDistance.le_iff, ← logicalDistance_eq]
    omega
  rw [calculateRdvPoint_eq vid (by omega) bound, calculateRdvPoint_eq other (by omega) bound,
    clearBelow, clearBelow]
  congr 1
  apply BitVec.eq_of_toNat_eq
  rwa [BitVec.toNat_ushiftRight, BitVec.toNat_ushiftRight]

end VID

end Veil
