import Mathlib.Data.Nat.Bits
import Veil.Library.BitString
import Veil.Library.Connectivity
import Veil.Library.TreeDistance

/-! The strings of the Python switches, from `veil.py`. A string of `'0'` and `'1'` is a list of
bits. -/

namespace Veil

namespace SimPy

def delta : List Bool → List Bool → Nat
  | bit1 :: vid1, bit2 :: vid2 => if bit1 = bit2 then delta vid1 vid2 else vid1.length + 1
  | vid1, _ => vid1.length

/-- `bits[:stop]`. A negative index counts from the end. -/
def slice (bits : List Bool) (stop : Int) : List Bool :=
  bits.take (if stop < 0 then stop + bits.length else stop).toNat

/-- `bits[i]`, with an exception when there is no such bit. -/
def index (bits : List Bool) (i : Int) : Option Bool :=
  if i < -bits.length then none else bits[(if i < 0 then i + bits.length else i).toNat]?

def hashval (_key : List Bool) (length : Nat) : List Bool := List.replicate length false

def getRendezvousID (dist : Nat) (myvid : List Bool) : List Bool :=
  let rdvid := slice myvid (myvid.length - dist + 1)
  rdvid ++ hashval rdvid (dist - 1)

/-- A star stands as `none`. -/
def getPrefix (vid : List Bool) (dist : Nat) : Option (List (Option Bool)) := do
  let bit ← index vid (vid.length - dist)
  return (slice vid (vid.length - dist)).map some ++ some (!bit) :: List.replicate (dist - 1) none

def flipBit (dst : List Bool) (dist : Nat) : List Bool := dst.modify (dst.length - dist) not

def bin2str (id L : Nat) : List Bool :=
  BitString.pad L (if id = 0 then [false] else id.bits.reverse)

theorem delta_le_length (vid1 vid2 : List Bool) : delta vid1 vid2 ≤ vid1.length := by
  induction vid1 generalizing vid2 with
  | nil => cases vid2 <;> exact Nat.le_refl 0
  | cons bit1 vid1 ih =>
      cases vid2 with
      | nil => exact Nat.le_refl _
      | cons bit2 vid2 =>
          have tail := ih vid2
          simp only [delta, List.length_cons]
          split <;> omega

theorem delta_append (front vid1 vid2 : List Bool) :
    delta (front ++ vid1) (front ++ vid2) = delta vid1 vid2 := by
  induction front with
  | nil => rfl
  | cons bit front ih => rw [List.cons_append, List.cons_append, delta, if_pos rfl, ih]

theorem delta_le_iff {vid1 vid2 : List Bool} (same : vid1.length = vid2.length) (level : Nat) :
    delta vid1 vid2 ≤ level ↔ vid1.take (vid1.length - level) =
      vid2.take (vid1.length - level) := by
  induction vid1 generalizing vid2 with
  | nil =>
      obtain rfl := List.length_eq_zero_iff.mp same.symm
      exact iff_of_true (Nat.zero_le level) rfl
  | cons bit1 vid1 ih =>
      obtain ⟨bit2, vid2, rfl⟩ := List.exists_cons_of_length_eq_add_one same.symm
      have tail := ih (Nat.succ.inj same)
      have bound := delta_le_length vid1 vid2
      by_cases high : vid1.length + 1 ≤ level
      · have none : (bit1 :: vid1).length - level = 0 := Nat.sub_eq_zero_of_le high
        rw [none]
        exact iff_of_true (Nat.le_trans (delta_le_length _ _) high) rfl
      · have some : (bit1 :: vid1).length - level = vid1.length - level + 1 :=
          Nat.succ_sub (by omega)
        rw [some, List.take_succ_cons, List.take_succ_cons, List.cons.injEq, ← tail, delta]
        by_cases bit : bit1 = bit2
        · rw [if_pos bit]
          exact (and_iff_right bit).symm
        · rw [if_neg bit]
          exact iff_of_false high fun both => bit both.1

theorem delta_eq_zero_iff {vid1 vid2 : List Bool} (same : vid1.length = vid2.length) :
    delta vid1 vid2 = 0 ↔ vid1 = vid2 := by
  rw [← Nat.le_zero, delta_le_iff same, Nat.sub_zero, List.take_length, same, List.take_length]

theorem delta_comm {vid1 vid2 : List Bool} (same : vid1.length = vid2.length) :
    delta vid1 vid2 = delta vid2 vid1 := by
  have below (level : Nat) : delta vid1 vid2 ≤ level ↔ delta vid2 vid1 ≤ level := by
    rw [delta_le_iff same, delta_le_iff same.symm, same, eq_comm]
  exact Nat.le_antisymm ((below _).mpr (Nat.le_refl _)) ((below _).mp (Nat.le_refl _))

theorem delta_le_max {vid1 vid2 vid3 : List Bool} (first : vid1.length = vid2.length)
    (last : vid2.length = vid3.length) :
    delta vid1 vid3 ≤ max (delta vid1 vid2) (delta vid2 vid3) := by
  have left := (delta_le_iff first _).mp (Nat.le_max_left (delta vid1 vid2) (delta vid2 vid3))
  have right := (delta_le_iff last _).mp (Nat.le_max_right (delta vid1 vid2) (delta vid2 vid3))
  rw [← first] at right
  exact (delta_le_iff (first.trans last) _).mpr (left.trans right)

theorem delta_lt_of_eq {vid1 vid2 vid3 : List Bool} (first : vid1.length = vid2.length)
    (last : vid2.length = vid3.length) (same : delta vid1 vid2 = delta vid2 vid3)
    (positive : 0 < delta vid1 vid2) : delta vid1 vid3 < delta vid1 vid2 := by
  induction vid1 generalizing vid2 vid3 with
  | nil =>
      obtain rfl := List.length_eq_zero_iff.mp first.symm
      exact (Nat.lt_irrefl 0 positive).elim
  | cons bit1 vid1 ih =>
      obtain ⟨bit2, vid2, rfl⟩ := List.exists_cons_of_length_eq_add_one first.symm
      obtain ⟨bit3, vid3, rfl⟩ := List.exists_cons_of_length_eq_add_one (first.trans last).symm
      have length : vid1.length = vid2.length := Nat.succ.inj first
      have otherLength : vid2.length = vid3.length := Nat.succ.inj last
      have bound := delta_le_length vid1 vid2
      have otherBound := delta_le_length vid2 vid3
      have farBound := delta_le_length vid1 vid3
      simp only [delta] at same positive ⊢
      by_cases near : bit1 = bit2
      · by_cases nearLast : bit2 = bit3
        · rw [if_pos near, if_pos nearLast] at same
          rw [if_pos near] at positive
          rw [if_pos near, if_pos (near.trans nearLast)]
          exact ih length otherLength same positive
        · rw [if_pos near, if_neg nearLast] at same
          omega
      · by_cases nearLast : bit2 = bit3
        · rw [if_neg near, if_pos nearLast] at same
          omega
        · have back : bit1 = bit3 := by
            cases bit1 <;> cases bit2 <;> cases bit3 <;> simp_all
          rw [if_neg near, if_pos back]
          omega

theorem isTreeDistance_delta {α : Type} {vid : α → List Bool} {L : Nat}
    (length : ∀ x, (vid x).length = L) (distinct : Function.Injective vid) :
    IsTreeDistance fun x y => delta (vid x) (vid y) where
  eq_zero_iff := by
    intro x y
    rw [delta_eq_zero_iff ((length x).trans (length y).symm), distinct.eq_iff]
  comm := fun x y => delta_comm ((length x).trans (length y).symm)
  le_max := fun x y z => delta_le_max ((length x).trans (length y).symm)
    ((length y).trans (length z).symm)
  lt_of_eq := by
    intro x y z level first last positive
    subst level
    exact delta_lt_of_eq ((length x).trans (length y).symm)
      ((length y).trans (length z).symm) last.symm
      positive

theorem getRendezvousID_eq_clear {myvid : List Bool} {dist : Nat} (positive : 1 ≤ dist)
    (bound : dist ≤ myvid.length) :
    getRendezvousID dist myvid = BitString.clear (myvid.length + 1 - dist) myvid := by
  have zeros : myvid.length - (myvid.length + 1 - dist) = dist - 1 := by omega
  have stop : ((myvid.length : Int) - dist + 1).toNat = myvid.length + 1 - dist := by omega
  rw [getRendezvousID, slice, if_neg (by omega), stop, BitString.clear, zeros, hashval]

theorem delta_getRendezvousID {myvid : List Bool} {dist : Nat} (positive : 1 ≤ dist)
    (bound : dist ≤ myvid.length) : delta myvid (getRendezvousID dist myvid) < dist := by
  rw [getRendezvousID_eq_clear positive bound]
  refine Nat.lt_of_le_pred positive ((delta_le_iff (BitString.length_clear _ _).symm _).mpr ?_)
  have kept : myvid.length - dist.pred = myvid.length + 1 - dist := by
    rw [Nat.pred_eq_sub_one]
    omega
  rw [kept, BitString.clear, List.take_left' (by rw [List.length_take]; omega)]

theorem getRendezvousID_congr {vid1 vid2 : List Bool} (same : vid1.length = vid2.length)
    {dist : Nat} (positive : 1 ≤ dist) (bound : dist ≤ vid1.length)
    (near : delta vid1 vid2 < dist) :
    getRendezvousID dist vid1 = getRendezvousID dist vid2 := by
  have kept : vid1.length - dist.pred = vid1.length + 1 - dist := by
    rw [Nat.pred_eq_sub_one]
    omega
  have front := (delta_le_iff same dist.pred).mp (Nat.le_pred_of_lt near)
  rw [kept] at front
  rw [getRendezvousID_eq_clear positive bound, getRendezvousID_eq_clear positive (same ▸ bound),
    BitString.clear, BitString.clear, ← same, front]

theorem value_bits (number : Nat) : BitString.value number.bits.reverse = number := by
  induction number using Nat.binaryRec' with
  | zero => rfl
  | bit bit number top ih =>
      rw [Nat.bits_append_bit number bit top, List.reverse_cons, BitString.value_concat,
        ih, Nat.bit_val]

theorem value_bin2str (id L : Nat) : BitString.value (bin2str id L) = id := by
  rw [bin2str, BitString.value_pad]
  split
  · rename_i zero
    rw [zero]
    rfl
  · exact value_bits id

theorem bin2str_value {vid : List Bool} (some : vid ≠ []) :
    bin2str (BitString.value vid) vid.length = vid := by
  have positive := List.length_pos_iff.mpr some
  have length : (bin2str (BitString.value vid) vid.length).length = vid.length := by
    rw [bin2str, BitString.length_pad]
    split
    · exact Nat.max_eq_left positive
    · rw [List.length_reverse, Nat.size_eq_bits_len]
      exact Nat.max_eq_left (Nat.size_le.mpr (BitString.value_lt vid))
  exact (BitString.value_inj length).mp (value_bin2str _ _)

/-- VIDs of one length, different for different nodes, under which every subtree is connected and
every rendezvous VID belongs to a node. -/
structure Addressing {α : Type} (adjacent : α → α → Prop) (node : α → Prop) (vid : α → List Bool)
    (L : Nat) : Prop where
  length : ∀ v, node v → (vid v).length = L
  distinct : ∀ v w, node v → node w → vid v = vid w → v = w
  connected : ∀ v, node v → ∀ d, 1 ≤ d → d ≤ L →
    ConnectedWithin adjacent fun w => node w ∧ delta (vid v) (vid w) ≤ d
  rendezvous : ∀ v, node v → ∀ d, 1 ≤ d → d ≤ L → ∃ w, node w ∧ vid w = getRendezvousID d (vid v)

end SimPy

end Veil
