import Mathlib.Data.List.Induction
import Mathlib.Data.Nat.Bitwise
import Mathlib.Tactic.Ring

/-! Strings of bits, the most significant one first, and the numbers that they spell. -/

namespace BitString

def value (bits : List Bool) : Nat := bits.foldl (fun value bit => 2 * value + bit.toNat) 0

def pad (length : Nat) (bits : List Bool) : List Bool :=
  List.replicate (length - bits.length) false ++ bits

def clear (count : Nat) (bits : List Bool) : List Bool :=
  bits.take count ++ List.replicate (bits.length - count) false

@[simp] theorem value_concat (bits : List Bool) (bit : Bool) :
    value (bits ++ [bit]) = 2 * value bits + bit.toNat := by
  simp [value]

theorem value_append (front back : List Bool) :
    value (front ++ back) = value front * 2 ^ back.length + value back := by
  induction back using List.reverseRecOn with
  | nil => simp [value]
  | append_singleton back bit ih =>
      rw [← List.append_assoc, value_concat, value_concat, ih, List.length_append,
        List.length_singleton,
        Nat.pow_succ]
      ring

theorem value_replicate_false (count : Nat) : value (List.replicate count false) = 0 := by
  induction count with
  | zero => rfl
  | succ count ih => rw [List.replicate_succ', value_concat, ih]; rfl

theorem value_false_cons (bits : List Bool) : value (false :: bits) = value bits := by
  have front := value_append [false] bits
  have zero : value [false] = 0 := rfl
  rwa [zero, Nat.zero_mul, Nat.zero_add] at front

theorem value_lt (bits : List Bool) : value bits < 2 ^ bits.length := by
  induction bits using List.reverseRecOn with
  | nil => exact Nat.one_pos
  | append_singleton bits bit ih =>
      have small := bit.toNat_lt
      rw [value_concat, List.length_append, List.length_singleton, Nat.pow_succ]
      omega

theorem value_inj {left right : List Bool} (same : left.length = right.length) :
    value left = value right ↔ left = right := by
  refine ⟨?_, fun equal => congrArg value equal⟩
  induction left using List.reverseRecOn generalizing right with
  | nil =>
      intro _
      exact (List.length_eq_zero_iff.mp same.symm).symm
  | append_singleton front bit ih =>
      obtain rfl | ⟨other, last, rfl⟩ := right.eq_nil_or_concat
      · simp at same
      · rw [List.concat_eq_append] at same ⊢
        intro equal
        rw [value_concat, value_concat] at equal
        have bitSmall := bit.toNat_lt
        have lastSmall := last.toNat_lt
        have number : bit.toNat = last.toNat := by omega
        have bits : bit = last := by cases bit <;> cases last <;> simp at number ⊢
        subst last
        rw [ih (by simpa using same) (by omega)]

theorem value_pos {bits : List Bool} (last : bits.getLast? = some true) : 0 < value bits := by
  obtain ⟨front, rfl⟩ := List.getLast?_eq_some_iff.mp last
  rw [value_concat, Bool.toNat_true]
  exact Nat.succ_pos _

theorem value_shiftRight (bits : List Bool) {shift : Nat} (inside : shift ≤ bits.length) :
    value bits >>> shift = value (bits.take (bits.length - shift)) := by
  have split := value_append (bits.take (bits.length - shift)) (bits.drop (bits.length - shift))
  have small := value_lt (bits.drop (bits.length - shift))
  have rest : bits.length - (bits.length - shift) = shift := by omega
  rw [List.take_append_drop] at split
  rw [List.length_drop, rest] at split small
  rw [Nat.shiftRight_eq_div_pow, split, Nat.mul_comm, Nat.mul_add_div (Nat.two_pow_pos shift),
    Nat.div_eq_of_lt small, Nat.add_zero]

@[simp] theorem length_pad (length : Nat) (bits : List Bool) :
    (pad length bits).length = max length bits.length := by
  rw [pad, List.length_append, List.length_replicate]
  omega

@[simp] theorem value_pad (length : Nat) (bits : List Bool) :
    value (pad length bits) = value bits := by
  rw [pad, value_append, value_replicate_false, Nat.zero_mul, Nat.zero_add]

theorem pad_of_le {length : Nat} {bits : List Bool} (long : length ≤ bits.length) :
    pad length bits = bits := by
  rw [pad, Nat.sub_eq_zero_of_le long]
  rfl

theorem getLast?_pad {length : Nat} {bits : List Bool} {bit : Bool}
    (last : bits.getLast? = some bit) :
    (pad length bits).getLast? = some bit := by
  obtain ⟨front, rfl⟩ := List.getLast?_eq_some_iff.mp last
  rw [pad, ← List.append_assoc]
  exact List.getLast?_concat

theorem take_pad_inj {left right : List Bool} (same : left.length = right.length)
    (length count : Nat) :
    (pad length left).take count = (pad length right).take count ↔
      left.take (count - (length - left.length)) = right.take (count - (length - left.length)) := by
  rw [pad, pad, ← same, List.take_append, List.take_append, List.length_replicate,
    List.append_cancel_left_eq]

theorem pad_inj {left right : List Bool} (same : left.length = right.length) (length : Nat) :
    pad length left = pad length right ↔ left = right := by
  rw [pad, pad, ← same, List.append_cancel_left_eq]

theorem pad_concat (length : Nat) (bits : List Bool) (bit : Bool) :
    pad (length + 1) (bits ++ [bit]) = pad length bits ++ [bit] := by
  rw [pad, pad, List.length_append, List.length_singleton, Nat.add_sub_add_right, List.append_assoc]

@[simp] theorem length_clear (count : Nat) (bits : List Bool) :
    (clear count bits).length = bits.length := by
  rw [clear, List.length_append, List.length_take, List.length_replicate]
  omega

theorem clear_cons (count : Nat) (bit : Bool) (bits : List Bool) :
    clear (count + 1) (bit :: bits) = bit :: clear count bits := by
  rw [clear, clear, List.take_succ_cons, List.length_cons, Nat.add_sub_add_right, List.cons_append]

theorem clear_zero (bits : List Bool) : clear 0 bits = List.replicate bits.length false := by
  rw [clear, List.take_zero, List.nil_append, Nat.sub_zero]

theorem clear_pad (length count : Nat) (bits : List Bool) :
    clear count (pad length bits) = pad length (clear (count - (length - bits.length)) bits) := by
  rw [clear, pad, pad, length_clear, clear, List.take_append, List.length_append,
    List.length_replicate,
    List.take_replicate, List.append_assoc]
  by_cases short : count ≤ length - bits.length
  · have zeros : length - bits.length + bits.length - count =
        (length - bits.length - count) + bits.length := by omega
    rw [Nat.sub_eq_zero_of_le short, Nat.min_eq_left short, zeros, List.take_zero, List.nil_append,
      List.nil_append, Nat.sub_zero, List.replicate_append_replicate,
        List.replicate_append_replicate]
    congr 1
    omega
  · have zeros : length - bits.length + bits.length - count =
        bits.length - (count - (length - bits.length)) := by omega
    rw [Nat.min_eq_right (by omega), zeros]

end BitString
