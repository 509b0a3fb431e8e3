import Mathlib.Data.BitVec
import Mathlib.Data.List.GetD

/-! Fixed-width words as bytes, the most significant byte first. Reading past the end of the bytes
reads zeros. -/

namespace Bytes

abbrev Byte := BitVec 8

def ofWord {w : Nat} (count : Nat) (word : BitVec w) : List Byte :=
  (List.range count).map fun i => (word >>> (8 * (count - 1 - i))).setWidth 8

def toWord (w count : Nat) (bytes : List Byte) : BitVec w :=
  (List.range count).foldl (fun word i => (word <<< 8) ||| (bytes.getD i 0).setWidth w) 0

@[simp] theorem length_ofWord {w : Nat} (count : Nat) (word : BitVec w) :
    (ofWord count word).length = count := by
  simp [ofWord]

theorem getD_ofWord_append {w : Nat} (count : Nat) (word : BitVec w) (rest : List Byte) {i : Nat}
    (inside : i < count) :
    (ofWord count word ++ rest).getD i 0 = (word >>> (8 * (count - 1 - i))).setWidth 8 := by
  rw [List.getD_eq_getElem?_getD, List.getElem?_append_left (by simpa using inside)]
  simp [ofWord, inside]

theorem toWord_ofWord_append {w count : Nat} (word : BitVec w) (rest : List Byte)
    (fits : w ≤ 8 * count) :
    toWord w count (ofWord count word ++ rest) = word := by
  have loop (read : Nat) (bound : read ≤ count) :
      (List.range read).foldl (fun (value : BitVec w) i =>
        (value <<< 8) ||| ((ofWord count word ++ rest).getD i 0).setWidth w) 0 =
      word >>> (8 * (count - read)) := by
    induction read with
    | zero =>
        apply BitVec.eq_of_getLsbD_eq
        intro bit inside
        have beyond : word.getLsbD (8 * count + bit) = false := BitVec.getLsbD_of_ge _ _ (by omega)
        simp [beyond]
    | succ read ih =>
        rw [List.range_succ, List.foldl_append, ih (by omega)]
        simp only [List.foldl_cons, List.foldl_nil]
        rw [getD_ofWord_append count word rest (by omega)]
        apply BitVec.eq_of_getLsbD_eq
        intro bit inside
        simp only [BitVec.getLsbD_or, BitVec.getLsbD_shiftLeft, BitVec.getLsbD_ushiftRight,
          BitVec.getLsbD_setWidth, inside, decide_true, Bool.true_and]
        by_cases low : bit < 8
        · have position : 8 * (count - 1 - read) + bit = 8 * (count - (read + 1)) + bit := by omega
          simp [low, position]
        · have position : 8 * (count - read) + (bit - 8) =
              8 * (count - (read + 1)) + bit := by omega
          simp [low, position]
  have whole := loop count (Nat.le_refl _)
  simpa [toWord] using whole

theorem toWord_succ (w count : Nat) (bytes : List Byte) :
    toWord w (count + 1) bytes = (toWord w count bytes <<< 8) |||
      (bytes.getD count 0).setWidth w := by
  rw [toWord, List.range_succ, List.foldl_append]
  rfl

theorem getLsbD_toWord {w bit : Nat} (count : Nat) (bytes : List Byte) (width : bit < w)
    (inside : bit < 8 * count) :
    (toWord w count bytes).getLsbD bit =
      (bytes.getD (count - 1 - bit / 8) 0).getLsbD (bit % 8) := by
  induction count generalizing bit with
  | zero => omega
  | succ count ih =>
      rw [toWord_succ, BitVec.getLsbD_or, BitVec.getLsbD_shiftLeft, BitVec.getLsbD_setWidth]
      by_cases low : bit < 8
      · have first : count + 1 - 1 - bit / 8 = count := by omega
        have place : bit % 8 = bit := by omega
        rw [first, place]
        simp [low, width]
      · have shifted := @ih (bit - 8) (by omega) (by omega)
        have position : count - 1 - (bit - 8) / 8 = count + 1 - 1 - bit / 8 := by omega
        have place : (bit - 8) % 8 = bit % 8 := by omega
        have beyond : (bytes.getD count 0).getLsbD bit = false :=
          BitVec.getLsbD_of_ge _ _ (by omega)
        rw [shifted, position, place, beyond]
        simp [low, width]

theorem toWord_ofWord {w count : Nat} (word : BitVec w) (fits : w ≤ 8 * count) :
    toWord w count (ofWord count word) = word := by
  have append := toWord_ofWord_append word [] fits
  rwa [List.append_nil] at append

theorem ofWord_toWord {count : Nat} {bytes : List Byte} (enough : count ≤ bytes.length) :
    ofWord count (toWord (8 * count) count bytes) = bytes.take count := by
  apply List.ext_getElem
  · simp [enough]
  · intro i inside _
    rw [length_ofWord] at inside
    apply BitVec.eq_of_getLsbD_eq
    intro bit width
    have place : (8 * (count - 1 - i) + bit) % 8 = bit := by omega
    have position : count - 1 - (8 * (count - 1 - i) + bit) / 8 = i := by omega
    simp only [ofWord, List.getElem_map, List.getElem_range, BitVec.getLsbD_setWidth,
      BitVec.getLsbD_ushiftRight, width, decide_true, Bool.true_and, List.getElem_take]
    rw [getLsbD_toWord count bytes (by omega) (by omega), place, position,
      List.getD_eq_getElem _ _ (by omega)]

theorem drop_ofWord_append {w count offset : Nat} (word : BitVec w) (rest : List Byte)
    (beyond : count ≤ offset) :
    (ofWord count word ++ rest).drop offset = rest.drop (offset - count) := by
  rw [List.drop_append, List.drop_of_length_le (by rwa [length_ofWord]), List.nil_append,
    length_ofWord]

theorem ofWord_toWord_drop {count offset : Nat} {bytes : List Byte}
    (inside : offset + count ≤ bytes.length) :
    ofWord count (toWord (8 * count) count (bytes.drop offset)) ++ bytes.drop (offset + count) =
      bytes.drop offset := by
  rw [ofWord_toWord (by rw [List.length_drop]; omega), ← List.drop_drop, List.take_append_drop]

theorem length_flatMap_ofWord {w : Nat} (count : Nat) (words : List (BitVec w)) :
    (words.flatMap (ofWord count)).length = count * words.length := by
  induction words with
  | nil => rfl
  | cons word rest ih =>
      rw [List.flatMap_cons, List.length_append, length_ofWord, ih, List.length_cons, Nat.mul_succ,
        Nat.add_comm]

theorem drop_flatMap_ofWord {w : Nat} (count i : Nat) (words : List (BitVec w)) :
    (words.flatMap (ofWord count)).drop (count * i) = (words.drop i).flatMap (ofWord count) := by
  induction i generalizing words with
  | zero => rfl
  | succ i ih =>
      cases words with
      | nil => simp
      | cons word rest =>
          rw [List.flatMap_cons, Nat.mul_succ, drop_ofWord_append word _ (by omega),
            Nat.add_sub_cancel,
            ih rest, List.drop_succ_cons]

theorem toWord_drop_flatMap {w count i : Nat} {words : List (BitVec w)} {word : BitVec w}
    (found : words[i]? = some word) (fits : w ≤ 8 * count) :
    toWord w count ((words.flatMap (ofWord count)).drop (count * i)) = word := by
  obtain ⟨inside, rfl⟩ := List.getElem?_eq_some_iff.mp found
  rw [drop_flatMap_ofWord, List.drop_eq_getElem_cons inside, List.flatMap_cons,
    toWord_ofWord_append _ _ fits]

def write (data : List Byte) (offset : Nat) (bytes : List Byte) : List Byte :=
  data.take offset ++ bytes ++ data.drop (offset + bytes.length)

/-- The source is read before anything is written. -/
def move (data : List Byte) (target source count : Nat) : List Byte :=
  write data target ((data.drop source).take count)

/-- The first `count` bytes are copied `offset` places on, one at a time from the last. -/
def shiftUp (offset : Nat) : Nat → List Byte → List Byte
  | 0, data => data
  | i + 1, data => shiftUp offset i (data.set (i + offset) (data.getD i 0))

theorem write_append {first : List Byte} {offset : Nat} (beyond : first.length ≤ offset)
    (rest bytes : List Byte) :
    write (first ++ rest) offset bytes = first ++ write rest (offset - first.length) bytes := by
  have after : offset + bytes.length - first.length =
      offset - first.length + bytes.length := by omega
  rw [write, write, List.take_append, List.drop_append, List.take_of_length_le beyond,
    List.drop_of_length_le (by omega), after, List.nil_append]
  simp only [List.append_assoc]

theorem write_zero {old bytes : List Byte} (same : old.length = bytes.length) (rest : List Byte) :
    write (old ++ rest) 0 bytes = bytes ++ rest := by
  rw [write, List.take_zero, List.nil_append, Nat.zero_add, ← same, List.drop_left]

theorem length_write {data bytes : List Byte} {offset : Nat}
    (inside : offset + bytes.length ≤ data.length) :
    (write data offset bytes).length = data.length := by
  simp only [write, List.length_append, List.length_take, List.length_drop]
  omega

theorem drop_write {data bytes : List Byte} {offset k : Nat} (inside : offset ≤ data.length)
    (beyond : offset + bytes.length ≤ k) : (write data offset bytes).drop k = data.drop k := by
  have written : (data.take offset ++ bytes).length = offset + bytes.length := by
    rw [List.length_append, List.length_take_of_le inside]
  rw [write, List.drop_append, List.drop_of_length_le (by rwa [written]), List.nil_append, written,
    List.drop_drop, Nat.add_sub_cancel' beyond]

theorem drop_write_self {data : List Byte} {offset : Nat} (inside : offset ≤ data.length)
    (bytes : List Byte) :
    (write data offset bytes).drop offset = bytes ++ data.drop (offset + bytes.length) := by
  rw [write, List.append_assoc, List.drop_left' (List.length_take_of_le inside)]

theorem toWord_congr {w count : Nat} {first second : List Byte}
    (same : ∀ i < count, first.getD i 0 = second.getD i 0) :
    toWord w count first = toWord w count second := by
  induction count with
  | zero => rfl
  | succ count ih =>
      rw [toWord_succ, toWord_succ, ih fun i bound => same i (by omega), same count (by omega)]

theorem toWord_write {w count offset : Nat} {data : List Byte} (word : BitVec w)
    (inside : offset ≤ data.length) (fits : w ≤ 8 * count) :
    toWord w count ((write data offset (ofWord count word)).drop offset) = word := by
  rw [drop_write_self inside]
  exact toWord_ofWord_append word _ fits

theorem toWord_write_later {count k offset : Nat} {data : List Byte} (w : Nat) (bytes : List Byte)
    (inside : offset ≤ data.length) (before : k + count ≤ offset) :
    toWord w count ((write data offset bytes).drop k) = toWord w count (data.drop k) := by
  refine toWord_congr fun i bound => ?_
  have first : k + i < (data.take offset).length := by
    rw [List.length_take_of_le inside]
    omega
  rw [write, List.append_assoc, List.getD_eq_getElem?_getD, List.getD_eq_getElem?_getD,
    List.getElem?_drop,
    List.getElem?_drop, List.getElem?_append_left first, List.getElem?_take_of_lt (by omega)]

/-- The loop copies upwards without overwriting a byte that it has still to read. -/
theorem shiftUp_eq {offset count : Nat} {data : List Byte} (enough : count + offset ≤ data.length) :
    shiftUp offset count data =
      data.take offset ++ (data.take count ++ data.drop (count + offset)) := by
  induction count generalizing data with
  | zero => simp [shiftUp]
  | succ count ih =>
      have inside : count < data.length := by omega
      have byte : data.getD count 0 = data[count] := List.getD_eq_getElem _ _ inside
      have rest : (data.set (count + offset) data[count]).drop (count + offset) =
          data[count] :: data.drop (count + 1 + offset) := by
        rw [List.drop_eq_getElem_cons (by simp only [List.length_set]; omega),
          List.getElem_set_self,
          List.drop_set_of_lt (by omega)]
        congr 2
        omega
      have extended : data.take (count + 1) = data.take count ++ [data[count]] := by
        rw [List.take_add_one, List.getElem?_eq_getElem inside]
        rfl
      rw [shiftUp, byte, ih (by simp only [List.length_set]; omega),
        List.take_set_of_le (by omega), List.take_set_of_le (by omega), rest, extended,
        List.append_assoc]
      rfl

end Bytes
