import Veil.Library.Bytes
import Veil.SimPy.Vid

/-! The strings of the Java switches, from `veil_switch.java` and `clientHandler.java`: bits,
hexadecimal digits and the bytes between two switches. A string of `'0'` and `'1'` is a list of
bits. -/

namespace Veil

namespace SimJava

open Bytes (Byte)

def leftPadString {α : Type} (s : List α) (n : Nat) (c : α) : List α :=
  List.replicate (n - s.length) c ++ s

def rightPadString {α : Type} (s : List α) (n : Nat) (c : α) : List α :=
  s ++ List.replicate (n - s.length) c

def substring {α : Type} (s : List α) (start stop : Nat) : List α := (s.take stop).drop start

def longestCommonPrefixLength : List Bool → List Bool → Nat
  | bit :: s, other :: t => if bit = other then longestCommonPrefixLength s t + 1 else 0
  | _, _ => 0

def vidDist (s t : List Bool) : Nat := 32 - longestCommonPrefixLength s t

def toBinaryString (n : Nat) : List Bool := if n = 0 then [false] else n.bits.reverse

def toHexString (n : Nat) : List Char := Nat.toDigits 16 n

def digit (radix : Nat) (c : Char) : Option Nat :=
  let value :=
    if '0' ≤ c ∧ c ≤ '9' then c.toNat - '0'.toNat
    else if 'a' ≤ c ∧ c ≤ 'z' then c.toNat - 'a'.toNat + 10
    else if 'A' ≤ c ∧ c ≤ 'Z' then c.toNat - 'A'.toNat + 10
    else radix
  if value < radix then some value else none

def parseDigits (radix value : Nat) (s : List Char) : Option Nat :=
  s.foldlM (fun value c => (digit radix c).map (value * radix + ·)) value

/-- No string here has a sign. What is no number, or too big a one, throws an exception. -/
def parseInt (radix : Nat) (s : List Char) : Option Nat :=
  if s = [] then none else (parseDigits radix 0 s).filter (· < 2 ^ 31)

def parseBits (s : List Bool) : Option Nat :=
  if s = [] ∨ 2 ^ 31 ≤ BitString.value s then none else some (BitString.value s)

@[ext]
structure Vid where
  bits : List Bool
  length : bits.length = 32
deriving DecidableEq

/-- Some bytes of a bit string, each as
`(byte) Integer.parseInt(s.substring(8 * i, 8 * i + 8), 2)`. -/
def bytesOf (count : Nat) (s : List Bool) : List Byte :=
  (List.range count).map fun i => BitVec.ofNat 8 (BitString.value (substring s (8 * i) (8 * i + 8)))

def localHex (count : Nat) (s : List Bool) : List Char :=
  (List.range count).flatMap fun i =>
    leftPadString (toHexString (BitString.value (substring s (8 * i) (8 * i + 8)))) 2 '0'

def hexByte (byte : Byte) : List Char := (toHexString (byte.toNat + 0x100)).drop 1

def convertHex (input : List Char) : Byte :=
  (((List.range 256).map (BitVec.ofNat 8)).find? fun byte => hexByte byte = input).getD 0

/-- `leftPadString(Integer.toBinaryString(Integer.parseInt(s, 16)), 32, '0')`. -/
def bitsOfHex (s : List Char) : Option (List Bool) :=
  (parseInt 16 s).map fun n => leftPadString (toBinaryString n) 32 false

theorem hexByte_eq :
    ∀ n < 256, hexByte (BitVec.ofNat 8 n) = leftPadString (toHexString n) 2 '0' := by
  decide +kernel

theorem hexByte_value : ∀ n < 256, (hexByte (BitVec.ofNat 8 n)).length = 2 ∧
  parseDigits 16 0 (hexByte (BitVec.ofNat 8 n)) = some n := by
  decide +kernel

theorem parseDigits_eq (radix value : Nat) (s : List Char) :
    parseDigits radix value s = (parseDigits radix 0 s).map (value * radix ^ s.length + ·) := by
  induction s generalizing value with
  | nil => simp [parseDigits]
  | cons c s ih =>
      rw [parseDigits, parseDigits, List.foldlM_cons, List.foldlM_cons]
      cases digit radix c with
      | none => rfl
      | some d =>
          have first := ih (value * radix + d)
          have second := ih (0 * radix + d)
          rw [parseDigits] at first second
          simp only [Option.map_some, Option.bind_eq_bind, Option.bind_some, first, second,
            Option.map_map]
          refine congrArg (fun f => Option.map f (parseDigits radix 0 s)) (funext fun n => ?_)
          simp only [Function.comp_apply, List.length_cons, Nat.pow_succ]
          ring

theorem parseDigits_append (radix value : Nat) (s t : List Char) :
    parseDigits radix value (s ++ t) = (parseDigits radix value s).bind fun n =>
      parseDigits radix n t := by
  rw [parseDigits, List.foldlM_append]
  rfl

theorem value_substring_lt (s : List Bool) (i : Nat) :
    BitString.value (substring s (8 * i) (8 * i + 8)) < 256 := by
  have size : (substring s (8 * i) (8 * i + 8)).length ≤ 8 := by
    rw [substring, List.length_drop, List.length_take]
    omega
  have bound : 2 ^ (substring s (8 * i) (8 * i + 8)).length ≤ 2 ^ 8 :=
    Nat.pow_le_pow_right (by decide) size
  exact Nat.lt_of_lt_of_le (BitString.value_lt _) bound

theorem parseDigits_hexByte (value : Nat) (byte : Byte) :
    parseDigits 16 value (hexByte byte) = some (value * 256 + byte.toNat) := by
  obtain ⟨length, parsed⟩ := hexByte_value byte.toNat byte.isLt
  rw [BitVec.ofNat_toNat, BitVec.setWidth_eq] at length parsed
  rw [parseDigits_eq, parsed, length]
  rfl

theorem hexByte_inj {byte other : Byte} (same : hexByte byte = hexByte other) : byte = other := by
  have first := parseDigits_hexByte 0 byte
  rw [same, parseDigits_hexByte, Option.some.injEq] at first
  exact BitVec.eq_of_toNat_eq (by omega)

theorem convertHex_hexByte (byte : Byte) : convertHex (hexByte byte) = byte := by
  have member : byte ∈ (List.range 256).map (BitVec.ofNat 8) :=
    List.mem_map.mpr ⟨byte.toNat, List.mem_range.mpr byte.isLt, by simp⟩
  rw [convertHex]
  cases found : ((List.range 256).map (BitVec.ofNat 8)).find? fun other =>
      decide (hexByte other = hexByte byte) with
  | none => exact absurd (decide_eq_true rfl) (List.find?_eq_none.mp found byte member)
  | some other => exact hexByte_inj (of_decide_eq_true (List.find?_some found :))

theorem localHex_eq (count : Nat) (s : List Bool) :
    localHex count s = (bytesOf count s).flatMap hexByte := by
  rw [localHex, bytesOf, List.flatMap_map]
  exact List.flatMap_congr fun i _ => (hexByte_eq _ (value_substring_lt s i)).symm

theorem parseDigits_localHex {count : Nat} {s : List Bool} (enough : 8 * count ≤ s.length) :
    parseDigits 16 0 (localHex count s) = some (BitString.value (s.take (8 * count))) := by
  rw [localHex_eq]
  induction count with
  | zero => rfl
  | succ count ih =>
      have last : s.take (8 * (count + 1)) =
          s.take (8 * count) ++ substring s (8 * count) (8 * count + 8) := by
        rw [substring, List.drop_take, Nat.add_sub_cancel_left, ← List.take_add, Nat.mul_succ]
      have size : (substring s (8 * count) (8 * count + 8)).length = 8 := by
        rw [substring, List.length_drop, List.length_take]
        omega
      rw [bytesOf, List.range_succ, List.map_append, List.flatMap_append,
        parseDigits_append, ← bytesOf,
        ih (by omega), Option.bind_some, List.map_singleton, List.flatMap_singleton,
          parseDigits_hexByte,
        BitVec.toNat_ofNat, Nat.mod_eq_of_lt (value_substring_lt s count), last,
          BitString.value_append, size]
      rfl

theorem length_hexByte (byte : Byte) : (hexByte byte).length = 2 := by
  have length := (hexByte_value byte.toNat byte.isLt).1
  rwa [BitVec.ofNat_toNat, BitVec.setWidth_eq] at length

theorem length_localHex (count : Nat) (s : List Bool) : (localHex count s).length = 2 * count := by
  rw [localHex_eq]
  induction count with
  | zero => rfl
  | succ count ih =>
      rw [bytesOf, List.range_succ, List.map_append, List.flatMap_append,
        List.length_append, ← bytesOf, ih,
        List.map_singleton, List.flatMap_singleton, length_hexByte]
      rfl

namespace Vid

def high (v : Vid) : Bool := v.bits.headD false

theorem value_lt_iff (v : Vid) : BitString.value v.bits < 2 ^ 31 ↔ v.high = false := by
  obtain ⟨bits, length⟩ := v
  obtain ⟨bit, rest, rfl⟩ := List.exists_cons_of_length_eq_add_one length
  have split := BitString.value_append [bit] rest
  have small := BitString.value_lt rest
  have size : rest.length = 31 := Nat.succ.inj length
  rw [List.singleton_append] at split
  rw [split, high, List.headD_cons]
  rw [size] at small ⊢
  cases bit with
  | false => exact iff_of_true (by simpa [BitString.value] using small) rfl
  | true => exact iff_of_false (by simp [BitString.value]) (by decide)

theorem toBinaryString_value (v : Vid) :
    leftPadString (toBinaryString (BitString.value v.bits)) 32 false = v.bits := by
  have some : v.bits ≠ [] := List.ne_nil_of_length_pos (by rw [v.length]; decide)
  have back := SimPy.bin2str_value some
  rwa [v.length] at back

theorem bitsOfHex_localHex (v : Vid) :
    bitsOfHex (localHex 4 v.bits) = if v.high then none else some v.bits := by
  have whole : v.bits.take (8 * 4) = v.bits := List.take_of_length_le (Nat.le_of_eq v.length)
  have digits : localHex 4 v.bits ≠ [] :=
    List.ne_nil_of_length_pos (by rw [length_localHex]; decide)
  rw [bitsOfHex, parseInt, if_neg digits, parseDigits_localHex (by rw [v.length]), whole]
  cases top : v.high with
  | false =>
      rw [Option.filter_some, if_pos (decide_eq_true (v.value_lt_iff.mpr top)), Option.map_some,
        toBinaryString_value]
      rfl
  | true =>
      have big : ¬BitString.value v.bits < 2 ^ 31 := fun small => by
        rw [v.value_lt_iff.mp small] at top
        cases top
      rw [Option.filter_some, if_neg (by simpa using big)]
      rfl

theorem bitsOfHex_low {v : Vid} (low : v.high = false) :
    bitsOfHex (localHex 4 v.bits) = some v.bits := by
  rw [bitsOfHex_localHex, low]
  rfl

theorem localHex_inj {v w : Vid} (low : v.high = false)
    (same : localHex 4 v.bits = localHex 4 w.bits) :
    v = w := by
  have read := w.bitsOfHex_localHex
  rw [← same, bitsOfHex_low low] at read
  split at read
  · cases read
  · exact Vid.ext (Option.some.inj read)

end Vid

end SimJava

end Veil
