import Mathlib.Data.Nat.Size
import Mathlib.Data.Nat.Bitwise

/-! Distances between the leaves of a binary tree: the height of the smallest subtree that holds
both. On numbers it is the position of the highest differing bit. -/

structure IsTreeDistance {α : Type*} (distance : α → α → Nat) : Prop where
  eq_zero_iff : ∀ {left right}, distance left right = 0 ↔ left = right
  comm : ∀ left right, distance left right = distance right left
  le_max : ∀ left middle right,
    distance left right ≤ max (distance left middle) (distance middle right)
  /-- A subtree has two halves: leaves that both leave a third in the same level share one. -/
  lt_of_eq : ∀ {left middle right level}, distance left middle = level →
    distance middle right = level → 0 < level → distance left right < level

namespace IsTreeDistance

variable {α : Type*} {distance : α → α → Nat} (tree : IsTreeDistance distance)
include tree

theorem self (leaf : α) : distance leaf leaf = 0 := tree.eq_zero_iff.mpr rfl

theorem pos_iff {left right : α} : 0 < distance left right ↔ left ≠ right := by
  rw [Nat.pos_iff_ne_zero, ne_eq, tree.eq_zero_iff]

theorem lt_trans {left middle right : α} {level : Nat} (first : distance left middle < level)
    (second : distance middle right < level) : distance left right < level := by
  have bound := tree.le_max left middle right
  omega

theorem eq_of_lt {left middle right : α} (near : distance left middle < distance middle right) :
    distance left right = distance middle right := by
  have upper := tree.le_max left middle right
  have lower := tree.le_max middle left right
  rw [tree.comm middle left] at lower
  omega

theorem comap {β : Type*} (name : β → α) (injective : Function.Injective name) :
    IsTreeDistance fun left right => distance (name left) (name right) where
  eq_zero_iff := tree.eq_zero_iff.trans injective.eq_iff
  comm := fun _ _ => tree.comm _ _
  le_max := fun _ _ _ => tree.le_max _ _ _
  lt_of_eq := tree.lt_of_eq

end IsTreeDistance

theorem Nat.size_eq_add_size_shiftRight {value shift : Nat} (remains : 0 < value >>> shift) :
    value.size = shift + (value >>> shift).size := by
  rw [Nat.shiftRight_eq_div_pow] at remains ⊢
  apply Nat.le_antisymm
  · rw [Nat.size_le, Nat.pow_add]
    have below := Nat.lt_mul_of_div_lt (Nat.lt_size_self (value / 2 ^ shift))
      (Nat.two_pow_pos shift)
    rwa [Nat.mul_comm] at below
  · have leading : (value / 2 ^ shift).size - 1 < (value / 2 ^ shift).size := by
      have positive := Nat.size_pos.mpr remains
      omega
    rw [Nat.lt_size, Nat.le_div_iff_mul_le (Nat.two_pow_pos shift), ← Nat.pow_add, ← Nat.lt_size]
      at leading
    omega

/-- The position of the highest bit in which two numbers differ, counted from one, and zero for
equal numbers. -/
def prefixDistance (left right : Nat) : Nat := (left ^^^ right).size

namespace prefixDistance

variable {left middle right level : Nat}

theorem le_iff : prefixDistance left right ≤ level ↔ left >>> level = right >>> level := by
  rw [prefixDistance, Nat.size_le, ← Nat.xor_eq_zero_iff, ← Nat.shiftRight_xor_distrib,
    Nat.shiftRight_eq_div_pow, Nat.div_eq_zero_iff_lt (Nat.two_pow_pos level)]

theorem comm (left right : Nat) : prefixDistance left right = prefixDistance right left := by
  rw [prefixDistance, prefixDistance, Nat.xor_comm]

theorem le_trans (first : prefixDistance left middle ≤ level)
    (second : prefixDistance middle right ≤ level) : prefixDistance left right ≤ level := by
  rw [le_iff] at first second ⊢
  exact first.trans second

theorem bits_of_eq (distance : prefixDistance left right = level + 1) :
    left.testBit level ≠ right.testBit level ∧ left >>> (level + 1) = right >>> (level + 1) := by
  have upper : left >>> (level + 1) = right >>> (level + 1) := le_iff.mp (by omega)
  refine ⟨fun same => ?_, upper⟩
  have close : prefixDistance left right ≤ level := by
    rw [le_iff]
    apply Nat.eq_of_testBit_eq
    intro bit
    cases bit with
    | zero => simpa using same
    | succ bit =>
        have agree := congrArg (·.testBit bit) upper
        simpa [Nat.add_comm, Nat.add_left_comm] using agree
  omega

theorem lt_of_eq (first : prefixDistance left middle = level)
    (second : prefixDistance middle right = level) (positive : 0 < level) :
    prefixDistance left right < level := by
  obtain ⟨level, rfl⟩ : ∃ below, level = below + 1 := ⟨level - 1, by omega⟩
  have ⟨leftBit, leftUpper⟩ := bits_of_eq first
  have ⟨rightBit, rightUpper⟩ := bits_of_eq second
  apply Nat.lt_succ_of_le
  rw [le_iff]
  apply Nat.eq_of_testBit_eq
  intro bit
  cases bit with
  | zero =>
      simp only [Nat.testBit_shiftRight, Nat.add_zero]
      cases hl : left.testBit level <;> cases hm : middle.testBit level <;>
        cases hr : right.testBit level <;> simp_all
  | succ bit =>
      have upper := congrArg (·.testBit bit) (leftUpper.trans rightUpper)
      simpa [Nat.add_comm, Nat.add_left_comm] using upper

theorem isTreeDistance : IsTreeDistance prefixDistance where
  eq_zero_iff := by
    intro left right
    rw [prefixDistance, Nat.size_eq_zero, Nat.xor_eq_zero_iff]
  comm := comm
  le_max := fun _ _ _ => le_trans (Nat.le_max_left _ _) (Nat.le_max_right _ _)
  lt_of_eq := lt_of_eq

theorem mono {other : Nat} (smaller : left ^^^ right ≤ middle ^^^ other) :
    prefixDistance left right ≤ prefixDistance middle other :=
  Nat.size_le_size smaller

theorem flip_lt (distance : prefixDistance left right = level) (positive : 0 < level) :
    prefixDistance left (right ^^^ 2 ^ (level - 1)) < level := by
  have far : prefixDistance right (right ^^^ 2 ^ (level - 1)) = level := by
    rw [prefixDistance, ← Nat.xor_assoc, Nat.xor_self, Nat.zero_xor, Nat.size_pow]
    omega
  exact lt_of_eq distance far positive

end prefixDistance

structure IsNearest (members : Nat → Prop) (target nearest : Nat) : Prop where
  member : members nearest
  least : ∀ other, members other → target ^^^ nearest ≤ target ^^^ other

namespace IsNearest

variable {members : Nat → Prop} {target nearest level source : Nat}

theorem self (inside : members target) : IsNearest members target target where
  member := inside
  least := by
    intro other _
    rw [Nat.xor_self]
    exact Nat.zero_le _

theorem unique {other : Nat} (first : IsNearest members target nearest)
    (second : IsNearest members target other) : nearest = other := by
  have same : target ^^^ nearest = target ^^^ other :=
    Nat.le_antisymm (first.least other second.member) (second.least nearest first.member)
  exact Nat.xor_right_injective same

theorem eq_two_pow_add_xor {value : Nat} (bit : value.testBit level = true)
    (bound : value < 2 ^ (level + 1)) :
    value ^^^ 2 ^ level < 2 ^ level ∧ value = 2 ^ level + (value ^^^ 2 ^ level) := by
  have small : value ^^^ 2 ^ level < 2 ^ level := by
    apply Nat.lt_pow_two_of_testBit
    intro index above
    by_cases top : index = level
    · subst index
      simp [bit]
    · have beyond : value.testBit index = false := Nat.testBit_lt_two_pow
        (Nat.lt_of_lt_of_le bound (Nat.pow_le_pow_right (by decide) (by omega)))
      have other : level ≠ index := Ne.symm top
      simp [beyond, other]
  refine ⟨small, ?_⟩
  have joined := Nat.two_pow_add_eq_or_of_lt small 1
  rw [Nat.mul_one] at joined
  rw [joined]
  apply Nat.eq_of_testBit_eq
  intro index
  by_cases top : level = index
  · subst index
    simp [bit]
  · simp [top]

/-- Flipping the target's bit at the level where a member leaves it. No member is at that level,
so all members on the target's side of it share the flipped bit, and the nearest one stays the
nearest. -/
theorem flip_iff (inside : members source) (apart : prefixDistance source target = level + 1)
    (empty : ∀ other, members other → prefixDistance source other ≠ level + 1) :
    IsNearest members (target ^^^ 2 ^ level) nearest ↔ IsNearest members target nearest := by
  have step : prefixDistance target (target ^^^ 2 ^ level) = level + 1 := by
    rw [prefixDistance, ← Nat.xor_assoc, Nat.xor_self, Nat.zero_xor, Nat.size_pow]
  have below (other : Nat) (member : members other)
      (near : prefixDistance target other ≤ level + 1) :
      (target ^^^ 2 ^ level) ^^^ other < 2 ^ level ∧
        target ^^^ other = 2 ^ level + ((target ^^^ 2 ^ level) ^^^ other) := by
    have together : prefixDistance source other ≤ level := by
      have within : prefixDistance source other ≤ level + 1 :=
        prefixDistance.le_trans (Nat.le_of_eq apart) near
      have differ := empty other member
      omega
    have apartOther : prefixDistance target other = level + 1 := by
      have far := prefixDistance.isTreeDistance.le_max source other target
      rw [prefixDistance.comm other target] at far
      omega
    have bits := prefixDistance.bits_of_eq apartOther
    have bit : (target ^^^ other).testBit level = true := by
      rw [Nat.testBit_xor]
      simpa using bits.1
    have bound : target ^^^ other < 2 ^ (level + 1) := by
      rw [← Nat.size_le]
      exact near
    have commuted : (target ^^^ 2 ^ level) ^^^ other = (target ^^^ other) ^^^ 2 ^ level := by
      rw [Nat.xor_assoc, Nat.xor_comm (2 ^ level), Nat.xor_assoc]
    rw [commuted]
    exact eq_two_pow_add_xor bit bound
  have above (other : Nat) (far : ¬prefixDistance target other ≤ level + 1) :
      2 ^ (level + 1) ≤ target ^^^ other ∧ 2 ^ (level + 1) ≤ (target ^^^ 2 ^ level) ^^^ other := by
    constructor
    · rw [← Nat.not_lt, ← Nat.size_le]
      exact far
    · rw [← Nat.not_lt, ← Nat.size_le]
      intro near
      exact far (prefixDistance.le_trans (Nat.le_of_eq step) near)
  have power : 2 ^ (level + 1) = 2 ^ level + 2 ^ level := by
    rw [Nat.pow_succ]
    omega
  have sourceBelow := below source inside (by rw [prefixDistance.comm]; exact Nat.le_of_eq apart)
  have near_of (closer : target ^^^ nearest ≤ target ^^^ source ∨
      (target ^^^ 2 ^ level) ^^^ nearest ≤ (target ^^^ 2 ^ level) ^^^ source) :
      prefixDistance target nearest ≤ level + 1 := by
    by_contra far
    have bound := above nearest far
    omega
  have compare (member : members nearest) (near : prefixDistance target nearest ≤ level + 1)
      (other : Nat) (otherMember : members other) :
      (target ^^^ 2 ^ level) ^^^ nearest ≤ (target ^^^ 2 ^ level) ^^^ other ↔
        target ^^^ nearest ≤ target ^^^ other := by
    have nearestBelow := below nearest member near
    by_cases otherNear : prefixDistance target other ≤ level + 1
    · have otherBelow := below other otherMember otherNear
      omega
    · have bound := above other otherNear
      omega
  constructor
  · intro least
    have near := near_of (Or.inr (least.least source inside))
    exact ⟨least.member, fun other member =>
      (compare least.member near other member).mp (least.least other member)⟩
  · intro least
    have near := near_of (Or.inl (least.least source inside))
    exact ⟨least.member, fun other member =>
      (compare least.member near other member).mpr (least.least other member)⟩

end IsNearest
