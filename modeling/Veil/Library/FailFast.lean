import Mathlib.Data.List.Basic

/-! Array lists with fail-fast iterators, as `java.util.ArrayList` documents them. A loop may
remove what it visits through its iterator or through the list; after the latter the next `next`
throws. -/

namespace FailFast

structure ArrayList (α : Type*) where
  elements : List α
  modCount : Nat

structure Iterator where
  cursor : Nat
  expectedModCount : Nat

variable {α : Type*}

namespace ArrayList

variable (list : ArrayList α)

def iterator : Iterator := ⟨0, list.modCount⟩

def remove (equals : α → Bool) : ArrayList α :=
  if list.elements.any equals then ⟨list.elements.eraseP equals, list.modCount + 1⟩ else list

end ArrayList

namespace Iterator

variable (itr : Iterator) (list : ArrayList α)

def hasNext : Bool := itr.cursor ≠ list.elements.length

def next : Option (α × Iterator) :=
  if itr.expectedModCount = list.modCount then
    list.elements[itr.cursor]?.map fun element => (element, { itr with cursor := itr.cursor + 1 })
  else none

/-- Removes the element that `next` has returned last, and expects the change. -/
def remove : Iterator × ArrayList α :=
  (⟨itr.cursor - 1, list.modCount + 1⟩,
    ⟨list.elements.eraseIdx (itr.cursor - 1), list.modCount + 1⟩)

end Iterator

/-- `while (itr.hasNext()) body(itr.next())`, for some turns at most: whether it ends without an
exception, and the list after it. -/
def whileNext (body : α → Iterator → ArrayList α → Iterator × ArrayList α) :
    Nat → Iterator → ArrayList α → Option (Bool × ArrayList α)
  | 0, _, _ => none
  | turns + 1, itr, list =>
      if itr.hasNext list then
        match itr.next list with
        | none => some (false, list)
        | some (element, itr) =>
            let after := body element itr list
            whileNext body turns after.1 after.2
      else some (true, list)

def removeThrough (drop : α → Bool) (equals : α → α → Bool) (element : α) (itr : Iterator)
    (list : ArrayList α) : Iterator × ArrayList α :=
  (itr, if drop element then list.remove (equals element) else list)

section Through

variable (drop : α → Bool) (equals : α → α → Bool)

theorem whileNext_pass (before after : List α) (modCount turns : Nat) {element : α}
    (kept : drop element = false) :
    whileNext (removeThrough drop equals) (turns + 1) ⟨before.length, modCount⟩
        ⟨before ++ element :: after, modCount⟩ =
      whileNext (removeThrough drop equals) turns ⟨(before ++ [element]).length, modCount⟩
        ⟨(before ++ [element]) ++ after, modCount⟩ := by
  have goes_on : (Iterator.mk before.length modCount).hasNext ⟨before ++ element :: after,
      modCount⟩ = true := by
    simp [Iterator.hasNext]
  rw [whileNext, if_pos goes_on]
  simp [Iterator.next, removeThrough, kept]

theorem whileNext_keeps (before after : List α) (modCount : Nat)
    (kept : ∀ element ∈ after, drop element = false) :
    whileNext (removeThrough drop equals) (after.length + 1) ⟨before.length, modCount⟩
      ⟨before ++ after, modCount⟩ = some (true, ⟨before ++ after, modCount⟩) := by
  induction after generalizing before with
  | nil =>
      rw [whileNext, if_neg (by simp [Iterator.hasNext])]
  | cons element after ih =>
      rw [List.length_cons, whileNext_pass drop equals _ _ _ _ (kept element List.mem_cons_self),
        ih _ fun other member => kept other (List.mem_cons_of_mem _ member), List.append_assoc,
        List.singleton_append]

/-- The first element that is dropped is the only one: the loop ends behind it when one more element
follows, which it does not visit, and throws otherwise. -/
theorem whileNext_drops (before middle after : List α) (element : α) (modCount extra : Nat)
    (kept : ∀ other ∈ middle, drop other = false) (dropped : drop element = true)
    (self : equals element element = true)
    (respects : ∀ other ∈ before ++ middle, equals element other = false) :
    whileNext (removeThrough drop equals) (middle.length + (extra + 2)) ⟨before.length, modCount⟩
        ⟨before ++ (middle ++ element :: after), modCount⟩ =
      some (decide (after.length = 1), ⟨before ++ (middle ++ after), modCount + 1⟩) := by
  induction middle generalizing before with
  | nil =>
      have goes_on :
          (Iterator.mk before.length modCount).hasNext ⟨before ++ element :: after,
            modCount⟩ = true := by
        simp [Iterator.hasNext]
      have removed : (ArrayList.mk (before ++ element :: after) modCount).remove (equals element) =
          ⟨before ++ after, modCount + 1⟩ := by
        have absent : ∀ other ∈ before, ¬equals element other = true := fun other member => by
          rw [respects other (List.mem_append_left _ member)]
          exact Bool.false_ne_true
        rw [ArrayList.remove, if_pos (List.any_eq_true.mpr ⟨element, by simp, self⟩),
          List.eraseP_append_right _ absent, List.eraseP_cons_of_pos self]
      rw [List.nil_append, List.nil_append, List.length_nil, Nat.zero_add, whileNext,
        if_pos goes_on]
      simp only [Iterator.next, if_true, List.getElem?_append_right (Nat.le_refl _), Nat.sub_self,
        List.getElem?_cons_zero, Option.map_some, removeThrough, dropped, removed]
      rw [whileNext]
      by_cases last : after.length = 1
      · simp [Iterator.hasNext, last]
      · have beyond : ¬1 = after.length := Ne.symm last
        simp [Iterator.hasNext, Iterator.next, last, beyond]
  | cons other middle ih =>
      have further := ih (before ++ [other])
        (fun third member => kept third (List.mem_cons_of_mem _ member))
        fun third member => respects third (by simpa using member)
      have turns : (other :: middle).length + (extra + 2) = middle.length + (extra + 2) + 1 := by
        rw [List.length_cons]
        omega
      rw [turns, List.cons_append,
        whileNext_pass drop equals _ _ _ _ (kept other List.mem_cons_self), further]
      simp

end Through

def removeVisited (drop : α → Bool) (element : α) (itr : Iterator) (list : ArrayList α) :
    Iterator × ArrayList α := if drop element then itr.remove list else (itr, list)

theorem whileNext_removeVisited (drop : α → Bool) (before after : List α) (modCount : Nat) :
    ∃ changes, whileNext (removeVisited drop) (after.length + 1) ⟨before.length, modCount⟩
      ⟨before ++ after, modCount⟩ = some (true, ⟨before ++ after.filter (! drop ·), changes⟩) := by
  induction after generalizing before modCount with
  | nil =>
      refine ⟨modCount, ?_⟩
      rw [whileNext, if_neg (by simp [Iterator.hasNext]), List.filter_nil]
  | cons element after ih =>
      have goes_on :
          (Iterator.mk before.length modCount).hasNext ⟨before ++ element :: after,
            modCount⟩ = true := by
        simp [Iterator.hasNext]
      rw [List.length_cons, whileNext, if_pos goes_on]
      simp only [Iterator.next, if_true, List.getElem?_append_right (Nat.le_refl _), Nat.sub_self,
        List.getElem?_cons_zero, Option.map_some, removeVisited]
      cases dropped : drop element with
      | true =>
          have erased : (before ++ element :: after).eraseIdx before.length = before ++ after := by
            rw [List.eraseIdx_append_of_length_le (Nat.le_refl _), Nat.sub_self,
              List.eraseIdx_cons_zero]
          obtain ⟨changes, rest⟩ := ih before (modCount + 1)
          refine ⟨changes, ?_⟩
          simpa [Iterator.remove, erased, dropped] using rest
      | false =>
          obtain ⟨changes, rest⟩ := ih (before ++ [element]) modCount
          refine ⟨changes, ?_⟩
          simpa [dropped] using rest

end FailFast
