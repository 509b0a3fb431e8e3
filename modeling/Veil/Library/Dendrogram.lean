import Mathlib.Data.List.Nodup
import Veil.Library.BitString
import Veil.Library.Connectivity

/-! Trees that come from merging clusters two by two, and the bit strings that name their leaves:
the way from the root, where the shallower of two merged clusters is first put at the height of
the other under leading zeros. -/

inductive Dendrogram (α : Type*) where
  | leaf (member : α)
  | merge (zero one : Dendrogram α)

namespace Dendrogram

open BitString (pad)

variable {α : Type*}

def leaves : Dendrogram α → List α
  | leaf member => [member]
  | merge zero one => zero.leaves ++ one.leaves

def height : Dendrogram α → Nat
  | leaf _ => 1
  | merge zero one => max zero.height one.height + 1

def code [DecidableEq α] : Dendrogram α → α → List Bool
  | leaf _, _ => [true]
  | merge zero one, member =>
      let height := max zero.height one.height
      if member ∈ zero.leaves then false :: pad height (zero.code member)
      else true :: pad height (one.code member)

def way [DecidableEq α] : Dendrogram α → α → List Bool
  | leaf _, _ => []
  | merge zero one, member =>
      let depth := max zero.height one.height - 1
      if member ∈ zero.leaves then false :: pad depth (zero.way member)
      else true :: pad depth (one.way member)

/-- No leaf is in two clusters that are merged, and an edge joins them. -/
def Joined (adjacent : α → α → Prop) : Dendrogram α → Prop
  | leaf _ => True
  | merge zero one => zero.Joined adjacent ∧ one.Joined adjacent ∧ zero.leaves.Disjoint one.leaves ∧
      ∃ left ∈ zero.leaves, ∃ right ∈ one.leaves, adjacent left right

theorem Joined.mono {adjacent linked : α → α → Prop} {tree : Dendrogram α}
    (joined : tree.Joined adjacent)
    (weaker : ∀ left right, adjacent left right → linked left right) :
    tree.Joined linked := by
  induction tree with
  | leaf _ => trivial
  | merge zero one zeroWeaker oneWeaker =>
      obtain ⟨zeroJoined, oneJoined, disjoint, left, leftInside, right, rightInside, edge⟩ := joined
      exact ⟨zeroWeaker zeroJoined, oneWeaker oneJoined, disjoint, left, leftInside,
        right, rightInside,
        weaker left right edge⟩

theorem exists_leaf (tree : Dendrogram α) : ∃ member, member ∈ tree.leaves := by
  induction tree with
  | leaf member => exact ⟨member, List.mem_singleton_self member⟩
  | merge zero one zeroLeaf _ =>
      obtain ⟨member, inside⟩ := zeroLeaf
      exact ⟨member, List.mem_append_left _ inside⟩

theorem height_pos (tree : Dendrogram α) : 0 < tree.height := by
  cases tree with
  | leaf member => exact Nat.one_pos
  | merge zero one => exact Nat.succ_pos _

theorem height_le_length_leaves (tree : Dendrogram α) : tree.height ≤ tree.leaves.length := by
  induction tree with
  | leaf member => exact Nat.le_refl 1
  | merge zero one zeroBound oneBound =>
      have zeroPositive := zero.height_pos
      have onePositive := one.height_pos
      simp only [height, leaves, List.length_append]
      omega

theorem Joined.nodup_leaves {adjacent : α → α → Prop} {tree : Dendrogram α}
    (joined : tree.Joined adjacent) :
    tree.leaves.Nodup := by
  induction tree with
  | leaf member => exact List.nodup_singleton member
  | merge zero one zeroNodup oneNodup =>
      obtain ⟨zeroJoined, oneJoined, disjoint, -⟩ := joined
      exact (zeroNodup zeroJoined).append (oneNodup oneJoined) disjoint

section Center

variable {adjacent : α → α → Prop} {center : α}
  (through : ∀ left right, adjacent left right → left = center ∨ right = center)
include through

theorem Joined.exists_eq_leaf {tree : Dendrogram α} (joined : tree.Joined adjacent)
    (outside : center ∉ tree.leaves) : ∃ member, tree = leaf member := by
  cases tree with
  | leaf member => exact ⟨member, rfl⟩
  | merge zero one =>
      obtain ⟨-, -, -, left, leftInside, right, rightInside, edge⟩ := joined
      rcases through left right edge with rfl | rfl
      · exact absurd (List.mem_append_left _ leftInside) outside
      · exact absurd (List.mem_append_right _ rightInside) outside

theorem Joined.height_eq_of_center {tree : Dendrogram α} (joined : tree.Joined adjacent) :
    tree.height = tree.leaves.length := by
  induction tree with
  | leaf member => rfl
  | merge zero one zeroHeight oneHeight =>
      obtain ⟨zeroJoined, oneJoined, disjoint, left, leftInside, right, rightInside, edge⟩ := joined
      have zeroPositive := zero.height_pos
      have onePositive := one.height_pos
      rw [height, leaves, List.length_append]
      rcases through left right edge with rfl | rfl
      · obtain ⟨member, rfl⟩ := oneJoined.exists_eq_leaf through (disjoint leftInside)
        rw [zeroHeight zeroJoined] at zeroPositive ⊢
        exact congrArg (· + 1) (Nat.max_eq_left zeroPositive)
      · obtain ⟨member, rfl⟩ := zeroJoined.exists_eq_leaf through fun inside =>
          disjoint inside rightInside
        rw [oneHeight oneJoined] at onePositive ⊢
        exact (congrArg (· + 1) (Nat.max_eq_right onePositive)).trans (Nat.add_comm _ 1)

end Center

section Code

variable [DecidableEq α]

@[simp] theorem length_code (tree : Dendrogram α) (member : α) :
    (tree.code member).length = tree.height := by
  induction tree with
  | leaf _ => rfl
  | merge zero one zeroLength oneLength =>
      simp only [code, height]
      split
      · rw [List.length_cons, BitString.length_pad, zeroLength]
        omega
      · rw [List.length_cons, BitString.length_pad, oneLength]
        omega

theorem getLast?_code (tree : Dendrogram α) (member : α) :
    (tree.code member).getLast? = some true := by
  induction tree with
  | leaf _ => rfl
  | merge zero one zeroLast oneLast =>
      simp only [code]
      split
      · rw [List.getLast?_cons, BitString.getLast?_pad zeroLast]
        rfl
      · rw [List.getLast?_cons, BitString.getLast?_pad oneLast]
        rfl

theorem code_eq_way (tree : Dendrogram α) (member : α) :
    tree.code member = tree.way member ++ [true] := by
  induction tree with
  | leaf _ => rfl
  | merge zero one zeroWay oneWay =>
      have positive := zero.height_pos
      obtain ⟨depth, height⟩ : ∃ depth, max zero.height one.height = depth + 1 :=
        Nat.exists_eq_add_one.mpr (Nat.lt_of_lt_of_le positive (Nat.le_max_left _ _))
      simp only [code, way, height, Nat.add_sub_cancel]
      split
      · rw [zeroWay, BitString.pad_concat, List.cons_append]
      · rw [oneWay, BitString.pad_concat, List.cons_append]

theorem length_way (tree : Dendrogram α) (member : α) :
    (tree.way member).length + 1 = tree.height := by
  rw [← length_code tree member, code_eq_way, List.length_append, List.length_singleton]

theorem code_inj (tree : Dendrogram α) {left right : α} (leftLeaf : left ∈ tree.leaves)
    (rightLeaf : right ∈ tree.leaves) (same : tree.code left = tree.code right) : left = right := by
  induction tree with
  | leaf member =>
      rw [List.mem_singleton.mp leftLeaf, List.mem_singleton.mp rightLeaf]
  | merge zero one zeroInj oneInj =>
      simp only [code] at same
      split at same <;> split at same
      · rename_i leftZero rightZero
        rw [List.cons.injEq, BitString.pad_inj (by simp)] at same
        exact zeroInj leftZero rightZero same.2
      · cases same
      · cases same
      · rename_i leftOne rightOne
        rw [List.cons.injEq, BitString.pad_inj (by simp)] at same
        exact oneInj ((List.mem_append.mp leftLeaf).resolve_left leftOne)
          ((List.mem_append.mp rightLeaf).resolve_left rightOne) same.2

theorem exists_value_one (tree : Dendrogram α) :
    ∃ member ∈ tree.leaves, BitString.value (tree.code member) = 1 := by
  induction tree with
  | leaf member => exact ⟨member, List.mem_singleton_self member, rfl⟩
  | merge zero one zeroLeaf _ =>
      obtain ⟨member, inside, number⟩ := zeroLeaf
      refine ⟨member, List.mem_append_left _ inside, ?_⟩
      simp only [code, if_pos inside]
      rw [BitString.value_false_cons, BitString.value_pad, number]

theorem Joined.exists_clear {adjacent : α → α → Prop} {tree : Dendrogram α}
    (joined : tree.Joined adjacent) (count : Nat) {member : α} (inside : member ∈ tree.leaves) :
    ∃ other ∈ tree.leaves, tree.way other = BitString.clear count (tree.way member) := by
  induction tree generalizing count member with
  | leaf only => exact ⟨member, inside, by simp [way, BitString.clear]⟩
  | merge zero one zeroClear oneClear =>
      obtain ⟨zeroJoined, oneJoined, disjoint, -⟩ := joined
      have zeroPositive := zero.height_pos
      have onePositive := one.height_pos
      cases count with
      | zero =>
          obtain ⟨start, startInside⟩ := zero.exists_leaf
          obtain ⟨other, otherInside, cleared⟩ := zeroClear zeroJoined 0 startInside
          have length := length_way zero start
          have whole : ((merge zero one).way member).length = max zero.height one.height :=
            Nat.succ.inj (length_way (merge zero one) member)
          refine ⟨other, List.mem_append_left _ otherInside, ?_⟩
          rw [BitString.clear_zero, whole, way, if_pos otherInside, cleared, BitString.clear_zero,
            BitString.pad, List.length_replicate,
            List.replicate_append_replicate, ← List.replicate_succ]
          congr 1
          omega
      | succ count =>
          rcases List.mem_append.mp inside with zeroLeaf | oneLeaf
          · obtain ⟨other, otherInside, cleared⟩ := zeroClear zeroJoined
              (count - (max zero.height one.height - 1 - (zero.way member).length)) zeroLeaf
            refine ⟨other, List.mem_append_left _ otherInside, ?_⟩
            rw [way, way, if_pos otherInside, if_pos zeroLeaf, BitString.clear_cons,
              BitString.clear_pad,
              cleared]
          · obtain ⟨other, otherInside, cleared⟩ := oneClear oneJoined
              (count - (max zero.height one.height - 1 - (one.way member).length)) oneLeaf
            refine ⟨other, List.mem_append_right _ otherInside, ?_⟩
            rw [way, way, if_neg fun both => disjoint both otherInside,
              if_neg fun both => disjoint both oneLeaf, BitString.clear_cons,
                BitString.clear_pad, cleared]

def Alike (tree : Dendrogram α) (count : Nat) (member other : α) : Prop :=
  other ∈ tree.leaves ∧ (tree.code other).take count = (tree.code member).take count

theorem alike_merge_zero {zero one : Dendrogram α} (count : Nat) {member : α}
    (inside : member ∈ zero.leaves) (other : α) :
    (merge zero one).Alike (count + 1) member other ↔
      zero.Alike (count - (max zero.height one.height - zero.height)) member other := by
  simp only [Alike, code, if_pos inside]
  by_cases same : other ∈ zero.leaves
  · simp only [same, if_true, leaves, List.mem_append, true_or, true_and, List.take_succ_cons,
      List.cons.injEq]
    rw [BitString.take_pad_inj (by rw [length_code, length_code]), length_code]
  · simp [same]

theorem alike_merge_one {zero one : Dendrogram α} (disjoint : zero.leaves.Disjoint one.leaves)
    (count : Nat) {member : α} (inside : member ∈ one.leaves) (other : α) :
    (merge zero one).Alike (count + 1) member other ↔
      one.Alike (count - (max zero.height one.height - one.height)) member other := by
  have outside : member ∉ zero.leaves := fun both => disjoint both inside
  simp only [Alike, code, if_neg outside]
  by_cases same : other ∈ zero.leaves
  · have different : other ∉ one.leaves := fun both => disjoint same both
    simp [same, different]
  · simp only [same, if_false, leaves, List.mem_append, false_or, List.take_succ_cons,
      List.cons.injEq,
      true_and]
    rw [BitString.take_pad_inj (by rw [length_code, length_code]), length_code]

theorem Joined.alike_connected {adjacent : α → α → Prop}
    (symmetric : ∀ left right, adjacent left right → adjacent right left) {tree : Dendrogram α}
    (joined : tree.Joined adjacent) (count : Nat) {member : α} (inside : member ∈ tree.leaves) :
    ConnectedWithin adjacent (tree.Alike count member) := by
  induction tree generalizing count member with
  | leaf only =>
      refine (ConnectedWithin.singleton adjacent only).congr fun vertex => ?_
      simp [Alike, leaves, code]
  | merge zero one zeroConnected oneConnected =>
      obtain ⟨zeroJoined, oneJoined, disjoint, left, leftInside, right, rightInside, edge⟩ := joined
      -- no prefix leaves both halves, which the edge joins; a prefix leaves one of them
      cases count with
      | zero =>
          have whole := ConnectedWithin.union symmetric (zeroConnected zeroJoined 0 leftInside)
            (oneConnected oneJoined 0 rightInside) ⟨leftInside, rfl⟩ ⟨rightInside, rfl⟩ edge
          refine whole.congr fun vertex => ?_
          simp [Alike, leaves]
      | succ count =>
          rcases List.mem_append.mp inside with zeroLeaf | oneLeaf
          · exact (zeroConnected zeroJoined _ zeroLeaf).congr fun vertex =>
              (alike_merge_zero count zeroLeaf vertex).symm
          · exact (oneConnected oneJoined _ oneLeaf).congr fun vertex =>
              (alike_merge_one disjoint count oneLeaf vertex).symm

theorem exists_first_bits {adjacent : α → α → Prop} {tree : Dendrogram α}
    (joined : tree.Joined adjacent) (tall : 1 < tree.height) :
    ∃ left ∈ tree.leaves, ∃ right ∈ tree.leaves, (tree.code left).head? = some false ∧
      (tree.code right).head? = some true := by
  cases tree with
  | leaf _ => exact (Nat.lt_irrefl 1 tall).elim
  | merge zero one =>
      obtain ⟨left, leftInside⟩ := zero.exists_leaf
      obtain ⟨right, rightInside⟩ := one.exists_leaf
      have outside : right ∉ zero.leaves := fun both => joined.2.2.1 both rightInside
      refine ⟨left, List.mem_append_left _ leftInside, right,
        List.mem_append_right _ rightInside, ?_, ?_⟩
      · simp only [code, if_pos leftInside, List.head?_cons]
      · simp only [code, if_neg outside, List.head?_cons]

end Code

end Dendrogram
