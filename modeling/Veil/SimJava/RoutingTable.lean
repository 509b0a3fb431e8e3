import Veil.Library.FailFast
import Veil.SimJava.DataForwarding

/-! The routing table of a Java switch, from `RTable.java` and `RTEntry.java`, with the times of
its entries. The strings in it are only compared. -/

namespace Veil

namespace SimJava

structure TimedEntry (α : Type) where
  bucket : Nat
  nexthop : α
  gateway : α
  sTime : Int := 0
deriving DecidableEq

abbrev TimedTable (α : Type) := List (TimedEntry α)

def rtEntryTimeout : Int := 90000

section Table

variable {α : Type} [DecidableEq α]

def TimedEntry.equals (entry other : TimedEntry α) : Bool :=
  entry.nexthop = other.nexthop && entry.gateway = other.gateway && entry.bucket = other.bucket

def TimedEntry.key (entry : TimedEntry α) : Nat × α × α :=
  (entry.bucket, entry.nexthop, entry.gateway)

namespace TimedTable

variable (rtable : TimedTable α)

def inBucket (bucket : Nat) : Nat := rtable.countP fun entry => entry.bucket = bucket

def refresh (time : Int) (entry : TimedEntry α) : TimedTable α → TimedTable α
  | [] => []
  | myentry :: rest =>
      if myentry.equals entry then { myentry with sTime := time } :: rest
      else myentry :: refresh time entry rest

def entryExist (time : Int) (entry : TimedEntry α) : TimedTable α × Bool :=
  (refresh time entry rtable, rtable.any fun myentry => myentry.equals entry)

/-- The loop over the entries, which stops at three. -/
def countBucket (bucket : Nat) : TimedTable α → Nat → Nat
  | [], numofEntry => numofEntry
  | entry :: rest, numofEntry =>
      if entry.bucket = bucket then
        if numofEntry + 1 = 3 then 3 else countBucket bucket rest (numofEntry + 1)
      else countBucket bucket rest numofEntry

def numofEntryPerBucket (bucket : Nat) : Nat := countBucket bucket rtable 0

def insert (newEntry : TimedEntry α) : TimedTable α → TimedTable α
  | [] => [newEntry]
  | entry :: rest =>
      if newEntry.bucket < entry.bucket then newEntry :: entry :: rest
        else entry :: insert newEntry rest

def addEntry (time : Int) (newEntry : TimedEntry α) : TimedTable α :=
  let (refreshed, known) := rtable.entryExist time newEntry
  if known then refreshed
  else if rtable.numofEntryPerBucket newEntry.bucket = 3 then rtable
  else insert { newEntry with sTime := time } rtable

/-- `delEntry(RTEntry)`, on the list that a loop may iterate over. -/
def delEntryFrom (time : Int) (entry : TimedEntry α) (list : FailFast.ArrayList (TimedEntry α)) :
    FailFast.ArrayList (TimedEntry α) :=
  let (refreshed, known) := entryExist list.elements time entry
  if known then
    ({ list with elements := refreshed } : FailFast.ArrayList _).remove entry.equals
  else list

def delEntry (time : Int) (entry : TimedEntry α) : TimedTable α :=
  (delEntryFrom time entry ⟨rtable, 0⟩).elements

/-- `delEntry(String)`: whether it returns, or else throws, and the table after it. -/
def delNexthop (time : Int) (nexthop : α) : Option (Bool × TimedTable α) :=
  let body (myentry : TimedEntry α) (itr : FailFast.Iterator)
      (list : FailFast.ArrayList (TimedEntry α)) :=
    (itr, if myentry.nexthop = nexthop then delEntryFrom time myentry list else list)
  let list : FailFast.ArrayList (TimedEntry α) := ⟨rtable, 0⟩
  (FailFast.whileNext body (rtable.length + 1) list.iterator list).map fun (returned, list) =>
    (returned, list.elements)

def checkEntryExpire (curTime : Int) : Option (Bool × TimedTable α) :=
  let body := FailFast.removeVisited fun entry : TimedEntry α =>
    curTime - entry.sTime > rtEntryTimeout
  let list : FailFast.ArrayList (TimedEntry α) := ⟨rtable, 0⟩
  (FailFast.whileNext body (rtable.length + 1) list.iterator list).map fun (returned, list) =>
    (returned, list.elements)

end TimedTable

theorem all_or_first {β : Type} (holds : β → Prop) (list : List β) : (∀ other ∈ list, holds other) ∨
    ∃ before found after, list = before ++ found :: after ∧ (∀ other ∈ before, holds other) ∧
      ¬holds found := by
  induction list with
  | nil => exact Or.inl fun other member => absurd member List.not_mem_nil
  | cons first rest ih =>
      by_cases here : holds first
      · rcases ih with all | ⟨before, found, after, rfl, kept, fails⟩
        · exact Or.inl (List.forall_mem_cons.mpr ⟨here, all⟩)
        · exact Or.inr ⟨first :: before, found, after, rfl,
            List.forall_mem_cons.mpr ⟨here, kept⟩, fails⟩
      · exact Or.inr ⟨[], first, rest, rfl,
          fun other member => absurd member List.not_mem_nil, here⟩

/-! ### Equal entries -/

namespace TimedEntry

theorem equals_iff {entry other : TimedEntry α} :
    entry.equals other = true ↔
      entry.nexthop = other.nexthop ∧ entry.gateway = other.gateway ∧
        entry.bucket = other.bucket := by
  simp only [equals, Bool.and_eq_true, decide_eq_true_eq, and_assoc]

theorem equals_iff_key {entry other : TimedEntry α} :
    entry.equals other = true ↔ entry.key = other.key := by
  rw [equals_iff, key, key, Prod.mk.injEq, Prod.mk.injEq, and_comm, and_assoc, and_left_comm]
  exact and_congr_right fun _ => and_comm

theorem equals_self (entry : TimedEntry α) : entry.equals entry = true :=
  equals_iff.mpr ⟨rfl, rfl, rfl⟩

theorem equals_comm (entry other : TimedEntry α) : entry.equals other = other.equals entry := by
  rw [Bool.eq_iff_iff, equals_iff, equals_iff]
  simp only [eq_comm]

end TimedEntry

namespace TimedTable

variable {rtable : TimedTable α}

theorem any_refresh (time : Int) (entry : TimedEntry α) (rtable : TimedTable α) :
    (refresh time entry rtable).any entry.equals = rtable.any fun myentry =>
      myentry.equals entry := by
  induction rtable with
  | nil => rfl
  | cons myentry rest ih =>
      rw [refresh]
      split
      · rename_i same
        have still : entry.equals { myentry with sTime := time } = true := by
          rw [TimedEntry.equals_comm]
          exact same
        rw [List.any_cons, List.any_cons, same, still, Bool.true_or, Bool.true_or]
      · rw [List.any_cons, List.any_cons, ih, TimedEntry.equals_comm]

theorem eraseP_refresh (time : Int) (entry : TimedEntry α) (rtable : TimedTable α) :
    (refresh time entry rtable).eraseP entry.equals = rtable.eraseP entry.equals := by
  induction rtable with
  | nil => rfl
  | cons myentry rest ih =>
      rw [refresh]
      split
      · rename_i same
        have still : entry.equals { myentry with sTime := time } = true := by
          rw [TimedEntry.equals_comm]
          exact same
        rw [List.eraseP_cons_of_pos still,
          List.eraseP_cons_of_pos (by rwa [TimedEntry.equals_comm])]
      · rename_i differs
        have differs : ¬entry.equals myentry = true := by rwa [TimedEntry.equals_comm]
        rw [List.eraseP_cons_of_neg differs, List.eraseP_cons_of_neg differs, ih]

/-- The time that `entryExist` sets is that of the entry that is removed. -/
theorem delEntryFrom_eq (time : Int) (entry : TimedEntry α)
    (list : FailFast.ArrayList (TimedEntry α)) :
    delEntryFrom time entry list = list.remove entry.equals := by
  obtain ⟨elements, modCount⟩ := list
  have known : (elements.any fun myentry => myentry.equals entry) = elements.any entry.equals :=
    congrArg elements.any (funext fun myentry => myentry.equals_comm entry)
  simp only [delEntryFrom, entryExist, FailFast.ArrayList.remove, any_refresh,
    eraseP_refresh, known]
  split
  · rfl
  · rfl

/-! ### Deletion -/

theorem delNexthop_eq_loop (rtable : TimedTable α) (time : Int) (nexthop : α) :
    rtable.delNexthop time nexthop =
      (FailFast.whileNext
          (FailFast.removeThrough (fun entry => entry.nexthop = nexthop) TimedEntry.equals)
        (rtable.length + 1) ⟨0, 0⟩ ⟨rtable, 0⟩).map fun (returned, list) =>
          (returned, list.elements) := by
  have body (myentry : TimedEntry α) (itr : FailFast.Iterator)
      (list : FailFast.ArrayList (TimedEntry α)) :
      (itr, if myentry.nexthop = nexthop then delEntryFrom time myentry list else list) =
        FailFast.removeThrough (fun entry => entry.nexthop =
          nexthop) TimedEntry.equals myentry itr list := by
    simp only [FailFast.removeThrough, decide_eq_true_eq, delEntryFrom_eq]
  simp only [delNexthop, body]
  rfl

/-- The loop deletes the first match, and ends without an exception only when exactly one entry is
behind it, which it does not visit. -/
theorem delNexthop_eq (time : Int) (nexthop : α) {before after : TimedTable α}
    {entry : TimedEntry α} (kept : ∀ other ∈ before, other.nexthop ≠ nexthop)
    (found : entry.nexthop = nexthop) :
    (before ++ entry :: after).delNexthop time nexthop =
      some (decide (after.length = 1), before ++ after) := by
  have loop := FailFast.whileNext_drops (fun entry : TimedEntry α => entry.nexthop = nexthop)
    TimedEntry.equals [] before after entry 0 after.length
    (fun other member => decide_eq_false (kept other member)) (decide_eq_true found)
      entry.equals_self
    fun other member => by
      rw [← Bool.not_eq_true, TimedEntry.equals_iff, found]
      exact fun same => kept other member same.1.symm
  have turns : (before ++ entry :: after).length + 1 = before.length + (after.length + 2) := by
    rw [List.length_append, List.length_cons]
    omega
  rw [List.nil_append, List.nil_append, List.length_nil] at loop
  rw [delNexthop_eq_loop, turns, loop]
  rfl

theorem delNexthop_absent (time : Int) {nexthop : α}
    (kept : ∀ other ∈ rtable, other.nexthop ≠ nexthop) :
    rtable.delNexthop time nexthop = some (true, rtable) := by
  have loop := FailFast.whileNext_keeps (fun entry : TimedEntry α => entry.nexthop = nexthop)
    TimedEntry.equals [] rtable 0 fun other member => decide_eq_false (kept other member)
  rw [List.nil_append, List.length_nil] at loop
  rw [delNexthop_eq_loop, loop]
  rfl

theorem delEntry_sublist (rtable : TimedTable α) (time : Int) (entry : TimedEntry α) :
    (rtable.delEntry time entry).Sublist rtable := by
  rw [delEntry, delEntryFrom_eq, FailFast.ArrayList.remove]
  split
  · exact List.eraseP_sublist
  · exact List.Sublist.refl rtable

theorem delNexthop_sublist (rtable : TimedTable α) (time : Int) (nexthop : α) :
    ∃ returned after, rtable.delNexthop time nexthop = some (returned, after) ∧
      after.Sublist rtable := by
  rcases all_or_first (fun other => other.nexthop ≠ nexthop) rtable with
    kept | ⟨before, entry, after, rfl, kept, same⟩
  · exact ⟨true, rtable, delNexthop_absent time kept, List.Sublist.refl rtable⟩
  · exact ⟨_, _, delNexthop_eq time nexthop kept (not_not.mp same),
      List.Sublist.append (List.Sublist.refl before) (List.sublist_cons_self entry after)⟩

theorem getLast?_delNexthop {time : Int} {nexthop : α} {after : TimedTable α}
    (deleted : rtable.delNexthop time nexthop = some (true, after)) :
    after.getLast? = rtable.getLast? := by
  rcases all_or_first (fun other => other.nexthop ≠ nexthop) rtable with
    kept | ⟨before, entry, rest, rfl, kept, same⟩
  · rw [delNexthop_absent time kept] at deleted
    cases deleted
    rfl
  · rw [delNexthop_eq time nexthop kept (not_not.mp same), Option.some.injEq, Prod.mk.injEq,
      decide_eq_true_eq] at deleted
    obtain ⟨one, rfl⟩ := deleted
    obtain ⟨last, rfl⟩ := List.length_eq_one_iff.mp one
    rw [List.getLast?_append, List.getLast?_append]
    rfl

omit [DecidableEq α] in
theorem checkEntryExpire_eq (rtable : TimedTable α) (curTime : Int) :
    rtable.checkEntryExpire curTime =
      some (true, rtable.filter fun entry =>
        ! decide (curTime - entry.sTime > rtEntryTimeout)) := by
  obtain ⟨changes, loop⟩ := FailFast.whileNext_removeVisited
    (fun entry : TimedEntry α => curTime - entry.sTime > rtEntryTimeout) [] rtable 0
  rw [List.nil_append, List.length_nil] at loop
  rw [checkEntryExpire, FailFast.ArrayList.iterator]
  dsimp only
  rw [loop]
  rfl

/-! ### Addition -/

section Buckets

omit [DecidableEq α]

theorem countBucket_eq (bucket numofEntry : Nat) (few : numofEntry < 3) (rtable : TimedTable α) :
    countBucket bucket rtable numofEntry = min 3 (numofEntry + rtable.inBucket bucket) := by
  induction rtable generalizing numofEntry with
  | nil =>
      rw [countBucket, inBucket, List.countP_nil]
      omega
  | cons entry rest ih =>
      rw [countBucket, inBucket, List.countP_cons, ← inBucket]
      by_cases same : entry.bucket = bucket
      · rw [if_pos same, if_pos (decide_eq_true same)]
        split
        · omega
        · rw [ih (numofEntry + 1) (by omega)]
          omega
      · rw [if_neg same, if_neg (by rwa [decide_eq_true_eq]), ih numofEntry few]
        rfl

theorem numofEntryPerBucket_eq (rtable : TimedTable α) (bucket : Nat) :
    rtable.numofEntryPerBucket bucket = min 3 (rtable.inBucket bucket) := by
  rw [numofEntryPerBucket, countBucket_eq bucket 0 (by decide), Nat.zero_add]

theorem insert_perm (newEntry : TimedEntry α) (rtable : TimedTable α) :
    (insert newEntry rtable).Perm (newEntry :: rtable) := by
  induction rtable with
  | nil => exact List.Perm.refl _
  | cons entry rest ih =>
      rw [insert]
      split
      · exact List.Perm.refl _
      · exact (ih.cons entry).trans (List.Perm.swap newEntry entry rest)

theorem sorted_insert (newEntry : TimedEntry α) {rtable : TimedTable α}
    (sorted : rtable.Pairwise fun entry other => entry.bucket ≤ other.bucket) :
    (insert newEntry rtable).Pairwise fun entry other => entry.bucket ≤ other.bucket := by
  induction rtable with
  | nil => exact List.pairwise_singleton _ _
  | cons entry rest ih =>
      obtain ⟨first, later⟩ := List.pairwise_cons.mp sorted
      rw [insert]
      split
      · rename_i before
        refine List.pairwise_cons.mpr ⟨fun other member => ?_, sorted⟩
        rcases List.mem_cons.mp member with rfl | member
        · exact Nat.le_of_lt before
        · exact Nat.le_trans (Nat.le_of_lt before) (first other member)
      · rename_i behind
        refine List.pairwise_cons.mpr ⟨fun other member => ?_, ih later⟩
        rcases List.mem_cons.mp ((insert_perm newEntry rest).mem_iff.mp member) with rfl | member
        · exact Nat.le_of_not_lt behind
        · exact first other member

theorem inBucket_eq_keys (rtable : TimedTable α) (bucket : Nat) :
    rtable.inBucket bucket = (rtable.map TimedEntry.key).countP fun key => key.1 = bucket := by
  rw [inBucket, List.countP_map]
  rfl

def firstNexthop (rtable : TimedTable α) (bucket : Nat) : Option α :=
  (rtable.find? fun entry => entry.bucket = bucket).map (·.nexthop)

theorem firstNexthop_isSome_iff {rtable : TimedTable α} {bucket : Nat} :
    (rtable.firstNexthop bucket).isSome = true ↔ ∃ entry ∈ rtable, entry.bucket = bucket := by
  simp [firstNexthop]

theorem firstNexthop_eq_keys (rtable : TimedTable α) (bucket : Nat) : rtable.firstNexthop bucket =
    ((rtable.map TimedEntry.key).find? fun key => key.1 = bucket).map fun key => key.2.1 := by
  rw [firstNexthop, List.find?_map, Option.map_map]
  rfl

theorem firstNexthop_insert {newEntry : TimedEntry α} {bucket : Nat}
    (other_bucket : newEntry.bucket ≠ bucket) (rtable : TimedTable α) :
    firstNexthop (insert newEntry rtable) bucket = rtable.firstNexthop bucket := by
  have skip (rest : TimedTable α) : firstNexthop (newEntry :: rest) bucket =
      firstNexthop rest bucket := by
    rw [firstNexthop, List.find?_cons_of_neg (by simpa using other_bucket), firstNexthop]
  induction rtable with
  | nil => exact skip []
  | cons entry rest ih =>
      rw [insert]
      split
      · exact skip _
      · rw [firstNexthop, firstNexthop, List.find?_cons, List.find?_cons]
        split
        · rfl
        · exact ih

end Buckets

theorem refresh_keys (time : Int) (entry : TimedEntry α) (rtable : TimedTable α) :
    (refresh time entry rtable).map TimedEntry.key = rtable.map TimedEntry.key := by
  induction rtable with
  | nil => rfl
  | cons myentry rest ih =>
      rw [refresh]
      split
      · rfl
      · rw [List.map_cons, List.map_cons, ih]

theorem addEntry_cases (rtable : TimedTable α) (time : Int) (newEntry : TimedEntry α) :
    (newEntry.key ∈ rtable.map TimedEntry.key ∧
        (rtable.addEntry time newEntry).map TimedEntry.key = rtable.map TimedEntry.key) ∨
      (newEntry.key ∉ rtable.map TimedEntry.key ∧ 3 ≤ rtable.inBucket newEntry.bucket ∧
        rtable.addEntry time newEntry = rtable) ∨
      (newEntry.key ∉ rtable.map TimedEntry.key ∧ rtable.inBucket newEntry.bucket < 3 ∧
        rtable.addEntry time newEntry = insert { newEntry with sTime := time } rtable) := by
  have known : (rtable.entryExist time newEntry).2 = true ↔
      newEntry.key ∈ rtable.map TimedEntry.key := by
    simp only [entryExist, List.any_eq_true, List.mem_map, TimedEntry.equals_iff_key]
  have counted := rtable.numofEntryPerBucket_eq newEntry.bucket
  have branches : rtable.addEntry time newEntry =
      if (rtable.entryExist time newEntry).2 then refresh time newEntry rtable
      else if rtable.numofEntryPerBucket newEntry.bucket = 3 then rtable
      else insert { newEntry with sTime := time } rtable := rfl
  rw [branches]
  by_cases exist : (rtable.entryExist time newEntry).2 = true
  · rw [if_pos exist]
    exact Or.inl ⟨known.mp exist, refresh_keys time newEntry rtable⟩
  · rw [if_neg exist]
    have absent := fun member => exist (known.mpr member)
    by_cases full : rtable.numofEntryPerBucket newEntry.bucket = 3
    · rw [if_pos full]
      exact Or.inr (Or.inl ⟨absent, by omega, rfl⟩)
    · rw [if_neg full]
      exact Or.inr (Or.inr ⟨absent, by omega, rfl⟩)

theorem mem_keys_addEntry {rtable : TimedTable α} {time : Int} {newEntry : TimedEntry α}
    {key : Nat × α × α} :
    key ∈ (rtable.addEntry time newEntry).map TimedEntry.key ↔
      key ∈ rtable.map TimedEntry.key ∨
        key = newEntry.key ∧ rtable.inBucket newEntry.bucket < 3 := by
  rcases rtable.addEntry_cases time newEntry with
    ⟨known, same⟩ | ⟨absent, full, same⟩ | ⟨absent, few, same⟩
  · rw [same]
    refine ⟨Or.inl, ?_⟩
    rintro (old | ⟨rfl, -⟩)
    · exact old
    · exact known
  · rw [same]
    refine ⟨Or.inl, ?_⟩
    rintro (old | ⟨-, few⟩)
    · exact old
    · exact absurd few (Nat.not_lt.mpr full)
  · rw [same, ((insert_perm _ rtable).map TimedEntry.key).mem_iff, List.map_cons,
      List.mem_cons, or_comm,
      and_iff_left few]
    rfl

theorem inBucket_addEntry (rtable : TimedTable α) (time : Int) (newEntry : TimedEntry α)
    (bucket : Nat) :
    (rtable.addEntry time newEntry).inBucket bucket = rtable.inBucket bucket +
      if newEntry.bucket = bucket ∧ newEntry.key ∉ rtable.map TimedEntry.key ∧
        rtable.inBucket bucket < 3
      then 1 else 0 := by
  rcases rtable.addEntry_cases time newEntry with
    ⟨known, same⟩ | ⟨absent, full, same⟩ | ⟨absent, few, same⟩
  · rw [inBucket_eq_keys, same, ← inBucket_eq_keys, if_neg fun new => new.2.1 known, Nat.add_zero]
  · rw [same, if_neg, Nat.add_zero]
    rintro ⟨rfl, -, few⟩
    exact absurd few (Nat.not_lt.mpr full)
  · rw [same, inBucket, (insert_perm _ rtable).countP_eq, List.countP_cons, ← inBucket]
    by_cases here : newEntry.bucket = bucket
    · subst here
      rw [if_pos (decide_eq_true rfl), if_pos ⟨rfl, absent, few⟩]
    · rw [if_neg (by simpa using here), if_neg fun new => here new.1]

/-- Sorted by bucket, at most three entries in each, and no two that are equal. -/
structure Ordered (rtable : TimedTable α) : Prop where
  sorted : rtable.Pairwise fun entry other => entry.bucket ≤ other.bucket
  few : ∀ bucket, rtable.inBucket bucket ≤ 3
  distinct : rtable.Pairwise fun entry other => entry.equals other = false

theorem ordered_iff_keys (rtable : TimedTable α) : rtable.Ordered ↔
    (rtable.map TimedEntry.key).Pairwise (fun key other => key.1 ≤ other.1) ∧
      (∀ bucket, rtable.inBucket bucket ≤ 3) ∧ (rtable.map TimedEntry.key).Nodup := by
  have distinct : (rtable.map TimedEntry.key).Nodup ↔
      rtable.Pairwise fun entry other => entry.equals other = false := by
    rw [List.Nodup, List.pairwise_map]
    simp only [← Bool.not_eq_true, TimedEntry.equals_iff_key, ne_eq]
  rw [List.pairwise_map, distinct]
  exact ⟨fun ordered => ⟨ordered.sorted, ordered.few, ordered.distinct⟩,
    fun parts => ⟨parts.1, parts.2.1, parts.2.2⟩⟩

theorem Ordered.sublist {rtable other : TimedTable α} (ordered : rtable.Ordered)
    (fewer : other.Sublist rtable) :
    other.Ordered where
  sorted := ordered.sorted.sublist fewer
  few := fun bucket => Nat.le_trans fewer.countP_le (ordered.few bucket)
  distinct := ordered.distinct.sublist fewer

theorem Ordered.addEntry {rtable : TimedTable α} (ordered : rtable.Ordered) (time : Int)
    (newEntry : TimedEntry α) : (rtable.addEntry time newEntry).Ordered := by
  have few (bucket : Nat) : (rtable.addEntry time newEntry).inBucket bucket ≤ 3 := by
    have before := ordered.few bucket
    rw [inBucket_addEntry]
    split
    · rename_i new
      exact Nat.succ_le_of_lt new.2.2
    · exact before
  rcases rtable.addEntry_cases time newEntry with
    ⟨known, same⟩ | ⟨absent, full, same⟩ | ⟨absent, room, same⟩
  · obtain ⟨sorted, -, distinct⟩ := (ordered_iff_keys rtable).mp ordered
    rw [← same] at sorted distinct
    exact (ordered_iff_keys _).mpr ⟨sorted, few, distinct⟩
  · rw [same]
    exact ordered
  · refine ⟨?_, few, ?_⟩
    · rw [same]
      exact sorted_insert _ ordered.sorted
    · rw [same]
      refine ((insert_perm _ rtable).pairwise_iff ?_).mpr
        (List.pairwise_cons.mpr ⟨?_, ordered.distinct⟩)
      · intro entry other differ
        rwa [TimedEntry.equals_comm]
      · intro other member
        rw [← Bool.not_eq_true, TimedEntry.equals_iff_key]
        exact fun equal => absent (List.mem_map.mpr ⟨other, member, equal.symm⟩)

theorem firstNexthop_addEntry {newEntry : TimedEntry α} {bucket : Nat}
    (other_bucket : newEntry.bucket ≠ bucket) (rtable : TimedTable α) (time : Int) :
    (rtable.addEntry time newEntry).firstNexthop bucket = rtable.firstNexthop bucket := by
  rcases rtable.addEntry_cases time newEntry with ⟨-, same⟩ | ⟨-, -, same⟩ | ⟨-, -, same⟩
  · rw [firstNexthop_eq_keys, same, ← firstNexthop_eq_keys]
  · rw [same]
  · rw [same]
    exact @firstNexthop_insert α { newEntry with sTime := time } bucket other_bucket rtable

/-! ### The routes through a failed neighbour -/

def DeletesExactly (rtable : TimedTable α) (time : Int) (nexthop : α) : Prop :=
  rtable.delNexthop time nexthop = some (true, rtable.filter fun entry => entry.nexthop ≠ nexthop)

def OnlyLastButOne (rtable : TimedTable α) (nexthop : α) : Prop :=
  ∀ i entry, rtable[i]? = some entry → entry.nexthop = nexthop → i + 2 = rtable.length

theorem filter_of_absent {nexthop : α} (kept : ∀ other ∈ rtable, other.nexthop ≠ nexthop) :
    rtable.filter (fun entry => entry.nexthop ≠ nexthop) = rtable :=
  List.filter_eq_self.mpr fun other member => by simpa using kept other member

omit [DecidableEq α] in
theorem onlyLastButOne_iff {nexthop : α} : rtable.OnlyLastButOne nexthop ↔
    (∀ other ∈ rtable, other.nexthop ≠ nexthop) ∨
      ∃ before entry last, rtable = before ++ [entry, last] ∧
      (∀ other ∈ before, other.nexthop ≠ nexthop) ∧ entry.nexthop = nexthop ∧
        last.nexthop ≠ nexthop := by
  constructor
  · intro only
    rcases all_or_first (fun other => other.nexthop ≠ nexthop) rtable with
      kept | ⟨before, entry, after, rfl, kept, same⟩
    · exact Or.inl kept
    · have place : (before ++ entry :: after)[before.length]? = some entry := by
        rw [List.getElem?_append_right (Nat.le_refl _), Nat.sub_self, List.getElem?_cons_zero]
      have size := only before.length entry place (not_not.mp same)
      rw [List.length_append, List.length_cons] at size
      have one : after.length = 1 := by omega
      obtain ⟨last, rfl⟩ := List.length_eq_one_iff.mp one
      refine Or.inr ⟨before, entry, last, rfl, kept, not_not.mp same, fun through => ?_⟩
      have at_last : (before ++ [entry, last])[before.length + 1]? = some last := by
        rw [List.getElem?_append_right (Nat.le_add_right _ _), Nat.add_sub_cancel_left]
        rfl
      have beyond := only (before.length + 1) last at_last through
      rw [List.length_append] at beyond
      simp only [List.length_cons, List.length_nil] at beyond
      omega
  · rintro (kept | ⟨before, entry, last, rfl, kept, same, differs⟩) i other at_i through
    · exact absurd through (kept other (List.mem_of_getElem? at_i))
    · have size : (before ++ [entry, last]).length = before.length + 2 := List.length_append
      rw [size, Nat.add_right_cancel_iff]
      rcases Nat.lt_trichotomy i before.length with early | here | late
      · rw [List.getElem?_append_left early] at at_i
        exact absurd through (kept other (List.mem_of_getElem? at_i))
      · exact here
      · obtain ⟨offset, rfl⟩ : ∃ offset, i = before.length + (offset + 1) :=
          ⟨i - before.length - 1, by omega⟩
        rw [List.getElem?_append_right (Nat.le_add_right _ _), Nat.add_sub_cancel_left,
          List.getElem?_cons_succ] at at_i
        rw [List.mem_singleton.mp (List.mem_of_getElem? at_i)] at through
        exact absurd through differs

theorem OnlyLastButOne.deletesExactly {nexthop : α} (only : rtable.OnlyLastButOne nexthop)
    (time : Int) :
    rtable.DeletesExactly time nexthop := by
  rcases onlyLastButOne_iff.mp only with kept | ⟨before, entry, last, rfl, kept, same, differs⟩
  · rw [DeletesExactly, delNexthop_absent time kept, filter_of_absent kept]
  · have behind : ∀ other ∈ [last], other.nexthop ≠ nexthop := fun other member => by
      rwa [List.mem_singleton.mp member]
    rw [DeletesExactly, delNexthop_eq time nexthop kept same, List.filter_append,
      filter_of_absent kept,
      List.filter_cons_of_neg (by simpa using same), filter_of_absent behind]
    rfl

theorem onlyLastButOne_of_returned {time : Int} {nexthop : α} {after : TimedTable α}
    (deleted : rtable.delNexthop time nexthop = some (true, after))
    (last : ∀ entry, rtable.getLast? = some entry → entry.nexthop ≠ nexthop) :
    rtable.OnlyLastButOne nexthop := by
  rw [onlyLastButOne_iff]
  rcases all_or_first (fun other => other.nexthop ≠ nexthop) rtable with
    kept | ⟨before, entry, rest, rfl, kept, same⟩
  · exact Or.inl kept
  · rw [delNexthop_eq time nexthop kept (not_not.mp same), Option.some.injEq, Prod.mk.injEq,
      decide_eq_true_eq] at deleted
    obtain ⟨final, rfl⟩ := List.length_eq_one_iff.mp deleted.1
    refine Or.inr ⟨before, entry, final, rfl, kept, not_not.mp same, last final ?_⟩
    rw [List.getLast?_append]
    rfl

theorem deletesExactly_iff (rtable : TimedTable α) (time : Int) (nexthop : α) :
    rtable.DeletesExactly time nexthop ↔ rtable.OnlyLastButOne nexthop := by
  refine ⟨fun exactly => onlyLastButOne_of_returned exactly fun entry last => ?_, fun only =>
    only.deletesExactly time⟩
  rw [← getLast?_delNexthop exactly] at last
  simpa using (List.mem_filter.mp (List.mem_of_getLast? last)).2

/-- The only entry of a table is deleted, and then the iterator throws. -/
theorem delNexthop_throws : ¬(addEntry [] 0
    (⟨1, "00000000000000000000000000000001", "00000000000000000000000000000000",
      0⟩ : TimedEntry String)
    : TimedTable String).DeletesExactly 5000 "00000000000000000000000000000001" := by
  let entry : TimedEntry String :=
    ⟨1, "00000000000000000000000000000001", "00000000000000000000000000000000", 0⟩
  have deleted :
      delNexthop ([] ++ entry :: []) 5000 "00000000000000000000000000000001" = some (false, []) :=
    delNexthop_eq 5000 _ (fun other member => absurd member List.not_mem_nil) rfl
  intro exactly
  have same := deleted.symm.trans exactly
  cases same

end TimedTable

end Table

end SimJava

end Veil
