import Mathlib.Data.List.AList

/-! Tables with unique keys and an unspecified order of enumeration. The operations and their
lookup lemmas are those of `AList`; this file adds maps over the values, folds over insertions,
and the choice of an order in which a table is walked. -/

/-- Equal keys never repeat. The order of the entries carries no meaning. -/
abbrev HashTable (κ ν : Type) : Type := AList (fun _ : κ => ν)

namespace HashTable

variable {κ ν μ : Type}

/-- The orders in which successive walks over a table visit its keys. Every walk may use an order of
its own. -/
structure IterationOrder (κ : Type) where
  arrange : Nat → List κ → List κ
  perm : ∀ walk keys, (arrange walk keys).Perm keys

namespace IterationOrder

theorem mem_arrange (order : IterationOrder κ) (walk : Nat) (keys : List κ) (key : κ) :
    key ∈ order.arrange walk keys ↔ key ∈ keys :=
  (order.perm walk keys).mem_iff

theorem nodup_arrange (order : IterationOrder κ) (walk : Nat) {keys : List κ}
    (unique : keys.Nodup) : (order.arrange walk keys).Nodup :=
  (order.perm walk keys).nodup_iff.mpr unique

theorem length_arrange (order : IterationOrder κ) (walk : Nat) (keys : List κ) :
    (order.arrange walk keys).length = keys.length :=
  (order.perm walk keys).length_eq

def stored (κ : Type) : IterationOrder κ where
  arrange := fun _ keys => keys
  perm := fun _ _ => List.Perm.refl _

end IterationOrder

variable [DecidableEq κ]

theorem lookup_insert_ite (table : HashTable κ ν) (key other : κ) (value : ν) :
    (table.insert key value).lookup other =
      if other = key then some value else table.lookup other := by
  split
  · rename_i same
    subst other
    exact AList.lookup_insert table
  · rename_i different
    exact AList.lookup_insert_ne different

theorem lookup_erase_ite (table : HashTable κ ν) (key other : κ) :
    (table.erase key).lookup other = if other = key then none else table.lookup other := by
  split
  · rename_i same
    subst other
    exact AList.lookup_erase key table
  · rename_i different
    exact AList.lookup_erase_ne different

theorem lookup_of_erase {table : HashTable κ ν} {key other : κ} {value : ν}
    (found : (table.erase key).lookup other = some value) : table.lookup other = some value := by
  rw [lookup_erase_ite] at found
  split at found
  · cases found
  · exact found

theorem mem_iff_lookup (table : HashTable κ ν) (key : κ) :
    key ∈ table ↔ ∃ value, table.lookup key = some value := by
  rw [← AList.lookup_isSome, Option.isSome_iff_exists]

theorem mem_of_lookup {table : HashTable κ ν} {key : κ} {value : ν}
    (found : table.lookup key = some value) : key ∈ table :=
  (mem_iff_lookup table key).mpr ⟨value, found⟩

def mapValues (f : ν → μ) (table : HashTable κ ν) : HashTable κ μ where
  entries := table.entries.map (Sigma.map id fun _ => f)
  nodupKeys := List.NodupKeys.map₂ (fun _ => f) table.entries table.nodupKeys

@[simp] theorem lookup_mapValues (f : ν → μ) (table : HashTable κ ν) (key : κ) :
    (mapValues f table).lookup key = (table.lookup key).map f :=
  List.dlookup_map₂ (f := fun _ => f) key

@[simp] theorem mem_mapValues (f : ν → μ) (table : HashTable κ ν) (key : κ) :
    key ∈ mapValues f table ↔ key ∈ table := by
  simp [mem_iff_lookup]

omit [DecidableEq κ] in
theorem keys_mapValues (f : ν → μ) (table : HashTable κ ν) :
    (mapValues f table).keys = table.keys :=
  List.map₂_keys (fun _ => f) table.entries

def insertAll (value : κ → ν) (table : HashTable κ ν) (keys : List κ) : HashTable κ ν :=
  keys.foldl (fun stored key => stored.insert key (value key)) table

theorem lookup_insertAll (value : κ → ν) (keys : List κ) (table : HashTable κ ν) (key : κ) :
    (insertAll value table keys).lookup key =
      if key ∈ keys then some (value key) else table.lookup key := by
  induction keys generalizing table with
  | nil => simp [insertAll]
  | cons first rest ih =>
      have tail := ih (table.insert first (value first))
      simp only [insertAll, List.foldl_cons] at tail ⊢
      rw [tail, lookup_insert_ite]
      by_cases later : key ∈ rest <;> by_cases same : key = first <;> simp [later, same]

theorem mem_insertAll (value : κ → ν) (keys : List κ) (table : HashTable κ ν) (key : κ) :
    key ∈ insertAll value table keys ↔ key ∈ keys ∨ key ∈ table := by
  rw [← AList.lookup_isSome, lookup_insertAll]
  split
  · simp [*]
  · simp [*, AList.lookup_isSome]

theorem length_keys_insertAll (value : κ → ν) {keys : List κ} (unique : keys.Nodup) :
    (insertAll value ∅ keys).keys.length = keys.length := by
  refine ((List.perm_ext_iff_of_nodup (insertAll value ∅ keys).keys_nodup unique).mpr ?_).length_eq
  intro key
  rw [← AList.mem_keys, mem_insertAll]
  exact or_iff_left (AList.notMem_empty key)

def retain (keep : κ → ν → Bool) (table : HashTable κ ν) : HashTable κ ν where
  entries := table.entries.filter fun entry => keep entry.1 entry.2
  nodupKeys := table.nodupKeys.sublist List.filter_sublist

theorem lookup_retain_eq_some (keep : κ → ν → Bool) (table : HashTable κ ν) (key : κ) (value : ν) :
    (retain keep table).lookup key = some value ↔
      table.lookup key = some value ∧ keep key value := by
  have member (some : HashTable κ ν) : some.lookup key = Option.some value ↔
      ⟨key, value⟩ ∈ some.entries :=
    AList.mem_lookup_iff
  rw [member, member, retain, List.mem_filter]

section Lists

variable [DecidableEq ν] (table : HashTable κ (List ν)) (key other : κ) (value : ν)

/-- A value is put at the end of a list that does not have it. A missing list counts as empty. -/
def addNew : HashTable κ (List ν) :=
  let values := (table.lookup key).getD []
  table.insert key (if value ∈ values then values else values ++ [value])

theorem mem_addNew (entry : ν) :
    entry ∈ ((table.addNew key value).lookup other).getD [] ↔
      (other = key ∧ entry = value) ∨ entry ∈ (table.lookup other).getD [] := by
  rw [addNew, lookup_insert_ite]
  by_cases same : other = key
  · subst other
    rw [if_pos rfl, Option.getD_some]
    split
    · rename_i known
      constructor
      · exact Or.inr
      · rintro (⟨-, rfl⟩ | member)
        · exact known
        · exact member
    · rw [List.mem_append, List.mem_singleton, or_comm]
      simp
  · simp [same]

theorem addNew_ne_nil (some : table.lookup other ≠ Option.some []) :
    (table.addNew key value).lookup other ≠ Option.some [] := by
  rw [addNew, lookup_insert_ite]
  split
  · split
    · rename_i known
      exact fun empty => List.ne_nil_of_mem known (Option.some.inj empty)
    · exact fun empty => List.append_ne_nil_of_right_ne_nil _ (List.cons_ne_nil _ _)
        (Option.some.inj empty)
  · exact some

end Lists

def Same (first second : HashTable κ ν) : Prop := ∀ key, first.lookup key = second.lookup key

theorem Same.mem_keys {first second : HashTable κ ν} (same : Same first second) (key : κ) :
    key ∈ first.keys ↔ key ∈ second.keys := by
  rw [← AList.mem_keys, ← AList.mem_keys, mem_iff_lookup, mem_iff_lookup, same key]

section Inverse

variable [DecidableEq ν]

def IsInverse (forward : HashTable κ ν) (backward : HashTable ν κ) : Prop :=
  ∀ key value, forward.lookup key = some value ↔ backward.lookup value = some key

variable {forward : HashTable κ ν} {backward : HashTable ν κ} {key : κ} {value : ν}

theorem IsInverse.insert (inverse : IsInverse forward backward)
    (keyAbsent : forward.lookup key = none) (valueAbsent : backward.lookup value = none) :
    IsInverse (forward.insert key value) (backward.insert value key) := by
  intro other stored
  rw [lookup_insert_ite, lookup_insert_ite]
  by_cases same : other = key
  · subst other
    by_cases sameValue : stored = value
    · subst stored
      rw [if_pos rfl, if_pos rfl]
      exact iff_of_true rfl rfl
    · rw [if_pos rfl, if_neg sameValue, ← inverse, keyAbsent, Option.some.injEq]
      exact iff_of_false (Ne.symm sameValue) nofun
  · by_cases sameValue : stored = value
    · subst stored
      rw [if_neg same, if_pos rfl, inverse, valueAbsent, Option.some.injEq]
      exact iff_of_false nofun (Ne.symm same)
    · rw [if_neg same, if_neg sameValue, inverse]

theorem IsInverse.erase (inverse : IsInverse forward backward)
    (found : forward.lookup key = some value) :
    IsInverse (forward.erase key) (backward.erase value) := by
  have back := (inverse key value).mp found
  intro other stored
  rw [lookup_erase_ite, lookup_erase_ite]
  by_cases same : other = key
  · subst other
    rw [if_pos rfl]
    split
    · exact iff_of_false nofun nofun
    · rename_i different
      rw [← inverse, found, Option.some.injEq]
      exact iff_of_false nofun (Ne.symm different)
  · rw [if_neg same]
    split
    · rename_i sameValue
      subst stored
      rw [inverse, back, Option.some.injEq]
      exact iff_of_false (Ne.symm same) nofun
    · exact inverse other stored

end Inverse

theorem length_keys_insert (table : HashTable κ ν) (key : κ) (value : ν) (present : key ∈ table) :
    (table.insert key value).keys.length = table.keys.length := by
  have member : key ∈ table.keys := AList.mem_keys.mp present
  have positive := List.length_pos_of_mem member
  rw [AList.keys_insert, List.length_cons, List.length_erase_of_mem member]
  omega

theorem length_keys_erase (table : HashTable κ ν) (key : κ) (present : key ∈ table) :
    (table.erase key).keys.length + 1 = table.keys.length := by
  have member : key ∈ table.keys := AList.mem_keys.mp present
  have positive := List.length_pos_of_mem member
  rw [AList.keys_erase, List.length_erase_of_mem member]
  omega

end HashTable
