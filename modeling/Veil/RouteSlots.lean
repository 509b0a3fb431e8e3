import Veil.RouteTable

/-! The slots of a bucket over whole runs of the route table: those in use come first, and the
default route has the first of all. -/

namespace Veil

theorem filter_of_first {α : Type} (holds : α → Bool) {values : List α} {count : Nat}
    (first : ∀ j (inside : j < values.length), holds values[j] = true ↔ j < count) :
    values.filter holds = values.take count := by
  induction values generalizing count with
  | nil => rw [List.filter_nil, List.take_nil]
  | cons value rest ih =>
      have head := first 0 (Nat.succ_pos _)
      have tail : rest.filter holds = rest.take (count - 1) := ih fun j inside =>
        (first (j + 1) (Nat.succ_lt_succ inside)).trans (by omega)
      cases count with
      | zero =>
          have absent : ¬holds value = true := fun held => Nat.lt_irrefl 0 (head.mp held)
          rw [List.filter_cons_of_neg absent, tail, List.take_zero, List.take_zero]
      | succ count =>
          have present : holds value = true := head.mpr (Nat.succ_pos count)
          rw [List.filter_cons_of_pos present, tail, List.take_succ_cons, Nat.succ_sub_one]

namespace Bucket

def validRoutes (bucket : Bucket) : List (VID × VID) :=
  (bucket.toList.filter (·.isValid)).map fun entry => (entry.nexthop, entry.gateway)

/-- The slots in use are the first `count`, and no other slot than the first is marked default. -/
def Packed (bucket : Bucket) (count : Nat) : Prop :=
  count ≤ maxGwPerBucket ∧ ∀ j (inside : j < maxGwPerBucket),
    (bucket[j].isValid = true ↔ j < count) ∧ (bucket[j].isDefault = true → j = 0)

theorem packed_empty : empty.Packed 0 := by
  refine ⟨Nat.zero_le _, fun j inside => ?_⟩
  rw [empty, Vector.getElem_replicate]
  simp

theorem packed_invalidate (bucket : Bucket) : bucket.invalidate.Packed 0 := by
  refine ⟨Nat.zero_le _, fun j inside => ?_⟩
  rw [invalidate, Vector.getElem_map]
  simp

variable {bucket : Bucket} {count : Nat} (packed : bucket.Packed count)
include packed

theorem Packed.setDefault (nexthop gateway : VID) :
    (bucket.setDefault nexthop gateway).Packed 1 := by
  refine ⟨Nat.succ_pos 3, fun j inside => ?_⟩
  rw [Bucket.setDefault, Vector.getElem_set, Vector.getElem_map]
  by_cases first : 0 = j
  · simp [← first]
  · have later : ¬j < 1 := by omega
    rw [if_neg first]
    simpa [later] using (packed.2 j inside).2

theorem Packed.findIdx (free : count < maxGwPerBucket) :
    bucket.toList.findIdx? (fun entry => !entry.isValid) = some count := by
  rw [List.findIdx?_eq_some_iff_getElem]
  refine ⟨by rwa [Vector.length_toList], ?_, fun j earlier => ?_⟩
  · rw [Vector.getElem_toList, Bool.not_eq_true', ← Bool.not_eq_true]
    exact fun valid => Nat.lt_irrefl count ((packed.2 count free).1.mp valid)
  · rw [Vector.getElem_toList]
    simpa using (packed.2 j (Nat.lt_trans earlier free)).1.mpr earlier

theorem Packed.addAlternate (nexthop gateway : VID) :
    ∃ more, (bucket.addAlternate nexthop gateway).Packed more := by
  by_cases free : count < maxGwPerBucket
  · refine ⟨count + 1, free, fun j inside => ?_⟩
    rw [Bucket.addAlternate, packed.findIdx free]
    simp only [Vector.getElem_setIfInBounds]
    by_cases here : count = j
    · simp [here]
    · obtain ⟨valid, marked⟩ := packed.2 j inside
      rw [if_neg here]
      exact ⟨valid.trans (by omega), marked⟩
  · refine ⟨count, ?_⟩
    have full : bucket.toList.findIdx? (fun entry => !entry.isValid) = none := by
      rw [List.findIdx?_eq_none_iff]
      intro entry member
      obtain ⟨j, inside, rfl⟩ := Vector.mem_iff_getElem.mp (Vector.mem_toList_iff.mp member)
      have valid := (packed.2 j inside).1.mpr (by omega)
      rw [valid]
      rfl
    rw [Bucket.addAlternate, full]
    exact packed

theorem Packed.filter_valid : bucket.toList.filter (·.isValid) = bucket.toList.take count := by
  refine filter_of_first _ fun j inside => ?_
  rw [Vector.getElem_toList]
  exact (packed.2 j (by rwa [Vector.length_toList] at inside)).1

theorem Packed.totalValidEntries : bucket.totalValidEntries = count := by
  rw [Bucket.totalValidEntries, List.countP_eq_length_filter, packed.filter_valid, List.length_take,
    Vector.length_toList]
  exact Nat.min_eq_left packed.1

theorem Packed.validRoutes_length : bucket.validRoutes.length = count := by
  rw [validRoutes, List.length_map, ← List.countP_eq_length_filter]
  exact packed.totalValidEntries

theorem Packed.validRoutes_get {j : Nat} (used : j < count) (inside : j < maxGwPerBucket) :
    bucket.validRoutes.getD j (0, 0) = (bucket[j].nexthop, bucket[j].gateway) := by
  rw [validRoutes, packed.filter_valid, List.getD_eq_getElem?_getD, List.getElem?_map,
    List.getElem?_take_of_lt used, Vector.getElem?_toList, Vector.getElem?_eq_getElem inside]
  rfl

theorem Packed.defaultEntry_isSome :
    bucket.defaultEntry.isSome ↔ bucket[0].isValid = true ∧ bucket[0].isDefault = true := by
  rw [defaultEntry, List.find?_isSome]
  constructor
  · rintro ⟨entry, member, both⟩
    rw [Bool.and_eq_true] at both
    obtain ⟨j, inside, rfl⟩ := Vector.mem_iff_getElem.mp (Vector.mem_toList_iff.mp member)
    obtain rfl := (packed.2 j inside).2 both.2
    exact both
  · intro both
    exact ⟨bucket[0], Vector.mem_toList_iff.mpr (Vector.getElem_mem _), by rwa [Bool.and_eq_true]⟩

end Bucket

namespace RouteTable

/-- The calls of a route table. Every call finds the interfaces as they are at its time. -/
inductive Call where
  | updateEntry (interfaces : InterfaceTable) (i : VID) (b : Nat) (nh g : VID) (isDefault : Bool)
  | expire (interfaceId b : Nat)
  | getRoute (interfaces : InterfaceTable) (dst myinterface g : VID) (isDefault : Bool)

def apply (table : RouteTable) : Call → RouteTable
  | .updateEntry interfaces i b nh g isDefault => table.updateEntry interfaces i b nh g isDefault
  | .expire interfaceId b => table.expire interfaceId b
  | .getRoute interfaces dst myinterface g isDefault =>
      (table.getRoute interfaces dst myinterface g isDefault).1

def slots (table : RouteTable) (interfaceId b : Nat) : Bucket :=
  (table.bucket? interfaceId b).getD Bucket.empty

def Packed (table : RouteTable) : Prop :=
  ∀ interfaceId b, ∃ count, (table.slots interfaceId b).Packed count

theorem slots_setBucket (table : RouteTable) (interfaceId b : Nat) (bucket : Bucket)
    (otherId other : Nat) :
    (table.setBucket interfaceId b bucket).slots otherId other =
      if otherId = interfaceId ∧ other = b then bucket else table.slots otherId other := by
  rw [slots, bucket?_setBucket]
  split
  · rfl
  · rfl

theorem getRoute_routes (table : RouteTable) (interfaces : InterfaceTable) (dst myinterface g : VID)
    (isDefault : Bool) :
    (table.getRoute interfaces dst myinterface g isDefault).1.routes = table.routes := by
  rw [getRoute]
  split
  · rfl
  · exact table.getRouteAlternate_routes interfaces dst myinterface g

theorem slots_congr {table other : RouteTable} (same : other.routes = table.routes)
    (interfaceId b : Nat) :
    other.slots interfaceId b = table.slots interfaceId b := by
  rw [slots, slots, bucket?, bucket?, same]

theorem packed_empty : empty.Packed := fun _ _ => ⟨0, Bucket.packed_empty⟩

theorem Packed.setBucket {table : RouteTable} (packed : table.Packed) (interfaceId b : Nat)
    {bucket : Bucket} {count : Nat} (one : bucket.Packed count) :
    (table.setBucket interfaceId b bucket).Packed := by
  intro otherId other
  rw [slots_setBucket]
  split
  · exact ⟨count, one⟩
  · exact packed otherId other

theorem Packed.apply {table : RouteTable} (packed : table.Packed) (call : Call) :
    (table.apply call).Packed := by
  cases call with
  | updateEntry interfaces i b nh g isDefault =>
      rw [RouteTable.apply, updateEntry]
      split
      · exact packed
      · rename_i intId _
        obtain ⟨count, one⟩ := packed intId b
        cases isDefault with
        | true => exact packed.setBucket intId b (one.setDefault nh g)
        | false =>
            obtain ⟨more, added⟩ := one.addAlternate nh g
            exact packed.setBucket intId b added
  | expire interfaceId b =>
      rw [RouteTable.apply, expire]
      split
      · exact packed
      · exact packed.setBucket interfaceId b (Bucket.packed_invalidate _)
  | getRoute interfaces dst myinterface g isDefault =>
      intro interfaceId b
      rw [RouteTable.apply,
        slots_congr (table.getRoute_routes interfaces dst myinterface g isDefault)]
      exact packed interfaceId b

theorem Packed.foldl {table : RouteTable} (packed : table.Packed) (calls : List Call) :
    (calls.foldl RouteTable.apply table).Packed := by
  induction calls generalizing table with
  | nil => exact packed
  | cons call calls ih => exact ih (packed.apply call)

section Lookup

variable {table : RouteTable} {interfaces : InterfaceTable} {dst myinterface g : VID}
  {intId count : Nat}
  (known : interfaces.interfaces.lookup myinterface = some intId) (present : intId ∈ table.routes)
  (far : 16 < myinterface.logicalDistance dst)
  (packed : (table.slots intId (myinterface.logicalDistance dst)).Packed count)
include known present far

theorem getRouteDefault_eq :
    table.getRouteDefault interfaces dst myinterface g =
      (table.slots intId (myinterface.logicalDistance dst)).defaultEntry.map
        fun entry => (entry.nexthop, entry.gateway) := by
  obtain ⟨rt, stored⟩ := (HashTable.mem_iff_lookup _ _).mp present
  simp only [getRouteDefault, known, stored, if_neg (Nat.not_le.mpr far), slots, bucket?,
    Option.bind_some]
  cases rt.lookup (myinterface.logicalDistance dst) with
  | none => rfl
  | some bucket => rfl

include packed

theorem getRouteAlternate_empty (none : count = 0) :
    (table.getRouteAlternate interfaces dst myinterface g).2 = Option.none ∧
      ∀ b, ((table.getRouteAlternate interfaces dst myinterface g).1.entrytouse.lookup b).getD 0 =
        (table.entrytouse.lookup b).getD 0 := by
  obtain ⟨rt, stored⟩ := (HashTable.mem_iff_lookup _ _).mp present
  simp only [getRouteAlternate, known, stored, if_neg (Nat.not_le.mpr far)]
  rw [slots, bucket?, stored, Option.bind_some] at packed
  cases found : rt.lookup (myinterface.logicalDistance dst) with
  | none => exact ⟨rfl, fun b => rfl⟩
  | some bucket =>
      rw [found, Option.getD_some] at packed
      have total : bucket.totalValidEntries = 0 := packed.totalValidEntries.trans none
      simp only [total, if_true, HashTable.lookup_insert_ite]
      refine ⟨trivial, fun b => ?_⟩
      split
      · rename_i same
        rw [same]
        rfl
      · rfl

theorem getRouteAlternate_pick (positive : 0 < count) :
    ∃ pickj,
      pickj = ((table.entrytouse.lookup (myinterface.logicalDistance dst)).getD 0 + 1) % count ∧
      ∃ inside : pickj < maxGwPerBucket,
        table.getRouteAlternate interfaces dst myinterface g =
          ({ table with
              entrytouse := table.entrytouse.insert (myinterface.logicalDistance dst) pickj },
            some ((table.slots intId (myinterface.logicalDistance dst))[pickj].nexthop,
              (table.slots intId (myinterface.logicalDistance dst))[pickj].gateway)) := by
  obtain ⟨rt, stored⟩ := (HashTable.mem_iff_lookup _ _).mp present
  have below := Nat.mod_lt
    ((table.entrytouse.lookup (myinterface.logicalDistance dst)).getD 0 + 1) positive
  refine ⟨_, rfl, Nat.lt_of_lt_of_le below packed.1, ?_⟩
  simp only [getRouteAlternate, known, stored, if_neg (Nat.not_le.mpr far)]
  rw [slots, bucket?, stored, Option.bind_some] at packed
  cases found : rt.lookup (myinterface.logicalDistance dst) with
  | none =>
      rw [found] at packed
      have valid := (packed.2 0 (Nat.succ_pos 3)).1.mpr positive
      cases valid
  | some bucket =>
      rw [found, Option.getD_some] at packed
      have total : bucket.totalValidEntries = count := packed.totalValidEntries
      simp only [total, if_neg positive.ne', slots, bucket?, stored, found, Option.bind_some,
        Option.getD_some]
      have slot := @Vector.getElem?_eq_getElem _ _ bucket _ (Nat.lt_of_lt_of_le below packed.1)
      rw [← Vector.getElem?_toList] at slot
      rw [slot]
      rfl

end Lookup

/-- The slots of every bucket stay packed, so that a lookup of an alternate never returns a route
that is not in use. -/
theorem packed_of_calls (calls : List Call) (interfaceId b : Nat) :
    let table := calls.foldl apply empty
    ∃ count, (table.slots interfaceId b).Packed count ∧
      ∀ (interfaces : InterfaceTable) (dst myinterface g : VID),
        interfaces.interfaces.lookup myinterface = some interfaceId → interfaceId ∈ table.routes →
        16 < myinterface.logicalDistance dst → myinterface.logicalDistance dst = b →
        ((table.getRoute interfaces dst myinterface g false).2.isSome ↔ 0 < count) ∧
          (∀ route, (table.getRoute interfaces dst myinterface g false).2 = some route →
            ∃ j, ∃ inside : j < maxGwPerBucket, (table.slots interfaceId b)[j].isValid = true ∧
              route = ((table.slots interfaceId b)[j].nexthop,
                (table.slots interfaceId b)[j].gateway)) ∧
          ((table.getRoute interfaces dst myinterface g true).2.isSome ↔
            (table.slots interfaceId b)[0].isValid = true ∧
              (table.slots interfaceId b)[0].isDefault = true) := by
  intro table
  obtain ⟨count, packed⟩ := packed_empty.foldl calls interfaceId b
  refine ⟨count, packed, fun interfaces dst myinterface g known present far away => ?_⟩
  subst away
  have byDefault : (table.getRoute interfaces dst myinterface g true).2 =
      (table.slots interfaceId (myinterface.logicalDistance dst)).defaultEntry.map
        fun entry => (entry.nexthop, entry.gateway) := getRouteDefault_eq known present far
  rw [byDefault, Option.isSome_map, packed.defaultEntry_isSome]
  rcases Nat.eq_zero_or_pos count with none | positive
  · have nothing : (table.getRoute interfaces dst myinterface g false).2 = Option.none :=
      (getRouteAlternate_empty known present far packed none).1
    rw [nothing]
    exact ⟨by simp [none], nofun, Iff.rfl⟩
  · obtain ⟨pickj, rfl, inside, result⟩ :=
      getRouteAlternate_pick (g := g) known present far packed positive
    have found : table.getRoute interfaces dst myinterface g false = _ := result
    rw [found]
    refine ⟨iff_of_true rfl positive, ?_, Iff.rfl⟩
    rintro _ ⟨⟩
    exact ⟨_, inside, (packed.2 _ inside).1.mpr (Nat.mod_lt _ positive), rfl⟩

/-- Two routes, a lookup that turns to the second, a default route in the place of both, an
alternate, and another bucket that expires. -/
def bucketCalls : List Call :=
  let interfaces := InterfaceTable.single 0x000000010000 0
  [.updateEntry interfaces 0x000000010000 20 5 6 false,
      .updateEntry interfaces 0x000000010000 20 7 8 false,
    .getRoute interfaces 0x000000090000 0x000000010000 0 false,
    .updateEntry interfaces 0x000000010000 20 5 0x000000010000 true,
    .updateEntry interfaces 0x000000010000 20 7 8 false,
    .updateEntry interfaces 0x000000010000 21 5 6 false, .expire 0 21,
    .getRoute interfaces 0x000000090000 0x000000010000 0 false]

theorem packed_of_calls_twice :
    let interfaces := InterfaceTable.single 0x000000010000 0
    let table := bucketCalls.foldl apply empty
    (∃ count, 0 < count ∧ (table.slots 0 20).Packed count) ∧
      (table.getRoute interfaces 0x000000090000 0x000000010000 0 false).2 = some (7, 8) ∧
      (table.slots 0 20)[0].isValid = true ∧ (table.slots 0 20)[0].isDefault = true := by
  have known :
      (InterfaceTable.single 0x000000010000 0).interfaces.lookup 0x000000010000 = some 0 := by
    decide
  obtain ⟨count, packed, lookups⟩ := packed_of_calls bucketCalls 0 20
  obtain ⟨alternate, -, default⟩ :=
    lookups _ 0x000000090000 _ 0 known (by decide +kernel) (by decide) (by decide)
  refine ⟨⟨count, alternate.mp (by decide +kernel), packed⟩, by decide +kernel, ?_⟩
  exact default.mp (by decide +kernel)

end RouteTable

end Veil
