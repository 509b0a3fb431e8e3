import Mathlib.Data.List.Rotate
import Veil.RouteSlots

/-! The rotation of the alternate routes. The routes of a bucket take turns, but buckets of one
number share their turn over all interfaces. -/

namespace Veil

namespace RouteTable

structure Lookup where
  dst : VID
  myinterface : VID

namespace Lookup

variable (interfaces : InterfaceTable)

def level (lookup : Lookup) : Nat := lookup.myinterface.logicalDistance lookup.dst

def asks (interfaceId b : Nat) (lookup : Lookup) : Bool :=
  interfaces.interfaces.lookup lookup.myinterface == some interfaceId && lookup.level == b

def Idle (table : RouteTable) (lookup : Lookup) : Prop :=
  ∀ interfaceId, interfaces.interfaces.lookup lookup.myinterface = some interfaceId →
    (table.slots interfaceId lookup.level).validRoutes = []

end Lookup

def returned (interfaces : InterfaceTable) (interfaceId b : Nat) :
    RouteTable → List Lookup → List (VID × VID)
  | _, [] => []
  | table, lookup :: lookups =>
      let (after, route) := table.getRoute interfaces lookup.dst lookup.myinterface 0 false
      let later := returned interfaces interfaceId b after lookups
      if lookup.asks interfaces interfaceId b then route.toList ++ later else later

/-- Among as many lookups for the bucket as it has routes, every route is returned once. -/
def Fair (interfaces : InterfaceTable) (interfaceId b : Nat) (table : RouteTable)
    (lookups : List Lookup) : Prop :=
  lookups.countP (·.asks interfaces interfaceId b) =
      (table.slots interfaceId b).validRoutes.length →
    (returned interfaces interfaceId b table lookups).Perm (table.slots interfaceId b).validRoutes

section Rotation

variable {table : RouteTable} {interfaces : InterfaceTable} {interfaceId b : Nat}

theorem present_of_routes (some : (table.slots interfaceId b).validRoutes ≠ []) :
    interfaceId ∈ table.routes := by
  by_contra absent
  apply some
  rw [slots, bucket?, AList.lookup_eq_none.mpr absent]
  rfl

theorem getRouteAlternate_keeps (packed : table.Packed) {lookup : Lookup}
    (idle : lookup.level = b → lookup.Idle interfaces table) :
    ((table.getRouteAlternate interfaces lookup.dst lookup.myinterface
        0).1.entrytouse.lookup b).getD 0 =
      (table.entrytouse.lookup b).getD 0 := by
  cases known : interfaces.interfaces.lookup lookup.myinterface with
  | none => simp only [getRouteAlternate, known]
  | some otherId =>
      by_cases present : otherId ∈ table.routes
      · by_cases far : 16 < lookup.myinterface.logicalDistance lookup.dst
        · obtain ⟨count, one⟩ := packed otherId (lookup.myinterface.logicalDistance lookup.dst)
          rcases Nat.eq_zero_or_pos count with none | positive
          · exact (getRouteAlternate_empty known present far one none).2 b
          · obtain ⟨pickj, -, inside, result⟩ :=
              getRouteAlternate_pick (g := 0) known present far one positive
            have different : b ≠ lookup.myinterface.logicalDistance lookup.dst := by
              rintro rfl
              have length := one.validRoutes_length
              have nothing :
                  (table.slots otherId
                  (lookup.myinterface.logicalDistance lookup.dst)).validRoutes =
                  [] := idle rfl otherId known
              rw [nothing] at length
              exact positive.ne length
            rw [result, HashTable.lookup_insert_ite, if_neg different]
        · obtain ⟨rt, stored⟩ := (HashTable.mem_iff_lookup _ _).mp present
          simp only [getRouteAlternate, known, stored, if_pos (Nat.not_lt.mp far)]
      · simp only [getRouteAlternate, known, AList.lookup_eq_none.mpr present]

theorem returned_cons (table : RouteTable) (interfaces : InterfaceTable) (interfaceId b : Nat)
    (lookup : Lookup) (lookups : List Lookup) :
    let served := table.getRouteAlternate interfaces lookup.dst lookup.myinterface 0
    returned interfaces interfaceId b table (lookup :: lookups) =
      (if lookup.asks interfaces interfaceId b then served.2.toList else []) ++
        returned interfaces interfaceId b served.1 lookups := by
  simp only [returned, getRoute, Bool.false_eq_true, if_false]
  split
  · rfl
  · rfl

theorem returned_eq (packed : table.Packed) (far : 16 < b)
    (some : (table.slots interfaceId b).validRoutes ≠ []) {lookups : List Lookup}
    (undisturbed : ∀ lookup ∈ lookups, lookup.level = b →
      lookup.asks interfaces interfaceId b ∨ lookup.Idle interfaces table) :
    returned interfaces interfaceId b table lookups =
      (List.range (lookups.countP (·.asks interfaces interfaceId b))).map fun i =>
        (table.slots interfaceId b).validRoutes.getD
          (((table.entrytouse.lookup b).getD 0 + 1 + i) %
            (table.slots interfaceId b).validRoutes.length)
          (0, 0) := by
  induction lookups generalizing table with
  | nil => rfl
  | cons lookup lookups ih =>
      have same := slots_congr
        (table.getRouteAlternate_routes interfaces lookup.dst lookup.myinterface 0)
      have packedAfter :
          (table.getRouteAlternate interfaces lookup.dst lookup.myinterface 0).1.Packed := by
        intro otherId other
        rw [same]
        exact packed otherId other
      have later := ih packedAfter (by rwa [same]) (by
        intro other member level
        refine (undisturbed other (List.mem_cons_of_mem lookup member) level).imp id
          fun idle id known => ?_
        rw [same]
        exact idle id known)
      rw [same] at later
      rw [returned_cons, later]
      by_cases asks : lookup.asks interfaces interfaceId b = true
      · obtain ⟨known, level⟩ : interfaces.interfaces.lookup lookup.myinterface =
          Option.some interfaceId ∧
            lookup.myinterface.logicalDistance lookup.dst = b := by
          simpa [Lookup.asks, Lookup.level] using asks
        subst level
        obtain ⟨count, one⟩ := packed interfaceId (lookup.myinterface.logicalDistance lookup.dst)
        have length := one.validRoutes_length
        have positive : 0 < count := length ▸ List.length_pos_iff.mpr some
        obtain ⟨pickj, picked, inside, result⟩ :=
          getRouteAlternate_pick (g := 0) known (present_of_routes some) far one positive
        have turn := one.validRoutes_get (picked ▸ Nat.mod_lt _ positive) inside
        rw [if_pos asks, List.countP_cons_of_pos asks, List.range_succ_eq_map,
          List.map_cons, List.map_map,
          result, HashTable.lookup_insert_ite, if_pos rfl, Option.getD_some, Option.toList_some,
          List.singleton_append, length, Nat.add_zero, ← picked, turn]
        refine congrArg _ (List.map_congr_left fun i _ => ?_)
        rw [Function.comp_apply, picked, Nat.add_assoc, Nat.mod_add_mod,
          Nat.add_comm 1 i, ← Nat.add_assoc]
      · rw [if_neg asks, List.countP_cons_of_neg asks, List.nil_append]
        have kept := getRouteAlternate_keeps packed fun level =>
          (undisturbed lookup List.mem_cons_self level).resolve_left asks
        rw [kept]

theorem returned_eq_nil {lookups : List Lookup}
    (none : lookups.countP (·.asks interfaces interfaceId b) = 0) :
    returned interfaces interfaceId b table lookups = [] := by
  induction lookups generalizing table with
  | nil => rfl
  | cons lookup lookups ih =>
      have absent := List.countP_eq_zero.mp none lookup List.mem_cons_self
      rw [List.countP_cons_of_neg absent] at none
      rw [returned_cons, if_neg absent, ih none]
      rfl

theorem map_getD_range {α : Type} (values : List α) (start : Nat) (default : α) :
    (List.range values.length).map (fun i => values.getD ((start + i) % values.length) default) =
      values.rotate start := by
  refine List.ext_getElem (by simp) fun i inside _ => ?_
  have below : i < values.length := by simpa using inside
  have turn : (start + i) % values.length < values.length := Nat.mod_lt _ (Nat.zero_lt_of_lt below)
  rw [List.getElem_map, List.getElem_range, List.getElem_rotate, List.getD_eq_getElem _ _ turn]
  simp only [Nat.add_comm start i]

/-- The rotation is fair where no interface takes turns in between at a bucket of the same
number. -/
theorem fair_of_undisturbed (history : List Call) (far : 16 < b) {lookups : List Lookup}
    (undisturbed : ∀ lookup ∈ lookups, lookup.level = b → lookup.asks interfaces interfaceId b ∨
      lookup.Idle interfaces (history.foldl apply empty)) :
    Fair interfaces interfaceId b (history.foldl apply empty) lookups := by
  intro turns
  by_cases some : ((history.foldl apply empty).slots interfaceId b).validRoutes = []
  · rw [some, List.length_nil] at turns
    rw [some, returned_eq_nil turns]
  · rw [returned_eq (packed_empty.foldl history) far some undisturbed, turns, map_getD_range]
    exact List.rotate_perm _ _

end Rotation

def twoInterfaces : InterfaceTable :=
  InterfaceTable.configure [(0x000000010000, 1), (0x000000020000, 2)] true

def twoBuckets : List Call :=
  [.updateEntry twoInterfaces 0x000000010000 20 5 6 false,
      .updateEntry twoInterfaces 0x000000010000 20 7 8 false,
    .updateEntry twoInterfaces 0x000000020000 20 5 6 false,
      .updateEntry twoInterfaces 0x000000020000 20 7 8 false]

theorem fair_twoBuckets :
    Fair twoInterfaces 0 20 (twoBuckets.foldl apply empty)
      [⟨0x000000090000, 0x000000010000⟩, ⟨0x000000050000, 0x000000010000⟩,
        ⟨0x000000090000, 0x000000010000⟩] := by
  refine fair_of_undisturbed twoBuckets (by decide) fun lookup member level => Or.inl ?_
  simp only [List.mem_cons, List.not_mem_nil, or_false] at member
  rcases member with rfl | rfl | rfl
  · decide
  · revert level
    decide
  · decide

/-- The other interface takes the turn of the first route. -/
theorem not_fair_twoBuckets :
    ¬∀ (history : List Call) (interfaces : InterfaceTable) (interfaceId b : Nat)
        (lookups : List Lookup),
      16 < b → Fair interfaces interfaceId b (history.foldl apply empty) lookups := by
  intro always
  have perm := always twoBuckets twoInterfaces 0 20
    [⟨0x000000090000, 0x000000010000⟩, ⟨0x0000000a0000, 0x000000020000⟩,
      ⟨0x000000090000, 0x000000010000⟩]
    (by decide) (by decide)
  revert perm
  decide

end RouteTable

end Veil
