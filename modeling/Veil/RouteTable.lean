import Veil.InterfaceTable

/-! The routing table of a switch, from `routetable.hh` and `routetable.cc`: for every interface and
every bucket up to four routes, the first of which may be the default route. -/

namespace Veil

def maxGwPerBucket : Nat := 4

structure RoutingEntry where
  nexthop : VID
  gateway : VID
  isDefault : Bool
  isValid : Bool
deriving DecidableEq

abbrev Bucket := Vector RoutingEntry maxGwPerBucket

namespace Bucket

def empty : Bucket := Vector.replicate maxGwPerBucket ⟨0, 0, false, false⟩

def defaultEntry (bucket : Bucket) : Option RoutingEntry :=
  bucket.toList.find? fun entry => entry.isValid && entry.isDefault

def totalValidEntries (bucket : Bucket) : Nat := bucket.toList.countP (·.isValid)

/-- Slot 0 takes the default route; the other slots are purged, but keep their default mark. -/
def setDefault (bucket : Bucket) (nexthop gateway : VID) : Bucket :=
  (bucket.map fun entry => { entry with isValid := false }).set 0 ⟨nexthop, gateway, true, true⟩

/-- The first invalid slot takes the route; a full bucket is left as it is. -/
def addAlternate (bucket : Bucket) (nexthop gateway : VID) : Bucket :=
  match bucket.toList.findIdx? fun entry => !entry.isValid with
  | some j => bucket.setIfInBounds j ⟨nexthop, gateway, false, true⟩
  | none => bucket

def invalidate (bucket : Bucket) : Bucket :=
  bucket.map fun entry => { entry with isValid := false, isDefault := false }

theorem defaultEntry_setDefault (bucket : Bucket) (nexthop gateway : VID) :
    (bucket.setDefault nexthop gateway).defaultEntry = some ⟨nexthop, gateway, true, true⟩ := by
  have first : ((bucket.setDefault nexthop gateway).toList.head?) =
      some ⟨nexthop, gateway, true, true⟩ := by
    rw [List.head?_eq_getElem?, Vector.getElem?_toList, Vector.getElem?_eq_getElem (by decide)]
    exact congrArg some (Vector.getElem_set_self _)
  cases slots : (bucket.setDefault nexthop gateway).toList with
  | nil => simp [slots] at first
  | cons entry rest =>
      rw [slots, List.head?_cons, Option.some.injEq] at first
      simp [defaultEntry, slots, first]

theorem mem_setDefault {bucket : Bucket} {nexthop gateway : VID} {entry : RoutingEntry}
    (member : entry ∈ (bucket.setDefault nexthop gateway).toList) (valid : entry.isValid = true) :
    entry = ⟨nexthop, gateway, true, true⟩ := by
  rw [Vector.mem_toList_iff, setDefault] at member
  obtain ⟨j, inside, slot⟩ := Vector.mem_iff_getElem.mp member
  rw [Vector.getElem_set] at slot
  split at slot
  · exact slot.symm
  · rw [Vector.getElem_map] at slot
    subst entry
    cases valid

theorem mem_addAlternate {bucket : Bucket} {nexthop gateway : VID} {entry : RoutingEntry}
    (member : entry ∈ (bucket.addAlternate nexthop gateway).toList) :
    entry = ⟨nexthop, gateway, false, true⟩ ∨ entry ∈ bucket.toList := by
  rw [addAlternate] at member
  split at member
  · rename_i j _
    rw [Vector.mem_toList_iff] at member
    obtain ⟨k, inside, slot⟩ := Vector.mem_iff_getElem.mp member
    rw [Vector.getElem_setIfInBounds] at slot
    split at slot
    · exact Or.inl slot.symm
    · exact Or.inr (Vector.mem_toList_iff.mpr (Vector.mem_iff_getElem.mpr ⟨k, inside, slot⟩))
  · exact Or.inr member

theorem not_mem_invalidate {bucket : Bucket} {entry : RoutingEntry}
    (member : entry ∈ bucket.invalidate.toList) : entry.isValid = false := by
  rw [Vector.mem_toList_iff, invalidate] at member
  obtain ⟨j, inside, slot⟩ := Vector.mem_iff_getElem.mp member
  rw [Vector.getElem_map] at slot
  subst entry
  rfl

theorem not_mem_empty {entry : RoutingEntry} (member : entry ∈ empty.toList) :
    entry.isValid = false := by
  rw [Vector.mem_toList_iff, empty] at member
  rw [Vector.eq_of_mem_replicate member]

end Bucket

structure RouteTable where
  routes : HashTable Nat (HashTable Nat Bucket)
  entrytouse : HashTable Nat Nat

namespace RouteTable

def empty : RouteTable := ⟨∅, ∅⟩

def bucket? (table : RouteTable) (interfaceId b : Nat) : Option Bucket :=
  (table.routes.lookup interfaceId).bind fun inner => inner.lookup b

def defaultRoute (table : RouteTable) (interfaceId b : Nat) : Option (VID × VID) :=
  ((table.bucket? interfaceId b).bind Bucket.defaultEntry).map
    fun entry => (entry.nexthop, entry.gateway)

def setBucket (table : RouteTable) (interfaceId b : Nat) (bucket : Bucket) : RouteTable :=
  { table with
    routes := table.routes.insert interfaceId
      (((table.routes.lookup interfaceId).getD ∅).insert b bucket) }

def updateEntry (table : RouteTable) (interfaces : InterfaceTable) (i : VID) (b : Nat)
    (nh g : VID) (isDefault : Bool) : RouteTable :=
  match interfaces.interfaces.lookup i with
  | none => table
  | some intId =>
      let bucket := (table.bucket? intId b).getD Bucket.empty
      table.setBucket intId b (if isDefault then bucket.setDefault nh g
        else bucket.addAlternate nh g)

/-- The default route of the bucket that `dst` falls into at the interface `myinterface`. `g` is the
caller's gateway variable, which is left alone when the destination is the interface itself. -/
def getRouteDefault (table : RouteTable) (interfaces : InterfaceTable) (dst myinterface g : VID) :
    Option (VID × VID) :=
  match interfaces.interfaces.lookup myinterface with
  | none => none
  | some intId =>
      let b := myinterface.logicalDistance dst
      match table.routes.lookup intId with
      | none => none
      | some rt =>
          if b ≤ 16 then some (myinterface, g)
          else match rt.lookup b with
            | none => none
            | some buck => buck.defaultEntry.map fun entry => (entry.nexthop, entry.gateway)

/-- The next valid route of the bucket in turn. The pick counts valid slots, but the slot that is
copied is the one with that index. -/
def getRouteAlternate (table : RouteTable) (interfaces : InterfaceTable) (dst myinterface g : VID) :
    RouteTable × Option (VID × VID) :=
  match interfaces.interfaces.lookup myinterface with
  | none => (table, none)
  | some intId =>
      let b := myinterface.logicalDistance dst
      match table.routes.lookup intId with
      | none => (table, none)
      | some rt =>
          if b ≤ 16 then (table, some (myinterface, g))
          else match rt.lookup b with
            | none => (table, none)
            | some buck =>
                let last := (table.entrytouse.lookup b).getD 0
                let total := buck.totalValidEntries
                if total = 0 then ({ table with
                  entrytouse := table.entrytouse.insert b last }, none)
                else
                  let pickj := (last + 1) % total
                  ({ table with entrytouse := table.entrytouse.insert b pickj },
                    buck.toList[pickj]?.map fun entry => (entry.nexthop, entry.gateway))

def getRoute (table : RouteTable) (interfaces : InterfaceTable) (dst myinterface g : VID)
    (isDefault : Bool) : RouteTable × Option (VID × VID) :=
  if isDefault then (table, table.getRouteDefault interfaces dst myinterface g)
  else table.getRouteAlternate interfaces dst myinterface g

def expire (table : RouteTable) (interfaceId b : Nat) : RouteTable :=
  match table.bucket? interfaceId b with
  | none => table
  | some bucket => table.setBucket interfaceId b bucket.invalidate

theorem getRouteDefault_of_single {table : RouteTable} {interfaces : InterfaceTable}
    {myinterface dst g : VID} (one : interfaces.IsSingle myinterface)
    (far : 16 < myinterface.logicalDistance dst) :
    table.getRouteDefault interfaces dst myinterface g =
      table.defaultRoute 0 (myinterface.logicalDistance dst) := by
  have found := (one.interfaces myinterface 0).mpr ⟨rfl, rfl⟩
  have notClose : ¬myinterface.logicalDistance dst ≤ 16 := by omega
  simp only [getRouteDefault, defaultRoute, found, bucket?]
  cases inner : table.routes.lookup 0 with
  | none => simp
  | some rt =>
      cases slots : rt.lookup (myinterface.logicalDistance dst) <;> simp [notClose, slots]

theorem getRouteAlternate_routes (table : RouteTable) (interfaces : InterfaceTable)
    (dst myinterface g : VID) :
    (table.getRouteAlternate interfaces dst myinterface g).1.routes = table.routes := by
  simp only [getRouteAlternate]
  repeat' split
  all_goals rfl

theorem bucket?_setBucket (table : RouteTable) (interfaceId b : Nat) (bucket : Bucket)
    (otherId other : Nat) :
    (table.setBucket interfaceId b bucket).bucket? otherId other =
      if otherId = interfaceId ∧ other = b then some bucket else table.bucket? otherId other := by
  simp only [bucket?, setBucket, HashTable.lookup_insert_ite]
  by_cases sameId : otherId = interfaceId
  · subst otherId
    simp only [if_true, Option.bind_some, HashTable.lookup_insert_ite, true_and]
    split
    · rfl
    · cases table.routes.lookup interfaceId <;> simp
  · simp [sameId]

theorem defaultRoute_updateEntry {table : RouteTable} {interfaces : InterfaceTable} {i : VID}
    {intId : Nat} (found : interfaces.interfaces.lookup i = some intId) (b : Nat) (nh g : VID)
    (other : Nat) :
    (table.updateEntry interfaces i b nh g true).defaultRoute intId other =
      if other = b then some (nh, g) else table.defaultRoute intId other := by
  simp only [defaultRoute, updateEntry, found, if_true, bucket?_setBucket, true_and]
  split
  · simp [Bucket.defaultEntry_setDefault]
  · rfl

def HasRoute (table : RouteTable) (interfaceId b : Nat) (entry : RoutingEntry) : Prop :=
  ∃ bucket, table.bucket? interfaceId b = some bucket ∧ entry ∈ bucket.toList ∧ entry.isValid = true

theorem not_hasRoute_empty (interfaceId b : Nat) (entry : RoutingEntry) :
    ¬empty.HasRoute interfaceId b entry := by
  rintro ⟨bucket, stored, -⟩
  cases stored

theorem HasRoute.of_updateEntry {table : RouteTable} {interfaces : InterfaceTable} {i : VID}
    {b : Nat} {nh g : VID} {isDefault : Bool} {otherId other : Nat} {entry : RoutingEntry}
    (route : (table.updateEntry interfaces i b nh g isDefault).HasRoute otherId other entry) :
    table.HasRoute otherId other entry ∨
      interfaces.interfaces.lookup i = some otherId ∧ other = b ∧ entry.nexthop = nh ∧
        entry.gateway = g := by
  rw [updateEntry] at route
  split at route
  · exact Or.inl route
  · rename_i intId found
    obtain ⟨bucket, stored, member, valid⟩ := route
    rw [bucket?_setBucket] at stored
    split at stored
    · rename_i same
      obtain ⟨rfl, rfl⟩ := same
      obtain rfl := Option.some.inj stored
      split at member
      · obtain rfl := Bucket.mem_setDefault member valid
        exact Or.inr ⟨found, rfl, rfl, rfl⟩
      · rcases Bucket.mem_addAlternate member with rfl | earlier
        · exact Or.inr ⟨found, rfl, rfl, rfl⟩
        · cases kept : table.bucket? otherId other with
          | none =>
              rw [kept] at earlier
              rw [Bucket.not_mem_empty earlier] at valid
              cases valid
          | some slots =>
              rw [kept] at earlier
              exact Or.inl ⟨slots, kept, earlier, valid⟩
    · exact Or.inl ⟨bucket, stored, member, valid⟩

theorem HasRoute.of_expire {table : RouteTable} {interfaceId b otherId other : Nat}
    {entry : RoutingEntry} (route : (table.expire interfaceId b).HasRoute otherId other entry) :
    table.HasRoute otherId other entry := by
  rw [expire] at route
  split at route
  · exact route
  · obtain ⟨bucket, stored, member, valid⟩ := route
    rw [bucket?_setBucket] at stored
    split at stored
    · obtain rfl := Option.some.inj stored
      rw [Bucket.not_mem_invalidate member] at valid
      cases valid
    · exact ⟨bucket, stored, member, valid⟩

end RouteTable

end Veil
