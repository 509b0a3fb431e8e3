import Veil.Library.HashTable
import Veil.Vid

/-! The interfaces of a switch, from `interfacetable.hh` and `interfacetable.cc`. -/

namespace Veil

structure InterfaceTable where
  interfaces : HashTable VID Nat
  rinterfaces : HashTable Nat VID
  etheraddToInterfaceIndex : HashTable EtherAddress Nat
  interfaceIndexToEtherAddr : HashTable Nat EtherAddress
  isvidset : HashTable Nat Bool
  isVIDAssignmentDone : Bool

namespace InterfaceTable

/-- The result, and what is written to `*i`: the index is written even when the reverse mapping
disagrees. A missing reverse mapping reads as the zero VID. -/
def lookupVidEntry (table : InterfaceTable) (ivid : VID) : Bool × Option Nat :=
  match table.interfaces.lookup ivid with
  | some i => ((table.rinterfaces.lookup i).getD 0 == ivid, some i)
  | none => (false, none)

def lookupIntEntry (table : InterfaceTable) (i : Nat) : Option VID := table.rinterfaces.lookup i

def numInterfaces (table : InterfaceTable) : Nat := table.etheraddToInterfaceIndex.keys.length

def getMacAddr (table : InterfaceTable) (i : Nat) : Option EtherAddress :=
  table.interfaceIndexToEtherAddr.lookup i

def empty : InterfaceTable := ⟨∅, ∅, ∅, ∅, ∅, false⟩

/-- The loop over the arguments, two for each interface, from the interface `index` on. -/
def configureFrom (index : Nat) : List (VID × EtherAddress) → InterfaceTable → InterfaceTable
  | [], table => table
  | (interface, macadd) :: conf, table =>
      configureFrom (index + 1) conf
        { table with
          interfaces := table.interfaces.insert interface index
          rinterfaces := table.rinterfaces.insert index interface
          isvidset := table.isvidset.insert index false
          etheraddToInterfaceIndex := table.etheraddToInterfaceIndex.insert macadd index
          interfaceIndexToEtherAddr := table.interfaceIndexToEtherAddr.insert index macadd }

/-- Without static VIDs the configured ones stay in `rinterfaces` only. -/
def configure (conf : List (VID × EtherAddress)) (useStatic : Bool) : InterfaceTable :=
  let table := configureFrom 0 conf empty
  { table with
    isvidset := HashTable.mapValues (fun _ => useStatic) table.isvidset
    isVIDAssignmentDone := useStatic
    interfaces := if useStatic then table.interfaces else ∅ }

structure Configured (table : InterfaceTable) : Prop where
  inverse : HashTable.IsInverse table.etheraddToInterfaceIndex table.interfaceIndexToEtherAddr
  ports : ∀ i, table.getMacAddr i = none ↔ table.numInterfaces ≤ i
  vids : ∀ i, table.lookupIntEntry i = none ↔ table.numInterfaces ≤ i

def single (vid : VID) (mac : EtherAddress) : InterfaceTable where
  interfaces := AList.singleton vid 0
  rinterfaces := AList.singleton 0 vid
  etheraddToInterfaceIndex := AList.singleton mac 0
  interfaceIndexToEtherAddr := AList.singleton 0 mac
  isvidset := AList.singleton 0 true
  isVIDAssignmentDone := true

structure IsSingle (table : InterfaceTable) (vid : VID) : Prop where
  interfaces : ∀ other i, table.interfaces.lookup other = some i ↔ other = vid ∧ i = 0
  rinterfaces : table.rinterfaces.lookup 0 = some vid
  count : table.numInterfaces = 1

theorem IsSingle.lookupVidEntry_self {table : InterfaceTable} {vid : VID}
    (one : table.IsSingle vid) : table.lookupVidEntry vid = (true, some 0) := by
  have found := (one.interfaces vid 0).mpr ⟨rfl, rfl⟩
  simp [lookupVidEntry, found, one.rinterfaces]

theorem IsSingle.lookup_ne {table : InterfaceTable} {vid other : VID} (one : table.IsSingle vid)
    (different : other ≠ vid) : table.interfaces.lookup other = none := by
  cases found : table.interfaces.lookup other with
  | none => rfl
  | some i => exact (different ((one.interfaces other i).mp found).1).elim

theorem configureFrom_configured {index : Nat} {conf : List (VID × EtherAddress)}
    {table : InterfaceTable} (distinct : (conf.map (·.2)).Nodup)
    (fresh : ∀ mac ∈ conf.map (·.2), table.etheraddToInterfaceIndex.lookup mac = none)
    (configured : table.Configured) (count : table.numInterfaces = index) :
    (configureFrom index conf table).Configured := by
  induction conf generalizing index table with
  | nil => exact configured
  | cons first conf ih =>
      obtain ⟨interface, macadd⟩ := first
      rw [List.map_cons, List.nodup_cons] at distinct
      have unused := fresh macadd List.mem_cons_self
      have absent : macadd ∉ table.etheraddToInterfaceIndex.keys := by
        rw [← AList.mem_keys, ← AList.lookup_eq_none]
        exact unused
      have counted : (table.etheraddToInterfaceIndex.insert macadd index).keys.length =
          index + 1 := by
        rw [AList.keys_insert, List.erase_of_not_mem absent, List.length_cons]
        exact congrArg Nat.succ count
      have beyond (i : Nat) : i ≠ index → (index ≤ i ↔ index + 1 ≤ i) := by omega
      refine ih distinct.2 ?_ ⟨?_, ?_, ?_⟩ counted
      · intro mac later
        have other : mac ≠ macadd := by
          rintro rfl
          exact distinct.1 later
        rw [HashTable.lookup_insert_ite, if_neg other]
        exact fresh mac (List.mem_cons_of_mem _ later)
      · exact configured.inverse.insert unused ((configured.ports index).mpr (Nat.le_of_eq count))
      · intro i
        simp only [getMacAddr, numInterfaces, counted, HashTable.lookup_insert_ite]
        by_cases same : i = index
        · simp [same]
        · rw [if_neg same, ← beyond i same, ← count]
          exact configured.ports i
      · intro i
        simp only [lookupIntEntry, numInterfaces, counted, HashTable.lookup_insert_ite]
        by_cases same : i = index
        · simp [same]
        · rw [if_neg same, ← beyond i same, ← count]
          exact configured.vids i

theorem configure_configured {conf : List (VID × EtherAddress)} (useStatic : Bool)
    (distinct : (conf.map (·.2)).Nodup) : (configure conf useStatic).Configured := by
  have built : (configureFrom 0 conf empty).Configured := by
    refine configureFrom_configured distinct (fun _ _ => rfl) ⟨fun _ _ => ?_, ?_, ?_⟩ rfl
    · exact iff_of_false nofun nofun
    · exact fun _ => iff_of_true rfl (Nat.zero_le _)
    · exact fun _ => iff_of_true rfl (Nat.zero_le _)
  exact ⟨built.inverse, built.ports, built.vids⟩

theorem numInterfaces_configureFrom {index : Nat} {conf : List (VID × EtherAddress)}
    {table : InterfaceTable} (distinct : (conf.map (·.2)).Nodup)
    (fresh : ∀ mac ∈ conf.map (·.2), mac ∉ table.etheraddToInterfaceIndex) :
    (configureFrom index conf table).numInterfaces = table.numInterfaces + conf.length := by
  induction conf generalizing index table with
  | nil => rfl
  | cons first conf ih =>
      obtain ⟨interface, macadd⟩ := first
      rw [List.map_cons, List.nodup_cons] at distinct
      have unused := fresh macadd List.mem_cons_self
      rw [AList.mem_keys] at unused
      rw [configureFrom, ih distinct.2, numInterfaces, numInterfaces, AList.keys_insert,
        List.erase_of_not_mem unused, List.length_cons, List.length_cons, Nat.add_right_comm,
          Nat.add_assoc]
      intro mac later
      rw [AList.mem_insert, not_or]
      refine ⟨?_, fresh mac (List.mem_cons_of_mem _ later)⟩
      rintro rfl
      exact distinct.1 later

theorem numInterfaces_configure {conf : List (VID × EtherAddress)} (useStatic : Bool)
    (distinct : (conf.map (·.2)).Nodup) :
    (configure conf useStatic).numInterfaces = conf.length := by
  have built := @numInterfaces_configureFrom 0 conf empty distinct fun mac _ =>
    AList.notMem_empty mac
  exact built.trans (Nat.zero_add _)

theorem configureFrom_inverse {index : Nat} {conf : List (VID × EtherAddress)}
    {table : InterfaceTable} (distinct : (conf.map (·.1)).Nodup)
    (fresh : ∀ vid ∈ conf.map (·.1), table.interfaces.lookup vid = none)
    (room : ∀ i, index ≤ i → table.rinterfaces.lookup i = none)
    (inverse : HashTable.IsInverse table.interfaces table.rinterfaces) :
    HashTable.IsInverse (configureFrom index conf table).interfaces
      (configureFrom index conf table).rinterfaces := by
  induction conf generalizing index table with
  | nil => exact inverse
  | cons first conf ih =>
      obtain ⟨interface, macadd⟩ := first
      rw [List.map_cons, List.nodup_cons] at distinct
      refine ih distinct.2 ?_ ?_
        (inverse.insert (fresh interface List.mem_cons_self) (room index (Nat.le_refl _)))
      · intro vid later
        have other : vid ≠ interface := by
          rintro rfl
          exact distinct.1 later
        rw [HashTable.lookup_insert_ite, if_neg other]
        exact fresh vid (List.mem_cons_of_mem _ later)
      · intro i beyond
        rw [HashTable.lookup_insert_ite, if_neg (by omega)]
        exact room i (by omega)

theorem mem_configureFrom {index : Nat} {conf : List (VID × EtherAddress)}
    {table : InterfaceTable} {vid : VID} {i : Nat}
    (found : (configureFrom index conf table).interfaces.lookup vid = some i) :
    vid ∈ conf.map (·.1) ∨ table.interfaces.lookup vid = some i := by
  induction conf generalizing index table with
  | nil => exact Or.inr found
  | cons first conf ih =>
      rcases ih found with later | before
      · exact Or.inl (List.mem_cons_of_mem _ later)
      · dsimp only at before
        rw [HashTable.lookup_insert_ite] at before
        split at before
        · rename_i same
          exact Or.inl (same ▸ List.mem_cons_self)
        · exact Or.inr before

theorem single_isSingle (vid : VID) (mac : EtherAddress) : (single vid mac).IsSingle vid where
  interfaces := by
    intro other i
    have entry : (single vid mac).interfaces = (∅ : HashTable VID Nat).insert vid 0 := rfl
    rw [entry, HashTable.lookup_insert_ite]
    by_cases same : other = vid
    · simp [same, eq_comm]
    · simp [same]
  rinterfaces := rfl
  count := rfl

end InterfaceTable

end Veil
