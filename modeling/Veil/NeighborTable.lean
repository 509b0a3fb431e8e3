import Veil.Library.HashTable
import Veil.Vid

/-! The physical neighbours of a switch, from `neighbortable.hh` and `neighbortable.cc`, keyed by
the address of the neighbour's interface. -/

namespace Veil

structure NeighborTableEntry where
  neighborVID : VID
  myVid : VID
  myMac : EtherAddress

abbrev NeighborTable := HashTable EtherAddress NeighborTableEntry

namespace NeighborTable

def updateEntry (table : NeighborTable) (neighbormac : EtherAddress) (neighborvid : VID)
    (mymac : EtherAddress) (myvid : VID) : NeighborTable × Bool :=
  (table.insert neighbormac ⟨neighborvid, myvid, mymac⟩, (table.lookup neighbormac).isSome)

def expire (table : NeighborTable) (neighbormac : EtherAddress) : NeighborTable :=
  table.erase neighbormac

/-- The interface towards the first entry, in the table's order, that has the VID `nvid`. -/
def lookupEntry (table : NeighborTable) (nvid : VID) : Option VID :=
  (table.entries.find? fun entry => entry.2.neighborVID == nvid).map fun entry => entry.2.myVid

def Knows (table : NeighborTable) (nvid : VID) : Prop :=
  ∃ mac entry, table.lookup mac = some entry ∧ entry.neighborVID = nvid

def Over (table : NeighborTable) (vid : VID) : Prop :=
  ∀ mac entry, table.lookup mac = some entry → entry.myVid = vid

theorem lookupEntry_eq_none_iff {table : NeighborTable} {nvid : VID} :
    table.lookupEntry nvid = none ↔ ¬table.Knows nvid := by
  simp only [lookupEntry, Option.map_eq_none_iff, List.find?_eq_none, beq_iff_eq, Knows, not_exists,
    not_and]
  constructor
  · intro unknown mac entry found
    exact unknown ⟨mac, entry⟩ (AList.mem_lookup_iff.mp found)
  · rintro unknown ⟨mac, entry⟩ member
    exact unknown mac entry (AList.mem_lookup_iff.mpr member)

theorem lookupEntry_eq_some {table : NeighborTable} {nvid myVid : VID}
    (looked : table.lookupEntry nvid = some myVid) :
    ∃ mac entry, table.lookup mac = some entry ∧ entry.neighborVID = nvid ∧
      entry.myVid = myVid := by
  simp only [lookupEntry, Option.map_eq_some_iff] at looked
  obtain ⟨⟨mac, entry⟩, found, same⟩ := looked
  have named := List.find?_some found
  exact ⟨mac, entry, AList.mem_lookup_iff.mpr (List.mem_of_find?_eq_some found),
    eq_of_beq named, same⟩

theorem lookupEntry_of_knows {table : NeighborTable} {vid nvid : VID} (attached : table.Over vid)
    (known : table.Knows nvid) : table.lookupEntry nvid = some vid := by
  cases looked : table.lookupEntry nvid with
  | none => exact (lookupEntry_eq_none_iff.mp looked known).elim
  | some myVid =>
      obtain ⟨mac, entry, found, -, same⟩ := lookupEntry_eq_some looked
      rw [← same, attached mac entry found]

end NeighborTable

end Veil
