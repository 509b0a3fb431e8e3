import Veil.GatewaySelection
import Veil.Library.Lease
import Veil.NeighborTable
import Veil.ProcessAccessInfo

/-! The neighbours, edges and mappings of a switch with the timers of their entries, from
`neighbortable.cc`, `rendezvoustable.cc` and `mappingtable.cc`. The first two replace the timer of
an entry with every update, the third reschedules it. -/

namespace Veil

def veilTblEntryExpiry : Nat := 60000
def hostEntryExpiry : Nat := 60000

abbrev TimedNeighborTable := Lease.Table EtherAddress NeighborTableEntry

namespace TimedNeighborTable

open Lease HashTable

def updateEntry (table : TimedNeighborTable) (neighbormac : EtherAddress) (neighborvid : VID)
    (mymac : EtherAddress) (myvid : VID) : TimedNeighborTable × Bool :=
  (table.replace veilTblEntryExpiry neighbormac ⟨neighborvid, myvid, mymac⟩,
    (table.lookup neighbormac).isSome)

def expire (table : TimedNeighborTable) (timer : Nat) : Option TimedNeighborTable :=
  table.fire timer

def write (table : TimedNeighborTable) (neighbormac : EtherAddress) (entry : NeighborTableEntry) :
    TimedNeighborTable :=
  (table.updateEntry neighbormac entry.neighborVID entry.myMac entry.myVid).1

theorem write_grants (table : TimedNeighborTable) (neighbormac : EtherAddress)
    (entry : NeighborTableEntry) (paired : table.Paired) :
    Table.Grants veilTblEntryExpiry table (table.write neighbormac entry) neighbormac entry :=
  paired.replace_grants veilTblEntryExpiry neighbormac entry

end TimedNeighborTable

abbrev TimedRendezvousTable := Lease.Table RendezvousEdge Unit

namespace TimedRendezvousTable

open Lease HashTable RendezvousTable

def updateEntry (table : TimedRendezvousTable) (src dest : VID) : TimedRendezvousTable :=
  table.replace veilTblEntryExpiry ⟨src, dest⟩ ()

def expire (table : TimedRendezvousTable) (timer : Nat) : Option TimedRendezvousTable :=
  table.fire timer

def getRdvPoint (table : TimedRendezvousTable) (k : Nat) (svid : VID) : List VID :=
  RendezvousTable.getRdvPoint table.plain k svid

def write (table : TimedRendezvousTable) (edge : RendezvousEdge) (_ : Unit) :
    TimedRendezvousTable :=
  table.updateEntry edge.src edge.dest

theorem write_grants (table : TimedRendezvousTable) (edge : RendezvousEdge) (nothing : Unit)
    (paired : table.Paired) :
    Table.Grants veilTblEntryExpiry table (table.write edge nothing) edge nothing :=
  paired.replace_grants veilTblEntryExpiry edge ()

/-- In a run that fires every timer in time, a query finds sources of edges published within the
last term only, and, unless the count of edges wraps, one as close as any edge published within
it. -/
theorem getRdvPoint_published {state : Traced RendezvousEdge Unit}
    (run : Transition.Reaches (· = Traced.empty) (Traced.Step write) Traced.Prompt state) (k : Nat)
    (svid : VID) :
    (∀ g ∈ TimedRendezvousTable.getRdvPoint state.table k svid, ∃ edge since,
        state.last edge = some ((), since) ∧
      state.table.now ≤ since + veilTblEntryExpiry ∧ qualifies k svid edge ∧ edge.src = g) ∧
    ((RendezvousTable.sources state.table.plain k svid).length % 256 ≠ 0 → ∀ edge since,
      state.last edge = some ((), since) → state.table.now < since + veilTblEntryExpiry →
      qualifies k svid edge → ∃ g others,
          TimedRendezvousTable.getRdvPoint state.table k svid = g :: others ∧
        VID.xor g svid ≤ VID.xor edge.src svid) := by
  have current : state.Current veilTblEntryExpiry := Traced.current_of_prompt write_grants run
  constructor
  · intro g listed
    obtain ⟨edge, stored, qualified, same⟩ := mem_getRdvPoint listed
    obtain ⟨nothing, found⟩ := (mem_iff_lookup _ edge).mp stored
    obtain ⟨since, published, young⟩ :=
      current.expires edge nothing (Table.lookup_plain state.table edge ▸ found)
    exact ⟨edge, since, published, young, qualified, same⟩
  · intro counted edge since published young qualified
    have found := current.recent edge () since published young
    have stored : edge ∈ state.table.plain :=
      mem_of_lookup ((Table.lookup_plain state.table edge).trans found)
    have source : edge.src ∈ RendezvousTable.sources state.table.plain k svid :=
      mem_sources.mpr ⟨edge, stored, qualified, rfl⟩
    obtain ⟨g, last⟩ := exists_lastClosest (List.ne_nil_of_mem source)
    exact ⟨g, _, getRdvPoint_eq_cons last counted, last.least edge.src source⟩

/-- Two edges are published, the first again half a term later, and the timer of the second
fires. -/
def republished : List (Action RendezvousEdge Unit) :=
  [.update ⟨1, 0x800000000000⟩ (), .update ⟨3, 0x800000000000⟩ (), .pass 30000,
    .update ⟨1, 0x800000000000⟩ (), .pass 30000, .fire 1, .pass 10000]

theorem getRdvPoint_published_republished :
    ∃ state, republished.foldlM (Traced.perform write) Traced.empty = some state ∧
      state.table.now = 70000 ∧
      TimedRendezvousTable.getRdvPoint state.table 48 2 = [1] ∧
      state.last ⟨1, 0x800000000000⟩ = some ((), 30000) ∧
      ∀ g ∈ TimedRendezvousTable.getRdvPoint state.table 48 2, ∃ edge since,
        state.last edge = some ((), since) ∧ state.table.now ≤ since + veilTblEntryExpiry ∧
        qualifies 48 2 edge ∧ edge.src = g := by
  have values : (republished.foldlM (Traced.perform write) Traced.empty).map (fun state =>
      (state.table.now, TimedRendezvousTable.getRdvPoint state.table 48 2,
        state.last ⟨1, 0x800000000000⟩)) = some (70000, [1], some ((), 30000)) := by decide +kernel
  obtain ⟨state, result, same⟩ := Option.map_eq_some_iff.mp values
  simp only [Prod.mk.injEq] at same
  exact ⟨state, result, same.1, same.2.1, same.2.2,
    (getRdvPoint_published (Traced.reaches_of_foldlM write result) 48 2).1⟩

end TimedRendezvousTable

abbrev TimedMappingTable := Lease.Table IPAddress MappingTableEntry

namespace TimedMappingTable

open Lease HashTable

def updateEntry (table : TimedMappingTable) (ip : IPAddress) (ipvid myvid : VID)
    (ipmac : EtherAddress) :
    TimedMappingTable :=
  table.renew hostEntryExpiry ip ⟨ipvid, myvid, ipmac⟩

def expire (table : TimedMappingTable) (timer : Nat) : Option TimedMappingTable := table.fire timer

def write (table : TimedMappingTable) (ip : IPAddress) (entry : MappingTableEntry) :
    TimedMappingTable :=
  table.updateEntry ip entry.ipVid entry.myVid entry.ipmac

theorem write_grants (table : TimedMappingTable) (ip : IPAddress) (entry : MappingTableEntry)
    (paired : table.Paired) : Table.Grants hostEntryExpiry table (table.write ip entry) ip entry :=
  paired.renew_grants hostEntryExpiry ip entry

def lookupIP (table : TimedMappingTable) (ip : IPAddress) : Option MappingTableEntry :=
  table.lookup ip

/-- In a run that fires every timer in time, a lookup finds the mapping that was published last
for the host, for one term and no longer, and no two timers name one host. -/
theorem lookupIP_published {state : Traced IPAddress MappingTableEntry}
    (run : Transition.Reaches (· = Traced.empty) (Traced.Step write) Traced.Prompt state)
    (ip : IPAddress) :
    (∀ entry, lookupIP state.table ip = some entry → ∃ since, state.last ip = some (entry, since) ∧
      state.table.now ≤ since + hostEntryExpiry) ∧
    (∀ entry since, state.last ip = some (entry, since) →
        state.table.now < since + hostEntryExpiry →
      lookupIP state.table ip = some entry) ∧ state.table.Paired := by
  have current : state.Current hostEntryExpiry := Traced.current_of_prompt write_grants run
  exact ⟨current.expires ip, current.recent ip, current.paired⟩

/-- Two hosts are published, the first moves to another switch, and the timer of the second
fires. -/
def movedHost : List (Action IPAddress MappingTableEntry) :=
  [.update 0x0a000001 ⟨0x20001, 0x10000, 7⟩, .update 0x0a000002 ⟨0x20002, 0x10000, 8⟩, .pass 40000,
    .update 0x0a000001 ⟨0x30001, 0x10000, 7⟩, .pass 20000, .fire 1, .pass 30000]

theorem lookupIP_published_movedHost :
    ∃ state, movedHost.foldlM (Traced.perform write) Traced.empty = some state ∧
      state.table.now = 90000 ∧
      lookupIP state.table 0x0a000001 = some ⟨0x30001, 0x10000, 7⟩ ∧
      lookupIP state.table 0x0a000002 = none ∧ state.table.Paired ∧
      ∃ since, state.last 0x0a000001 = some (⟨0x30001, 0x10000, 7⟩, since) ∧
        state.table.now ≤ since + hostEntryExpiry := by
  have values : (movedHost.foldlM (Traced.perform write) Traced.empty).map (fun state =>
      (state.table.now, lookupIP state.table 0x0a000001, lookupIP state.table 0x0a000002)) =
      some (90000, some ⟨0x30001, 0x10000, 7⟩, none) := by decide +kernel
  obtain ⟨state, result, same⟩ := Option.map_eq_some_iff.mp values
  simp only [Prod.mk.injEq] at same
  obtain ⟨expires, -, paired⟩ := lookupIP_published
    (Traced.reaches_of_foldlM write result) 0x0a000001
  exact ⟨state, result, same.1, same.2.1, same.2.2, paired, expires _ same.2.1⟩

end TimedMappingTable

end Veil
