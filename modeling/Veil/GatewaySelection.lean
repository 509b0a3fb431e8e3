import Mathlib.Data.List.Dedup
import Veil.Rendezvous

/-! What `getRdvPoint` selects: when it finds a gateway at all, and when the gateways are
different. -/

namespace Veil

namespace RendezvousTable

def sources (table : RendezvousTable) (k : Nat) (svid : VID) : List VID :=
  (table.keys.filter (qualifies k svid)).map (·.src)

section Selection

variable {table : RendezvousTable} {k : Nat} {svid : VID}

theorem mem_sources {gateway : VID} :
    gateway ∈ table.sources k svid ↔
      ∃ edge ∈ table, qualifies k svid edge ∧ edge.src = gateway := by
  simp only [sources, List.mem_map, List.mem_filter, ← AList.mem_keys, and_assoc]

/-- The edges are counted in a byte. -/
theorem ngws_closest (edges : List RendezvousEdge) :
    (closest svid edges).ngws.toNat = edges.length % 256 := by
  induction edges using List.reverseRecOn with
  | nil => rfl
  | append_singleton edges edge ih =>
      have counted : (closest svid (edges ++ [edge])).ngws = (closest svid edges).ngws + 1 := by
        rw [closest_concat, Selection.consider]
        split <;> rfl
      rw [counted, BitVec.toNat_add, ih, List.length_append, List.length_singleton]
      simp

theorem getRdvPoint_eq_nil (none : (table.sources k svid).length % 256 = 0) :
    table.getRdvPoint k svid = [] := by
  rw [sources, List.length_map] at none
  simp only [getRdvPoint, ngws_closest, none, Nat.zero_min, Nat.lt_irrefl, if_false]

theorem getRdvPoint_eq_cons {gateway : VID} (last : LastClosest svid (table.sources k svid) gateway)
    (some : (table.sources k svid).length % 256 ≠ 0) :
    table.getRdvPoint k svid = gateway :: ((table.sources k svid).filter (· ≠ gateway)).take
      (min ((table.sources k svid).length % 256) maxGwPerBucket - 1) := by
  have edges : table.keys.filter (qualifies k svid) ≠ [] := by
    intro none
    rw [sources, none] at some
    exact some rfl
  obtain rfl := last.unique (closest_lastClosest svid edges).1
  rw [sources, List.length_map] at some ⊢
  rw [getRdvPoint]
  simp only [ngws_closest]
  rw [if_pos (Nat.lt_min.mpr ⟨Nat.pos_of_ne_zero some, by decide⟩)]

theorem exists_lastClosest (some : table.sources k svid ≠ []) :
    ∃ gateway, LastClosest svid (table.sources k svid) gateway := by
  have edges : table.keys.filter (qualifies k svid) ≠ [] := by
    intro none
    exact some (by rw [sources, none]; rfl)
  exact ⟨_, (closest_lastClosest svid edges).1⟩

/-- A gateway is found when an edge qualifies, and the first one found is the closest. -/
def FindsClosest (table : RendezvousTable) (k : Nat) (svid : VID) : Prop :=
  (0 < (table.getRdvPoint k svid).length ↔ ∃ edge ∈ table, qualifies k svid edge) ∧
    ((∃ edge ∈ table, qualifies k svid edge) → ∃ edge ∈ table, qualifies k svid edge ∧
      (table.getRdvPoint k svid).head? = some edge.src ∧
        ∀ other ∈ table, qualifies k svid other → VID.xor edge.src svid ≤ VID.xor other.src svid)

theorem findsClosest_iff : table.FindsClosest k svid ↔
    ¬((∃ edge ∈ table, qualifies k svid edge) ∧
      256 ∣ (table.keys.filter (qualifies k svid)).length) := by
  have count : (table.keys.filter (qualifies k svid)).length = (table.sources k svid).length := by
    rw [sources, List.length_map]
  rw [count]
  constructor
  · rintro ⟨found, -⟩ ⟨stored, multiple⟩
    have positive := found.mpr stored
    rw [getRdvPoint_eq_nil (Nat.mod_eq_zero_of_dvd multiple)] at positive
    exact absurd positive (Nat.lt_irrefl 0)
  · intro condition
    by_cases stored : ∃ edge ∈ table, qualifies k svid edge
    · have some : (table.sources k svid).length % 256 ≠ 0 := fun multiple =>
        condition ⟨stored, Nat.dvd_of_mod_eq_zero multiple⟩
      obtain ⟨gateway, last⟩ := @exists_lastClosest table k svid fun none =>
        some (by rw [none]; rfl)
      have answer := getRdvPoint_eq_cons last some
      obtain ⟨⟨edge, inside, qualified, rfl⟩, least⟩ := getRdvPoint_head answer
      refine ⟨⟨fun _ => stored, fun _ => ?_⟩, fun _ => ⟨edge, inside, qualified, ?_, least⟩⟩
      · rw [answer]
        exact Nat.succ_pos _
      · rw [answer]
        rfl
    · have none : table.sources k svid = [] := by
        apply List.eq_nil_iff_forall_not_mem.mpr
        intro gateway source
        obtain ⟨edge, inside, qualified, -⟩ := mem_sources.mp source
        exact stored ⟨edge, inside, qualified⟩
      refine ⟨⟨fun positive => ?_, fun found => absurd found stored⟩,
        fun found => absurd found stored⟩
      rw [getRdvPoint_eq_nil (by rw [none]; rfl)] at positive
      exact absurd positive (Nat.lt_irrefl 0)

theorem getRdvPoint_eq_take (few : (table.sources k svid).length < 256) {gateway : VID}
    (last : LastClosest svid (table.sources k svid) gateway) :
    table.getRdvPoint k svid = gateway :: ((table.sources k svid).filter (· ≠ gateway)).take 3 := by
  have positive := List.length_pos_of_mem last.mem
  have others : ((table.sources k svid).filter (· ≠ gateway)).length <
      (table.sources k svid).length :=
    List.length_filter_lt_length_iff_exists.mpr ⟨gateway, last.mem, by simp⟩
  rw [getRdvPoint_eq_cons last (by omega), Nat.mod_eq_of_lt few, maxGwPerBucket, List.cons.injEq,
    List.take_eq_take_iff]
  exact ⟨rfl, by omega⟩

/-- The gateways are different sources of edges that qualify, and none is left out that has a
place. -/
structure SelectsDistinct (table : RendezvousTable) (k : Nat) (svid : VID) : Prop where
  distinct : (table.getRdvPoint k svid).Nodup
  qualified : ∀ gateway ∈ table.getRdvPoint k svid, ∃ edge ∈ table, qualifies k svid edge ∧
    edge.src = gateway
  length_eq : (table.getRdvPoint k svid).length =
    min maxGwPerBucket (table.sources k svid).dedup.length

theorem length_dedup_sources {gateway : VID} (listed : gateway ∈ table.sources k svid) :
    (table.sources k svid).dedup.length =
      ((table.sources k svid).filter (· ≠ gateway)).dedup.length + 1 := by
  have perm : (table.sources k svid).dedup.Perm
      (gateway :: ((table.sources k svid).filter (· ≠ gateway)).dedup) := by
    refine (List.perm_ext_iff_of_nodup (List.nodup_dedup _) ?_).mpr fun source => ?_
    · exact List.nodup_cons.mpr ⟨by simp, List.nodup_dedup _⟩
    · by_cases same : source = gateway
      · simp [same, listed]
      · simp [same]
  exact perm.length_eq

theorem selectsDistinct_iff (few : (table.keys.filter (qualifies k svid)).length < 256) :
    table.SelectsDistinct k svid ↔ ∀ gateway, LastClosest svid (table.sources k svid) gateway →
      (((table.sources k svid).filter (· ≠ gateway)).take 3).Nodup := by
  have fewSources : (table.sources k svid).length < 256 := by rwa [sources, List.length_map]
  constructor
  · rintro ⟨distinct, -, -⟩ gateway last
    rw [getRdvPoint_eq_take fewSources last] at distinct
    exact (List.nodup_cons.mp distinct).2
  · intro condition
    rcases eq_or_ne (table.sources k svid) [] with none | some
    · have answer : table.getRdvPoint k svid = [] := getRdvPoint_eq_nil (by rw [none]; rfl)
      exact ⟨by rw [answer]; exact List.nodup_nil, fun gateway => mem_getRdvPoint,
        by rw [answer, none]; rfl⟩
    · obtain ⟨gateway, last⟩ := exists_lastClosest some
      have answer := getRdvPoint_eq_take fewSources last
      have different := condition gateway last
      refine ⟨?_, fun gateway => mem_getRdvPoint, ?_⟩
      · rw [answer, List.nodup_cons]
        refine ⟨fun repeated => ?_, different⟩
        have other := (List.mem_filter.mp (List.mem_of_mem_take repeated)).2
        exact of_decide_eq_true other rfl
      · -- as many different sources as there are places, or all of them
        have enough : (((table.sources k svid).filter (· ≠ gateway)).take 3).length ≤
            ((table.sources k svid).filter (· ≠ gateway)).dedup.length := by
          refine (different.subperm fun source taken => ?_).length_le
          exact List.mem_dedup.mpr (List.mem_of_mem_take taken)
        have least := (List.dedup_sublist ((table.sources k svid).filter (· ≠ gateway))).length_le
        rw [List.length_take] at enough
        rw [answer, List.length_cons, List.length_take, length_dedup_sources last.mem,
          maxGwPerBucket]
        omega

end Selection

def publish (edges : List RendezvousEdge) : RendezvousTable :=
  edges.foldl (fun table edge => table.updateEntry edge.src edge.dest) ∅

theorem publish_eq (edges : List RendezvousEdge) :
    publish edges = HashTable.insertAll (fun _ => ()) ∅ edges := rfl

def hub (links : Nat) : List RendezvousEdge :=
  (List.range links).map fun i => ⟨0x000000010000, BitVec.ofNat 48 (2 ^ 47 + 2 ^ 16 * i)⟩

theorem hub_qualifies : ∀ i < 256,
    qualifies 48 0x000000020000 ⟨0x000000010000, BitVec.ofNat 48 (2 ^ 47 + 2 ^ 16 * i)⟩ = true := by
  decide +kernel

theorem qualifying_hub :
    ((publish (hub 256)).keys.filter (qualifies 48 0x000000020000)).length = 256 := by
  have different : (hub 256).Nodup := by
    refine List.Nodup.map_on (fun i first j second same => ?_) List.nodup_range
    rw [List.mem_range] at first second
    have equal := congrArg (fun edge : RendezvousEdge => edge.dest.toNat) same
    simp only [BitVec.toNat_ofNat] at equal
    omega
  have count : (publish (hub 256)).keys.length = 256 := by
    rw [publish_eq, HashTable.length_keys_insertAll _ different, hub, List.length_map,
      List.length_range]
  rw [List.filter_eq_self.mpr, count]
  intro edge stored
  have listed : edge ∈ hub 256 := by
    rw [← AList.mem_keys, publish_eq, HashTable.mem_insertAll] at stored
    exact stored.resolve_right (AList.notMem_empty edge)
  obtain ⟨i, bound, rfl⟩ := List.mem_map.mp listed
  exact hub_qualifies i (List.mem_range.mp bound)

theorem not_findsClosest :
    ¬∀ (table : RendezvousTable) (k : Nat) (svid : VID), table.FindsClosest k svid := by
  intro always
  have counted := qualifying_hub
  have some : (publish (hub 256)).keys.filter (qualifies 48 0x000000020000) ≠ [] := by
    intro none
    rw [none] at counted
    exact absurd counted (by decide)
  obtain ⟨edge, visited⟩ := List.exists_mem_of_ne_nil _ some
  obtain ⟨stored, qualified⟩ := List.mem_filter.mp visited
  have found := (always (publish (hub 256)) 48 0x000000020000).1.mpr
    ⟨edge, AList.mem_keys.mpr stored, qualified⟩
  rw [getRdvPoint_eq_nil (by rw [sources, List.length_map, counted])] at found
  exact absurd found (Nat.lt_irrefl 0)

def twoLinks : RendezvousTable :=
  publish [⟨0x000000010000, 0x800000000000⟩, ⟨0x000000030000, 0x800000010000⟩]

theorem selectsDistinct_twoLinks : twoLinks.SelectsDistinct 48 0x000000020000 := by
  refine (selectsDistinct_iff (by decide)).mpr fun gateway _ => ?_
  have order : twoLinks.sources 48 0x000000020000 = [0x000000030000, 0x000000010000] := by decide
  rw [order]
  exact (List.Nodup.filter _ (by decide)).sublist (List.take_sublist _ _)

def threeLinks : RendezvousTable :=
  publish [⟨0x000000050000, 0x800000000000⟩, ⟨0x000000010000, 0x800000010000⟩,
    ⟨0x000000010000, 0x800000020000⟩, ⟨0x000000010000, 0x800000030000⟩,
      ⟨0x000000030000, 0x800000040000⟩]

theorem not_selectsDistinct : ¬∀ (table : RendezvousTable) (k : Nat) (svid : VID),
    (table.keys.filter (qualifies k svid)).length < 256 → table.SelectsDistinct k svid := by
  intro always
  have distinct := (always threeLinks 48 0x000000020000 (by decide)).distinct
  have repeated : threeLinks.getRdvPoint 48 0x000000020000 =
      [0x000000030000, 0x000000010000, 0x000000010000, 0x000000010000] := by decide
  rw [repeated] at distinct
  exact absurd distinct (by decide)

end RendezvousTable

end Veil
