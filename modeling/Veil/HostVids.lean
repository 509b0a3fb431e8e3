import Veil.HostConsistency

/-! The search for a free VID below a switch VID: what it probes, when it ends with the switch VID
itself, and what is left of a host that had an entry when it fails. -/

namespace Veil

open HashTable

namespace HostTable

theorem getLsbD_hostVid (switchvid : VID) (rand : BitVec 16) {bit : Nat} (bound : bit < 48) :
    (hostVid switchvid rand).getLsbD bit =
      if bit < 8 then rand.getLsbD (8 + bit)
      else if bit < 16 then rand.getLsbD (bit - 8) else switchvid.getLsbD bit := by
  rw [hostVid, VID.getLsbD_setByte _ _ _ _ bound, VID.getLsbD_setByte _ _ _ _ bound]
  simp only [BitVec.getLsbD_setWidth, BitVec.getLsbD_ushiftRight]
  by_cases last : bit < 8
  · simp [last]
  · by_cases fourth : bit < 16
    · have lower : 8 ≤ bit := by omega
      have small : bit - 8 < 8 := by omega
      simp [last, fourth, lower, small]
    · simp [last, fourth]

theorem hostVid_getSwitchVID (switchvid : VID) (rand : BitVec 16) :
    (hostVid switchvid rand).getSwitchVID = switchvid.getSwitchVID := by
  apply BitVec.eq_of_getLsbD_eq
  intro bit bound
  rw [VID.getSwitchVID_eq, VID.getSwitchVID_eq, VID.getLsbD_clearBelow _ _ _ bound,
    VID.getLsbD_clearBelow _ _ _ bound, getLsbD_hostVid _ _ bound]
  by_cases upper : 16 ≤ bit
  · rw [if_neg (by omega), if_neg (by omega)]
  · simp [upper]

theorem hostVid_injective (switchvid : VID) : Function.Injective (hostVid switchvid) := by
  intro first second same
  apply BitVec.eq_of_getLsbD_eq
  intro bit bound
  have bits (bit : Nat) (within : bit < 48) :
      (hostVid switchvid first).getLsbD bit = (hostVid switchvid second).getLsbD bit := by
    rw [same]
  by_cases low : bit < 8
  · have moved := bits (8 + bit) (by omega)
    have fifth : ¬8 + bit < 8 := by omega
    rw [getLsbD_hostVid _ _ (by omega), getLsbD_hostVid _ _ (by omega), if_neg fifth, if_neg fifth,
      if_pos (by omega), if_pos (by omega), Nat.add_sub_cancel_left] at moved
    exact moved
  · have moved := bits (bit - 8) (by omega)
    rw [getLsbD_hostVid _ _ (by omega), getLsbD_hostVid _ _ (by omega), if_pos (by omega),
      if_pos (by omega), Nat.add_sub_cancel' (by omega)] at moved
    exact moved

theorem hostVid_zero (switchvid : VID) : hostVid switchvid 0 = switchvid.getSwitchVID := by
  apply BitVec.eq_of_getLsbD_eq
  intro bit bound
  rw [getLsbD_hostVid _ _ bound, VID.getSwitchVID_eq, VID.getLsbD_clearBelow _ _ _ bound]
  by_cases upper : 16 ≤ bit
  · rw [if_neg (by omega), if_neg (by omega)]
    simp [upper]
  · simp [upper]

theorem getSwitchVID_getSwitchVID (vid : VID) : vid.getSwitchVID.getSwitchVID = vid.getSwitchVID :=
  (congrArg VID.getSwitchVID (hostVid_zero vid)).symm.trans (hostVid_getSwitchVID vid 0)

theorem isSwitchVID_hostVid {switchvid : VID} {rand : BitVec 16} :
    (hostVid switchvid rand).IsSwitchVID ↔ rand = 0 := by
  rw [VID.IsSwitchVID, hostVid_getSwitchVID, ← hostVid_zero]
  exact ⟨fun same => (hostVid_injective switchvid same).symm, fun zero => by rw [zero]⟩

theorem exists_hostVid {switchvid vid : VID} (own : vid.getSwitchVID = switchvid.getSwitchVID) :
    ∃ rand, hostVid switchvid rand = vid := by
  refine ⟨(vid.byte 5).setWidth 16 <<< 8 ||| (vid.byte 4).setWidth 16, ?_⟩
  apply BitVec.eq_of_getLsbD_eq
  intro bit bound
  have same : (switchvid.clearBelow 16).getLsbD bit = (vid.clearBelow 16).getLsbD bit := by
    rw [← VID.getSwitchVID_eq, ← VID.getSwitchVID_eq, own]
  rw [VID.getLsbD_clearBelow _ _ _ bound, VID.getLsbD_clearBelow _ _ _ bound] at same
  rw [getLsbD_hostVid _ _ bound]
  simp only [BitVec.getLsbD_or, BitVec.getLsbD_shiftLeft, BitVec.getLsbD_setWidth, VID.getLsbD_byte]
  by_cases last : bit < 8
  · have within : 8 + bit < 16 := by omega
    have under : bit < 16 := by omega
    simp [last, within, under]
  · by_cases fourth : bit < 16
    · have lower : 8 ≤ bit := by omega
      have small : bit - 8 < 8 := by omega
      have within : bit - 8 < 16 := by omega
      have position : 8 + (bit - 8) = bit := by omega
      simp [last, fourth, small, within, position]
    · have upper : 16 ≤ bit := by omega
      simpa [last, fourth, upper] using same

/-! ### What is probed -/

/-- The loop of `searchVid` with the VIDs it probes, in order. Without enough rounds there is no
result. -/
def probeVids (hosts : HashTable VID EtherAddress) (switchvid : VID) (startrand : BitVec 16) :
    Nat → BitVec 16 → Option (List VID × Option VID)
  | 0, _ => none
  | rounds + 1, currrand =>
      let v1 := hostVid switchvid currrand
      if (hosts.lookup v1).isSome then
        if currrand + 1 = startrand then some ([v1], none)
        else
          (probeVids hosts switchvid startrand rounds (currrand + 1)).map fun later =>
            (v1 :: later.1, later.2)
      else some ([v1], some v1)

theorem searchVid_of_probeVids {hosts : HashTable VID EtherAddress} {switchvid : VID}
    {startrand : BitVec 16} {rounds : Nat} {currrand : BitVec 16} {probes : List VID}
    {found : Option VID}
    (ends : probeVids hosts switchvid startrand rounds currrand = some (probes, found)) :
    searchVid hosts switchvid startrand rounds currrand = found := by
  induction rounds generalizing currrand probes with
  | zero => cases ends
  | succ rounds ih =>
      simp only [probeVids] at ends
      rw [searchVid]
      split
      · rename_i taken
        rw [if_pos taken] at ends
        split
        · rename_i back
          rw [if_pos back] at ends
          cases ends
          rfl
        · rename_i away
          rw [if_neg away, Option.map_eq_some_iff] at ends
          obtain ⟨later, ended, same⟩ := ends
          cases same
          exact ih ended
      · rename_i unused
        rw [if_neg unused] at ends
        cases ends
        rfl

def candidate (switchvid : VID) (startrand : BitVec 16) (i : Nat) : VID :=
  hostVid switchvid (startrand + BitVec.ofNat 16 i)

theorem exists_candidate (switchvid : VID) (startrand rand : BitVec 16) :
    ∃ i < 65536, candidate switchvid startrand i = hostVid switchvid rand :=
  ⟨(rand - startrand).toNat, (rand - startrand).isLt, congrArg (hostVid switchvid) (by bv_omega)⟩

theorem candidate_inj {switchvid : VID} {startrand : BitVec 16} {i j : Nat} (lower : i < 65536)
    (upper : j < 65536) (same : candidate switchvid startrand i = candidate switchvid startrand j) :
    i = j := by
  have offsets := hostVid_injective switchvid same
  bv_omega

variable (hosts : HashTable VID EtherAddress) (switchvid : VID) (startrand : BitVec 16)

structure ProbesTo (first last : Nat) (probes : List VID) (found : Option VID) : Prop where
  within : last < 65536
  inOrder : probes = (List.range' first (last + 1 - first)).map (candidate switchvid startrand)
  taken : ∀ i, first ≤ i → i < last → candidate switchvid startrand i ∈ hosts
  outcome : (candidate switchvid startrand last ∉ hosts ∧
      found = some (candidate switchvid startrand last)) ∨
    (candidate switchvid startrand last ∈ hosts ∧ last = 65535 ∧ found = none)

theorem probeVids_from (rounds first : Nat) (all : first + rounds = 65536) (some : 0 < rounds) :
    ∃ last ≥ first, ∃ probes found,
      probeVids hosts switchvid startrand rounds (startrand + BitVec.ofNat 16 first) =
        Option.some (probes, found) ∧
          ProbesTo hosts switchvid startrand first last probes found := by
  induction rounds generalizing first with
  | zero => omega
  | succ rounds ih =>
      have one : List.range' first (first + 1 - first) = [first] := by
        rw [Nat.add_sub_cancel_left]
        rfl
      have nothing : ∀ i, first ≤ i → i < first → candidate switchvid startrand i ∈ hosts :=
        fun i lower upper => absurd upper (Nat.not_lt.mpr lower)
      by_cases taken : candidate switchvid startrand first ∈ hosts
      · have present := AList.lookup_isSome.mpr taken
        by_cases back : startrand + BitVec.ofNat 16 first + 1 = startrand
        · have final : first = 65535 := by bv_omega
          refine ⟨first, le_rfl, [candidate switchvid startrand first], none, ?_,
            by omega, ?_, nothing,
            Or.inr ⟨taken, final, rfl⟩⟩
          · exact (if_pos present).trans (if_pos back)
          · rw [one, List.map_singleton]
        · have remaining : 0 < rounds := by
            refine Nat.pos_of_ne_zero fun none => back ?_
            bv_omega
          have advance : startrand + BitVec.ofNat 16 first + 1 =
              startrand + BitVec.ofNat 16 (first + 1) := by
            bv_omega
          obtain ⟨last, later, probes, found, ends, reached⟩ := ih (first + 1) (by omega) remaining
          refine ⟨last, by omega, candidate switchvid startrand first :: probes, found, ?_,
            reached.within, ?_, ?_,
            reached.outcome⟩
          · refine (if_pos present).trans ((if_neg back).trans ?_)
            rw [advance, ends]
            rfl
          · have length : last + 1 - first = (last + 1 - (first + 1)) + 1 := by omega
            rw [length, List.range'_succ, List.map_cons, reached.inOrder]
          · intro i lower upper
            rcases Nat.eq_or_lt_of_le lower with rfl | beyond
            · exact taken
            · exact reached.taken i beyond upper
      · refine ⟨first, le_rfl, [candidate switchvid startrand first], _, ?_, by omega, ?_, nothing,
          Or.inl ⟨taken, rfl⟩⟩
        · exact if_neg fun present => taken (AList.lookup_isSome.mp present)
        · rw [one, List.map_singleton]

/-- The search ends by itself, after at most 65536 probes. -/
theorem probeVids_ends : ∃ last probes found,
    probeVids hosts switchvid startrand 65536 startrand = some (probes, found) ∧
      ProbesTo hosts switchvid startrand 0 last probes found := by
  obtain ⟨last, -, probes, found, ends, reached⟩ :=
    probeVids_from hosts switchvid startrand 65536 0 rfl (by omega)
  have start : startrand + BitVec.ofNat 16 0 = startrand := by bv_omega
  rw [start] at ends
  exact ⟨last, probes, found, ends, reached⟩

variable {hosts switchvid startrand}

theorem searchVid_eq_none_iff :
    searchVid hosts switchvid startrand 65536 startrand = none ↔
      ∀ rand, hostVid switchvid rand ∈ hosts := by
  obtain ⟨last, probes, found, ends, reached⟩ := probeVids_ends hosts switchvid startrand
  rw [searchVid_of_probeVids ends]
  rcases reached.outcome with ⟨unused, rfl⟩ | ⟨taken, rfl, rfl⟩
  · exact iff_of_false (Option.some_ne_none _) fun all => unused (all _)
  · refine iff_of_true rfl fun rand => ?_
    obtain ⟨i, bound, same⟩ := exists_candidate switchvid startrand rand
    rcases Nat.lt_or_ge i 65535 with before | final
    · exact same ▸ reached.taken i (Nat.zero_le i) before
    · exact same ▸ (show i = 65535 by omega) ▸ taken

/-! ### Completeness -/

/-- The search of a host without an entry finds a VID whenever there is one, and otherwise ends
after it has probed each once. -/
theorem generateHostVid_complete (table : HostTable) {hip : IPAddress}
    (absent : table.inthosts.lookup hip = none) (hmac : EtherAddress) (myinterfaceid : Int)
    (switchvid : VID) (startrand : BitVec 16) :
    ∃ probes found, probeVids table.hosts switchvid startrand 65536 startrand =
        some (probes, found) ∧
      probes.length ≤ 65536 ∧
      ((∃ vid, vid.getSwitchVID = switchvid.getSwitchVID ∧ vid ∉ table.hosts) →
        ∃ after vid, table.generateHostVid hip hmac myinterfaceid switchvid startrand =
            (after, true, some vid) ∧
          found = some vid ∧ vid.getSwitchVID = switchvid.getSwitchVID ∧ vid ∉ table.hosts ∧
          after.lookupIP hip = some vid ∧ after.lookupVID vid = some hmac) ∧
      ((∀ vid, vid.getSwitchVID = switchvid.getSwitchVID → vid ∈ table.hosts) →
        table.generateHostVid hip hmac myinterfaceid switchvid startrand = (table, false, none) ∧
          found = none ∧ probes.Nodup ∧ ∀ vid, vid ∈ probes ↔
            vid.getSwitchVID = switchvid.getSwitchVID) := by
  obtain ⟨last, probes, found, ends, reached⟩ := probeVids_ends table.hosts switchvid startrand
  have searched := searchVid_of_probeVids ends
  have called : table.generateHostVid hip hmac myinterfaceid switchvid startrand =
      table.assignVid hip hmac myinterfaceid switchvid startrand := by
    rw [generateHostVid, absent]
  have bound := reached.within
  refine ⟨probes, found, ends, ?_, ?_, ?_⟩
  · rw [reached.inOrder, List.length_map, List.length_range']
    omega
  · rintro ⟨free, own, unused⟩
    rcases reached.outcome with ⟨fresh, rfl⟩ | ⟨-, -, rfl⟩
    · refine ⟨table.updateEntry (candidate switchvid startrand last) hmac hip myinterfaceid, _, ?_,
        rfl,
        hostVid_getSwitchVID _ _, fresh, ?_, ?_⟩
      · rw [called, assignVid, searched]
      · rw [updateEntry_of_absent absent]
        exact AList.lookup_insert _
      · rw [updateEntry_of_absent absent]
        exact AList.lookup_insert _
    · obtain ⟨rand, rfl⟩ := exists_hostVid own
      exact absurd (searchVid_eq_none_iff.mp searched rand) unused
  · intro all
    have none : searchVid table.hosts switchvid startrand 65536 startrand = none :=
      searchVid_eq_none_iff.mpr fun rand => all _ (hostVid_getSwitchVID switchvid rand)
    rcases reached.outcome with ⟨fresh, -⟩ | ⟨-, rfl, rfl⟩
    · exact absurd (all _ (hostVid_getSwitchVID _ _)) fresh
    · refine ⟨?_, rfl, ?_, fun vid => ?_⟩
      · rw [called, assignVid, none]
      · rw [reached.inOrder]
        refine List.Nodup.map_on (fun i lower j upper same => ?_) List.nodup_range'
        rw [List.mem_range'_1] at lower upper
        exact candidate_inj (by omega) (by omega) same
      · rw [reached.inOrder, List.mem_map]
        constructor
        · rintro ⟨i, -, rfl⟩
          exact hostVid_getSwitchVID _ _
        · intro own
          obtain ⟨rand, rfl⟩ := exists_hostVid own
          obtain ⟨i, lower, same⟩ := exists_candidate switchvid startrand rand
          exact ⟨i, List.mem_range'_1.mpr (by omega), same⟩

/-! ### A host with an entry -/

def Refreshes (table : HostTable) (hip : IPAddress) (myinterfaceid : Int) (switchvid : VID) :
    Prop :=
  ∃ he vid, table.inthosts.lookup hip = some he ∧
    table.currentVid he hip myinterfaceid switchvid = some vid

/-- The VIDs that are taken when the search begins, after the entry of the host itself is gone. -/
def takenVids (table : HostTable) (hip : IPAddress) : HashTable VID EtherAddress :=
  match table.inthosts.lookup hip with
  | none => table.hosts
  | some _ => table.hosts.erase ((table.iphosts.lookup hip).getD 0)

theorem generateHostVid_of_refreshes {table : HostTable} {hip : IPAddress} {myinterfaceid : Int}
    {switchvid : VID} (refreshes : table.Refreshes hip myinterfaceid switchvid)
    (hmac : EtherAddress) (startrand : BitVec 16) :
    (table.generateHostVid hip hmac myinterfaceid switchvid startrand).2.1 = false := by
  obtain ⟨he, vid, entry, current⟩ := refreshes
  rw [generateHostVid, entry]
  dsimp only
  rw [current]

theorem generateHostVid_of_search {table : HostTable} {hip : IPAddress} {myinterfaceid : Int}
    {switchvid : VID} (searches : ¬table.Refreshes hip myinterfaceid switchvid)
    (hmac : EtherAddress) (startrand : BitVec 16) :
    (table.generateHostVid hip hmac myinterfaceid switchvid startrand).2 =
      ((searchVid (table.takenVids hip) switchvid startrand 65536 startrand).isSome,
        searchVid (table.takenVids hip) switchvid startrand 65536 startrand) := by
  have assigned (state : HostTable) :
      (state.assignVid hip hmac myinterfaceid switchvid startrand).2 =
      ((searchVid state.hosts switchvid startrand 65536 startrand).isSome,
        searchVid state.hosts switchvid startrand 65536 startrand) := by
    rw [assignVid]
    split
    · rename_i none
      rw [none]
      rfl
    · rename_i vid found
      rw [found]
      rfl
  rw [generateHostVid, takenVids]
  cases entry : table.inthosts.lookup hip with
  | none => exact assigned table
  | some he =>
      dsimp only
      cases current : table.currentVid he hip myinterfaceid switchvid with
      | none => exact assigned (table.removeMapping he hip hmac)
      | some vid => exact absurd ⟨he, vid, entry, current⟩ searches

/-! ### A failed search -/

def SearchFails (table : HostTable) (hip : IPAddress) (myinterfaceid : Int) (switchvid : VID) :
    Prop :=
  ¬table.Refreshes hip myinterfaceid switchvid ∧
    ∀ vid, vid.getSwitchVID = switchvid.getSwitchVID → vid ∈ table.takenVids hip

theorem SearchFails.forgotten {table : HostTable} {hip : IPAddress} {myinterfaceid : Int}
    {switchvid : VID} (fails : table.SearchFails hip myinterfaceid switchvid) (hmac : EtherAddress)
    (startrand : BitVec 16) :
    (table.generateHostVid hip hmac myinterfaceid switchvid startrand).1.inthosts.lookup
      hip = none := by
  obtain ⟨searches, full⟩ := fails
  have none := (@searchVid_eq_none_iff _ _ startrand).mpr fun rand =>
    full _ (hostVid_getSwitchVID switchvid rand)
  rw [takenVids] at none
  rw [generateHostVid]
  cases entry : table.inthosts.lookup hip with
  | none =>
      rw [entry] at none
      dsimp only
      rw [assignVid, none]
      exact entry
  | some he =>
      rw [entry] at none
      dsimp only
      cases current : table.currentVid he hip myinterfaceid switchvid with
      | some vid => exact absurd ⟨he, vid, entry, current⟩ searches
      | none =>
          have nothing :
              searchVid (table.removeMapping he hip hmac).hosts switchvid startrand
              65536 startrand =
              Option.none := none
          dsimp only
          rw [assignVid, nothing]
          exact AList.lookup_erase hip table.inthosts

/-- A failed search has removed the entry of the host, if there was one. -/
theorem unchanged_iff {table : HostTable} {hip : IPAddress} {myinterfaceid : Int} {switchvid : VID}
    (fails : table.SearchFails hip myinterfaceid switchvid) (hmac : EtherAddress)
    (startrand : BitVec 16) :
    table.generateHostVid hip hmac myinterfaceid switchvid startrand = (table, false, none) ↔
      table.inthosts.lookup hip = none := by
  constructor
  · intro same
    have forgotten := fails.forgotten hmac startrand
    rwa [same] at forgotten
  · intro absent
    obtain ⟨searches, full⟩ := fails
    rw [takenVids, absent] at full
    have none := (@searchVid_eq_none_iff _ _ startrand).mpr fun rand =>
      full _ (hostVid_getSwitchVID switchvid rand)
    rw [generateHostVid, absent]
    dsimp only
    rw [assignVid, none]

/-- A host registers below one switch VID, and then one host after the other below another. -/
def crowd : Nat → HostTable
  | 0 => empty.apply (.generateHostVid 70000 1 0 0x010200000000 1)
  | n + 1 => (crowd n).apply
      (.generateHostVid (BitVec.ofNat 32 n) 2 0 0x030400000000 (BitVec.ofNat 16 n))

structure Crowded (n : Nat) (table : HostTable) : Prop where
  taken : ∀ rand : BitVec 16, hostVid 0x030400000000 rand ∈ table.hosts ↔ rand.toNat < n
  absent : ∀ ip : IPAddress, n ≤ ip.toNat → ip ≠ 70000 → table.inthosts.lookup ip = none
  entry : table.inthosts.lookup 70000 = some ⟨0, 0⟩
  named : table.iphosts.lookup 70000 = some 0x010200000100

theorem apart (rand : BitVec 16) : hostVid 0x030400000000 rand ≠ 0x010200000100 := by
  intro same
  have prefixes := congrArg VID.getSwitchVID same
  rw [hostVid_getSwitchVID] at prefixes
  exact absurd prefixes (by decide)

theorem crowd_crowded {n : Nat} (bound : n ≤ 65536) : Crowded n (crowd n) := by
  induction n with
  | zero =>
      have first : crowd 0 = empty.updateEntry 0x010200000100 1 70000 0 := rfl
      rw [first, updateEntry_of_absent rfl]
      refine ⟨fun rand => ?_, fun ip _ other => ?_, AList.lookup_insert _, AList.lookup_insert _⟩
      · rw [AList.mem_insert]
        exact iff_of_false (not_or.mpr ⟨apart rand, AList.notMem_empty _⟩) (Nat.not_lt_zero _)
      · exact AList.lookup_insert_ne other
  | succ n ih =>
      obtain ⟨taken, absent, entry, named⟩ := ih (by omega)
      have number : (BitVec.ofNat 16 n).toNat = n := Nat.mod_eq_of_lt bound
      have ip : (BitVec.ofNat 32 n).toNat = n := Nat.mod_eq_of_lt (by omega)
      have other : BitVec.ofNat 32 n ≠ (70000 : IPAddress) := by bv_omega
      have fresh : (crowd n).inthosts.lookup (BitVec.ofNat 32 n) = none := absent _ ip.ge other
      have free : hostVid 0x030400000000 (BitVec.ofNat 16 n) ∉ (crowd n).hosts := by
        rw [taken, number]
        exact Nat.lt_irrefl n
      have found :
          searchVid (crowd n).hosts 0x030400000000 (BitVec.ofNat 16 n) 65536 (BitVec.ofNat 16 n) =
          some (hostVid 0x030400000000 (BitVec.ofNat 16 n)) :=
        if_neg fun present => free (AList.lookup_isSome.mp present)
      have next :
          crowd (n + 1) = (crowd n).updateEntry (hostVid 0x030400000000 (BitVec.ofNat 16 n)) 2
          (BitVec.ofNat 32 n) 0 := by
        rw [crowd, HostTable.apply, generateHostVid, fresh]
        dsimp only
        rw [assignVid, found]
      rw [next, updateEntry_of_absent fresh]
      refine ⟨fun rand => ?_, fun other upper different => ?_, ?_, ?_⟩
      · rw [AList.mem_insert, taken, (hostVid_injective _).eq_iff]
        bv_omega
      · refine (AList.lookup_insert_ne ?_).trans (absent other (by omega) different)
        rintro rfl
        omega
      · exact (AList.lookup_insert_ne other.symm).trans entry
      · exact (AList.lookup_insert_ne other.symm).trans named

theorem crowd_reachable (n : Nat) : Transition.Reachable (· = empty) Step (crowd n) := by
  induction n with
  | zero => exact .next (.start rfl) trivial rfl
  | succ n ih => exact .next ih trivial rfl

/-- With one VID free the search finds that one, and with none it has probed all. -/
theorem generateHostVid_complete_crowd :
    (∃ after, (crowd 65535).generateHostVid 70001 9 0 0x030400000000 3 =
        (after, true, some 0x03040000ffff) ∧
      after.lookupIP 70001 = some 0x03040000ffff ∧ after.lookupVID 0x03040000ffff = some 9) ∧
    ∃ probes, probeVids (crowd 65536).hosts 0x030400000000 3 65536 3 = some (probes, none) ∧
      (∀ vid, vid ∈ probes ↔ vid.getSwitchVID = VID.getSwitchVID 0x030400000000) ∧ probes.Nodup ∧
      (crowd 65536).generateHostVid 70001 9 0 0x030400000000 3 = (crowd 65536, false, none) := by
  constructor
  · have crowded := @crowd_crowded 65535 (by decide)
    have last : hostVid 0x030400000000 65535 ∉ (crowd 65535).hosts := by
      rw [crowded.taken]
      decide
    obtain ⟨probes, found, -, -, free, -⟩ := generateHostVid_complete (crowd 65535)
      (crowded.absent 70001 (by decide) (by decide)) 9 0 0x030400000000 3
    obtain ⟨after, vid, called, -, own, unused, named, addressed⟩ :=
      free ⟨_, hostVid_getSwitchVID 0x030400000000 65535, last⟩
    have only : vid = 0x03040000ffff := by
      obtain ⟨rand, rfl⟩ := exists_hostVid own
      rw [crowded.taken] at unused
      have lastRand : rand = 65535 := by bv_omega
      rw [lastRand]
      decide
    rw [only] at called named addressed
    exact ⟨after, called, named, addressed⟩
  · have crowded := @crowd_crowded 65536 le_rfl
    obtain ⟨probes, found, ends, -, -, full⟩ := generateHostVid_complete (crowd 65536)
      (crowded.absent 70001 (by decide) (by decide)) 9 0 0x030400000000 3
    obtain ⟨failed, rfl, distinct, all⟩ := full fun vid own => by
      obtain ⟨rand, rfl⟩ := exists_hostVid own
      exact (crowded.taken rand).mpr rand.isLt
    exact ⟨probes, ends, all, distinct, failed⟩

theorem Crowded.full {table : HostTable} (crowded : Crowded 65536 table) {hip : IPAddress}
    (other : hip ≠ 70000) (beyond : 65536 ≤ hip.toNat) :
    table.SearchFails hip 0 0x030400000000 := by
  have absent := crowded.absent hip beyond other
  refine ⟨?_, fun vid own => ?_⟩
  · rintro ⟨he, -, entry, -⟩
    exact Option.some_ne_none he (entry.symm.trans absent)
  · obtain ⟨rand, rfl⟩ := exists_hostVid own
    rw [takenVids, absent]
    exact (crowded.taken rand).mpr rand.isLt

theorem Crowded.full_moved {table : HostTable} (crowded : Crowded 65536 table) :
    table.SearchFails 70000 0 0x030400000000 := by
  refine ⟨?_, fun vid own => ?_⟩
  · rintro ⟨he, vid, -, current⟩
    obtain ⟨named, own⟩ := currentVid_eq_some current
    rw [crowded.named] at named
    rw [← Option.some.inj named] at own
    exact absurd own (by decide)
  · obtain ⟨rand, rfl⟩ := exists_hostVid own
    rw [takenVids, crowded.entry, crowded.named]
    exact AList.mem_erase.mpr ⟨apart rand, (crowded.taken rand).mpr rand.isLt⟩

theorem unchanged_iff_crowd :
    (crowd 65536).generateHostVid 70001 9 0 0x030400000000 5 = (crowd 65536, false, none) ↔
      (crowd 65536).inthosts.lookup 70001 = none :=
  unchanged_iff ((crowd_crowded le_rfl).full (by decide) (by decide)) 9 5

/-- A host that moves to a full switch is left without its entry. -/
theorem reachable_changed :
    ¬∀ table, Transition.Reachable (· = empty) Step table →
        ∀ hip hmac myinterfaceid switchvid startrand,
      table.SearchFails hip myinterfaceid switchvid →
        table.generateHostVid hip hmac myinterfaceid switchvid startrand =
          (table, false, none) := by
  intro always
  have crowded := crowd_crowded le_rfl
  have same := always (crowd 65536) (crowd_reachable 65536) 70000 1 0 0x030400000000 5
    crowded.full_moved
  have entry := crowded.entry
  have forgotten := crowded.full_moved.forgotten 1 5
  rw [same, entry] at forgotten
  exact Option.some_ne_none _ forgotten

/-! ### The VID of the switch -/

/-- The call assigns no VID, or the VID of the switch is taken already, or the search, which
counts up from `startrand`, meets a free VID before it wraps around. -/
def AvoidsSwitchVID (table : HostTable) (hip : IPAddress) (myinterfaceid : Int) (switchvid : VID)
    (startrand : BitVec 16) : Prop :=
  table.Refreshes hip myinterfaceid switchvid ∨ switchvid.getSwitchVID ∈ table.takenVids hip ∨
    startrand ≠ 0 ∧ ∃ rand, startrand ≤ rand ∧ hostVid switchvid rand ∉ table.takenVids hip

theorem searchVid_reserved_iff {hosts : HashTable VID EtherAddress} {switchvid : VID}
    {startrand : BitVec 16} :
    (∀ vid, searchVid hosts switchvid startrand 65536 startrand = some vid → ¬vid.IsSwitchVID) ↔
      switchvid.getSwitchVID ∈ hosts ∨
        startrand ≠ 0 ∧ ∃ rand, startrand ≤ rand ∧ hostVid switchvid rand ∉ hosts := by
  obtain ⟨last, probes, found, ends, reached⟩ := probeVids_ends hosts switchvid startrand
  have bound := reached.within
  rw [searchVid_of_probeVids ends, ← hostVid_zero]
  -- the probe that gives the VID of the switch
  obtain ⟨home, within, wrapped⟩ := exists_candidate switchvid startrand 0
  have turn : startrand + BitVec.ofNat 16 home = 0 := hostVid_injective switchvid wrapped
  rcases reached.outcome with ⟨fresh, rfl⟩ | ⟨taken, rfl, rfl⟩
  · have assigned : (∀ vid, some (candidate switchvid startrand last) = some vid →
        ¬vid.IsSwitchVID) ↔
        last ≠ home := by
      have reserved : (candidate switchvid startrand last).IsSwitchVID ↔ last = home := by
        rw [candidate, isSwitchVID_hostVid]
        bv_omega
      rw [ne_eq, ← not_congr reserved]
      exact ⟨fun all => all _ rfl, fun kept vid same => Option.some.inj same ▸ kept⟩
    rw [assigned]
    constructor
    · intro different
      rcases Nat.lt_or_ge home last with before | after
      · exact Or.inl (wrapped ▸ reached.taken home (Nat.zero_le _) before)
      · refine Or.inr ⟨?_, startrand + BitVec.ofNat 16 last, ?_, fresh⟩
        · rintro rfl
          bv_omega
        · bv_omega
    · rintro (present | ⟨nonzero, rand, upper, free⟩) rfl
      · exact fresh (wrapped ▸ present)
      · refine free ?_
        have position : candidate switchvid startrand (rand - startrand).toNat =
            hostVid switchvid rand :=
          congrArg (hostVid switchvid) (by bv_omega)
        exact position ▸ reached.taken _ (Nat.zero_le _) (by bv_omega)
  · refine iff_of_true (fun vid none => by cases none) (Or.inl ?_)
    rcases Nat.lt_or_ge home 65535 with before | after
    · exact wrapped ▸ reached.taken home (Nat.zero_le _) before
    · exact wrapped ▸ (show home = 65535 by omega) ▸ taken

theorem avoidsSwitchVID_iff (table : HostTable) (hip : IPAddress) (hmac : EtherAddress)
    (myinterfaceid : Int) (switchvid : VID) (startrand : BitVec 16) :
    (∀ vid, (table.generateHostVid hip hmac myinterfaceid switchvid startrand).2 =
        (true, some vid) →
      ¬vid.IsSwitchVID) ↔ table.AvoidsSwitchVID hip myinterfaceid switchvid startrand := by
  by_cases refreshes : table.Refreshes hip myinterfaceid switchvid
  · refine iff_of_true (fun vid assigned => ?_) (Or.inl refreshes)
    have old := generateHostVid_of_refreshes refreshes hmac startrand
    rw [assigned] at old
    cases old
  · rw [AvoidsSwitchVID, or_iff_right refreshes, ← searchVid_reserved_iff,
      generateHostVid_of_search refreshes]
    refine forall_congr' fun vid => ?_
    rw [Prod.mk.injEq]
    exact ⟨fun kept found => kept ⟨by rw [found]; rfl, found⟩, fun kept both => kept both.2⟩

def KeepsReserved (table : HostTable) : HostCall → Prop
  | .generateHostVid hip _ myinterfaceid switchvid startrand =>
      table.AvoidsSwitchVID hip myinterfaceid switchvid startrand
  | .refreshIPintEntry _ _ => True
  | .deleteIP _ => True
  | .fire _ => True

theorem mem_hosts_expire {table : HostTable} {td : HostTimerData} {vid : VID}
    (member : vid ∈ (table.expire td).hosts) : vid ∈ table.hosts := by
  rw [expire] at member
  split at member
  · exact member
  · split at member
    · split at member
      · exact member
      · exact (AList.mem_erase.mp member).2
    · exact member

theorem mem_hosts_deleteIP {table : HostTable} {ip : IPAddress} {vid : VID}
    (member : vid ∈ (table.deleteIP ip).hosts) : vid ∈ table.hosts := by
  rw [deleteIP] at member
  split at member
  · exact member
  · dsimp only at member
    split at member
    · exact member
    · split at member
      · exact member
      · exact (AList.mem_erase.mp member).2

theorem mem_hosts_assignVid {table : HostTable} {hip : IPAddress} {hmac : EtherAddress}
    {myinterfaceid : Int} {switchvid : VID} {startrand : BitVec 16} {vid : VID}
    (member : vid ∈ (table.assignVid hip hmac myinterfaceid switchvid startrand).1.hosts) :
    vid ∈ table.hosts ∨
      (table.assignVid hip hmac myinterfaceid switchvid startrand).2 = (true, some vid) := by
  rw [assignVid] at member ⊢
  split at member
  · exact Or.inl member
  · rename_i v1 found
    have keys : vid = v1 ∨ vid ∈ table.hosts := by
      rw [updateEntry] at member
      split at member <;> exact (AList.mem_insert _).mp member
    rcases keys with rfl | before
    · exact Or.inr rfl
    · exact Or.inl before

theorem Consistent.mem_hosts_generateHostVid {table : HostTable} (consistent : table.Consistent)
    {hip : IPAddress} {hmac : EtherAddress} {myinterfaceid : Int} {switchvid : VID}
    {startrand : BitVec 16} {vid : VID}
    (member : vid ∈ (table.generateHostVid hip hmac myinterfaceid switchvid startrand).1.hosts) :
    vid ∈ table.hosts ∨
      (table.generateHostVid hip hmac myinterfaceid switchvid startrand).2 = (true, some vid) := by
  rw [generateHostVid] at member ⊢
  split at member
  · exact mem_hosts_assignVid member
  · rename_i he entry
    split at member
    · rename_i vid1 current
      obtain ⟨mac, named⟩ := consistent.mac_of_vid (currentVid_eq_some current).1
      rcases (AList.mem_insert _).mp member with rfl | before
      · exact Or.inl (mem_of_lookup named)
      · exact Or.inl before
    · rcases mem_hosts_assignVid member with before | assigned
      · exact Or.inl (AList.mem_erase.mp before).2
      · exact Or.inr assigned

/-- In a run whose calls all meet the condition no host ever has the VID of a switch, and in every
state of the run the condition is the one under which the next call assigns none. -/
theorem reachable_unreserved {table : HostTable}
    (run : Transition.Reaches (· = empty) Step KeepsReserved table) :
    (∀ vid ∈ table.hosts, ¬vid.IsSwitchVID) ∧
      ∀ hip hmac myinterfaceid switchvid startrand,
        (∀ vid, (table.generateHostVid hip hmac myinterfaceid switchvid startrand).2 =
            (true, some vid) →
          ¬vid.IsSwitchVID) ↔ table.KeepsReserved
            (.generateHostVid hip hmac myinterfaceid switchvid startrand) := by
  refine ⟨?_, table.avoidsSwitchVID_iff⟩
  refine (run.invariant (fun state => state.Consistent ∧
    ∀ vid ∈ state.hosts, ¬vid.IsSwitchVID) ?_ ?_).2
  · rintro state rfl
    exact ⟨empty_consistent, fun vid member => absurd member (AList.notMem_empty vid)⟩
  · rintro state call after ⟨consistent, unreserved⟩ keeps rfl
    refine ⟨consistent.apply call, fun vid member => ?_⟩
    cases call with
    | generateHostVid hip hmac myinterfaceid switchvid startrand =>
        rcases consistent.mem_hosts_generateHostVid member with before | assigned
        · exact unreserved vid before
        · exact (state.avoidsSwitchVID_iff hip hmac myinterfaceid switchvid startrand).mpr
            keeps vid assigned
    | refreshIPintEntry ip interfaceid =>
        rw [HostTable.apply, refreshIPintEntry] at member
        split at member <;> exact unreserved vid member
    | deleteIP ip => exact unreserved vid (mem_hosts_deleteIP member)
    | fire timer =>
        rw [HostTable.apply, fire] at member
        split at member
        · exact unreserved vid member
        · have kept := mem_hosts_expire member
          exact unreserved vid kept

theorem reachable_unreserved_host :
    (∀ vid ∈ (empty.apply (.generateHostVid 1 7 0 0x010200000000 3)).hosts, ¬vid.IsSwitchVID) ∧
      ∀ hip hmac myinterfaceid switchvid startrand,
        (∀ vid, ((empty.apply (.generateHostVid 1 7 0 0x010200000000 3)).generateHostVid hip hmac
          myinterfaceid switchvid startrand).2 = (true, some vid) → ¬vid.IsSwitchVID) ↔
            (empty.apply (.generateHostVid 1 7 0 0x010200000000 3)).KeepsReserved
              (.generateHostVid hip hmac myinterfaceid switchvid startrand) := by
  have keeps : empty.KeepsReserved (.generateHostVid 1 7 0 0x010200000000 3) :=
    Or.inr (Or.inr ⟨by decide, 3, by decide, AList.notMem_empty _⟩)
  exact reachable_unreserved (.next (.start rfl) keeps rfl)

/-- The number 0 gives the first host the VID of its switch. -/
theorem reachable_reserved :
    ¬∀ table, Transition.Reachable (· = empty) Step table →
      ∀ hip hmac myinterfaceid switchvid startrand, switchvid.IsSwitchVID →
        ∀ vid, (table.generateHostVid hip hmac myinterfaceid switchvid startrand).2 =
            (true, some vid) →
          vid ≠ switchvid := by
  intro always
  exact always empty (.start rfl) 1 7 0 0x010200000000 0 (by decide) 0x010200000000 rfl rfl

end HostTable

end Veil
