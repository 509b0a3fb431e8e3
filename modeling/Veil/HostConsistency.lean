import Veil.HostTable
import Veil.Library.Transition

/-! What the four tables and the timers of a host table keep over whole runs. -/

namespace Veil

open HashTable

namespace HostTable

/-- The IP to interface and IP to VID tables hold the same IPs, IPs and VIDs in use correspond one
to one, and exactly one timer is pending for every entry. -/
structure Consistent (table : HostTable) : Prop where
  keys : ∀ ip, ip ∈ table.inthosts ↔ ip ∈ table.iphosts
  vidUnique : ∀ {ip other vid}, table.iphosts.lookup ip = some vid →
    table.iphosts.lookup other = some vid → ip = other
  vids : ∀ vid, vid ∈ table.hosts ↔ ∃ ip, table.iphosts.lookup ip = some vid
  pending : ∀ timer td, table.timers.lookup timer = some td ↔
    ∃ he, table.inthosts.lookup td.ip = some he ∧ he.expiry = timer ∧
      table.iphosts.lookup td.ip = some td.hostvid
  fresh : ∀ timer, timer ∈ table.timers → timer < table.nextTimer

theorem Consistent.vid_of_entry {table : HostTable} (consistent : table.Consistent)
    {ip : IPAddress} {he : HostEntry} (found : table.inthosts.lookup ip = some he) :
    ∃ vid, table.iphosts.lookup ip = some vid :=
  (mem_iff_lookup _ _).mp ((consistent.keys ip).mp (mem_of_lookup found))

theorem Consistent.unmapped_of_absent {table : HostTable} (consistent : table.Consistent)
    {ip : IPAddress} (absent : table.inthosts.lookup ip = none) : table.iphosts.lookup ip = none :=
  AList.lookup_eq_none.mpr fun member =>
    AList.lookup_eq_none.mp absent ((consistent.keys ip).mpr member)

theorem Consistent.mac_of_vid {table : HostTable} (consistent : table.Consistent)
    {ip : IPAddress} {vid : VID} (found : table.iphosts.lookup ip = some vid) :
    ∃ mac, table.hosts.lookup vid = some mac :=
  (mem_iff_lookup _ _).mp ((consistent.vids vid).mpr ⟨ip, found⟩)

theorem empty_consistent : empty.Consistent where
  keys := fun _ => Iff.rfl
  vidUnique := fun found => nomatch found
  vids := by simp [empty]
  pending := by simp [empty]
  fresh := fun timer member => (AList.notMem_empty timer member).elim

def drop (table : HostTable) (ip : IPAddress) (vid : VID) (timer : Nat) (mac : EtherAddress) :
    HostTable :=
  { table with
    timers := table.timers.erase timer
    hosts := table.hosts.erase vid
    rhosts := table.rhosts.erase mac
    iphosts := table.iphosts.erase ip
    inthosts := table.inthosts.erase ip }

theorem Consistent.drop {table : HostTable} (consistent : table.Consistent) {ip : IPAddress}
    {he : HostEntry} {vid : VID} (entry : table.inthosts.lookup ip = some he)
    (mapped : table.iphosts.lookup ip = some vid) (mac : EtherAddress) :
    (table.drop ip vid he.expiry mac).Consistent where
  keys := by
    intro other
    have same := consistent.keys other
    simp only [HostTable.drop, AList.mem_erase]
    rw [same]
  vidUnique := by
    intro first second other firstFound secondFound
    simp only [HostTable.drop, lookup_erase_ite] at firstFound secondFound
    split at firstFound
    · cases firstFound
    split at secondFound
    · cases secondFound
    exact consistent.vidUnique firstFound secondFound
  vids := by
    intro other
    simp only [HostTable.drop, AList.mem_erase, lookup_erase_ite]
    rw [consistent.vids other]
    constructor
    · rintro ⟨different, owner, found⟩
      have apart : owner ≠ ip := by
        rintro rfl
        exact different (Option.some.inj (found.symm.trans mapped))
      exact ⟨owner, by simpa [apart] using found⟩
    · rintro ⟨owner, found⟩
      split at found
      · cases found
      rename_i apart
      refine ⟨?_, owner, found⟩
      rintro rfl
      exact apart (consistent.vidUnique found mapped)
  pending := by
    intro timer td
    simp only [HostTable.drop, lookup_erase_ite]
    constructor
    · intro found
      split at found
      · cases found
      rename_i otherTimer
      obtain ⟨owner, ownerFound, same, current⟩ := (consistent.pending timer td).mp found
      have apart : td.ip ≠ ip := by
        intro equal
        rw [equal, entry] at ownerFound
        cases ownerFound
        exact otherTimer same.symm
      refine ⟨owner, ?_, same, ?_⟩
      · rw [if_neg apart]
        exact ownerFound
      · rw [if_neg apart]
        exact current
    · rintro ⟨owner, ownerFound, same, current⟩
      split at ownerFound
      · cases ownerFound
      rename_i apart
      rw [if_neg apart] at current
      have found := (consistent.pending timer td).mpr ⟨owner, ownerFound, same, current⟩
      have otherTimer : timer ≠ he.expiry := by
        rintro rfl
        have own := (consistent.pending he.expiry ⟨vid, ip⟩).mpr ⟨he, entry, rfl, mapped⟩
        rw [own] at found
        cases found
        exact apart rfl
      rw [if_neg otherTimer]
      exact found
  fresh := by
    intro timer member
    exact consistent.fresh timer (AList.mem_erase.mp member).2

theorem deleteIP_eq {table : HostTable} {ip : IPAddress} {he : HostEntry} {vid : VID}
    {mac : EtherAddress} (entry : table.inthosts.lookup ip = some he)
    (mapped : table.iphosts.lookup ip = some vid) (named : table.hosts.lookup vid = some mac) :
    table.deleteIP ip = table.drop ip vid he.expiry mac := by
  simp only [deleteIP, entry, mapped, named, HostTable.drop]

theorem Consistent.fire_eq {table : HostTable} (consistent : table.Consistent) {timer : Nat}
    {td : HostTimerData} {mac : EtherAddress} (found : table.timers.lookup timer = some td)
    (named : table.hosts.lookup td.hostvid = some mac) :
    table.fire timer = table.drop td.ip td.hostvid timer mac := by
  obtain ⟨he, entry, same, mapped⟩ := (consistent.pending timer td).mp found
  simp only [fire, found, expire, mapped, named, HostTable.drop, if_true]

theorem removeMapping_eq {table : HostTable} {he : HostEntry} {hip : IPAddress} {vid : VID}
    (mapped : table.iphosts.lookup hip = some vid) (hmac : EtherAddress) :
    table.removeMapping he hip hmac = table.drop hip vid he.expiry hmac := by
  simp only [removeMapping, mapped, HostTable.drop, Option.getD_some]

theorem updateEntry_of_absent {table : HostTable} {ip : IPAddress}
    (absent : table.inthosts.lookup ip = none) (vid : VID) (mac : EtherAddress)
    (interfaceid : Int) :
    table.updateEntry vid mac ip interfaceid =
      { hosts := table.hosts.insert vid mac
        rhosts := table.rhosts.insert mac vid
        iphosts := table.iphosts.insert ip vid
        inthosts := table.inthosts.insert ip ⟨interfaceid, table.nextTimer⟩
        timers := table.timers.insert table.nextTimer ⟨vid, ip⟩
        nextTimer := table.nextTimer + 1 } := by
  simp only [updateEntry, absent]

theorem Consistent.updateEntry {table : HostTable} (consistent : table.Consistent) {ip : IPAddress}
    (absent : table.inthosts.lookup ip = none) {vid : VID} (unused : vid ∉ table.hosts)
    (mac : EtherAddress) (interfaceid : Int) :
    (table.updateEntry vid mac ip interfaceid).Consistent := by
  have unmapped := consistent.unmapped_of_absent absent
  have unowned (owner : IPAddress) : table.iphosts.lookup owner ≠ some vid := fun found =>
    unused ((consistent.vids vid).mpr ⟨owner, found⟩)
  rw [updateEntry_of_absent absent]
  refine ⟨?_, ?_, ?_, ?_, ?_⟩
  · intro other
    simp only [AList.mem_insert]
    rw [consistent.keys other]
  · intro first second other firstFound secondFound
    simp only [lookup_insert_ite] at firstFound secondFound
    split at firstFound <;> split at secondFound
    · simp_all
    · cases firstFound
      exact (unowned _ secondFound).elim
    · cases secondFound
      exact (unowned _ firstFound).elim
    · exact consistent.vidUnique firstFound secondFound
  · intro other
    simp only [AList.mem_insert, lookup_insert_ite]
    rw [consistent.vids other]
    constructor
    · rintro (same | ⟨owner, found⟩)
      · exact ⟨ip, by simp [same]⟩
      · have apart : owner ≠ ip := by
          rintro rfl
          rw [unmapped] at found
          cases found
        exact ⟨owner, by simpa [apart] using found⟩
    · rintro ⟨owner, found⟩
      split at found
      · exact Or.inl (Option.some.inj found).symm
      · exact Or.inr ⟨owner, found⟩
  · intro timer td
    simp only [lookup_insert_ite]
    constructor
    · intro found
      split at found
      · rename_i same
        cases found
        exact ⟨_, if_pos rfl, same.symm, if_pos rfl⟩
      · obtain ⟨owner, ownerFound, same, current⟩ := (consistent.pending timer td).mp found
        have apart : td.ip ≠ ip := by
          intro equal
          rw [equal, absent] at ownerFound
          cases ownerFound
        exact ⟨owner, by rw [if_neg apart]; exact ownerFound, same,
          by rw [if_neg apart]; exact current⟩
    · rintro ⟨owner, ownerFound, same, current⟩
      split at ownerFound
      · rename_i equal
        cases ownerFound
        rw [if_pos equal, Option.some.injEq] at current
        subst same
        rw [if_pos rfl, current, ← equal]
      · rename_i apart
        rw [if_neg apart] at current
        have found := (consistent.pending timer td).mpr ⟨owner, ownerFound, same, current⟩
        have older : timer ≠ table.nextTimer :=
          Nat.ne_of_lt (consistent.fresh timer (mem_of_lookup found))
        rw [if_neg older]
        exact found
  · intro timer member
    rcases (AList.mem_insert _).mp member with same | old
    · exact Nat.lt_succ_of_le (Nat.le_of_eq same)
    · exact Nat.lt_succ_of_lt (consistent.fresh timer old)

theorem searchVid_spec {hosts : HashTable VID EtherAddress} {switchvid vid : VID}
    {startrand : BitVec 16} {fuel : Nat} {currrand : BitVec 16}
    (found : searchVid hosts switchvid startrand fuel currrand = some vid) : vid ∉ hosts := by
  induction fuel generalizing currrand with
  | zero => cases found
  | succ fuel ih =>
      simp only [searchVid] at found
      split at found
      · split at found
        · cases found
        · exact ih found
      · rename_i unused
        cases found
        rwa [AList.lookup_isSome] at unused

theorem Consistent.assignVid {table : HostTable} (consistent : table.Consistent) {hip : IPAddress}
    (absent : table.inthosts.lookup hip = none) (hmac : EtherAddress) (myinterfaceid : Int)
    (switchvid : VID) (startrand : BitVec 16) :
    (table.assignVid hip hmac myinterfaceid switchvid startrand).1.Consistent := by
  rw [HostTable.assignVid]
  split
  · exact consistent
  · rename_i vid found
    exact consistent.updateEntry absent (searchVid_spec found) hmac myinterfaceid

theorem Consistent.refresh {table : HostTable} (consistent : table.Consistent) {ip : IPAddress}
    {he : HostEntry} {vid : VID} (entry : table.inthosts.lookup ip = some he)
    (mapped : table.iphosts.lookup ip = some vid) (mac : EtherAddress) :
    { table with
      inthosts := table.inthosts.insert ip he
      hosts := table.hosts.insert vid mac
      rhosts := table.rhosts.insert mac vid
      iphosts := table.iphosts.insert ip vid : HostTable }.Consistent := by
  have entries (other : IPAddress) :
      (table.inthosts.insert ip he).lookup other = table.inthosts.lookup other := by
    rw [lookup_insert_ite]
    split
    · rename_i same
      rw [same, entry]
    · rfl
  have mappings (other : IPAddress) :
      (table.iphosts.insert ip vid).lookup other = table.iphosts.lookup other := by
    rw [lookup_insert_ite]
    split
    · rename_i same
      rw [same, mapped]
    · rfl
  refine ⟨?_, ?_, ?_, ?_, consistent.fresh⟩
  · intro other
    simp only [mem_iff_lookup, entries, mappings]
    simpa only [mem_iff_lookup] using consistent.keys other
  · intro first second other firstFound secondFound
    rw [mappings] at firstFound secondFound
    exact consistent.vidUnique firstFound secondFound
  · intro other
    simp only [mappings, AList.mem_insert]
    rw [← consistent.vids other, or_iff_right_iff_imp]
    rintro rfl
    exact (consistent.vids _).mpr ⟨ip, mapped⟩
  · intro timer td
    simp only [entries, mappings]
    exact consistent.pending timer td

theorem currentVid_eq_some {table : HostTable} {he : HostEntry} {hip : IPAddress}
    {myinterfaceid : Int} {switchvid vid : VID}
    (current : table.currentVid he hip myinterfaceid switchvid = some vid) :
    table.iphosts.lookup hip = some vid ∧ vid.getSwitchVID = switchvid := by
  simp only [currentVid] at current
  split at current
  · simpa [Option.filter_eq_some_iff] using current
  · cases current

theorem Consistent.apply {table : HostTable} (consistent : table.Consistent) (call : HostCall) :
    (table.apply call).Consistent := by
  cases call with
  | generateHostVid hip hmac myinterfaceid switchvid startrand =>
      simp only [HostTable.apply, generateHostVid]
      split
      · rename_i absent
        exact consistent.assignVid absent hmac myinterfaceid switchvid startrand
      · rename_i he entry
        split
        · rename_i vid current
          exact consistent.refresh entry (currentVid_eq_some current).1 hmac
        · obtain ⟨vid, mapped⟩ := consistent.vid_of_entry entry
          rw [removeMapping_eq mapped]
          exact (consistent.drop entry mapped hmac).assignVid (by simp [HostTable.drop]) hmac
            myinterfaceid switchvid startrand
  | refreshIPintEntry ip interfaceid =>
      simp only [HostTable.apply, refreshIPintEntry]
      split <;> exact consistent
  | deleteIP ip =>
      simp only [HostTable.apply]
      cases entry : table.inthosts.lookup ip with
      | none =>
          rw [deleteIP, entry]
          exact consistent
      | some he =>
          obtain ⟨vid, mapped⟩ := consistent.vid_of_entry entry
          obtain ⟨mac, named⟩ := consistent.mac_of_vid mapped
          rw [deleteIP_eq entry mapped named]
          exact consistent.drop entry mapped mac
  | fire timer =>
      simp only [HostTable.apply]
      cases found : table.timers.lookup timer with
      | none =>
          rw [fire, found]
          exact consistent
      | some td =>
          obtain ⟨he, entry, same, mapped⟩ := (consistent.pending timer td).mp found
          obtain ⟨mac, named⟩ := consistent.mac_of_vid mapped
          rw [consistent.fire_eq found named, ← same]
          exact consistent.drop entry mapped mac

def Step (table : HostTable) (call : HostCall) (after : HostTable) : Prop :=
  after = table.apply call

/-- Every sequence of calls, from an empty table on, leaves the tables and the timers consistent. -/
theorem reachable_consistent {table : HostTable}
    (run : Transition.Reachable (· = empty) Step table) : table.Consistent := by
  refine run.invariant Consistent ?_ ?_
  · rintro table rfl
    exact empty_consistent
  · rintro table call after consistent - rfl
    exact consistent.apply call

/-- Two hosts register below one switch VID, the first moves and expires, and the second is left. -/
theorem reachable_consistent_expired :
    let table := [HostCall.generateHostVid 1 7 0 0x010200000000 1,
      .generateHostVid 2 8 0 0x010200000000 1,
      .generateHostVid 1 7 1 0x030400000000 1, .fire 2].foldl HostTable.apply empty
    table.Consistent ∧ table.lookupIP 1 = none ∧ table.lookupIP 2 = some 0x010200000200 ∧
      table.lookupVID 0x010200000200 = some 8 ∧
        table.timers.lookup 1 = some ⟨0x010200000200, 2⟩ := by
  refine ⟨reachable_consistent ?_, by decide +kernel⟩
  simp only [List.foldl_cons, List.foldl_nil]
  exact .next (.next (.next (.next (.start rfl) trivial rfl) trivial rfl) trivial rfl) trivial rfl

end HostTable

end Veil
