import Veil.HostVids
import Veil.ProcessAccessInfo

/-! What a host table has learned of its hosts: every name it holds was given to some host. -/

namespace Veil

open HashTable

namespace HostTable

/-- Every name in the table belongs to a host: `known ip mac vid` says that one with these was
seen. -/
structure Learned (known : IPAddress → EtherAddress → VID → Prop) (table : HostTable) : Prop where
  ips : ∀ ip vid, table.lookupIP ip = some vid → ∃ mac, known ip mac vid
  vids : ∀ vid mac, table.lookupVID vid = some mac → ∃ ip, known ip mac vid
  macs : ∀ mac vid, table.lookupMAC mac = some vid → ∃ ip, known ip mac vid

structure Forgets (before after : HostTable) : Prop where
  ips : ∀ ip vid, after.lookupIP ip = some vid → before.lookupIP ip = some vid
  vids : ∀ vid mac, after.lookupVID vid = some mac → before.lookupVID vid = some mac
  macs : ∀ mac vid, after.lookupMAC mac = some vid → before.lookupMAC mac = some vid

theorem expire_forgets (table : HostTable) (td : HostTimerData) :
    Forgets table (table.expire td) := by
  simp only [expire]
  split
  · exact ⟨fun _ _ => id, fun _ _ => id, fun _ _ => id⟩
  · split
    · split
      · exact ⟨fun _ _ => lookup_of_erase, fun _ _ => id, fun _ _ => id⟩
      · exact ⟨fun _ _ => lookup_of_erase, fun _ _ => lookup_of_erase, fun _ _ => lookup_of_erase⟩
    · exact ⟨fun _ _ => id, fun _ _ => id, fun _ _ => id⟩

theorem fire_forgets (table : HostTable) (timer : Nat) : Forgets table (table.fire timer) := by
  rw [fire]
  split
  · exact ⟨fun _ _ => id, fun _ _ => id, fun _ _ => id⟩
  · rename_i td _
    obtain ⟨ips, vids, macs⟩ := expire_forgets { table with timers := table.timers.erase timer } td
    exact ⟨ips, vids, macs⟩

theorem deleteIP_forgets (table : HostTable) (ip : IPAddress) :
    Forgets table (table.deleteIP ip) := by
  simp only [deleteIP]
  split
  · exact ⟨fun _ _ => id, fun _ _ => id, fun _ _ => id⟩
  · split
    · exact ⟨fun _ _ => id, fun _ _ => id, fun _ _ => id⟩
    · split
      · exact ⟨fun _ _ => lookup_of_erase, fun _ _ => id, fun _ _ => id⟩
      · exact ⟨fun _ _ => lookup_of_erase, fun _ _ => lookup_of_erase, fun _ _ => lookup_of_erase⟩

theorem removeMapping_forgets (table : HostTable) (he : HostEntry) (hip : IPAddress)
    (hmac : EtherAddress) :
    Forgets table (table.removeMapping he hip hmac) :=
  ⟨fun _ _ => lookup_of_erase, fun _ _ => lookup_of_erase, fun _ _ => lookup_of_erase⟩

section Learned

variable {known more : IPAddress → EtherAddress → VID → Prop} {table after : HostTable}

theorem Learned.mono (learned : table.Learned known)
    (all : ∀ ip mac vid, known ip mac vid → more ip mac vid) :
    table.Learned more where
  ips ip vid found := (learned.ips ip vid found).imp fun mac => all ip mac vid
  vids vid mac found := (learned.vids vid mac found).imp fun ip => all ip mac vid
  macs mac vid found := (learned.macs mac vid found).imp fun ip => all ip mac vid

theorem Learned.forgets (learned : table.Learned known) (forgets : Forgets table after) :
    after.Learned known where
  ips ip vid found := learned.ips ip vid (forgets.ips ip vid found)
  vids vid mac found := learned.vids vid mac (forgets.vids vid mac found)
  macs mac vid found := learned.macs mac vid (forgets.macs mac vid found)

theorem empty_learned : empty.Learned known := by
  refine ⟨?_, ?_, ?_⟩
  · intro ip vid found
    cases found
  · intro vid mac found
    cases found
  · intro mac vid found
    cases found

theorem Learned.insert (learned : table.Learned known) {ip : IPAddress} {mac : EtherAddress}
    {vid : VID} (seen : known ip mac vid) (ips : after.iphosts = table.iphosts.insert ip vid)
    (vids : after.hosts = table.hosts.insert vid mac)
    (macs : after.rhosts = table.rhosts.insert mac vid) :
    after.Learned known := by
  refine ⟨?_, ?_, ?_⟩
  · intro other entry found
    rw [lookupIP, ips, lookup_insert_ite] at found
    split at found
    · rename_i same
      cases found
      exact ⟨mac, same ▸ seen⟩
    · exact learned.ips other entry found
  · intro other entry found
    rw [lookupVID, vids, lookup_insert_ite] at found
    split at found
    · rename_i same
      cases found
      exact ⟨ip, same ▸ seen⟩
    · exact learned.vids other entry found
  · intro other entry found
    rw [lookupMAC, macs, lookup_insert_ite] at found
    split at found
    · rename_i same
      cases found
      exact ⟨ip, same ▸ seen⟩
    · exact learned.macs other entry found

theorem Learned.updateEntry (learned : table.Learned known) {ip : IPAddress} {mac : EtherAddress}
    {vid : VID} (seen : known ip mac vid) (interfaceid : Int) :
    (table.updateEntry vid mac ip interfaceid).Learned known := by
  simp only [HostTable.updateEntry]
  split
  · exact learned.insert seen rfl rfl rfl
  · exact learned.insert seen rfl rfl rfl

theorem searchVid_hostVid {hosts : HashTable VID EtherAddress} {switchvid vid : VID}
    {startrand : BitVec 16} {fuel : Nat} {currrand : BitVec 16}
    (found : searchVid hosts switchvid startrand fuel currrand = some vid) :
    ∃ rand, vid = hostVid switchvid rand := by
  induction fuel generalizing currrand with
  | zero => cases found
  | succ fuel ih =>
      simp only [searchVid] at found
      split at found
      · split at found
        · cases found
        · exact ih found
      · cases found
        exact ⟨currrand, rfl⟩

section Registration

variable {hip : IPAddress} {hmac : EtherAddress} {switchvid : VID}

theorem Learned.assignVid (learned : table.Learned known) (switch : switchvid.IsSwitchVID)
    (seen : ∀ vid, vid.getSwitchVID = switchvid → known hip hmac vid) (myinterfaceid : Int)
    (startrand : BitVec 16) :
    let (after, isNew, result) := table.assignVid hip hmac myinterfaceid switchvid startrand
    after.Learned known ∧ (∀ vid, result = some vid → vid.getSwitchVID = switchvid) ∧
      (isNew = true → result.isSome = true) := by
  simp only [HostTable.assignVid]
  split
  · refine ⟨learned, ?_, ?_⟩
    · rintro vid ⟨⟩
    · rintro ⟨⟩
  · rename_i vid found
    obtain ⟨rand, rfl⟩ := searchVid_hostVid found
    have own := getSwitchVID_hostVid switch rand
    refine ⟨learned.updateEntry (seen _ own) myinterfaceid, ?_, fun _ => rfl⟩
    rintro vid ⟨⟩
    exact own

theorem Learned.generateHostVid (learned : table.Learned known) (switch : switchvid.IsSwitchVID)
    (seen : ∀ vid, vid.getSwitchVID = switchvid → known hip hmac vid) (myinterfaceid : Int)
    (startrand : BitVec 16) :
    let (after, isNew, result) := table.generateHostVid hip hmac myinterfaceid switchvid startrand
    after.Learned known ∧ (∀ vid, result = some vid → vid.getSwitchVID = switchvid) ∧
      (isNew = true → result.isSome = true) := by
  simp only [HostTable.generateHostVid]
  split
  · exact learned.assignVid switch seen myinterfaceid startrand
  · rename_i he entry
    split
    · rename_i vid1 current
      have own := (currentVid_eq_some current).2
      refine ⟨learned.insert (seen vid1 own) rfl rfl rfl, ?_, fun _ => rfl⟩
      rintro vid ⟨⟩
      exact own
    · exact (learned.forgets (table.removeMapping_forgets he hip hmac)).assignVid switch
        seen myinterfaceid
        startrand

theorem Learned.registerHost (learned : table.Learned known) (switch : switchvid.IsSwitchVID)
    (seen : ∀ vid, vid.getSwitchVID = switchvid → known hip hmac vid) (myport : Int)
    (startrand : BitVec 16) :
    let (after, published) := table.registerHost hip hmac myport switchvid startrand
    after.Learned known ∧ ∀ frame ∈ published, ∃ vid, vid.getSwitchVID = switchvid ∧
      frame = publishAccessInfoPacket hip hmac vid := by
  have registered := learned.generateHostVid switch seen myport startrand
  simp only [HostTable.registerHost]
  split
  · rename_i hosts hvid result
    rw [result] at registered
    refine ⟨registered.1, fun frame member => ⟨hvid, registered.2.1 hvid rfl, ?_⟩⟩
    exact List.mem_singleton.mp member
  · rename_i hosts isNew result _ generated
    rw [generated] at registered
    exact ⟨registered.1, List.forall_mem_nil _⟩

end Registration

end Learned

end HostTable

end Veil
