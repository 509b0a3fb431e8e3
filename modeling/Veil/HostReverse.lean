import Veil.HostVids

/-! When the address to VID table stays the inverse of the VID to address table. -/

namespace Veil

open HashTable

structure HostHistory where
  table : HostTable
  registered : HashTable IPAddress EtherAddress

namespace HostHistory

def empty : HostHistory := ⟨HostTable.empty, ∅⟩

def apply (history : HostHistory) (call : HostCall) : HostHistory where
  table := history.table.apply call
  registered := match call with
    | .generateHostVid hip hmac _ _ _ => history.registered.insert hip hmac
    | .refreshIPintEntry _ _ => history.registered
    | .deleteIP _ => history.registered
    | .fire _ => history.registered

def Step (history : HostHistory) (call : HostCall) (after : HostHistory) : Prop :=
  after = history.apply call

/-- Every live IP leads to the address last registered for it, which leads to a VID of that address,
and no address leads to a VID of another. -/
structure Inverse (history : HostHistory) : Prop where
  named : ∀ ip vid, history.table.lookupIP ip = some vid → ∃ mac,
    history.registered.lookup ip = some mac ∧ history.table.lookupVID vid = some mac ∧
      ∃ other, history.table.lookupMAC mac = some other ∧ history.table.lookupVID other = some mac
  reverse : ∀ mac vid, history.table.rhosts.lookup mac = some vid →
    history.table.hosts.lookup vid = some mac

structure InverseExcept (history : HostHistory) (hmac : EtherAddress) : Prop where
  named : ∀ ip vid, history.table.iphosts.lookup ip = some vid → ∃ mac,
    history.registered.lookup ip = some mac ∧ history.table.hosts.lookup vid = some mac ∧
      (mac = hmac ∨ ∃ other, history.table.rhosts.lookup mac = some other ∧
        history.table.hosts.lookup other = some mac)
  reverse : ∀ mac vid, history.table.rhosts.lookup mac = some vid →
    mac = hmac ∨ history.table.hosts.lookup vid = some mac

theorem Inverse.except {history : HostHistory} (inverse : history.Inverse) (hmac : EtherAddress) :
    history.InverseExcept hmac where
  named := by
    intro ip vid found
    obtain ⟨mac, registered, named, back⟩ := inverse.named ip vid found
    exact ⟨mac, registered, named, Or.inr back⟩
  reverse := fun mac vid found => Or.inr (inverse.reverse mac vid found)

theorem empty_inverse : empty.Inverse where
  named := fun _ _ found => nomatch found
  reverse := fun _ _ found => nomatch found

theorem InverseExcept.register {before after : HostHistory} {hmac : EtherAddress} (ip : IPAddress)
    (vid : VID) (inverse : before.InverseExcept hmac)
    (unused : before.table.hosts.lookup vid = none)
    (hosts : ∀ v, after.table.hosts.lookup v =
      if v = vid then some hmac else before.table.hosts.lookup v)
    (rhosts : ∀ mac, after.table.rhosts.lookup mac =
      if mac = hmac then some vid else before.table.rhosts.lookup mac)
    (iphosts : ∀ other, other ≠ ip →
      after.table.iphosts.lookup other = before.table.iphosts.lookup other)
    (mapped : after.table.iphosts.lookup ip = some vid)
    (registered : ∀ other, after.registered.lookup other =
      if other = ip then some hmac else before.registered.lookup other) :
    after.Inverse where
  named := by
    intro other v found
    simp only [HostTable.lookupIP, HostTable.lookupVID, HostTable.lookupMAC] at found ⊢
    by_cases same : other = ip
    · subst other
      rw [mapped] at found
      cases found
      exact ⟨hmac, by rw [registered, if_pos rfl], by rw [hosts, if_pos rfl], vid,
        by rw [rhosts, if_pos rfl], by rw [hosts, if_pos rfl]⟩
    · rw [iphosts other same] at found
      obtain ⟨mac, recorded, named, back⟩ := inverse.named other v found
      have apart : v ≠ vid := by
        rintro rfl
        rw [unused] at named
        cases named
      refine ⟨mac, by rw [registered, if_neg same, recorded],
        by rw [hosts, if_neg apart, named], ?_⟩
      by_cases own : mac = hmac
      · exact ⟨vid, by rw [rhosts, if_pos own], by rw [hosts, if_pos rfl, own]⟩
      · obtain ⟨back, backFound, backNamed⟩ := back.resolve_left own
        have backApart : back ≠ vid := by
          rintro rfl
          rw [unused] at backNamed
          cases backNamed
        exact ⟨back, by rw [rhosts, if_neg own, backFound],
          by rw [hosts, if_neg backApart, backNamed]⟩
  reverse := by
    intro mac v found
    rw [rhosts] at found
    split at found
    · rename_i own
      cases found
      rw [hosts, if_pos rfl, own]
    · rename_i own
      have named := (inverse.reverse mac v found).resolve_left own
      have apart : v ≠ vid := by
        rintro rfl
        rw [unused] at named
        cases named
      rw [hosts, if_neg apart, named]

theorem InverseExcept.inverse {history : HostHistory} {hmac : EtherAddress}
    (inverse : history.InverseExcept hmac) (absent : history.table.rhosts.lookup hmac = none)
    (unshared : ∀ ip vid, history.table.iphosts.lookup ip = some vid →
      history.table.hosts.lookup vid ≠ some hmac) : history.Inverse where
  named := by
    intro ip vid found
    obtain ⟨mac, registered, named, back⟩ := inverse.named ip vid found
    have other : mac ≠ hmac := by
      rintro rfl
      exact unshared ip vid found named
    exact ⟨mac, registered, named, back.resolve_left other⟩
  reverse := by
    intro mac vid found
    have other : mac ≠ hmac := by
      rintro rfl
      rw [absent] at found
      cases found
    exact (inverse.reverse mac vid found).resolve_left other

theorem Inverse.drop {history after : HostHistory} (inverse : history.Inverse)
    (consistent : history.table.Consistent) {ip : IPAddress} {vid : VID} {mac hmac : EtherAddress}
    {timer : Nat} (mapped : history.table.iphosts.lookup ip = some vid)
    (named : history.table.hosts.lookup vid = some mac)
    (led : mac ≠ hmac → history.table.rhosts.lookup mac ≠ some vid)
    (dropped : after.table = history.table.drop ip vid timer hmac)
    (registered : ∀ other, other ≠ ip →
      after.registered.lookup other = history.registered.lookup other) :
    after.InverseExcept hmac := by
  have apart {v : VID} {m : EtherAddress} (other : m ≠ hmac)
      (back : history.table.rhosts.lookup m = some v)
      (forth : history.table.hosts.lookup v = some m) : v ≠ vid := by
    rintro rfl
    rw [named, Option.some.injEq] at forth
    subst forth
    exact led other back
  constructor
  · intro other v found
    simp only [dropped, HostTable.drop, lookup_erase_ite] at found ⊢
    split at found
    · cases found
    rename_i different
    obtain ⟨m, recorded, forth, v', back, again⟩ := inverse.named other v found
    have live : v ≠ vid := by
      rintro rfl
      exact different (consistent.vidUnique found mapped)
    refine ⟨m, by rw [registered other different, recorded], by rw [if_neg live]; exact forth, ?_⟩
    by_cases own : m = hmac
    · exact Or.inl own
    · exact Or.inr ⟨v', by rw [if_neg own]; exact back,
        by rw [if_neg (apart own back again)]; exact again⟩
  · intro m v found
    simp only [dropped, HostTable.drop, lookup_erase_ite] at found ⊢
    split at found
    · cases found
    rename_i other
    have forth := inverse.reverse m v found
    exact Or.inr (by rw [if_neg (apart other found forth)]; exact forth)

end HostHistory

namespace HostTable

def Shares (table : HostTable) (ip : IPAddress) (mac : EtherAddress) : Prop :=
  ∃ other vid, other ≠ ip ∧ table.iphosts.lookup other = some vid ∧
    table.hosts.lookup vid = some mac

/-- The calls that leave no address stale or missing. An entry is removed only when no other live IP
has its address. A live IP takes another address only when the old one does not lead to its VID, and
when a live IP has to leave its VID and no other is free, no other live IP has the new address. -/
def Undisturbed (table : HostTable) : HostCall → Prop
  | .deleteIP ip =>
      ∀ vid mac, table.iphosts.lookup ip = some vid → table.hosts.lookup vid = some mac →
      ¬table.Shares ip mac
  | .fire timer => ∀ td mac, table.timers.lookup timer = some td →
      table.hosts.lookup td.hostvid = some mac → ¬table.Shares td.ip mac
  | .refreshIPintEntry _ _ => True
  | .generateHostVid hip hmac _ switchvid _ => ∀ vid mac, table.iphosts.lookup hip = some vid →
      table.hosts.lookup vid = some mac →
      (mac ≠ hmac → table.rhosts.lookup mac ≠ some vid) ∧
        ((∀ rand, hostVid switchvid rand ∈ table.hosts.erase vid) → ¬table.Shares hip hmac)

end HostTable

namespace HostHistory

open HostTable (Undisturbed)

theorem not_inverse_of_missing {history : HostHistory} {ip : IPAddress} {vid : VID}
    {mac : EtherAddress} (mapped : history.table.iphosts.lookup ip = some vid)
    (named : history.table.hosts.lookup vid = some mac)
    (missing : history.table.rhosts.lookup mac = none) : ¬history.Inverse := by
  intro inverse
  obtain ⟨found, -, forth, back, led, -⟩ := inverse.named ip vid mapped
  simp only [HostTable.lookupVID, HostTable.lookupMAC, named, Option.some.injEq] at forth led
  subst forth
  rw [missing] at led
  cases led

theorem unshared_of_drop {history after : HostHistory} (consistent : history.table.Consistent)
    {ip : IPAddress} {vid : VID} {hmac : EtherAddress} {timer : Nat}
    (mapped : history.table.iphosts.lookup ip = some vid)
    (dropped : after.table = history.table.drop ip vid timer hmac) (kept : after.Inverse) :
    ¬history.table.Shares ip hmac := by
  rintro ⟨other, v, different, otherMapped, otherNamed⟩
  have live : v ≠ vid := by
    rintro rfl
    exact different (consistent.vidUnique otherMapped mapped)
  have stillMapped : after.table.iphosts.lookup other = some v := by
    rw [dropped, HostTable.drop, lookup_erase_ite, if_neg different]
    exact otherMapped
  have stillNamed : after.table.hosts.lookup v = some hmac := by
    rw [dropped, HostTable.drop, lookup_erase_ite, if_neg live]
    exact otherNamed
  refine not_inverse_of_missing stillMapped stillNamed ?_ kept
  rw [dropped, HostTable.drop, lookup_erase_ite, if_pos rfl]

theorem inverse_of_drop {history after : HostHistory} {ip : IPAddress} {vid : VID}
    {hmac : EtherAddress} {timer : Nat} (except : after.InverseExcept hmac)
    (dropped : after.table = history.table.drop ip vid timer hmac)
    (unshared : ¬history.table.Shares ip hmac) : after.Inverse := by
  refine except.inverse ?_ ?_
  · rw [dropped, HostTable.drop, lookup_erase_ite, if_pos rfl]
  · intro other v otherMapped otherNamed
    rw [dropped] at otherMapped otherNamed
    simp only [HostTable.drop, lookup_erase_ite] at otherMapped otherNamed
    split at otherMapped
    · cases otherMapped
    split at otherNamed
    · cases otherNamed
    rename_i different _
    exact unshared ⟨other, v, different, otherMapped, otherNamed⟩

theorem drop_inverse_iff {history after : HostHistory} (inverse : history.Inverse)
    (consistent : history.table.Consistent) {ip : IPAddress} {vid : VID} {mac : EtherAddress}
    {timer : Nat} (mapped : history.table.iphosts.lookup ip = some vid)
    (named : history.table.hosts.lookup vid = some mac)
    (dropped : after.table = history.table.drop ip vid timer mac)
    (registered : after.registered = history.registered) :
    after.Inverse ↔ ¬history.table.Shares ip mac := by
  refine ⟨unshared_of_drop consistent mapped dropped, fun unshared => ?_⟩
  have except := inverse.drop consistent mapped named (fun other => (other rfl).elim) dropped
    (fun other _ => by rw [registered])
  exact inverse_of_drop except dropped unshared

theorem replace_inverse_iff {history after : HostHistory} (inverse : history.Inverse)
    (consistent : history.table.Consistent) {ip : IPAddress} {vid : VID} (fresh : VID)
    {mac hmac : EtherAddress} (mapped : history.table.iphosts.lookup ip = some vid)
    (named : history.table.hosts.lookup vid = some mac)
    (unused : (history.table.hosts.erase vid).lookup fresh = none)
    (hosts : ∀ v, after.table.hosts.lookup v =
      if v = fresh then some hmac else (history.table.hosts.erase vid).lookup v)
    (rhosts : ∀ m, after.table.rhosts.lookup m =
      if m = hmac then some fresh else history.table.rhosts.lookup m)
    (iphosts : ∀ other, after.table.iphosts.lookup other =
      if other = ip then some fresh else history.table.iphosts.lookup other)
    (registered : after.registered = history.registered.insert ip hmac) :
    after.Inverse ↔ (mac ≠ hmac → history.table.rhosts.lookup mac ≠ some vid) := by
  constructor
  -- the old address would still lead to a VID that now has another one
  · intro kept other led
    have forth := kept.reverse mac vid (by rw [rhosts, if_neg other, led])
    rw [hosts, lookup_erase_ite, if_pos rfl] at forth
    split at forth
    · exact other (Option.some.inj forth).symm
    · cases forth
  · intro led
    have except : InverseExcept ⟨history.table.drop ip vid 0 hmac, history.registered⟩ hmac :=
      inverse.drop consistent mapped named led rfl fun _ _ => rfl
    refine except.register ip fresh unused hosts ?_ ?_ ?_ ?_
    · intro m
      rw [rhosts, HostTable.drop, lookup_erase_ite]
      split <;> rfl
    · intro other different
      rw [iphosts, if_neg different, HostTable.drop, lookup_erase_ite, if_neg different]
    · rw [iphosts, if_pos rfl]
    · intro other
      rw [registered, lookup_insert_ite]

theorem lose_inverse_iff {history after : HostHistory} (inverse : history.Inverse)
    (consistent : history.table.Consistent) {ip : IPAddress} {vid : VID} {mac hmac : EtherAddress}
    {timer : Nat} (mapped : history.table.iphosts.lookup ip = some vid)
    (named : history.table.hosts.lookup vid = some mac)
    (dropped : after.table = history.table.drop ip vid timer hmac)
    (registered : after.registered = history.registered.insert ip hmac) :
    after.Inverse ↔ (mac ≠ hmac → history.table.rhosts.lookup mac ≠ some vid) ∧
      ¬history.table.Shares ip hmac := by
  constructor
  · intro kept
    refine ⟨fun other led => ?_, unshared_of_drop consistent mapped dropped kept⟩
    have forth := kept.reverse mac vid (by
      rw [dropped, HostTable.drop, lookup_erase_ite, if_neg other]
      exact led)
    rw [dropped, HostTable.drop, lookup_erase_ite, if_pos rfl] at forth
    cases forth
  · rintro ⟨led, unshared⟩
    refine inverse_of_drop (inverse.drop consistent mapped named led dropped ?_) dropped unshared
    intro other different
    rw [registered, lookup_insert_ite, if_neg different]

theorem Inverse.register_absent {history : HostHistory} (inverse : history.Inverse) {ip : IPAddress}
    (unmapped : history.table.iphosts.lookup ip = none) (hmac : EtherAddress) :
    Inverse ⟨history.table, history.registered.insert ip hmac⟩ where
  named := by
    intro other vid found
    have different : other ≠ ip := by
      rintro rfl
      rw [HostTable.lookupIP, unmapped] at found
      cases found
    rw [lookup_insert_ite, if_neg different]
    exact inverse.named other vid found
  reverse := inverse.reverse

theorem generateHostVid_absent {history : HostHistory} (inverse : history.Inverse)
    (consistent : history.table.Consistent) {hip : IPAddress}
    (absent : history.table.inthosts.lookup hip = none) (hmac : EtherAddress) (myinterfaceid : Int)
    (switchvid : VID) (startrand : BitVec 16) :
    (history.apply (.generateHostVid hip hmac myinterfaceid switchvid startrand)).Inverse := by
  have unmapped := consistent.unmapped_of_absent absent
  simp only [apply, HostTable.apply, HostTable.generateHostVid, absent, HostTable.assignVid]
  split
  · exact inverse.register_absent unmapped hmac
  · rename_i vid found
    have unused : history.table.hosts.lookup vid = none :=
      AList.lookup_eq_none.mpr (HostTable.searchVid_spec found)
    rw [HostTable.updateEntry_of_absent absent]
    refine (inverse.except hmac).register hip vid unused
      (fun v => lookup_insert_ite _ _ _ _) (fun m => lookup_insert_ite _ _ _ _) ?_ ?_
      (fun other => lookup_insert_ite _ _ _ _)
    · intro other different
      exact AList.lookup_insert_ne different
    · exact AList.lookup_insert _

theorem generateHostVid_present {history : HostHistory} (inverse : history.Inverse)
    (consistent : history.table.Consistent) {hip : IPAddress} {he : HostEntry} {vid : VID}
    {mac : EtherAddress} (entry : history.table.inthosts.lookup hip = some he)
    (mapped : history.table.iphosts.lookup hip = some vid)
    (named : history.table.hosts.lookup vid = some mac) (hmac : EtherAddress) (myinterfaceid : Int)
    (switchvid : VID) (startrand : BitVec 16) :
    (history.apply (.generateHostVid hip hmac myinterfaceid switchvid startrand)).Inverse ↔
      (mac ≠ hmac → history.table.rhosts.lookup mac ≠ some vid) ∧
        ((∀ rand, HostTable.hostVid switchvid rand ∈ history.table.hosts.erase vid) →
          ¬history.table.Shares hip hmac) := by
  simp only [apply, HostTable.apply, HostTable.generateHostVid, entry]
  split
  · rename_i kept current
    obtain ⟨same, own⟩ := HostTable.currentVid_eq_some current
    obtain rfl : kept = vid := Option.some.inj (same.symm.trans mapped)
    have free : ¬∀ rand, HostTable.hostVid switchvid rand ∈ history.table.hosts.erase kept := by
      intro all
      have prefixes : kept.getSwitchVID = switchvid.getSwitchVID := by
        rw [← own, HostTable.getSwitchVID_getSwitchVID]
      obtain ⟨rand, equal⟩ := HostTable.exists_hostVid prefixes
      exact (AList.mem_erase.mp (equal ▸ all rand)).1 rfl
    rw [and_iff_left fun all => (free all).elim]
    refine replace_inverse_iff inverse consistent kept mapped named ?_ ?_
      (fun m => lookup_insert_ite _ _ _ _) (fun other => lookup_insert_ite _ _ _ _) rfl
    · exact AList.lookup_erase kept history.table.hosts
    · intro v
      simp only [lookup_insert_ite, lookup_erase_ite]
      split <;> rfl
  · rw [HostTable.removeMapping_eq mapped, HostTable.assignVid]
    split
    · rename_i full
      have all := HostTable.searchVid_eq_none_iff.mp full
      refine Iff.trans (lose_inverse_iff inverse consistent mapped named (by rfl) (by rfl)) ?_
      exact and_congr_right fun _ => ⟨fun unshared _ => unshared, fun unshared => unshared all⟩
    · rename_i fresh found
      have unused : (history.table.hosts.erase vid).lookup fresh = none :=
        AList.lookup_eq_none.mpr (HostTable.searchVid_spec found)
      have free : ¬∀ rand, HostTable.hostVid switchvid rand ∈ history.table.hosts.erase vid := by
        intro all
        have full := (@HostTable.searchVid_eq_none_iff _ _ startrand).mpr all
        rw [HostTable.drop, full] at found
        cases found
      rw [and_iff_left fun all => (free all).elim,
        HostTable.updateEntry_of_absent (by simp [HostTable.drop])]
      refine replace_inverse_iff inverse consistent fresh mapped named unused
        (fun v => lookup_insert_ite _ _ _ _) ?_ ?_ rfl
      · intro m
        simp only [HostTable.drop, lookup_insert_ite, lookup_erase_ite]
        split <;> rfl
      · intro other
        simp only [HostTable.drop, lookup_insert_ite, lookup_erase_ite]
        split <;> rfl

theorem apply_inverse_iff {history : HostHistory} (inverse : history.Inverse)
    (consistent : history.table.Consistent) (call : HostCall) :
    (history.apply call).Inverse ↔ history.table.Undisturbed call := by
  cases call with
  | generateHostVid hip hmac myinterfaceid switchvid startrand =>
      simp only [Undisturbed]
      cases entry : history.table.inthosts.lookup hip with
      | none =>
          have unmapped := consistent.unmapped_of_absent entry
          refine iff_of_true (generateHostVid_absent inverse consistent entry _ _ _ _) ?_
          intro vid mac mapped
          rw [unmapped] at mapped
          cases mapped
      | some he =>
          obtain ⟨vid, mapped⟩ := consistent.vid_of_entry entry
          obtain ⟨mac, named⟩ := consistent.mac_of_vid mapped
          rw [generateHostVid_present inverse consistent entry mapped named]
          constructor
          · intro kept v m otherMapped otherNamed
            obtain rfl : vid = v := Option.some.inj (mapped.symm.trans otherMapped)
            obtain rfl : mac = m := Option.some.inj (named.symm.trans otherNamed)
            exact kept
          · intro undisturbed
            exact undisturbed vid mac mapped named
  | refreshIPintEntry ip interfaceid =>
      refine iff_of_true ?_ trivial
      simp only [apply, HostTable.apply, HostTable.refreshIPintEntry]
      split <;> exact inverse
  | deleteIP ip =>
      simp only [Undisturbed, apply, HostTable.apply]
      cases entry : history.table.inthosts.lookup ip with
      | none =>
          have unmapped := consistent.unmapped_of_absent entry
          refine iff_of_true (by simpa only [HostTable.deleteIP, entry] using inverse) ?_
          intro vid mac mapped
          rw [unmapped] at mapped
          cases mapped
      | some he =>
          obtain ⟨vid, mapped⟩ := consistent.vid_of_entry entry
          obtain ⟨mac, named⟩ := consistent.mac_of_vid mapped
          rw [HostTable.deleteIP_eq entry mapped named]
          refine Iff.trans (drop_inverse_iff inverse consistent mapped named (by rfl) (by rfl)) ?_
          simp only [mapped, Option.some.injEq]
          constructor
          · rintro unshared _ m rfl otherNamed
            obtain rfl : mac = m := Option.some.inj (named.symm.trans otherNamed)
            exact unshared
          · intro undisturbed
            exact undisturbed vid mac rfl named
  | fire timer =>
      simp only [Undisturbed, apply, HostTable.apply]
      cases found : history.table.timers.lookup timer with
      | none =>
          refine iff_of_true (by simpa only [HostTable.fire, found] using inverse) ?_
          intro td mac other
          cases other
      | some td =>
          obtain ⟨he, entry, same, mapped⟩ := (consistent.pending timer td).mp found
          obtain ⟨mac, named⟩ := consistent.mac_of_vid mapped
          rw [consistent.fire_eq found named]
          refine Iff.trans (drop_inverse_iff inverse consistent mapped named (by rfl) (by rfl)) ?_
          simp only [Option.some.injEq]
          constructor
          · rintro unshared _ m rfl otherNamed
            obtain rfl : mac = m := Option.some.inj (named.symm.trans otherNamed)
            exact unshared
          · intro undisturbed
            exact undisturbed td mac rfl named

/-- In a run of undisturbed calls the tables stay inverse. -/
theorem reachable_inverse {history : HostHistory}
    (run : Transition.Reaches (· = empty) Step
      (fun state call => state.table.Undisturbed call) history) : history.Inverse := by
  have both : history.table.Consistent ∧ history.Inverse := by
    refine run.invariant (fun state => state.table.Consistent ∧ state.Inverse) ?_ ?_
    · rintro state rfl
      exact ⟨HostTable.empty_consistent, empty_inverse⟩
    · rintro state call after ⟨consistent, inverse⟩ undisturbed rfl
      exact ⟨consistent.apply call, (apply_inverse_iff inverse consistent call).mpr undisturbed⟩
  exact both.2

def run (calls : List HostCall) : HostHistory := calls.foldl apply empty

def registration (ip : IPAddress) (mac : EtherAddress) (number : BitVec 16) : HostCall :=
  .generateHostVid ip mac 0 0x010200000000 number

/-- A host with two IPs loses the reverse mapping of its address when one of them is deleted. -/
theorem reachable_not_inverse :
    ¬∀ history, Transition.Reachable (· = empty) Step history → history.Inverse := by
  intro always
  have inverse := always (run [registration 1 7 1, registration 2 7 2, .deleteIP 2])
    (.foldl apply _ (.start rfl))
  obtain ⟨mac, -, named, other, back, -⟩ := inverse.named 1 0x010200000100 (by decide +kernel)
  have address : mac = 7 := Option.some.inj (named.symm.trans (by decide +kernel))
  subst address
  have lost :
      (run [registration 1 7 1, registration 2 7 2, .deleteIP 2]).table.lookupMAC 7 = none := by
    decide +kernel
  rw [lost] at back
  cases back

theorem reachable_inverse_twoHosts :
    (run [registration 1 7 1, registration 2 8 2, .deleteIP 2]).Inverse := by
  refine reachable_inverse (.next (.next (.next (.start rfl) ?_ rfl) ?_ rfl) ?_ rfl)
  · intro vid mac mapped
    cases mapped
  · intro vid mac mapped
    cases mapped
  · rintro vid mac mapped named ⟨other, owner, different, otherMapped, otherNamed⟩
    have ips : (run [registration 1 7 1, registration 2 8 2]).table.iphosts =
        ((∅ : HashTable IPAddress VID).insert 1 0x010200000100).insert 2 0x010200000200 :=
      AList.ext (by decide +kernel)
    change (run [registration 1 7 1, registration 2 8 2]).table.iphosts.lookup 2 = _ at mapped
    change (run [registration 1 7 1, registration 2 8 2]).table.iphosts.lookup other =
      _ at otherMapped
    rw [ips, AList.lookup_insert, Option.some.injEq] at mapped
    rw [ips, AList.lookup_insert_ne different, lookup_insert_ite] at otherMapped
    split at otherMapped
    · obtain rfl := Option.some.inj otherMapped
      subst mapped
      have apart :
          (run [registration 1 7 1, registration 2 8 2]).table.hosts.lookup 0x010200000100 ≠
          (run [registration 1 7 1, registration 2 8 2]).table.hosts.lookup 0x010200000200 := by
        decide +kernel
      exact apart (otherNamed.trans named.symm)
    · cases otherMapped

end HostHistory

end Veil
