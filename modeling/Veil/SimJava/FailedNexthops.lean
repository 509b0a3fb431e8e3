import Veil.SimJava.Failover

/-! Whether a call that sends over failed neighbours comes back without the routes through them.
The deletion of those routes throws, or leaves some, unless there is only one and it is the last
but one. -/

namespace Veil

namespace SimJava

open FuelledCall

/-! ### The points of an update are nearer than the nexthop -/

theorem longestCommonPrefixLength_append (front s t : List Bool) :
    longestCommonPrefixLength (front ++ s) (front ++ t) =
      front.length + longestCommonPrefixLength s t := by
  induction front with
  | nil => rw [List.nil_append, List.nil_append, List.length_nil, Nat.zero_add]
  | cons bit front ih =>
      rw [List.cons_append, List.cons_append, longestCommonPrefixLength, if_pos rfl, ih,
        List.length_cons]
      omega

theorem Vid.vidDist_point (v : Vid) {k : Nat} (positive : 1 ≤ k) (back : List Bool) :
    vidDist v.bits (substring v.bits 0 (32 - k + 1) ++ back) < k := by
  have front : substring v.bits 0 (32 - k + 1) = v.bits.take (32 - k + 1) := by
    rw [substring, List.drop_zero]
  have shared := longestCommonPrefixLength_append (v.bits.take (32 - k + 1))
    (v.bits.drop (32 - k + 1)) back
  rw [List.take_append_drop, List.length_take, v.length] at shared
  rw [front, vidDist, shared]
  omega

theorem Vid.vidDist_pos (v : Vid) {point : List Bool} (size : point.length = 32)
    (differs : point ≠ v.bits) :
    1 ≤ vidDist v.bits point := by
  have far : 0 < v.distance ⟨point, size⟩ :=
    Vid.isTreeDistance.pos_iff.mpr fun same => differs (congrArg Vid.bits same).symm
  exact far

theorem rendezvousUpdate_levels (v : Vid) {k : Nat} (positive : 1 ≤ k) (le_bits : k ≤ 32)
    (destination : List Bool) (myPacket : Packet)
    (routed : myPacket ∈ (rendezvousUpdate v k destination).1) :
    1 ≤ vidDist v.bits myPacket.dest ∧ vidDist v.bits myPacket.dest < k := by
  obtain ⟨differs, primary | ⟨two_le, backup⟩⟩ := mem_rendezvous positive routed
  · rw [primary] at differs ⊢
    exact ⟨v.vidDist_pos (length_primaryPoint v positive le_bits) differs,
      v.vidDist_point positive _⟩
  · rw [backup] at differs ⊢
    exact ⟨v.vidDist_pos (length_backupPoint v two_le le_bits) differs, v.vidDist_point positive _⟩

namespace FailingSwitch

variable {Pid : Type} (switch : FailingSwitch Pid)

/-! ### What a call comes to -/

/-- The call returns, and no entry has a nexthop that failed. -/
def FailsOver (request : FailoverRequest) (rTable : TimedTable Vid) (rdvTable : RdvTable) : Prop :=
  ∃ turns sent after, switch.call turns request ⟨rTable, rdvTable, 0, []⟩ =
      (.returned sent, after) ∧
    ∀ entry ∈ after.rTable, .tried entry.nexthop false ∉ after.log

def DeletesLastButOne (log : List FailoverEvent) : Prop :=
  ∀ rTable nexthop, .deleting rTable nexthop ∈ log → rTable.OnlyLastButOne nexthop

/-- Every deletion that a call comes to, in the packets for rendezvous switches too, is from a table
with at most one match, the last entry but one. -/
def EachLastButOne (request : FailoverRequest) (rTable : TimedTable Vid) (rdvTable : RdvTable) :
    Prop :=
  ∀ turns, DeletesLastButOne (switch.call turns request ⟨rTable, rdvTable, 0, []⟩).2.log

/-- The entry leads to a neighbour, which is another switch where it has failed. -/
def Known (entry : RTEntry) : Prop :=
  ∃ pid, RoutingSwitch.targetPhysID switch.adj_hosts entry.nexthop = some (some pid) ∧
    (switch.dead pid = true → entry.nexthop ≠ switch.veil_ID)

/-- A neighbour that has failed is no further than the bucket. -/
def Near (entry : RTEntry) : Prop :=
  ∀ pid, RoutingSwitch.targetPhysID switch.adj_hosts entry.nexthop = some (some pid) →
    switch.dead pid = true → switch.veil_ID.distance entry.nexthop ≤ entry.bucket

def EachTried (holds : RTEntry → Prop) (request : FailoverRequest) (rTable : TimedTable Vid)
    (rdvTable : RdvTable) : Prop :=
  ∀ turns entry, .looked entry ∈ (switch.call turns request ⟨rTable, rdvTable, 0, []⟩).2.log →
    holds entry

def Orderly (rTable : TimedTable Vid) : Prop :=
  ∀ timed ∈ rTable, switch.Known timed.entry ∧ switch.Near timed.entry

structure Clean (log : List FailoverEvent) : Prop where
  deletes : DeletesLastButOne log
  tries : ∀ entry, .looked entry ∈ log → switch.Known entry ∧ switch.Near entry

theorem Clean.suffix {switch : FailingSwitch Pid} {early late : List FailoverEvent}
    (shorter : early <:+ late) (clean : switch.Clean late) : switch.Clean early where
  deletes := fun rTable nexthop member => clean.deletes rTable nexthop (shorter.subset member)
  tries := fun entry member => clean.tries entry (shorter.subset member)

/-! ### What holds when a call returns -/

structure Settled (last : Option (TimedEntry Vid)) (state : FailoverState) : Prop where
  stays : state.rTable.getLast? = last
  known : ∀ entry, .looked entry ∈ state.log → switch.Known entry
  returned : ∀ rTable nexthop, .deleting rTable nexthop ∈ state.log → rTable.getLast? = last ∧
    (∃ after, rTable.delNexthop switch.time nexthop = some (true, after)) ∧
      .tried nexthop false ∈ state.log

section Settled

variable {switch} {last : Option (TimedEntry Vid)}

theorem Settled.of_same {state after : FailoverState} (settled : switch.Settled last state)
    (table : after.rTable = state.rTable) (log : after.log = state.log) :
    switch.Settled last after where
  stays := table ▸ settled.stays
  known := log ▸ settled.known
  returned := log ▸ settled.returned

theorem Settled.tried {state : FailoverState} (settled : switch.Settled last state) (nexthop : Vid)
    (sent : Bool) :
    switch.Settled last { state with log := .tried nexthop sent :: state.log } where
  stays := settled.stays
  known := fun entry member => by
    rcases List.mem_cons.mp member with same | before
    · cases same
    · exact settled.known entry before
  returned := fun rTable other member => by
    rcases List.mem_cons.mp member with same | before
    · cases same
    · obtain ⟨kept, deleted, failed⟩ := settled.returned rTable other before
      exact ⟨kept, deleted, List.mem_cons_of_mem _ failed⟩

theorem Settled.looked {state : FailoverState} (settled : switch.Settled last state)
    {entry : RTEntry} (known : switch.Known entry) (drawn : Nat) :
    switch.Settled last { state with drawn, log := .looked entry :: state.log } where
  stays := settled.stays
  known := fun other member => by
    rcases List.mem_cons.mp member with same | before
    · cases same
      exact known
    · exact settled.known other before
  returned := fun rTable other member => by
    rcases List.mem_cons.mp member with same | before
    · cases same
    · obtain ⟨kept, deleted, failed⟩ := settled.returned rTable other before
      exact ⟨kept, deleted, List.mem_cons_of_mem _ failed⟩

theorem keeps_delEntry (nexthop : Vid) : ∀ state result after,
    switch.Settled last state ∧ .tried nexthop false ∈ state.log →
      switch.delEntry nexthop state = (.returned result, after) → switch.Settled last after := by
  intro state result after before returns
  obtain ⟨settled, failed⟩ := before
  rw [delEntry] at returns
  split at returns
  · cases returns
  · rename_i rTable deleted
    cases returns
    refine ⟨(TimedTable.getLast?_delNexthop deleted).trans settled.stays, fun entry member => ?_,
      fun other vid member => ?_⟩
    · rcases List.mem_cons.mp member with same | earlier
      · cases same
      · exact settled.known entry earlier
    rcases List.mem_cons.mp member with same | earlier
    · cases same
      exact ⟨settled.stays, ⟨rTable, deleted⟩, List.mem_cons_of_mem _ failed⟩
    · obtain ⟨kept, cleanly, tried⟩ := settled.returned other vid earlier
      exact ⟨kept, cleanly, List.mem_cons_of_mem _ tried⟩
  · cases returns

theorem keeps_processOwn (own : Option Packet) :
    Keeps (switch.Settled last) (switch.processOwn own) := by
  intro state result after before returns
  cases own with
  | none =>
      cases returns
      exact before
  | some myPacket =>
      cases returns
      exact before.of_same rfl rfl

variable {route : Packet → FailoverCall Bool}
  (grows : ∀ myPacket, Grows FailoverState.log (route myPacket))
  (keeps : ∀ myPacket, Keeps (switch.Settled last) (route myPacket))
include grows keeps

omit grows in
theorem keeps_routeAll (packets : List Packet) :
    Keeps (switch.Settled last) (routeAll route packets) := by
  induction packets with
  | nil => exact .give ()
  | cons myPacket rest ih => exact (keeps myPacket).andThen fun _ => ih

omit grows in
theorem keeps_rendezvousUpdate (k : Nat) (vid : Vid) :
    Keeps (switch.Settled last) (switch.rendezvousUpdate route k vid) := by
  rw [rendezvousUpdate]
  split
  · intro state result after before returns
    cases returns
  · exact (keeps_routeAll keeps _).andThen fun _ => keeps_processOwn _

theorem keeps_sendOrRemove {loop : FailoverCall Bool} (again : Keeps (switch.Settled last) loop)
    (nexthop : Vid) :
    Keeps (switch.Settled last) (switch.sendOrRemove route loop nexthop) := by
  intro state result after before returns
  obtain ⟨sendResult, middle, sends, rest⟩ := returned_of_andThen returns
  rw [sendPacket] at sends
  split at sends
  · cases sends
  · cases sends
  · cases sends
    split at rest
    · cases rest
      exact before.tried nexthop _
    · rename_i pid resolved unsent
      obtain ⟨_, removed, removes, later⟩ := returned_of_andThen rest
      obtain ⟨_, updated, updates, deletes⟩ := returned_of_andThen removes
      have failed : FailoverEvent.tried nexthop false ∈
          FailoverEvent.tried nexthop (! switch.dead pid) :: state.log := by
        rw [Bool.eq_false_iff.mpr unsent]
        exact List.mem_cons_self
      have during := (keeps_rendezvousUpdate keeps (switch.veil_ID.distance nexthop) nexthop).mem
        (switch.grows_rendezvousUpdate grows _ nexthop) (.tried nexthop false)
      have known := during _ _ updated ⟨before.tried nexthop _, failed⟩ updates
      exact again removed result after
        (keeps_delEntry nexthop updated _ removed known deletes) later

omit grows keeps in
theorem known_of_sendOrRemove {loop : FailoverCall Bool} {entry : RTEntry}
    {state after : FailoverState} {result : Bool}
    (returns : switch.sendOrRemove route loop entry.nexthop state = (.returned result, after)) :
    switch.Known entry := by
  obtain ⟨sendResult, middle, sends, rest⟩ := returned_of_andThen returns
  rw [sendPacket] at sends
  split at sends
  · cases sends
  · cases sends
  · rename_i pid resolved
    cases sends
    refine ⟨pid, resolved, fun dead own => ?_⟩
    simp only [dead, Bool.not_true, Bool.false_eq_true, if_false] at rest
    obtain ⟨_, removed, removes, -⟩ := returned_of_andThen rest
    obtain ⟨_, updated, updates, -⟩ := returned_of_andThen removes
    rw [rendezvousUpdate, own, Vid.isTreeDistance.self, if_pos rfl] at updates
    cases updates

theorem keeps_tryEntry {absent loop : FailoverCall Bool}
    (otherwise : Keeps (switch.Settled last) absent) (again : Keeps (switch.Settled last) loop)
    (k : Nat) :
    Keeps (switch.Settled last) (switch.tryEntry route absent loop k) := by
  intro state result after before returns
  obtain ⟨found, middle, looks, rest⟩ := returned_of_andThen returns
  cases looks
  cases found : RTable.entryLookup (state.rTable.map TimedEntry.entry) switch.veil_ID k
    (switch.draws state.drawn) with
  | none =>
      rw [found] at rest
      refine otherwise _ result after ?_ rest
      exact before.of_same rfl rfl
  | some entry =>
      rw [found] at rest
      have known := known_of_sendOrRemove rest
      exact keeps_sendOrRemove grows keeps again entry.nexthop _ result after
        (before.looked known _) rest

end Settled

theorem keeps_routeFrom (last : Option (TimedEntry Vid)) (turns k : Nat) :
    Keeps (switch.Settled last) (switch.routeFrom turns k) := by
  induction turns generalizing k with
  | zero =>
      intro state result after before returns
      cases returns
  | succ turns ih =>
      refine keeps_tryEntry (fun _ => switch.grows_routeFrom turns _) (fun _ => ih _) ?_ (ih k) k
      split
      · exact .give false
      · exact ih _

theorem keeps_routeDataFrom (last : Option (TimedEntry Vid)) (turns tempDist : Nat) :
    Keeps (switch.Settled last) (switch.routeDataFrom turns tempDist) := by
  induction turns generalizing tempDist with
  | zero =>
      intro state result after before returns
      cases returns
  | succ turns ih =>
      exact keeps_tryEntry (fun _ => switch.grows_routeFrom turns _)
        (fun _ => switch.keeps_routeFrom last turns _) (.give false) (ih tempDist) tempDist

theorem keeps_call (last : Option (TimedEntry Vid)) (turns : Nat) (request : FailoverRequest) :
    Keeps (switch.Settled last) (switch.call turns request) := by
  cases request with
  | ctrl opcode source dest payload ttl => exact switch.keeps_routeFrom last turns _
  | data myPacket => exact switch.keeps_routeDataFrom last turns _

/-- The last entry at the end was the last at every deletion. Its nexthop has not failed. -/
theorem FailsOver.each {switch : FailingSwitch Pid} {request : FailoverRequest}
    {rTable : TimedTable Vid} {rdvTable : RdvTable}
    (over_failed : switch.FailsOver request rTable rdvTable) :
    switch.EachLastButOne request rTable rdvTable ∧
      switch.EachTried switch.Known request rTable rdvTable := by
  obtain ⟨turns, sent, after, returns, clean⟩ := over_failed
  have start : switch.Settled rTable.getLast? ⟨rTable, rdvTable, 0, []⟩ :=
    ⟨rfl, fun _ member => absurd member List.not_mem_nil,
      fun _ _ member => absurd member List.not_mem_nil⟩
  obtain ⟨stays, known, returned⟩ := switch.keeps_call _ turns request _ sent after start returns
  -- whatever fewer turns show is in the log of the call that returns
  have shown (fewer : Nat) :
      (switch.call fewer request ⟨rTable, rdvTable, 0, []⟩).2.log <:+ after.log := by
    have same := (switch.refines_call request (Nat.le_max_left turns fewer)).returned returns
    have shorter := (switch.refines_call request (Nat.le_max_right turns fewer)).suffix
      ⟨rTable, rdvTable, 0, []⟩
    rwa [same] at shorter
  refine ⟨fun fewer table nexthop deleting => ?_,
    fun fewer entry looked => known entry ((shown fewer).subset looked)⟩
  obtain ⟨kept, ⟨rest, deleted⟩, failed⟩ := returned table nexthop ((shown fewer).subset deleting)
  refine TimedTable.onlyLastButOne_of_returned deleted fun entry last through => ?_
  have member : entry ∈ after.rTable := List.mem_of_getLast? (stays.trans (kept.symm.trans last))
  exact clean entry member (through ▸ failed)

/-! ### Calls whose deletions are clean -/

structure Progress (before after : FailoverState) : Prop where
  fewer : after.rTable.Sublist before.rTable
  gone : ∀ nexthop, .tried nexthop false ∈ after.log →
    .tried nexthop false ∈ before.log ∨ ∀ entry ∈ after.rTable, entry.nexthop ≠ nexthop

theorem Progress.of_same {before after : FailoverState} (table : after.rTable = before.rTable)
    (log : after.log = before.log) : Progress before after where
  fewer := table ▸ List.Sublist.refl _
  gone := fun _ member => Or.inl (log ▸ member)

theorem Progress.trans {before middle after : FailoverState} (first : Progress before middle)
    (second : Progress middle after) : Progress before after where
  fewer := second.fewer.trans first.fewer
  gone := fun nexthop member => by
    rcases second.gone nexthop member with earlier | gone
    · rcases first.gone nexthop earlier with old | gone
      · exact Or.inl old
      · exact Or.inr fun entry inside => gone entry (second.fewer.subset inside)
    · exact Or.inr gone

abbrev Cleanly {α : Type} (call : FailoverCall α) (state : FailoverState)
    (post : α → FailoverState → Prop) : Prop :=
  Ensures FailoverState.log switch.Clean call state post

section Cleanly

variable {switch}

theorem cleanly_entryLookup (k : Nat) (state : FailoverState) :
    switch.Cleanly (switch.entryLookup k) state fun found after =>
      after.rTable = state.rTable ∧ Progress state after ∧ ∀ entry, found = some entry →
        (∃ timed ∈ state.rTable, timed.entry = entry) ∧ entry.bucket = k ∧
          switch.Known entry ∧ switch.Near entry := by
  intro clean
  refine ⟨_, _, rfl, rfl, ⟨List.Sublist.refl _, fun nexthop member => Or.inl ?_⟩,
    fun entry found => ?_⟩
  · rcases List.mem_append.mp member with looked | before
    · obtain ⟨entry, -, same⟩ := Option.map_eq_some_iff.mp (Option.mem_toList.mp looked)
      cases same
    · exact before
  · obtain ⟨member, bucket⟩ := RTable.mem_of_entryLookup found
    have logged : FailoverEvent.looked entry ∈ (switch.entryLookup k state).2.log := by
      simp only [entryLookup, found, Option.map_some, Option.toList_some, List.singleton_append]
      exact List.mem_cons_self
    exact ⟨List.mem_map.mp member, bucket, clean.tries entry logged⟩

theorem cleanly_delEntry (nexthop : Vid) (state : FailoverState) :
    switch.Cleanly (switch.delEntry nexthop) state fun _ after =>
      Progress state after ∧ ∀ entry ∈ after.rTable, entry.nexthop ≠ nexthop := by
  intro stays
  rw [log_delEntry] at stays
  have deleted := (stays.deletes state.rTable nexthop List.mem_cons_self).deletesExactly switch.time
  rw [TimedTable.DeletesExactly] at deleted
  refine ⟨(), _, by rw [delEntry, deleted],
    ⟨List.filter_sublist, fun other member => Or.inl ?_⟩, ?_⟩
  · rcases List.mem_cons.mp member with same | before
    · cases same
    · exact before
  · intro entry member
    simpa using (List.mem_filter.mp member).2

theorem cleanly_processOwn (own : Option Packet) (state : FailoverState) :
    switch.Cleanly (switch.processOwn own) state fun _ after => Progress state after := by
  cases own with
  | none => exact .of_returned rfl (.of_same rfl rfl)
  | some myPacket => exact .of_returned rfl (.of_same rfl rfl)

variable {route : Packet → FailoverCall Bool}
  (grows : ∀ myPacket, Grows FailoverState.log (route myPacket))
include grows

theorem cleanly_routeAll {packets : List Packet} {state : FailoverState}
    (routes : ∀ myPacket ∈ packets, ∀ middle : FailoverState, middle.rTable.Sublist state.rTable →
      switch.Cleanly (route myPacket) middle fun _ after => Progress middle after) :
    switch.Cleanly (routeAll route packets) state fun _ after => Progress state after := by
  induction packets generalizing state with
  | nil => exact .of_returned rfl (.of_same rfl rfl)
  | cons myPacket rest ih =>
      refine Ensures.andThen Clean.suffix (fun _ => grows_routeAll grows rest)
        (routes myPacket List.mem_cons_self state (List.Sublist.refl _)) fun _ middle first => ?_
      refine (ih fun other member later fewer => ?_).mono fun _ after second => first.trans second
      exact routes other (List.mem_cons_of_mem _ member) later (fewer.trans first.fewer)

theorem cleanly_removeRTEntry {nexthop : Vid} {state : FailoverState}
    (apart : nexthop ≠ switch.veil_ID)
    (routes : ∀ (myPacket : Packet) (middle : FailoverState),
      1 ≤ vidDist switch.veil_ID.bits myPacket.dest →
      vidDist switch.veil_ID.bits myPacket.dest < switch.veil_ID.distance nexthop →
      middle.rTable.Sublist state.rTable → switch.Cleanly (route myPacket) middle fun _ after =>
      Progress middle after) :
    switch.Cleanly (switch.removeRTEntry route nexthop) state fun _ after =>
      Progress state after ∧ ∀ entry ∈ after.rTable, entry.nexthop ≠ nexthop := by
  have far : 1 ≤ switch.veil_ID.distance nexthop := Vid.isTreeDistance.pos_iff.mpr (Ne.symm apart)
  have le_bits : switch.veil_ID.distance nexthop ≤ 32 := Nat.sub_le 32 _
  have levels := rendezvousUpdate_levels switch.veil_ID far le_bits nexthop.bits
  have informs :
      switch.Cleanly (switch.rendezvousUpdate route (switch.veil_ID.distance nexthop) nexthop) state
      fun _ after => Progress state after := by
    rw [rendezvousUpdate, if_neg (Nat.pos_iff_ne_zero.mp far)]
    refine Ensures.andThen Clean.suffix (fun _ => switch.grows_processOwn _)
      (cleanly_routeAll grows fun myPacket member middle fewer => ?_) fun _ middle first => ?_
    · obtain ⟨positive, near⟩ := levels myPacket member
      exact routes myPacket middle positive near fewer
    · exact (cleanly_processOwn _ middle).mono fun _ after second => first.trans second
  refine Ensures.andThen Clean.suffix (fun _ => switch.grows_delEntry nexthop) informs
    fun _ middle first => ?_
  exact (cleanly_delEntry nexthop middle).mono fun _ after second =>
    ⟨first.trans second.1, second.2⟩

theorem cleanly_failed {loop : FailoverCall Bool} (again : Grows FailoverState.log loop)
    {state : FailoverState} {timed : TimedEntry Vid} (inside : timed ∈ state.rTable)
    (apart : timed.nexthop ≠ switch.veil_ID)
    (routes : ∀ (myPacket : Packet) (middle : FailoverState),
      1 ≤ vidDist switch.veil_ID.bits myPacket.dest →
      vidDist switch.veil_ID.bits myPacket.dest < switch.veil_ID.distance timed.nexthop →
      middle.rTable.Sublist state.rTable → switch.Cleanly (route myPacket) middle fun _ after =>
      Progress middle after)
    (loops : ∀ middle : FailoverState, middle.rTable.Sublist state.rTable →
      middle.rTable.length < state.rTable.length → switch.Cleanly loop middle fun _ after =>
      Progress middle after) :
    switch.Cleanly (andThen (switch.removeRTEntry route timed.nexthop) fun _ => loop)
      { state with log := .tried timed.nexthop false :: state.log } fun _ after =>
        Progress state after := by
  refine Ensures.andThen Clean.suffix (fun _ => again) (cleanly_removeRTEntry grows apart routes)
    fun _ middle removed => ?_
  have shorter : middle.rTable.length < state.rTable.length := by
    refine Nat.lt_of_not_le fun long => ?_
    have same := removed.1.fewer.eq_of_length_le long
    exact removed.2 timed (same ▸ inside) rfl
  refine (loops middle removed.1.fewer shorter).mono fun _ after later => ?_
  refine ⟨later.fewer.trans removed.1.fewer, fun nexthop member => ?_⟩
  rcases (removed.1.trans later).gone nexthop member with earlier | gone
  · rcases List.mem_cons.mp earlier with same | old
    · cases same
      exact Or.inr fun entry left => removed.2 entry (later.fewer.subset left)
    · exact Or.inl old
  · exact Or.inr gone

theorem cleanly_sendOrRemove {loop : FailoverCall Bool} (again : Grows FailoverState.log loop)
    {state : FailoverState} {timed : TimedEntry Vid} (inside : timed ∈ state.rTable)
    (known : switch.Known timed.entry) (near : switch.Near timed.entry)
    (routes : ∀ (myPacket : Packet) (middle : FailoverState),
      1 ≤ vidDist switch.veil_ID.bits myPacket.dest →
      vidDist switch.veil_ID.bits myPacket.dest < timed.bucket →
      middle.rTable.Sublist state.rTable → switch.Cleanly (route myPacket) middle fun _ after =>
      Progress middle after)
    (loops : ∀ middle : FailoverState, middle.rTable.Sublist state.rTable →
      middle.rTable.length < state.rTable.length → switch.Cleanly loop middle fun _ after =>
      Progress middle after) :
    switch.Cleanly (switch.sendOrRemove route loop timed.nexthop) state fun _ after =>
      Progress state after := by
  obtain ⟨pid, resolved, apart⟩ := known
  have sends : switch.sendPacket timed.nexthop state = (.returned (! switch.dead pid),
      { state with log := .tried timed.nexthop (! switch.dead pid) :: state.log }) := by
    rw [sendPacket]
    simp only [show RoutingSwitch.targetPhysID switch.adj_hosts timed.nexthop =
      some (some pid) from resolved]
  cases dead : switch.dead pid with
  | false =>
      rw [dead] at sends
      refine .of_returned (andThen_returned sends) ⟨List.Sublist.refl _,
        fun nexthop member => Or.inl ?_⟩
      rcases List.mem_cons.mp member with same | before
      · cases same
      · exact before
  | true =>
      rw [dead] at sends
      have below := cleanly_failed grows again inside (apart dead)
        (fun myPacket middle positive further =>
        routes myPacket middle positive (Nat.lt_of_lt_of_le further (near pid resolved dead))) loops
      intro stays
      rw [sendOrRemove, andThen_returned sends] at stays ⊢
      exact below stays

theorem cleanly_tryEntry {absent loop : FailoverCall Bool}
    (otherwise : Grows FailoverState.log absent) (again : Grows FailoverState.log loop) {k : Nat}
    {state : FailoverState}
    (routes : ∀ (myPacket : Packet) (middle : FailoverState),
      1 ≤ vidDist switch.veil_ID.bits myPacket.dest →
      vidDist switch.veil_ID.bits myPacket.dest < k → middle.rTable.Sublist state.rTable →
      switch.Cleanly (route myPacket) middle fun _ after => Progress middle after)
    (leaves : ∀ middle : FailoverState, middle.rTable = state.rTable →
      switch.Cleanly absent middle fun _ after => Progress middle after)
    (loops : ∀ middle : FailoverState, middle.rTable.Sublist state.rTable →
      middle.rTable.length < state.rTable.length → switch.Cleanly loop middle fun _ after =>
      Progress middle after) :
    switch.Cleanly (switch.tryEntry route absent loop k) state fun _ after =>
      Progress state after := by
  refine Ensures.andThen Clean.suffix (fun found => ?_) (cleanly_entryLookup k state)
    fun found middle looked => ?_
  · cases found with
    | none => exact otherwise
    | some entry => exact switch.grows_sendOrRemove grows again entry.nexthop
  · obtain ⟨table, start, tried⟩ := looked
    cases found with
    | none => exact (leaves middle table).mono fun _ after later => start.trans later
    | some entry =>
        obtain ⟨⟨timed, member, rfl⟩, rfl, known, near⟩ := tried entry rfl
        rw [← table] at member routes loops
        exact (cleanly_sendOrRemove grows again member known near routes loops).mono
          fun _ after later => start.trans later

end Cleanly

variable {switch}

def levelsLeft (k : Nat) : Nat := if k = 0 then 2 ^ 32 else k

theorem levelsLeft_levelBelow {k : Nat} (bound : k < 2 ^ 32) (more : levelBelow k ≠ 0) :
    levelsLeft (levelBelow k) + 1 = levelsLeft k ∧ levelBelow k < 2 ^ 32 := by
  rw [levelsLeft, if_neg more, levelsLeft]
  rw [levelBelow] at more ⊢
  split
  · omega
  · omega

/-- Each turn has a level less to go through, or an entry less. A packet for a rendezvous switch
has a level below that of the nexthop that has failed. -/
theorem cleanly_routeFrom {turns k : Nat} {state : FailoverState} (bound : k < 2 ^ 32)
    (enough : levelsLeft k + state.rTable.length < turns) :
    switch.Cleanly (switch.routeFrom turns k) state fun _ after => Progress state after := by
  induction turns generalizing k state with
  | zero => exact absurd enough (Nat.not_lt_zero _)
  | succ turns ih =>
      refine cleanly_tryEntry (fun _ => switch.grows_routeFrom turns _) ?_
        (switch.grows_routeFrom turns k)
        (fun myPacket middle positive near fewer => ?_) (fun middle same => ?_)
        fun middle fewer shorter => ?_
      · split
        · exact .give false
        · exact switch.grows_routeFrom turns _
      · have level : levelsLeft (vidDist switch.veil_ID.bits myPacket.dest) =
            vidDist switch.veil_ID.bits myPacket.dest := if_neg (Nat.pos_iff_ne_zero.mp positive)
        have below : vidDist switch.veil_ID.bits myPacket.dest < levelsLeft k := by
          rw [levelsLeft]
          split
          · omega
          · exact near
        have size := fewer.length_le
        exact ih (Nat.lt_trans near bound) (by omega)
      · split
        · exact .of_returned rfl (.of_same rfl rfl)
        · rename_i more
          obtain ⟨left, small⟩ := levelsLeft_levelBelow bound more
          exact ih small (by rw [same]; omega)
      · exact ih bound (by omega)

theorem cleanly_routeDataFrom {turns tempDist : Nat} {state : FailoverState} (bound : tempDist ≤ 32)
    (enough : 32 + state.rTable.length < turns) :
    switch.Cleanly (switch.routeDataFrom turns tempDist) state fun _ after =>
      Progress state after := by
  induction turns generalizing state with
  | zero => exact absurd enough (Nat.not_lt_zero _)
  | succ turns ih =>
      refine cleanly_tryEntry (fun _ => switch.grows_routeFrom turns _) (.give false)
        (switch.grows_routeDataFrom turns tempDist) (fun myPacket middle positive near fewer => ?_)
        (fun middle same => .of_returned rfl (.of_same rfl rfl)) fun middle fewer shorter => ?_
      · have level : levelsLeft (vidDist switch.veil_ID.bits myPacket.dest) =
            vidDist switch.veil_ID.bits myPacket.dest := if_neg (Nat.pos_iff_ne_zero.mp positive)
        have size := fewer.length_le
        exact cleanly_routeFrom (by omega) (by omega)
      · exact ih (by omega)

theorem cleanly_call (request : FailoverRequest) (state : FailoverState) :
    switch.Cleanly (switch.call (2 ^ 32 + state.rTable.length + 1) request) state fun _ after =>
      Progress state after := by
  cases request with
  | ctrl opcode source dest payload ttl =>
      have level : vidDist switch.veil_ID.bits dest.bits ≤ 32 := Nat.sub_le 32 _
      refine cleanly_routeFrom (by dsimp only; omega) ?_
      rw [levelsLeft]
      split
      · omega
      · dsimp only
        omega
  | data myPacket => exact cleanly_routeDataFrom (Nat.sub_le 32 _) (by omega)

theorem FailsOver.of_each {request : FailoverRequest} {rTable : TimedTable Vid}
    {rdvTable : RdvTable} (each : switch.EachLastButOne request rTable rdvTable)
    (known : switch.EachTried switch.Known request rTable rdvTable)
    (near : switch.EachTried switch.Near request rTable rdvTable) :
    switch.FailsOver request rTable rdvTable := by
  have clean (turns : Nat) :
      switch.Clean (switch.call turns request ⟨rTable, rdvTable, 0, []⟩).2.log :=
    ⟨each turns, fun entry looked => ⟨known turns entry looked, near turns entry looked⟩⟩
  obtain ⟨sent, after, returns, progress⟩ :=
    cleanly_call request ⟨rTable, rdvTable, 0, []⟩ (clean _)
  refine ⟨_, sent, after, returns, fun entry member failed => ?_⟩
  rcases progress.gone entry.nexthop failed with before | gone
  · exact absurd before List.not_mem_nil
  · exact gone entry member rfl

/-! ### The condition -/

/-- The table of a switch is orderly after every run. -/
theorem orderly_run [DecidableEq Pid] {veil_ID : Vid} {pids : List Pid}
    {vid_hosts : List (Pid × Vid)} (apart : RoutingSwitch.Apart veil_ID pids vid_hosts)
    (operations : List TableOperation) (own : switch.veil_ID = veil_ID)
    (hosts : switch.adj_hosts =
      ((RoutingSwitch.start veil_ID pids vid_hosts).run operations).adj_hosts) :
    switch.Orderly ((RoutingSwitch.start veil_ID pids vid_hosts).run operations).rTable := by
  have sound := (RoutingSwitch.start_sound veil_ID pids vid_hosts).run apart operations
  intro entry member
  have route := sound.routing.routes entry.key (List.mem_map_of_mem member)
  obtain ⟨pid, inside, name⟩ := route.neighbor
  obtain ⟨vid, found, differs⟩ := apart pid inside
  obtain rfl : vid = entry.nexthop := Option.some.inj (found.symm.trans name)
  rcases sound.neighbors with known | ⟨-, empty⟩
  · obtain ⟨target, -, resolved⟩ := RoutingSwitch.targetPhysID_located apart ⟨pid, inside, name⟩
    rw [Known, Near, hosts, known, own]
    exact ⟨⟨target, resolved, fun _ => differs⟩, fun _ _ _ => route.reach⟩
  · rw [empty] at member
    exact absurd member List.not_mem_nil

structure WithinTable (rTable : TimedTable Vid) (state : FailoverState) : Prop where
  fewer : state.rTable.Sublist rTable
  looked : ∀ entry, .looked entry ∈ state.log → ∃ timed ∈ rTable, timed.entry = entry

theorem upholds_withinTable (rTable : TimedTable Vid) : switch.Upholds (WithinTable rTable) where
  entryLookup := by
    intro k state within
    refine ⟨within.fewer, fun entry member => ?_⟩
    rcases List.mem_append.mp member with looked | before
    · obtain ⟨other, found, same⟩ := Option.map_eq_some_iff.mp (Option.mem_toList.mp looked)
      cases same
      obtain ⟨timed, inside, same⟩ := List.mem_map.mp (RTable.mem_of_entryLookup found).1
      exact ⟨timed, within.fewer.subset inside, same⟩
    · exact within.looked entry before
  sendPacket := by
    intro nexthop state within
    rw [FailingSwitch.sendPacket]
    split
    · exact within
    · exact within
    · refine ⟨within.fewer, fun entry member => ?_⟩
      rcases List.mem_cons.mp member with same | before
      · cases same
      · exact within.looked entry before
  delEntry := by
    intro nexthop state within
    refine ⟨?_, fun entry member => ?_⟩
    · obtain ⟨returned, after, deleted, fewer⟩ :=
        state.rTable.delNexthop_sublist switch.time nexthop
      have table : (switch.delEntry nexthop state).2.rTable = after := by
        rw [delEntry, deleted]
        cases returned
        · rfl
        · rfl
      exact table ▸ fewer.trans within.fewer
    · rw [log_delEntry] at member
      rcases List.mem_cons.mp member with same | before
      · cases same
      · exact within.looked entry before
  processOwn := by
    intro own state within
    cases own with
    | none => exact within
    | some myPacket => exact ⟨within.fewer, within.looked⟩

theorem Orderly.eachTried {switch : FailingSwitch Pid} {rTable : TimedTable Vid}
    (orderly : switch.Orderly rTable) (request : FailoverRequest) (rdvTable : RdvTable) :
    switch.EachTried (fun entry => switch.Known entry ∧
      switch.Near entry) request rTable rdvTable := by
  intro turns entry looked
  have start : WithinTable rTable ⟨rTable, rdvTable, 0, []⟩ :=
    ⟨List.Sublist.refl _, fun _ member => absurd member List.not_mem_nil⟩
  obtain ⟨timed, member, rfl⟩ :=
    ((switch.upholds_withinTable rTable).call turns request _ start).looked entry looked
  exact orderly timed member

/-- A call that returns without the failed routes has tried entries for known neighbours only, and
deleted each route from a table with no other match than the last entry but one. It returns so
when it has, and no entry that it tries leads to a failed neighbour beyond its bucket. -/
theorem failsOver_iff (switch : FailingSwitch Pid) (request : FailoverRequest)
    (rTable : TimedTable Vid) (rdvTable : RdvTable) :
    (switch.FailsOver request rTable rdvTable →
      switch.EachLastButOne request rTable rdvTable ∧
        switch.EachTried switch.Known request rTable rdvTable) ∧
      (switch.EachTried switch.Near request rTable rdvTable →
        (switch.FailsOver request rTable rdvTable ↔
          switch.EachLastButOne request rTable rdvTable ∧
            switch.EachTried switch.Known request rTable rdvTable)) :=
  ⟨FailsOver.each, fun near => ⟨FailsOver.each, fun each => .of_each each.1 each.2 near⟩⟩

def lone : FailingSwitch Nat where
  veil_ID := Vid.ofNat 0
  adj_hosts := [(1, some (Vid.ofNat 1))]
  dead := fun _ => true
  draws := fun _ => 0
  time := 5000

def queryTwo : FailoverRequest := .ctrl .query (Vid.ofNat 0) (Vid.ofNat 1) (Vid.ofNat 2) 0x3f

/-- The only entry is the last. -/
theorem not_failsOver_lone : ¬lone.FailsOver queryTwo [⟨1, Vid.ofNat 1, Vid.ofNat 0, 0⟩] [] := by
  intro fails
  have deletes : FailoverEvent.deleting [⟨1, Vid.ofNat 1, Vid.ofNat 0, 0⟩] (Vid.ofNat 1) ∈
      (lone.call 1 queryTwo ⟨[⟨1, Vid.ofNat 1, Vid.ofNat 0, 0⟩], [], 0, []⟩).2.log := by
    decide +kernel
  have place := fails.each.1 1 _ _ deletes 0 _ rfl rfl
  cases place

example :
    FailsOver ⟨Vid.ofNat 0, [(4, some (Vid.ofNat 4)), (5, some (Vid.ofNat 5))], (· = 4),
      fun _ => 0, 5000⟩
    (.ctrl .query (Vid.ofNat 0) (Vid.ofNat 4) (Vid.ofNat 4) 0x3f)
    [⟨3, Vid.ofNat 4, Vid.ofNat 0, 0⟩, ⟨3, Vid.ofNat 5, Vid.ofNat 0, 0⟩] [] :=
  ⟨2, true, _, rfl, by decide +kernel⟩

end FailingSwitch

end SimJava

end Veil
