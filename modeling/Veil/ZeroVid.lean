import Veil.Reassignment

/-! The zero VID is reserved: an interface that has no VID yet says it in its hello packets. What
a round does when entries with the zero VID are among the neighbours of a switch, and when there
are none. -/

namespace Veil

def VID.Proper (vid : VID) : Prop := vid.getSwitchVID ≠ 0

instance (vid : VID) : Decidable vid.Proper := inferInstanceAs (Decidable (_ ≠ _))

theorem VID.Proper.ne_zero {vid : VID} (proper : vid.Proper) : vid ≠ 0 := by
  rintro rfl
  exact proper rfl

namespace BuildRouteTable

/-- The zero VID stays out of what the round writes and publishes, and an unassigned neighbour's
entry changes no bucket. -/
structure ZeroFree (tables : BuildRouteTable) : Prop where
  written : ∀ i b entry, tables.runTimer.1.routes.HasRoute i b entry →
    tables.routes.HasRoute i b entry ∨ entry.nexthop ≠ 0 ∧ entry.gateway ≠ 0
  spared : tables.interfaces.isVIDAssignmentDone = true → ∀ front nte back,
    tables.neighbors.entries.map (·.2) = front ++ nte :: back → nte.neighborVID = 0 →
      let state := front.foldl visitNeighbor (tables, [])
      (visitNeighbor state nte).1.routes = state.1.routes
  published : ∀ frame ∈ tables.runTimer.2, frame.veilType = veilRdvPublish →
    frame.svid ≠ 0 ∧ frame.switchVidAt 2 ≠ 0

theorem rdvPublish_neighbor (myinterface nexthop : VID) (i : Nat) :
    (rdvPublish myinterface nexthop i).switchVidAt 2 = nexthop.getSwitchVID := by
  refine @switchVidAt_block _ _ _ [] ?_
  simp [rdvPublish, rdvPublishPayload]

theorem readSet_keys {interfaces : InterfaceTable} {vid other : VID} {i : Nat}
    (found : (readSet interfaces vid).1.interfaces.lookup other = some i) :
    interfaces.interfaces.lookup other = some i ∨ other = vid := by
  have keys : (readSet interfaces vid).1.interfaces = interfaces.interfaces ∨
    (readSet interfaces vid).1.interfaces = interfaces.interfaces.insert vid 0 := by
    unfold readSet
    cases interfaces.interfaces.lookup vid with
    | none =>
        right
        dsimp only
        split <;> rfl
    | some index =>
        left
        dsimp only
        split <;> rfl
  rcases keys with same | stored
  · exact Or.inl (same ▸ found)
  · rw [stored, HashTable.lookup_insert_ite] at found
    split at found
    · rename_i same
      exact Or.inr same
    · exact Or.inl found

section Round

variable {before : RouteTable} {state : BuildRouteTable × List Frame} {myinterface nexthop : VID}

structure Clean (before : RouteTable) (state : BuildRouteTable × List Frame) : Prop where
  known : ∀ vid i, state.1.interfaces.interfaces.lookup vid = some i → vid.Proper
  written : ∀ i b entry, state.1.routes.HasRoute i b entry →
    before.HasRoute i b entry ∨ entry.nexthop ≠ 0 ∧ entry.gateway ≠ 0
  published : ∀ frame ∈ state.2, frame.veilType = veilRdvPublish →
    frame.svid ≠ 0 ∧ frame.switchVidAt 2 ≠ 0

theorem Clean.readSet (clean : Clean before state) (proper : myinterface.Proper) :
    Clean before ({ state.1 with interfaces := (readSet state.1.interfaces myinterface).1 },
      state.2) where
  known := by
    intro vid i found
    rcases readSet_keys found with stored | rfl
    · exact clean.known vid i stored
    · exact proper
  written := clean.written
  published := clean.published

theorem Clean.announce (clean : Clean before state) (proper : myinterface.Proper)
    (hop : nexthop.Proper) :
    Clean before (state.1.announce state.2 myinterface nexthop) := by
  simp only [BuildRouteTable.announce]
  split
  · exact clean
  · refine ⟨clean.known, fun i b entry route => ?_, fun frame made publish => ?_⟩
    · rcases route.of_updateEntry with earlier | ⟨-, -, isHop, isGateway⟩
      · exact clean.written i b entry earlier
      · rw [isHop, isGateway]
        exact Or.inr ⟨hop.ne_zero, proper.ne_zero⟩
    · rcases List.mem_append.mp made with earlier | added
      · exact clean.published frame earlier publish
      · obtain rfl := List.mem_singleton.mp added
        rw [rdvPublish_neighbor]
        exact ⟨proper.ne_zero, hop⟩

theorem Clean.visitNeighbor (clean : Clean before state) {nte : NeighborTableEntry}
    (own : nte.myVid.Proper) (assigned : nte.neighborVID.Proper) :
    Clean before (visitNeighbor state nte) := by
  have read := clean.readSet own
  simp only [BuildRouteTable.visitNeighbor]
  split
  · exact read.announce own assigned
  · exact read

theorem Clean.key_proper (clean : Clean before state) {vid : VID}
    (key : vid ∈ state.1.interfaces.interfaces.keys) : vid.Proper := by
  obtain ⟨i, found⟩ := (HashTable.mem_iff_lookup _ vid).mp (AList.mem_keys.mpr key)
  exact clean.known vid i found

theorem Clean.foldl {α : Type}
    {visit : BuildRouteTable × List Frame → α → BuildRouteTable × List Frame} (entries : List α)
    (kept : ∀ state, Clean before state → ∀ entry ∈ entries, Clean before (visit state entry))
    (clean : Clean before state) : Clean before (entries.foldl visit state) := by
  induction entries generalizing state with
  | nil => exact clean
  | cons entry rest ih =>
      refine ih (fun state clean other later =>
        kept state clean other (List.mem_cons_of_mem _ later)) ?_
      exact kept state clean entry List.mem_cons_self

theorem Clean.visitInterface (clean : Clean before state) (proper : myinterface.Proper) :
    Clean before (visitInterface state myinterface) := by
  have read := clean.readSet proper
  simp only [BuildRouteTable.visitInterface]
  split
  · have keys (int2 : VID) (key : int2 ∈
        (BuildRouteTable.readSet state.1.interfaces myinterface).1.interfaces.keys) :
        int2.Proper := read.key_proper key
    exact read.foldl _ fun inner cleanInner int2 key => cleanInner.announce proper (keys int2 key)
  · exact read

theorem Clean.queryInterface (clean : Clean before state) (proper : myinterface.Proper) :
    Clean before (queryInterface state myinterface) := by
  have read := clean.readSet proper
  refine ⟨read.known, read.written, fun frame made publish => ?_⟩
  simp only [BuildRouteTable.queryInterface] at made
  split at made
  · rcases List.mem_append.mp made with earlier | query
    · exact clean.published frame earlier publish
    · obtain ⟨i, -, rfl⟩ := List.mem_map.mp query
      exact absurd publish (by decide : veilRdvQuery ≠ veilRdvPublish)
  · exact clean.published frame made publish

structure Proper (tables : BuildRouteTable) : Prop where
  known : ∀ vid i, tables.interfaces.interfaces.lookup vid = some i → vid.Proper
  neighbors : tables.interfaces.isVIDAssignmentDone = true → ∀ mac nte,
    tables.neighbors.lookup mac = some nte → nte.myVid.Proper ∧ nte.neighborVID.Proper

theorem Proper.runTimer {tables : BuildRouteTable} (proper : tables.Proper) :
    Clean tables.routes tables.runTimer := by
  have starts : Clean tables.routes (tables, []) := ⟨proper.known, fun i b entry => Or.inl, nofun⟩
  rw [BuildRouteTable.runTimer]
  split
  · rename_i done
    have neighbors :
        Clean tables.routes
        ((tables.neighbors.entries.map (·.2)).foldl visitNeighbor (tables, [])) := by
      refine starts.foldl _ fun state clean nte visited => ?_
      obtain ⟨⟨mac, entry⟩, member, rfl⟩ := List.mem_map.mp visited
      obtain ⟨own, assigned⟩ := proper.neighbors done mac entry (AList.mem_lookup_iff.mpr member)
      exact clean.visitNeighbor own assigned
    have interfaces := neighbors.foldl _ fun state clean int1 key =>
      clean.visitInterface (neighbors.key_proper key)
    exact interfaces.foldl _ fun state clean myinterface key =>
      clean.queryInterface (interfaces.key_proper key)
  · exact starts

theorem Proper.zeroFree {tables : BuildRouteTable} (proper : tables.Proper) : tables.ZeroFree where
  written := proper.runTimer.written
  published := proper.runTimer.published
  spared := by
    intro done front nte back split zero
    have listed : nte ∈ tables.neighbors.entries.map (·.2) := by
      rw [split]
      simp
    obtain ⟨⟨mac, entry⟩, member, rfl⟩ := List.mem_map.mp listed
    have assigned := (proper.neighbors done mac entry (AList.mem_lookup_iff.mpr member)).2
    exact absurd zero assigned.ne_zero

end Round

end BuildRouteTable

namespace InterfaceTable

theorem configureFrom_known (conf : List (VID × EtherAddress)) {index : Nat}
    {table : InterfaceTable} {vid : VID} {i : Nat}
    (found : (configureFrom index conf table).interfaces.lookup vid = some i) :
    (∃ interface ∈ conf, interface.1 = vid) ∨ table.interfaces.lookup vid = some i := by
  induction conf generalizing index table with
  | nil => exact Or.inr found
  | cons interface rest ih =>
      rcases ih found with ⟨other, later, same⟩ | stored
      · exact Or.inl ⟨other, List.mem_cons_of_mem _ later, same⟩
      · dsimp only at stored
        rw [HashTable.lookup_insert_ite] at stored
        split at stored
        · rename_i same
          exact Or.inl ⟨interface, List.mem_cons_self, same.symm⟩
        · exact Or.inr stored

theorem configure_known {conf : List (VID × EtherAddress)} {useStatic : Bool}
    (proper : useStatic = true → ∀ interface ∈ conf, interface.1.Proper) {vid : VID} {i : Nat}
    (found : (configure conf useStatic).interfaces.lookup vid = some i) : vid.Proper := by
  cases useStatic with
  | false => cases found
  | true =>
      rcases configureFrom_known conf found with ⟨interface, listed, rfl⟩ | none
      · exact proper rfl interface listed
      · cases none

end InterfaceTable

namespace SwitchState

def Starts (state : SwitchState) : Prop :=
  ∃ conf useStatic, (useStatic = true → ∀ interface ∈ conf, interface.1.Proper) ∧
    state = { start conf with tables.interfaces := InterfaceTable.configure conf useStatic }

def Controlled (state : SwitchState) : SwitchAction → Prop
  | .vcc _ frame =>
      (ProcessVCCSTAdSub.assignedInterface state.interfaces frame).isSome → (frame.vidAt 0).Proper
  | _ => True

/-- No round is run while an entry names a neighbour without a VID, or an own interface from the
time before it had one. -/
def KeepsZeroOut (state : SwitchState) : SwitchAction → Prop
  | .round =>
      state.interfaces.isVIDAssignmentDone = true → ∀ mac nte,
        state.tables.neighbors.lookup mac = some nte → nte.myVid.Proper ∧ nte.neighborVID.Proper
  | action => state.Controlled action

def KnowsProper (state : SwitchState) : Prop :=
  ∀ vid i, state.interfaces.interfaces.lookup vid = some i → vid.Proper

theorem KnowsProper.step {before after : SwitchState} {action : SwitchAction}
    (proper : before.KnowsProper) (kept : before.KeepsZeroOut action)
    (moves : Step before action after) : after.KnowsProper := by
  obtain ⟨possible, rfl⟩ := moves
  cases action with
  | vcc now frame =>
      intro vid k found
      rw [before.apply_vcc_interfaces now frame] at found
      cases addressed : ProcessVCCSTAdSub.assignedInterface before.interfaces frame with
      | none =>
          rw [addressed] at found
          exact proper vid k found
      | some i =>
          rw [addressed] at found
          rw [InterfaceTable.assignVID_interfaces] at found
          split at found
          · rename_i same
            subst vid
            exact kept (by rw [addressed]; rfl)
          · exact proper vid k found.2
  | round =>
      have round : before.tables.Proper := ⟨proper, kept⟩
      exact round.runTimer.known
  | rehash interfaces neighbors =>
      intro vid i found
      exact proper vid i ((possible.1 vid).symm.trans found)
  | decide _ => exact proper
  | hello _ => exact proper
  | rendezvous _ => exact proper
  | expireBucket _ _ => exact proper
  | expireNeighbor _ => exact proper

theorem reachable_zeroFree {state : SwitchState}
    (run : Transition.Reaches Starts Step KeepsZeroOut state) (kept : state.KeepsZeroOut .round) :
    state.tables.ZeroFree := by
  have proper : state.KnowsProper := by
    refine run.invariant KnowsProper ?_ fun _ _ _ proper kept moves => proper.step kept moves
    rintro first ⟨conf, useStatic, proper, rfl⟩ vid i found
    exact InterfaceTable.configure_known proper found
  exact BuildRouteTable.Proper.zeroFree ⟨proper, kept⟩

def settled : List SwitchAction :=
  firstAssignment ++ [.hello (helloPacket 7 0x000300000000 true 0)]

theorem twoInterfaces_starts : Starts (twoInterfaces []) := ⟨[(0, 1), (0, 2)], false, nofun, rfl⟩

theorem reachable_zeroFree_settled : (twoInterfaces settled).tables.ZeroFree := by
  have decided : Transition.Reaches Starts Step KeepsZeroOut _ :=
    reaches_apply (.start twoInterfaces_starts)
    (.decide (bothVids 0x000100000000 0x000200000000)) trivial trivial
  have half := reaches_apply decided (.vcc 0 (dispatchOneVidMacPair 1 1 0x000100000000))
    (fun _ => by decide +kernel) trivial
  have assigned := reaches_apply half (.vcc 0 (dispatchOneVidMacPair 1 2 0x000200000000))
    (fun _ => by decide +kernel) trivial
  have heard := reaches_apply assigned (.hello (helloPacket 7 0x000300000000 true 0))
    trivial trivial
  refine reachable_zeroFree heard fun _ mac nte found => ?_
  have only : (twoInterfaces settled).tables.neighbors.lookup mac =
      if mac = 7 then some ⟨0x000300000000, 0x000100000000, 1⟩ else none :=
    HashTable.lookup_insert_ite _ _ _ _
  rw [show _ = _ from found] at only
  split at only
  · obtain rfl := Option.some.inj only
    exact ⟨by decide, by decide⟩
  · cases only

/-- The neighbour has no VID yet when the round is run. -/
theorem not_zeroFree :
    ¬∀ state, Transition.Reaches Starts Step Controlled state → state.tables.ZeroFree := by
  intro always
  have decided : Transition.Reaches Starts Step Controlled _ :=
    reaches_apply (.start twoInterfaces_starts)
    (.decide (bothVids 0x000100000000 0x000200000000)) trivial trivial
  have half := reaches_apply decided (.vcc 0 (dispatchOneVidMacPair 1 1 0x000100000000))
    (fun _ => by decide +kernel) trivial
  have assigned := reaches_apply half (.vcc 0 (dispatchOneVidMacPair 1 2 0x000200000000))
    (fun _ => by decide +kernel) trivial
  have heard := reaches_apply assigned (.hello (helloPacket 7 0 false 0)) trivial trivial
  have published := (always _ heard).published
  revert published
  decide +kernel

end SwitchState

end Veil
