import Veil.Frame
import Veil.Library.HashTable

/-! The way to the controller, from `spanningtreestate.hh` and `spanningtreestate.cc`, and the
advertisements that build it, from `generateVCCSTAdSub.cc` and `processVCCSTAdSub.cc`. -/

namespace Veil

def veilSpanningTreeEntryExpiry : Nat := 60000

structure ParentEntry where
  parentMac : EtherAddress
  hopsToVcc : BitVec 16
  expiry : Nat
deriving DecidableEq

structure ChildEntry where
  vccMac : EtherAddress
  expiry : Nat
deriving DecidableEq

structure SpanningTreeState where
  forwardingTableToVCC : HashTable EtherAddress ParentEntry
  forwardingTableFromVCC : HashTable EtherAddress ChildEntry

namespace SpanningTreeState

open HashTable

def empty : SpanningTreeState := ⟨∅, ∅⟩

/-- The table, and whether an entry existed and was refreshed. The comparison is of integers; what
is stored has sixteen bits. -/
def updateCostToVCC (state : SpanningTreeState) (now : Nat) (neighbormac vccmac : EtherAddress)
    (cost : BitVec 16) : SpanningTreeState × Bool :=
  let entry : ParentEntry := ⟨neighbormac, cost + 1, now + veilSpanningTreeEntryExpiry⟩
  match state.forwardingTableToVCC.lookup vccmac with
  | some pentry =>
      if cost.toNat + 1 ≤ pentry.hopsToVcc.toNat then
        ({ state with forwardingTableToVCC := state.forwardingTableToVCC.insert vccmac entry },
          true)
      else (state, false)
  | none =>
      ({ state with forwardingTableToVCC := state.forwardingTableToVCC.insert vccmac entry }, false)

def updateChild (state : SpanningTreeState) (now : Nat) (childmac vccmac : EtherAddress) :
    SpanningTreeState × Bool :=
  ({ state with
      forwardingTableFromVCC := state.forwardingTableFromVCC.insert childmac
        ⟨vccmac, now + veilSpanningTreeEntryExpiry⟩ },
    (state.forwardingTableFromVCC.lookup childmac).isSome)

def expireParent (state : SpanningTreeState) (mac : EtherAddress) : SpanningTreeState :=
  { state with forwardingTableToVCC := state.forwardingTableToVCC.erase mac }

def expireChild (state : SpanningTreeState) (mac : EtherAddress) : SpanningTreeState :=
  { state with forwardingTableFromVCC := state.forwardingTableFromVCC.erase mac }

def getParentNodeToVCC (state : SpanningTreeState) (vccmac : EtherAddress) : Option EtherAddress :=
  (state.forwardingTableToVCC.lookup vccmac).map (·.parentMac)

def advertisement (ethsrc vccmac : EtherAddress) (hopsToVcc : BitVec 16) : Frame where
  dhost := BitVec.allOnes 48
  shost := ethsrc
  etherType := etherTypeVeil
  svid := 0
  dvid := 0
  veilType := veilVccSpanningTreeAd
  ttl := 0
  optional := 0
  payload := Bytes.ofWord 6 vccmac ++ Bytes.ofWord 2 hopsToVcc
  reroute := false
  port := 0

def advertisements (state : SpanningTreeState) (interfaces : List EtherAddress) : List Frame :=
  state.forwardingTableToVCC.entries.flatMap fun entry =>
    interfaces.map fun ethsrc => advertisement ethsrc entry.1 entry.2.hopsToVcc

def processAD (state : SpanningTreeState) (now : Nat) (frame : Frame) : SpanningTreeState :=
  (state.updateCostToVCC now frame.shost (frame.vidAt 0) (frame.shortAt 6)).1

def processSUBS (state : SpanningTreeState) (now : Nat) (frame : Frame) : SpanningTreeState :=
  (state.updateChild now frame.shost (frame.vidAt 0)).1

theorem advertisement_vccmac (ethsrc vccmac : EtherAddress) (hopsToVcc : BitVec 16) :
    (advertisement ethsrc vccmac hopsToVcc).vidAt 0 = vccmac :=
  Bytes.toWord_ofWord_append vccmac _ (by decide)

theorem advertisement_cost (ethsrc vccmac : EtherAddress) (hopsToVcc : BitVec 16) :
    (advertisement ethsrc vccmac hopsToVcc).shortAt 6 = hopsToVcc := by
  rw [Frame.shortAt, advertisement, List.drop_left' (Bytes.length_ofWord 6 vccmac)]
  exact Bytes.toWord_ofWord hopsToVcc (by decide)

theorem mem_advertisements {state : SpanningTreeState} {interfaces : List EtherAddress}
    {frame : Frame} :
    frame ∈ state.advertisements interfaces ↔ ∃ vccmac pe ethsrc,
      state.forwardingTableToVCC.lookup vccmac = some pe ∧ ethsrc ∈ interfaces ∧
        frame = advertisement ethsrc vccmac pe.hopsToVcc := by
  simp only [advertisements, List.mem_flatMap, List.mem_map]
  constructor
  · rintro ⟨⟨vccmac, pe⟩, member, ethsrc, interface, rfl⟩
    exact ⟨vccmac, pe, ethsrc, AList.mem_lookup_iff.mpr member, interface, rfl⟩
  · rintro ⟨vccmac, pe, ethsrc, found, interface, rfl⟩
    exact ⟨⟨vccmac, pe⟩, AList.mem_lookup_iff.mp found, ethsrc, interface, rfl⟩

theorem toNat_cost_succ {cost : BitVec 16} (room : cost.toNat < 0xFFFF) :
    (cost + 1).toNat = cost.toNat + 1 := by
  bv_omega

theorem updateCostToVCC_lookup (state : SpanningTreeState) (now : Nat)
    (neighbormac vccmac : EtherAddress) (cost : BitVec 16) (other : EtherAddress) :
    (state.updateCostToVCC now neighbormac vccmac cost).1.forwardingTableToVCC.lookup other =
      if other = vccmac ∧ (∀ pe, state.forwardingTableToVCC.lookup other = some pe →
          cost.toNat + 1 ≤ pe.hopsToVcc.toNat) then
        some ⟨neighbormac, cost + 1, now + veilSpanningTreeEntryExpiry⟩
      else state.forwardingTableToVCC.lookup other := by
  simp only [updateCostToVCC]
  by_cases same : other = vccmac
  · subst other
    cases found : state.forwardingTableToVCC.lookup vccmac with
    | none => simp
    | some pe =>
        dsimp only
        by_cases closer : cost.toNat + 1 ≤ pe.hopsToVcc.toNat
        · rw [if_pos closer, if_pos ⟨rfl, fun _ stored => Option.some.inj stored ▸ closer⟩]
          exact AList.lookup_insert _
        · rw [if_neg closer, if_neg fun accepted => closer (accepted.2 pe rfl), found]
  · cases found : state.forwardingTableToVCC.lookup vccmac with
    | none => simp [same]
    | some pe =>
        have refused : ¬(other = vccmac ∧ ∀ pe, state.forwardingTableToVCC.lookup other = some pe →
            cost.toNat + 1 ≤ pe.hopsToVcc.toNat) := fun accepted => same accepted.1
        dsimp only
        rw [if_neg refused]
        split
        · exact AList.lookup_insert_ne same
        · rfl

structure AdvertisedCost where
  now : Nat
  neighbormac : EtherAddress
  cost : BitVec 16
deriving DecidableEq

def updateCosts (state : SpanningTreeState) (vccmac : EtherAddress) (calls : List AdvertisedCost) :
    SpanningTreeState :=
  calls.foldl (fun state call =>
    (state.updateCostToVCC call.now call.neighbormac vccmac call.cost).1) state

def AtRunningMinimum (earlier : List AdvertisedCost) (call : AdvertisedCost) : Prop :=
  ∀ before ∈ earlier, call.cost.toNat ≤ before.cost.toNat

def LatestMinimum (calls : List AdvertisedCost) (call : AdvertisedCost) : Prop :=
  ∃ earlier later, calls = earlier ++ call :: later ∧ AtRunningMinimum earlier call ∧
    ∀ between other rest, later = between ++ other :: rest →
      ¬AtRunningMinimum (earlier ++ call :: between) other

/-- The controller is one hop more away than the least cost advertised, by way of the latest
neighbour to advertise it. -/
def HopsToVccLeast (state : SpanningTreeState) (vccmac : EtherAddress)
    (calls : List AdvertisedCost) : Prop :=
  ∃ pe call least, state.forwardingTableToVCC.lookup vccmac = some pe ∧
    (calls.map (·.cost.toNat)).min? = some least ∧ pe.hopsToVcc.toNat = 1 + least ∧
    LatestMinimum calls call ∧ pe.parentMac = call.neighbormac ∧ pe.hopsToVcc ≠ 0

theorem updateCosts_snoc (state : SpanningTreeState) (vccmac : EtherAddress)
    (calls : List AdvertisedCost) (call : AdvertisedCost) :
    state.updateCosts vccmac (calls ++ [call]) =
      ((state.updateCosts vccmac calls).updateCostToVCC call.now call.neighbormac vccmac
        call.cost).1 :=
  List.foldl_append

theorem latestMinimum_snoc_of_le {calls : List AdvertisedCost} {call : AdvertisedCost}
    (least : AtRunningMinimum calls call) : LatestMinimum (calls ++ [call]) call :=
  ⟨calls, [], rfl, least, fun between other rest nothing => by simp at nothing⟩

theorem latestMinimum_snoc_of_lt {calls : List AdvertisedCost} {call next : AdvertisedCost}
    (latest : LatestMinimum calls call) (dearer : call.cost.toNat < next.cost.toNat) :
    LatestMinimum (calls ++ [next]) call := by
  obtain ⟨earlier, later, rfl, minimum, last⟩ := latest
  refine ⟨earlier, later ++ [next], by simp, minimum, ?_⟩
  intro between other rest split
  rcases List.eq_nil_or_concat' rest with rfl | ⟨rest', final, rfl⟩
  · obtain ⟨rfl, rfl⟩ := List.append_inj' split rfl |>.imp_right List.singleton_inj.mp
    exact fun running => absurd (running call (by simp)) (by omega)
  · have parts : later ++ [next] = (between ++ other :: rest') ++ [final] := by
      rw [split]
      simp
    exact last between other rest' (List.append_inj' parts rfl).1

theorem updateCosts_stuck (state : SpanningTreeState) (vccmac : EtherAddress) {pe : ParentEntry}
    (stored : state.forwardingTableToVCC.lookup vccmac = some pe) (zero : pe.hopsToVcc = 0)
    (calls : List AdvertisedCost) :
    (state.updateCosts vccmac calls).forwardingTableToVCC.lookup vccmac = some pe := by
  induction calls using List.reverseRecOn with
  | nil => exact stored
  | append_singleton calls call ih =>
      rw [updateCosts_snoc, updateCostToVCC_lookup, if_neg, ih]
      rintro ⟨-, accepted⟩
      have room := accepted pe ih
      rw [zero] at room
      exact absurd room (by simp)

def StoredFrom (pe : ParentEntry) (calls : List AdvertisedCost) (call : AdvertisedCost) : Prop :=
  call ∈ calls ∧ (∀ other ∈ calls, call.cost.toNat ≤ other.cost.toNat) ∧ LatestMinimum calls call ∧
    pe.parentMac = call.neighbormac ∧ pe.hopsToVcc.toNat = call.cost.toNat + 1

theorem storedFrom_snoc {state : SpanningTreeState} {vccmac : EtherAddress} {pe : ParentEntry}
    {calls : List AdvertisedCost} {call : AdvertisedCost}
    (stored : state.forwardingTableToVCC.lookup vccmac = some pe) (inv : StoredFrom pe calls call)
    (next : AdvertisedCost) :
    ∃ pe' call',
        (state.updateCostToVCC next.now next.neighbormac vccmac
        next.cost).1.forwardingTableToVCC.lookup
      vccmac = some pe' ∧ StoredFrom pe' (calls ++ [next]) call' := by
  obtain ⟨member, least, latest, parent, hops⟩ := inv
  have bound : pe.hopsToVcc.toNat < 2 ^ 16 := pe.hopsToVcc.isLt
  rw [updateCostToVCC_lookup]
  by_cases closer : next.cost.toNat + 1 ≤ pe.hopsToVcc.toNat
  · rw [if_pos ⟨rfl, fun _ found => Option.some.inj (stored.symm.trans found) ▸ closer⟩]
    have running : AtRunningMinimum calls next := fun before earlier =>
      (show next.cost.toNat ≤ call.cost.toNat by omega).trans (least before earlier)
    refine ⟨_, next, rfl, by simp, ?_, latestMinimum_snoc_of_le running, rfl,
      toNat_cost_succ (by omega)⟩
    intro other inside
    rcases List.mem_append.mp inside with earlier | final
    · exact running other earlier
    · rw [List.mem_singleton.mp final]
  · rw [if_neg fun accepted => closer (accepted.2 pe stored)]
    refine ⟨pe, call, stored, List.mem_append_left _ member, ?_,
      latestMinimum_snoc_of_lt latest (by omega), parent, hops⟩
    intro other inside
    rcases List.mem_append.mp inside with earlier | final
    · exact least other earlier
    · rw [List.mem_singleton.mp final]
      omega

theorem updateCosts_storedFrom {state : SpanningTreeState} {vccmac : EtherAddress}
    (fresh : state.forwardingTableToVCC.lookup vccmac = none) {first : AdvertisedCost}
    (room : first.cost ≠ 0xFFFF) (calls : List AdvertisedCost) :
    ∃ pe call, (state.updateCosts vccmac (first :: calls)).forwardingTableToVCC.lookup
        vccmac = some pe ∧
      StoredFrom pe (first :: calls) call := by
  induction calls using List.reverseRecOn with
  | nil =>
      have counted : (first.cost + 1).toNat = first.cost.toNat + 1 := by
        refine toNat_cost_succ (lt_of_le_of_ne (Nat.le_of_lt_succ first.cost.isLt) fun most =>
          room ?_)
        exact BitVec.eq_of_toNat_eq most
      refine ⟨⟨first.neighbormac, first.cost + 1,
        first.now + veilSpanningTreeEntryExpiry⟩, first, ?_,
        List.mem_singleton_self first, ?_, ?_, rfl, counted⟩
      · change (state.updateCostToVCC first.now first.neighbormac vccmac
          first.cost).1.forwardingTableToVCC.lookup
          vccmac = _
        rw [updateCostToVCC_lookup, if_pos ⟨rfl, fun pe found => by simp [fresh] at found⟩]
      · intro other only
        rw [List.mem_singleton.mp only]
      · have running : AtRunningMinimum [] first := fun before none => absurd none List.not_mem_nil
        exact latestMinimum_snoc_of_le running
  | append_singleton calls next ih =>
      obtain ⟨pe, call, stored, inv⟩ := ih
      rw [← List.cons_append, updateCosts_snoc]
      exact storedFrom_snoc stored inv next

theorem StoredFrom.hopsToVccLeast {state : SpanningTreeState} {vccmac : EtherAddress}
    {pe : ParentEntry} {calls : List AdvertisedCost} {call : AdvertisedCost}
    (stored : state.forwardingTableToVCC.lookup vccmac = some pe) (inv : StoredFrom pe calls call) :
    HopsToVccLeast state vccmac calls := by
  obtain ⟨member, least, latest, parent, hops⟩ := inv
  refine ⟨pe, call, call.cost.toNat, stored, List.min?_eq_some_iff.mpr ⟨?_, ?_⟩, ?_,
    latest, parent, ?_⟩
  · exact List.mem_map_of_mem member
  · intro cost advertised
    obtain ⟨other, inside, rfl⟩ := List.mem_map.mp advertised
    exact least other inside
  · rw [hops, Nat.add_comm]
  · intro zero
    rw [zero] at hops
    simp at hops

/-- A first cost of 65535 is stored as zero, and no cost replaces a zero. -/
theorem hopsToVccLeast_iff {state : SpanningTreeState} {vccmac : EtherAddress}
    (fresh : state.forwardingTableToVCC.lookup vccmac = none) (first : AdvertisedCost)
    (calls : List AdvertisedCost) :
    HopsToVccLeast (state.updateCosts vccmac (first :: calls)) vccmac (first :: calls) ↔
      first.cost ≠ 0xFFFF := by
  constructor
  · rintro ⟨pe, call, least, stored, -, -, -, -, positive⟩ most
    have zero : (state.updateCosts vccmac (first :: calls)).forwardingTableToVCC.lookup vccmac =
        some ⟨first.neighbormac, first.cost + 1, first.now + veilSpanningTreeEntryExpiry⟩ := by
      refine updateCosts_stuck _ vccmac ?_ (by rw [most]; rfl) calls
      rw [updateCostToVCC_lookup, if_pos ⟨rfl, fun pe found => by simp [fresh] at found⟩]
    rw [zero] at stored
    refine positive ?_
    rw [← Option.some.inj stored, most]
    rfl
  · intro room
    obtain ⟨pe, call, stored, inv⟩ := updateCosts_storedFrom fresh room calls
    exact inv.hopsToVccLeast stored

theorem hopsToVccLeast_iff_two_costs :
    HopsToVccLeast (empty.updateCosts 9 [⟨0, 1, 4⟩, ⟨5, 2, 4⟩]) 9 [⟨0, 1, 4⟩, ⟨5, 2, 4⟩] ↔
      (4 : BitVec 16) ≠ 0xFFFF :=
  hopsToVccLeast_iff rfl ⟨0, 1, 4⟩ [⟨5, 2, 4⟩]

/-- The second neighbour is one hop away, and the first, who is 65536 away, stays the parent. -/
theorem updateCosts_wraps :
    ¬HopsToVccLeast (empty.updateCosts 9 [⟨0, 1, 0xFFFF⟩, ⟨5, 2, 0⟩]) 9 [⟨0, 1, 0xFFFF⟩,
      ⟨5, 2, 0⟩] := by
  rintro ⟨pe, call, least, stored, -, -, -, -, positive⟩
  have zero : (empty.updateCosts 9 [⟨0, 1, 0xFFFF⟩, ⟨5, 2, 0⟩]).forwardingTableToVCC.lookup 9 =
      some ⟨1, 0, 60000⟩ := by decide
  exact positive (by rw [← Option.some.inj (zero.symm.trans stored)])

end SpanningTreeState

end Veil
