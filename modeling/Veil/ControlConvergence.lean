import Veil.ControlLifetimes
import Veil.ControlSteps

/-! From any state on, two rounds for each level bring the switches of a network to the routes
they are heading for, whatever the order in which the packets of a round are handled. -/

namespace Veil

namespace ControlNetwork

open Forwarding (Nearest Heading)

variable {net : ControlNetwork VID} {switches : Finset VID} {adjacent : VID → VID → Prop}
  {neighbors : VID → NeighborTable}

section Convergence

variable (planned : net.Planned switches adjacent)
include planned

/-! ### One round -/

variable (net switches) in
/-- A stretch of a run in which nothing is lost or forgotten, and the switches whose timers fire
in it. -/
inductive Stretch (before : ControlState VID) : Finset VID → ControlState VID → Prop
  | start : Stretch before ∅ before
  | round {fired state after x} : Stretch before fired state → x ∈ switches →
    net.Step state (.round x) after →
      Stretch before (insert x fired) after
  | handle {fired state after i} : Stretch before fired state → net.Step state (.handle i) after →
      Stretch before fired after

variable (net switches) in
structure Round (before after : ControlState VID) : Prop where
  stretch : Stretch net switches before switches after
  quiet : after.flight = []

variable (switches adjacent) in
def Published (k : Nat) (z x n : VID) (state : ControlState VID) : Prop :=
  ⟨x, n⟩ ∈ (state.switches z).rdvs ∨
    ∃ arrival ∈ state.flight, Heading switches adjacent z k arrival ∧
    arrival.frame.veilType = veilRdvPublish ∧ arrival.frame.svid = x ∧
      arrival.frame.switchVidAt 2 = n

variable (switches adjacent neighbors) in
/-- The route of `x` for the level `k` is right, or `x` has no neighbour there and its query is on
the way to `z`, or the answer is on the way back. -/
def Asked (k : Nat) (z x : VID) (state : ControlState VID) : Prop :=
  RightAt switches adjacent neighbors x k (state.switches x).routes ∨
    (neighbors x).lastNeighbor x k = none ∧
      ∃ arrival ∈ state.flight, (arrival.frame.byteAt 0).toNat = k ∧
      (arrival.frame.veilType = veilRdvQuery ∧ arrival.frame.svid = x ∧
          Heading switches adjacent z k arrival ∨
        arrival.frame.veilType = veilRdvReply ∧ Heading switches adjacent x k arrival)

section Runs

variable (introduced : Introduced switches adjacent neighbors) {a b : Nat} (above : a ≤ b)
  (next : b ≤ a + 1)
  {before after : ControlState VID}
include introduced above next

theorem Steady.stretch {fired : Finset VID}
    (steady : Steady net switches adjacent neighbors a b before)
    (run : Stretch net switches before fired after) :
    Steady net switches adjacent neighbors a b after := by
  induction run with
  | start => exact steady
  | round _ inside moves ih => exact ih.stepRound planned above inside moves
  | handle _ moves ih => exact ih.stepHandle planned introduced above next moves

variable (steady : Steady net switches adjacent neighbors a b before)
include steady

omit introduced above next in
theorem Steady.arrived {frame : Frame} {z : VID} {k : Nat}
    (heading : Heading switches adjacent z k ⟨z, .classifier, frame⟩) (own : frame.dvid = z) :
    ProcessRDV.accepts (before.switches z).processor.interfaces frame := by
  rw [ControlSwitch.processor, (steady.sound.truthful z).interfaces]
  exact (planned.accepts_iff heading.nearest.mem).mpr ⟨heading.dhost_eq, own⟩

omit introduced above next in
theorem Steady.answers {frame : Frame} {z : VID} {k : Nat}
    (heading : Heading switches adjacent z k ⟨z, .classifier, frame⟩) (own : frame.dvid = z)
    (kind : frame.veilType = veilRdvQuery)
    (some : (before.switches z).rdvs.getRdvPoint (frame.byteAt 0).toNat frame.svid ≠ []) :
    (net.enter (before.switches z) ⟨z, .classifier, frame⟩).2 =
      [⟨z, .router, ProcessRDV.queryReply frame z
        ((before.switches z).rdvs.getRdvPoint (frame.byteAt 0).toNat frame.svid)⟩] := by
  have accepted := steady.arrived planned heading own
  have control : isRendezvous frame := heading.control
  have port : (before.switches z).processor.interfaces.lookupIntEntry frame.port =
      Option.some z := by
    rw [ControlSwitch.processor, (steady.sound.truthful z).interfaces,
      show frame.port = 0 from heading.port]
    exact (planned.interface z heading.nearest.mem).rinterfaces
  simp only [ControlNetwork.enter, control, if_true,
    ProcessRDV.smaction_of_query accepted kind some, port]
  rfl

theorem Published.handle {k : Nat} (lower : k ≤ a) {z x n : VID} {i : Nat}
    (published : Published switches adjacent k z x n before)
    (moves : net.Step before (.handle i) after) :
    Published switches adjacent k z x n after := by
  rcases published with stored | ⟨arrival, underway, heading, kind, source, edge⟩
  · obtain ⟨arrival, handled, rfl⟩ := Option.map_eq_some_iff.mp moves
    have kept := steady.enter planned introduced above next (List.mem_of_getElem? handled)
    refine Or.inl ?_
    rw [set_switches]
    split
    · rename_i same
      subst z
      exact kept.rdvs _ stored
    · exact stored
  · rcases steady.tracked planned introduced underway heading lower moves with
      ⟨other, present, content, going⟩ | ⟨frame, rfl, own, tables, -⟩
    · refine Or.inr ⟨other, present, going, ?_⟩
      rw [content.veilType, content.svid, content.switchVidAt]
      exact ⟨kind, source, edge⟩
    · have accepted := steady.arrived planned heading own
      have control : isRendezvous frame := heading.control
      refine Or.inl ?_
      rw [tables]
      simp only [ControlNetwork.enter, control, if_true,
        ProcessRDV.smaction_of_publish accepted kind]
      exact (AList.mem_insert _).mpr
        (Or.inl (RendezvousEdge.mk.injEq .. ▸ ⟨source.symm, edge.symm⟩))

theorem Asked.handle {x y z : VID} (inside : x ∈ switches) (target : y ∈ switches) (apart : x ≠ y)
    (level : x.logicalDistance y = a) (beyond : b = a + 1) (bound : a ≤ 48)
    (nearest : Nearest switches (x.calculateRdvPoint a) z) {i : Nat}
    (asked : Asked switches adjacent neighbors a z x before)
    (moves : net.Step before (.handle i) after) :
    Asked switches adjacent neighbors a z x after := by
  have far : 16 < a := level ▸ VID.logicalDistance_gt_of_ne (planned.layout.switchVid x inside)
    (planned.layout.switchVid y target) apart
  rcases asked with right | ⟨none, arrival, underway, queried,
    ⟨kind, source, heading⟩ | ⟨kind, heading⟩⟩
  · obtain ⟨arrival, handled, rfl⟩ := Option.map_eq_some_iff.mp moves
    have kept := steady.enter planned introduced above next (List.mem_of_getElem? handled)
    refine Or.inl ?_
    rw [set_switches]
    split
    · rename_i same
      subst x
      exact kept.routes a far (by omega) right
    · exact right
  · rcases steady.tracked planned introduced underway heading (Nat.le_refl a) moves with
      ⟨other, present, content, going⟩ | ⟨frame, rfl, own, -, sends⟩
    · refine Or.inr ⟨none, other, present, ?_⟩
      rw [content.byteAt, content.veilType, content.svid]
      exact ⟨queried, Or.inl ⟨kind, source, going⟩⟩
    · -- the rendezvous point knows a gateway, so it answers
      obtain ⟨g, leads⟩ := Forwarding.exists_gateway planned.layout.prefixes inside target apart
      rw [level] at leads
      have some := steady.finds planned inside (by omega) bound nearest leads
      dsimp only at queried kind source
      rw [← queried, ← source] at some
      have answer := steady.answers planned heading own kind some
      refine Or.inr ⟨none, _, sends _ (answer ▸ List.mem_singleton.mpr rfl), queried,
        Or.inr ⟨rfl, ?_⟩⟩
      exact .replied inside (planned.layout.switchVid x inside) far bound nearest source _
  · rcases steady.tracked planned introduced underway heading (Nat.le_refl a) moves with
      ⟨other, present, content, going⟩ | ⟨frame, rfl, own, tables, -⟩
    · refine Or.inr ⟨none, other, present, ?_⟩
      rw [content.byteAt, content.veilType]
      exact ⟨queried, Or.inr ⟨kind, going⟩⟩
    · have accepted := steady.arrived planned heading own
      have control : isRendezvous frame := heading.control
      have answered : Answered switches adjacent frame :=
        (steady.proper _ underway).reply kind (by omega)
      dsimp only at queried kind
      refine Or.inl ?_
      rw [tables]
      simp only [ControlNetwork.enter, control, if_true, ProcessRDV.smaction_of_reply accepted kind]
      rw [ControlSwitch.processor, (steady.sound.truthful x).interfaces]
      rw [← queried] at none ⊢
      refine planned.rightAt_learned own answered (fun j high lower => ?_) introduced inside none
      exact steady.routes x inside j high (by omega)

omit introduced above next planned steady in
theorem Published.round {k : Nat} {z x n y : VID}
    (published : Published switches adjacent k z x n before)
    (moves : net.Step before (.round y) after) : Published switches adjacent k z x n after := by
  cases moves
  rcases published with stored | ⟨arrival, underway, content⟩
  · refine Or.inl ?_
    rw [set_switches]
    split
    · rename_i same
      exact same ▸ stored
    · exact stored
  · exact Or.inr ⟨arrival, List.mem_append_left _ underway, content⟩

omit above next in
theorem Steady.publishes {x n z : VID} (inside : x ∈ switches) (other : n ∈ switches)
    (edge : adjacent x n) (bound : x.logicalDistance n ≤ 48)
    (nearest : Nearest switches (x.calculateRdvPoint (x.logicalDistance n)) z)
    (moves : net.Step before (.round x) after) :
    Published switches adjacent (x.logicalDistance n) z x n after := by
  have rounded := planned.rounded inside (steady.sound.truthful x)
  have apart : x ≠ n := by
    rintro rfl
    exact planned.apart x edge
  have far := VID.logicalDistance_gt_of_ne (planned.layout.switchVid x inside)
    (planned.layout.switchVid n other) apart
  have known : (before.switches x).neighbors.Knows n := by
    rw [steady.known x inside]
    exact (introduced.knows x inside n).mpr ⟨other, edge⟩
  have carried : (BuildRouteTable.rdvPublish x n (x.logicalDistance n)).switchVidAt 2 =
      n.getSwitchVID :=
    switchVidAt_block (List.append_nil _).symm
  cases moves
  refine Or.inr ⟨⟨x, .router, _⟩,
    List.mem_append_right _ (List.mem_map_of_mem (rounded.publishes n known ?_)),
    .sent inside far bound nearest rfl publish_ne_reply rfl rfl rfl rfl, rfl, rfl,
    carried.trans (planned.layout.switchVid n other)⟩
  omega

omit introduced above next in
theorem Asked.round {x y z : VID} (inside : x ∈ switches) (far : 16 < a) (beyond : b = a + 1)
    (asked : Asked switches adjacent neighbors a z x before)
    (moves : net.Step before (.round y) after) (member : y ∈ switches) :
    Asked switches adjacent neighbors a z x after := by
  have kept := steady.round planned member
  cases moves
  rcases asked with right | ⟨none, arrival, underway, content⟩
  · refine Or.inl ?_
    rw [set_switches]
    split
    · rename_i same
      subst x
      exact kept.routes a far (by omega) right
    · exact right
  · exact Or.inr ⟨none, arrival, List.mem_append_left _ underway, content⟩

omit introduced above next in
theorem Steady.asks {x z : VID} (inside : x ∈ switches) (listed : a ∈ BuildRouteTable.queryLevels)
    (nearest : Nearest switches (x.calculateRdvPoint a) z)
    (moves : net.Step before (.round x) after) :
    Asked switches adjacent neighbors a z x after := by
  have rounded := planned.rounded inside (steady.sound.truthful x)
  obtain ⟨low, high⟩ := (BuildRouteTable.mem_queryLevels a).mp listed
  cases moves
  cases chosen : (neighbors x).lastNeighbor x a with
  | some n =>
      refine Or.inl ?_
      rw [set_switches, if_pos rfl]
      exact (planned.rightAt_round rounded (steady.known x inside) low).1 n chosen
  | none =>
      refine Or.inr ⟨chosen, ⟨x, .router, _⟩, List.mem_append_right _ (List.mem_map_of_mem
        (rounded.queries a listed)), rdvQuery_level x listed, Or.inl ⟨rfl, rfl, ?_⟩⟩
      exact .sent inside low (by omega) nearest rfl query_ne_reply rfl rfl rfl rfl

end Runs

/-! ### From round to round -/

variable (net switches) in
inductive Rounds (before : ControlState VID) : Nat → ControlState VID → Prop
  | none : Rounds before 0 before
  | more {n state after} : Rounds before n state → Round net switches state after →
    Rounds before (n + 1) after

section Levels

variable (introduced : Introduced switches adjacent neighbors) {k : Nat}
  {before after : ControlState VID}
  {fired : Finset VID}
include introduced

theorem Steady.published_of_stretch (steady : Steady net switches adjacent neighbors k k before)
    (run : Stretch net switches before fired after) {x n z : VID} (called : x ∈ fired)
    (inside : x ∈ switches) (other : n ∈ switches) (edge : adjacent x n)
    (level : x.logicalDistance n = k) (bound : k ≤ 48)
    (nearest : Nearest switches (x.calculateRdvPoint k) z) :
    Published switches adjacent k z x n after := by
  induction run with
  | start => exact absurd called (Finset.notMem_empty x)
  | @round fired state after y run member moves ih =>
      have sofar := steady.stretch planned introduced (Nat.le_refl k) (Nat.le_succ k) run
      rcases Finset.mem_insert.mp called with rfl | earlier
      · subst level
        exact sofar.publishes planned introduced inside other edge bound nearest moves
      · exact (ih earlier).round moves
  | handle run moves ih =>
      have sofar := steady.stretch planned introduced (Nat.le_refl k) (Nat.le_succ k) run
      exact (ih called).handle planned introduced (Nat.le_refl k) (Nat.le_succ k) sofar
        (Nat.le_refl k) moves

theorem Steady.asked_of_stretch (steady : Steady net switches adjacent neighbors k (k + 1) before)
    (run : Stretch net switches before fired after) {x y z : VID} (called : x ∈ fired)
    (inside : x ∈ switches) (target : y ∈ switches) (apart : x ≠ y)
    (level : x.logicalDistance y = k) (listed : k ∈ BuildRouteTable.queryLevels)
    (nearest : Nearest switches (x.calculateRdvPoint k) z) :
    Asked switches adjacent neighbors k z x after := by
  have lists := (BuildRouteTable.mem_queryLevels k).mp listed
  induction run with
  | start => exact absurd called (Finset.notMem_empty x)
  | @round fired state after y run member moves ih =>
      have sofar := steady.stretch planned introduced (Nat.le_succ k) (Nat.le_refl _) run
      rcases Finset.mem_insert.mp called with rfl | earlier
      · exact sofar.asks planned inside listed nearest moves
      · exact (ih earlier).round planned sofar inside lists.1 rfl moves member
  | handle run moves ih =>
      have sofar := steady.stretch planned introduced (Nat.le_succ k) (Nat.le_refl _) run
      exact (ih called).handle planned introduced (Nat.le_succ k) (Nat.le_refl _) sofar inside
        target apart level
        rfl (by omega) nearest moves

theorem Steady.publishRound (steady : Steady net switches adjacent neighbors k k before)
    (bound : k ≤ 48) (round : Round net switches before after) :
    Steady net switches adjacent neighbors k (k + 1) after := by
  have later := steady.stretch planned introduced (Nat.le_refl k) (Nat.le_succ k) round.stretch
  refine ⟨later.sound, later.known, later.routes, fun x inside n other edge below z nearest => ?_,
    fun arrival present => ?_⟩
  · rcases Nat.lt_succ_iff_lt_or_eq.mp below with lower | level
    · exact later.published x inside n other edge lower z nearest
    · rw [level] at nearest
      rcases steady.published_of_stretch planned introduced round.stretch inside inside other
        edge level bound
        nearest with stored | ⟨arrival, present, -⟩
      · exact stored
      · rw [round.quiet] at present
        cases present
  · rw [round.quiet] at present
    cases present

theorem Steady.queryRound (steady : Steady net switches adjacent neighbors k (k + 1) before)
    (listed : k ∈ BuildRouteTable.queryLevels) (round : Round net switches before after) :
    Steady net switches adjacent neighbors (k + 1) (k + 1) after := by
  have later := steady.stretch planned introduced (Nat.le_succ k) (Nat.le_refl _) round.stretch
  refine ⟨later.sound, later.known, fun x inside j far below => ?_, later.published,
    fun arrival present => ?_⟩
  · rcases Nat.lt_succ_iff_lt_or_eq.mp below with lower | rfl
    · exact later.routes x inside j far lower
    · by_cases some : ∃ y ∈ switches, x.logicalDistance y = j
      · obtain ⟨y, target, level⟩ := some
        have apart : x ≠ y := by
          rintro rfl
          rw [VID.logicalDistance_isTreeDistance.self] at level
          omega
        obtain ⟨z, nearest⟩ := Forwarding.exists_nearest inside (x.calculateRdvPoint j)
        rcases steady.asked_of_stretch planned introduced round.stretch inside inside target
          apart level listed
          nearest with right | ⟨-, arrival, present, -⟩
        · exact right
        · rw [round.quiet] at present
          cases present
      · refine planned.rightAt_of_empty introduced inside (later.sound.truthful x).routes ?_
        exact fun y target level => some ⟨y, target, level⟩
  · rw [round.quiet] at present
    cases present

theorem Steady.rounds {n : Nat} (steady : Steady net switches adjacent neighbors 17 17 before)
    (rounds : Rounds net switches before n after) :
    Steady net switches adjacent neighbors (17 + min 16 (n / 2))
      (17 + min 16 ((n + 1) / 2)) after := by
  induction rounds with
  | none => exact steady
  | @more n state after _ round ih =>
      by_cases all : 32 ≤ n
      · have same : min 16 (n / 2) = 16 ∧ min 16 ((n + 1) / 2) = 16 ∧
            min 16 ((n + 1 + 1) / 2) = 16 := by omega
        rw [same.1, same.2.1] at ih
        rw [same.2.1, same.2.2]
        exact ih.stretch planned introduced (Nat.le_refl _) (Nat.le_succ _) round.stretch
      · rcases Nat.even_or_odd' n with ⟨m, rfl | rfl⟩
        · have levels : min 16 (2 * m / 2) = m ∧ min 16 ((2 * m + 1) / 2) = m ∧
              min 16 ((2 * m + 1 + 1) / 2) = m + 1 := by omega
          rw [levels.1, levels.2.1] at ih
          rw [levels.2.1, levels.2.2]
          exact ih.publishRound planned introduced (by omega) round
        · have levels : min 16 ((2 * m + 1) / 2) = m ∧ min 16 ((2 * m + 1 + 1) / 2) = m + 1 ∧
              min 16 ((2 * m + 1 + 1 + 1) / 2) = m + 1 := by omega
          rw [levels.1, levels.2.1] at ih
          rw [levels.2.1, levels.2.2]
          exact ih.queryRound planned introduced
            ((BuildRouteTable.mem_queryLevels _).mpr ⟨by omega, by omega⟩) round

theorem Steady.converged (steady : Steady net switches adjacent neighbors 33 33 after) :
    Forwarding.Converged (fun x => (after.switches x).router) switches adjacent := by
  have chooses := introduced.chooses
  have level {x y : VID} (inside : x ∈ switches) (target : y ∈ switches) (apart : x ≠ y) :
      RightAt switches adjacent neighbors x (x.logicalDistance y) (after.switches x).routes := by
    have bound := planned.queried x inside y target
    have far := VID.logicalDistance_gt_of_ne (planned.layout.switchVid x inside)
      (planned.layout.switchVid y target) apart
    exact steady.routes x inside _ far (by rw [activeVidLen] at bound; omega)
  have right {x : VID} (inside : x ∈ switches) :=
    steady.rightBelow planned introduced inside (Nat.le_refl 33)
  refine ⟨planned.layout.switchVid, planned.layout.symmetric, planned.layout.prefixes,
    fun x inside => (right inside).interface, fun x inside => (right inside).neighbors,
    fun x inside => (right inside).attached, ?_, ?_⟩
  · rintro x inside k ⟨n, member, edge, rfl⟩
    have apart : x ≠ n := by
      rintro rfl
      exact planned.apart x edge
    cases chosen : (neighbors x).lastNeighbor x (x.logicalDistance n) with
    | none => exact absurd rfl (chooses.none x inside _ chosen n member edge)
    | some m =>
        obtain ⟨other, joined, away⟩ := chooses.some x inside _ m chosen
        exact ⟨m, other, joined, away, (level inside member apart m x).mpr (.direct chosen)⟩
  · rintro x inside k ⟨y, target, rfl⟩ none g closest
    have apart : x ≠ y := by
      rintro rfl
      have below := closest.gateway.near
      rw [VID.logicalDistance_isTreeDistance.self] at below
      exact Nat.not_lt_zero _ below
    have beside : x ≠ g := by
      rintro rfl
      obtain ⟨n, member, edge, away⟩ := closest.gateway.leads
      exact none n member edge away
    obtain ⟨nh, gw, towards⟩ := planned.layout.exists_ideal chooses inside
      closest.gateway.inside beside
    have alone : (neighbors x).lastNeighbor x (x.logicalDistance y) = Option.none := by
      cases chosen : (neighbors x).lastNeighbor x (x.logicalDistance y) with
      | none => rfl
      | some n =>
          obtain ⟨member, edge, away⟩ := chooses.some x inside _ n chosen
          exact absurd away (none n member edge)
    have far := VID.logicalDistance_gt_of_ne (planned.layout.switchVid x inside)
      (planned.layout.switchVid g closest.gateway.inside) beside
    refine ⟨nh, gw, ?_, (level inside target apart nh g).mpr (.gateway alone closest towards)⟩
    exact (RouteTable.getRouteDefault_of_single (right inside).interface far).trans
      ((level inside closest.gateway.inside beside nh gw).mpr towards)

end Levels

/-! ### From any state on -/

theorem Stretch.kept {before after : ControlState VID} {fired : Finset VID}
    (sound : net.Sound before) (run : Stretch net switches before fired after) : net.Sound after ∧
      ∀ x ∈ switches, (after.switches x).neighbors = (before.switches x).neighbors := by
  induction run with
  | start => exact ⟨sound, fun _ _ => rfl⟩
  | @round fired state after y _ member moves ih =>
      obtain ⟨sofar, same⟩ := ih
      have allowed : net.Allowed state (.round y) := trivial
      refine ⟨sofar.step planned.assigned allowed moves, fun x inside => ?_⟩
      have rounded := planned.rounded member (sofar.truthful y)
      cases moves
      rw [set_switches]
      split
      · rename_i equal
        subst x
        exact rounded.neighbors.trans (same y inside)
      · exact same x inside
  | @handle fired state after i _ moves ih =>
      obtain ⟨sofar, same⟩ := ih
      have allowed : net.Allowed state (.handle i) := trivial
      refine ⟨sofar.step planned.assigned allowed moves, fun x inside => ?_⟩
      obtain ⟨arrival, -, rfl⟩ := Option.map_eq_some_iff.mp moves
      rw [set_switches]
      split
      · rename_i equal
        subst x
        exact (enter_neighbors ..).trans (same _ inside)
      · exact same x inside

theorem Round.steady {before after : ControlState VID} (sound : net.Sound before)
    (round : Round net switches before after) :
    Steady net switches adjacent (fun x => (before.switches x).neighbors) 17 17 after := by
  obtain ⟨later, same⟩ := round.stretch.kept planned sound
  refine ⟨later, same, fun x _ j far below => ?_, fun x inside n other edge below => ?_,
    fun arrival present => ?_⟩
  · omega
  · have apart : x ≠ n := by
      rintro rfl
      exact planned.apart x edge
    have far := VID.logicalDistance_gt_of_ne (planned.layout.switchVid x inside)
      (planned.layout.switchVid n other) apart
    omega
  · rw [round.quiet] at present
    cases present

omit planned in
theorem Rounds.first {before after : ControlState VID} {n : Nat}
    (rounds : Rounds net switches before (n + 1) after) :
    ∃ state, Round net switches before state ∧ Rounds net switches state n after := by
  induction n generalizing after with
  | zero =>
      cases rounds with
      | more begun round =>
          cases begun
          exact ⟨after, round, .none⟩
  | succ n ih =>
      cases rounds with
      | more earlier round =>
          obtain ⟨state, first, rest⟩ := ih earlier
          exact ⟨state, first, rest.more round⟩

theorem Planned.exists_round {before : ControlState VID} (sound : net.Sound before) :
    ∃ after, Round net switches before after := by
  have fires (called : Finset VID) (inside : called ⊆ switches) :
      ∃ state, Stretch net switches before called state := by
    induction called using Finset.induction_on with
    | empty => exact ⟨before, .start⟩
    | insert x called _ ih =>
        obtain ⟨member, rest⟩ := Finset.insert_subset_iff.mp inside
        obtain ⟨state, run⟩ := ih rest
        exact ⟨_, run.round member rfl⟩
  have drains (flight : List (Arrival VID)) : ∀ state : ControlState VID, state.flight = flight →
    Stretch net switches before switches state → ∃ after, Round net switches before after := by
    induction flight using (@Draining.wellFounded_handles _ lifetime).induction with
    | h flight ih =>
        rintro state rfl run
        cases waiting : state.flight with
        | nil => exact ⟨state, run, waiting⟩
        | cons arrival rest =>
            have found : state.flight[0]? = some arrival := by rw [waiting]; rfl
            have moves : net.Step state (.handle 0) _ :=
              Option.map_eq_some_iff.mpr ⟨arrival, found, rfl⟩
            have falls := handles_of_handle (run.kept planned sound).1 moves
            exact ih _ falls _ rfl (run.handle moves)
  obtain ⟨state, run⟩ := fires switches (Finset.Subset.refl _)
  exact drains _ state rfl run

theorem Planned.exists_rounds {before : ControlState VID} (sound : net.Sound before) (n : Nat) :
    ∃ after, Rounds net switches before n after ∧ net.Sound after := by
  induction n with
  | zero => exact ⟨before, .none, sound⟩
  | succ n ih =>
      obtain ⟨state, rounds, sofar⟩ := ih
      obtain ⟨after, round⟩ := planned.exists_round sofar
      exact ⟨after, rounds.more round, (round.stretch.kept planned sofar).1⟩

/-- Whatever has been lost or forgotten before, once every switch knows its neighbours and nothing
is lost or forgotten any more, one round and two more for each level bring all switches to tables
that deliver, in whatever order the timers fire and the packets of a round are handled. -/
theorem routes_converge {before after : ControlState VID} {n : Nat}
    (run : Transition.Reaches (· = net.initial) net.Step net.Allowed before)
    (introduced : Introduced switches adjacent fun x => (before.switches x).neighbors)
    (rounds : Rounds net switches before n after)
    (enough : 1 + 2 * BuildRouteTable.queryLevels.length ≤ n) :
    Forwarding.Converged (fun x => (after.switches x).router) switches adjacent := by
  have sound := sound_of_reaches planned.assigned run
  have count : BuildRouteTable.queryLevels.length = 16 := rfl
  obtain ⟨m, rfl⟩ : ∃ m, n = m + 1 := ⟨n - 1, by omega⟩
  obtain ⟨state, first, rest⟩ := rounds.first
  have steady := (first.steady planned sound).rounds planned introduced rest
  have all : min 16 (m / 2) = 16 ∧ min 16 ((m + 1) / 2) = 16 := by omega
  rw [all.1, all.2] at steady
  exact steady.converged planned introduced

end Convergence

/-! ### The line of three switches -/

theorem ofLinks_planned {switches : List VID} {neighbors : VID → List VID}
    {adjacent : VID → VID → Prop} (layout : Forwarding.Layout switches.toFinset adjacent)
    (apart : ∀ x, ¬adjacent x x)
    (listed : ∀ x ∈ switches, ∀ n, n ∈ neighbors x ↔ n ∈ switches ∧ adjacent x n)
    (queried : ∀ x ∈ switches, ∀ y ∈ switches, x.logicalDistance y ≤ activeVidLen * 8)
    (few : switches.toFinset.card ≤ 15) :
    (ofLinks switches neighbors).Planned switches.toFinset adjacent := by
  have one {x : VID} (inside : x ∈ switches.toFinset) :
      (ofLinks switches neighbors).interfaces x = InterfaceTable.single x x :=
    if_pos (List.mem_toFinset.mp inside)
  refine ⟨layout, apart, fun x inside => ?_, fun x vid i own => ?_, fun x inside => ?_,
    fun x inside => ?_,
    fun x inside place => ?_, fun x inside y target => ?_, fun path unique _ members => ?_,
    fun x _ k edges unique members => ?_⟩
  · rw [one inside]
    exact InterfaceTable.single_isSingle x x
  · exact List.mem_toFinset.mpr (ofLinks_interfaces.mp own).1
  · rw [one inside]
    rfl
  · rw [one inside]
    rfl
  · have heard := listed x (List.mem_toFinset.mp inside)
    rw [List.mem_toFinset]
    constructor
    · intro member
      obtain ⟨n, neighbor, rfl⟩ := List.mem_map.mp member
      obtain ⟨other, edge⟩ := (heard n).mp neighbor
      exact ⟨other, edge, rfl⟩
    · rintro ⟨other, edge, zero⟩
      exact List.mem_map.mpr ⟨place.1, (heard place.1).mpr ⟨other, edge⟩, Prod.ext rfl zero.symm⟩
  · exact queried x (List.mem_toFinset.mp inside) y (List.mem_toFinset.mp target)
  · rw [← List.toFinset_card_of_nodup unique]
    exact (Finset.card_le_card fun v listed => members v (List.mem_toFinset.mp listed)).trans few
  · -- no more edges than pairs of switches
    have pairs : (edges.map fun edge => (edge.src, edge.dest)).Nodup := by
      refine unique.map fun first second same => ?_
      obtain ⟨srcs, dests⟩ := Prod.mk.inj same
      cases first
      cases second
      rw [RendezvousEdge.mk.injEq]
      exact ⟨srcs, dests⟩
    have bound : (edges.map fun edge => (edge.src, edge.dest)).toFinset ⊆
        switches.toFinset ×ˢ switches.toFinset := by
      intro pair listed
      obtain ⟨edge, member, rfl⟩ := List.mem_map.mp (List.mem_toFinset.mp listed)
      obtain ⟨src, dest, -⟩ := members edge member
      exact Finset.mem_product.mpr ⟨src, dest⟩
    have count := Finset.card_le_card bound
    rw [List.toFinset_card_of_nodup pairs, List.length_map, Finset.card_product] at count
    have square := Nat.mul_le_mul few few
    omega

def lowAdjacent (x y : VID) : Prop := x ≠ y ∧ (x = lowB ∨ y = lowB)

theorem lowDistances : lowA.logicalDistance lowB = 18 ∧ lowA.logicalDistance lowC = 19 ∧
    lowB.logicalDistance lowC = 19 := by decide

theorem mem_low {x : VID} : x ∈ [lowA, lowB, lowC] ↔ x = lowA ∨ x = lowB ∨ x = lowC := by
  simp only [List.mem_cons, List.not_mem_nil, or_false]

theorem low_layout : Forwarding.Layout [lowA, lowB, lowC].toFinset lowAdjacent where
  switchVid := fun x inside => low_switchVid x (List.mem_toFinset.mp inside)
  symmetric := fun x y edge => ⟨edge.1.symm, edge.2.symm⟩
  prefixes := by
    have tree := VID.logicalDistance_isTreeDistance
    obtain ⟨near, across, -⟩ := lowDistances
    intro vid level source target first last
    -- a subtree with both ends of the line has its middle
    have middle (a : Forwarding.SamePrefix [lowA, lowB, lowC].toFinset vid level lowA)
        (c : Forwarding.SamePrefix [lowA, lowB, lowC].toFinset vid level lowC) :
        Forwarding.SamePrefix [lowA, lowB, lowC].toFinset vid level lowB := by
      rw [Forwarding.samePrefix_iff] at a c ⊢
      have ends := tree.le_max lowA vid lowC
      have between := tree.le_max vid lowA lowB
      rw [tree.comm lowA vid] at ends
      exact ⟨by decide, by omega⟩
    by_cases same : source = target
    · exact same ▸ .refl
    by_cases direct : source = lowB ∨ target = lowB
    · exact .single ⟨⟨same, direct⟩, first, last⟩
    have centre : source ≠ lowB ∧ target ≠ lowB ∧
      Forwarding.SamePrefix [lowA, lowB, lowC].toFinset vid level lowB := by
      rw [not_or] at direct
      refine ⟨direct.1, direct.2, ?_⟩
      rcases mem_low.mp (List.mem_toFinset.mp first.1) with rfl | rfl | rfl <;>
        rcases mem_low.mp (List.mem_toFinset.mp last.1) with rfl | rfl | rfl
      all_goals first | exact middle first last | exact middle last first | contradiction
    exact (Relation.ReflTransGen.single ⟨⟨centre.1, Or.inr rfl⟩, first, centre.2.2⟩).trans
      (.single ⟨⟨centre.2.1.symm, Or.inl rfl⟩, centre.2.2, last⟩)

theorem mem_lowLinks {x n : VID} (inside : x ∈ [lowA, lowB, lowC]) :
    n ∈ lowLinks x ↔ n ∈ [lowA, lowB, lowC] ∧ lowAdjacent x n := by
  have different : lowA ≠ lowB ∧ lowC ≠ lowB := by decide
  rw [mem_low, lowAdjacent, lowLinks]
  by_cases centre : x = lowB
  · subst x
    simp only [if_true, List.mem_cons, List.not_mem_nil, or_false, true_or, and_true, ne_eq]
    constructor
    · rintro (rfl | rfl)
      · exact ⟨Or.inl rfl, different.1.symm⟩
      · exact ⟨Or.inr (Or.inr rfl), different.2.symm⟩
    · rintro ⟨rfl | rfl | rfl, apart⟩
      · exact Or.inl rfl
      · exact absurd rfl apart
      · exact Or.inr rfl
  · rw [if_neg centre, List.mem_singleton]
    constructor
    · rintro rfl
      exact ⟨Or.inr (Or.inl rfl), centre, Or.inr rfl⟩
    · exact fun both => both.2.2.resolve_left centre

theorem lowLine_planned : lowLine.Planned [lowA, lowB, lowC].toFinset lowAdjacent := by
  refine ofLinks_planned low_layout (fun x edge => edge.1 rfl)
    (fun x inside n => mem_lowLinks inside) ?_
    (by decide)
  intro x inside y target
  rcases mem_low.mp inside with rfl | rfl | rfl <;> rcases mem_low.mp target with
    rfl | rfl | rfl <;> decide

theorem low_neighbors {x : VID} (inside : x ∈ [lowA, lowB, lowC]) :
    (lowIntroduced.switches x).neighbors =
    HashTable.insertAll (fun n => ⟨n, x, x⟩) ∅ (lowLinks x) := by
  rcases mem_low.mp inside with rfl | rfl | rfl <;> rfl

theorem low_introduced : Introduced [lowA, lowB, lowC].toFinset lowAdjacent
    fun x => (lowIntroduced.switches x).neighbors := by
  have table {x : VID} (inside : x ∈ [lowA, lowB, lowC]) (mac : EtherAddress) :
      (lowIntroduced.switches x).neighbors.lookup mac =
        if mac ∈ lowLinks x then some ⟨mac, x, x⟩ else none := by
    rw [low_neighbors inside]
    exact HashTable.lookup_insertAll _ _ _ _
  refine ⟨fun x inside mac nte found => ?_, fun x inside n => ?_⟩
  · rw [table (List.mem_toFinset.mp inside)] at found
    split at found
    · cases found
      rfl
    · cases found
  · rw [List.mem_toFinset, ← mem_lowLinks (List.mem_toFinset.mp inside)]
    constructor
    · rintro ⟨mac, nte, found, rfl⟩
      rw [table (List.mem_toFinset.mp inside)] at found
      split at found
      · cases found
        assumption
      · cases found
    · intro listed
      exact ⟨n, ⟨n, x, x⟩, (table (List.mem_toFinset.mp inside) n).trans (if_pos listed), rfl⟩

theorem routes_converge_line :
    ∃ after, Rounds lowLine [lowA, lowB, lowC].toFinset lowIntroduced 33 after ∧
    Forwarding.Converged (fun x => (after.switches x).router) [lowA, lowB,
      lowC].toFinset lowAdjacent := by
  have sound := sound_of_reaches lowLine_assigned lowIntroduced_reached
  obtain ⟨after, rounds, -⟩ := lowLine_planned.exists_rounds sound 33
  exact ⟨after, rounds,
    routes_converge lowLine_planned lowIntroduced_reached low_introduced rounds (by decide)⟩

end ControlNetwork

end Veil
