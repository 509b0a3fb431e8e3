import Mathlib.Combinatorics.SimpleGraph.Metric
import Veil.Library.TimedRun
import Veil.SpanningTree

/-! How the parent pointers of a network come to be the shortest way to the controller: the
advertisements of `generateVCCSTAdSub.cc`, sent again and again, against the expiry of the entries
they refresh. -/

namespace Veil

open HashTable

namespace SpanningNetwork

variable {Switch : Type} (net : SpanningNetwork Switch)

def Hears (s t : Switch) : Prop := ∃ mac ∈ net.interfaces s, t ∈ net.hears mac

def graph : SimpleGraph Switch := SimpleGraph.fromRel net.Hears

noncomputable def away (s : Switch) : Nat := net.graph.dist net.vcc s

def cost (frame : Frame) : Nat := (frame.shortAt 6).toNat

variable {net}

theorem Hears.symm {s t : Switch} (heard : net.Hears s t) : net.Hears t s := by
  obtain ⟨mac, interface, hearing⟩ := heard
  exact net.symmetric s mac t interface hearing

theorem adj_iff {s t : Switch} : net.graph.Adj s t ↔ s ≠ t ∧ net.Hears s t := by
  rw [graph, SimpleGraph.fromRel_adj]
  exact and_congr_right fun _ => or_iff_left_of_imp Hears.symm

theorem Hears.away_le {s t : Switch} (connected : net.graph.Connected) (heard : net.Hears s t) :
    net.away t ≤ net.away s + 1 := by
  by_cases same : s = t
  · subst t
    exact Nat.le_succ _
  · have near := SimpleGraph.dist_eq_one_iff_adj.mpr (adj_iff.mpr ⟨same, heard⟩)
    have triangle := connected.dist_triangle (u := net.vcc) (v := s) (w := t)
    rw [near] at triangle
    exact triangle

theorem exists_nearer (connected : net.graph.Connected) {s : Switch} {d : Nat}
    (distance : net.away s = d + 1) : ∃ t, net.away t = d ∧ net.Hears t s := by
  obtain ⟨walk, shortest⟩ := connected.exists_walk_length_eq_dist s net.vcc
  rw [SimpleGraph.dist_comm, ← away, distance] at shortest
  cases walk with
  | nil => cases shortest
  | @cons _ t _ adjacent rest =>
      have heard : net.Hears t s := (adj_iff.mp adjacent).2.symm
      have upper := SimpleGraph.dist_le rest
      rw [SimpleGraph.dist_comm, ← away] at upper
      rw [SimpleGraph.Walk.length_cons] at shortest
      have lower := heard.away_le connected
      exact ⟨t, by omega, heard⟩

section Ranks

variable [Fintype Switch] (net)

open Classical in
noncomputable def reached (state : NetworkState Switch) (hops : Nat) : Finset Switch :=
  Finset.univ.filter fun s => net.Within state s hops

/-- Every hop count, stored or under way, is at least the true one, at most that of its sender by
now, and has as many switches below it as it says. -/
structure Ranked (state : NetworkState Switch) : Prop where
  counts : net.CountsDown state
  sender : ∀ t frame, (t, frame) ∈ state.flight → ∃ s, net.owner frame.shost = some s ∧
    net.Within state s (cost frame) ∧ net.away s + 1 ≤ cost frame
  rank : ∀ s pe, net.entry state s = some pe →
    pe.hopsToVcc.toNat ≤ (net.reached state pe.hopsToVcc.toNat).card
  rankUnderway : ∀ t frame, (t, frame) ∈ state.flight →
    cost frame ≤ (net.reached state (cost frame)).card
  far : ∀ s pe, net.entry state s = some pe → net.away s + 1 ≤ pe.hopsToVcc.toNat

variable {net}

theorem mem_reached {state : NetworkState Switch} {hops : Nat} {s : Switch} :
    s ∈ net.reached state hops ↔ net.Within state s hops := by
  simp [reached]

theorem card_reached_le (state : NetworkState Switch) (hops : Nat) :
    (net.reached state hops).card ≤ Fintype.card Switch :=
  Finset.card_le_univ _

theorem Ranked.settled_deliver {state : NetworkState Switch} (ranked : net.Ranked state)
    (few : Fintype.card Switch < 0xFFFF) (i : Nat) : net.Settled state (.deliver i) := by
  intro t frame underway other accepted
  have member := List.mem_of_getElem? underway
  obtain ⟨s, owned, within, -⟩ := ranked.sender t frame member
  have rank := ranked.rankUnderway t frame member
  have bound : _ ≤ Fintype.card Switch := net.card_reached_le state (cost frame)
  exact ⟨lt_of_le_of_lt (rank.trans bound) few, s, owned, within⟩

theorem Ranked.announced {state : NetworkState Switch} (ranked : net.Ranked state) (s : Switch) :
    net.Ranked (net.announced state s) := by
  have sent {t : Switch} {frame : Frame} (member : (t, frame) ∈ (net.announced state s).flight) :
      (t, frame) ∈ state.flight ∨ ∃ pe, net.entry state s = some pe ∧
        net.owner frame.shost = some s ∧
        cost frame = pe.hopsToVcc.toNat := by
    refine (List.mem_append.mp member).imp_right fun new => ?_
    obtain ⟨sentFrame, advertised, delivered⟩ := List.mem_flatMap.mp new
    obtain ⟨receiver, heard, same⟩ := List.mem_map.mp delivered
    cases same
    obtain ⟨vccmac, pe, ethsrc, found, interface, rfl⟩ :=
      SpanningTreeState.mem_advertisements.mp advertised
    obtain rfl := ranked.counts.keys s vccmac pe found
    refine ⟨pe, found, (net.owner_iff _ _).mpr interface, ?_⟩
    rw [cost, SpanningTreeState.advertisement_cost]
  refine ⟨ranked.counts.announced s, ?_, ranked.rank, ?_, ranked.far⟩
  · intro t frame member
    rcases sent member with before | ⟨pe, found, owned, same⟩
    · exact ranked.sender t frame before
    · exact ⟨s, owned, ⟨pe, found, same ▸ le_rfl⟩, same ▸ ranked.far s pe found⟩
  · intro t frame member
    rcases sent member with before | ⟨pe, found, owned, same⟩
    · exact ranked.rankUnderway t frame before
    · rw [same]
      exact ranked.rank s pe found

variable [DecidableEq Switch]

theorem reached_delivered {state : NetworkState Switch} {i : Nat} {t : Switch} {frame : Frame}
    (forController : frame.vidAt 0 = net.vccmac) (hops : Nat) :
    net.reached state hops ⊆ net.reached (delivered state i t frame) hops := by
  intro s member
  exact mem_reached.mpr ((mem_reached.mp member).delivered forController)

theorem Ranked.delivered {state : NetworkState Switch} (ranked : net.Ranked state)
    (connected : net.graph.Connected) (few : Fintype.card Switch < 0xFFFF) {i : Nat} {t : Switch}
    {frame : Frame} (underway : state.flight[i]? = some (t, frame)) :
    net.Ranked (delivered state i t frame) := by
  have member := List.mem_of_getElem? underway
  obtain ⟨forController, positive, heard⟩ := ranked.counts.underway t frame member
  obtain ⟨s, owned, within, farther⟩ := ranked.sender t frame member
  have rank := ranked.rankUnderway t frame member
  have bound : _ ≤ Fintype.card Switch := net.card_reached_le state (cost frame)
  have room : (frame.shortAt 6).toNat < 0xFFFF := lt_of_le_of_lt (rank.trans bound) few
  have entries := net.entry_delivered state i t forController
  have grows (hops : Nat) := Finset.card_le_card
    (@reached_delivered _ net _ _ state i t frame forController hops)
  refine ⟨ranked.counts.delivered underway (ranked.settled_deliver few i), ?_, ?_, ?_, ?_⟩
  · intro other another kept
    obtain ⟨sender, owner, near, away⟩ :=
      ranked.sender other another (List.mem_of_mem_eraseIdx kept)
    exact ⟨sender, owner, near.delivered forController, away⟩
  · intro x pe found
    rw [entries] at found
    split at found
    · rename_i accepted
      obtain ⟨rfl, accepts⟩ := accepted
      cases found
      rw [SpanningTreeState.toNat_cost_succ room]
      -- the receiver was none of those that the cost counts
      have outside : x ∉ net.reached state (cost frame) := by
        intro inside
        obtain ⟨pe, stored, small⟩ := mem_reached.mp inside
        have closer := accepts pe stored
        rw [cost] at small
        omega
      have more : insert x (net.reached state (cost frame)) ⊆
          net.reached (SpanningNetwork.delivered state i x frame)
            ((frame.shortAt 6).toNat + 1) := by
        intro y inside
        rcases Finset.mem_insert.mp inside with rfl | before
        · refine mem_reached.mpr ⟨_, by rw [entries, if_pos ⟨rfl, accepts⟩], ?_⟩
          rw [SpanningTreeState.toNat_cost_succ room]
        · obtain ⟨pe, stored, small⟩ :=
            (mem_reached.mp before).delivered (i := i) (t := x) forController
          exact mem_reached.mpr ⟨pe, stored, small.trans (Nat.le_succ _)⟩
      have size := Finset.card_le_card more
      rw [Finset.card_insert_of_notMem outside] at size
      exact (Nat.succ_le_succ rank).trans size
    · exact (ranked.rank x pe found).trans (grows _)
  · intro other another kept
    exact (ranked.rankUnderway other another (List.mem_of_mem_eraseIdx kept)).trans (grows _)
  · intro x pe found
    rw [entries] at found
    split at found
    · rename_i accepted
      cases found
      rw [SpanningTreeState.toNat_cost_succ room]
      have link : net.Hears s t := ⟨frame.shost, (net.owner_iff _ _).mp owned, heard⟩
      have near := link.away_le connected
      rw [accepted.1]
      rw [cost] at farther
      omega
    · exact ranked.far x pe found

theorem initial_ranked : net.Ranked net.initial where
  counts := initial_countsDown
  sender := by
    intro t frame member
    cases member
  rank := by
    intro s pe found
    rw [entry_initial] at found
    split at found
    · rename_i controller
      cases found
      refine Finset.card_pos.mpr ⟨s, mem_reached.mpr ⟨_, ?_, le_rfl⟩⟩
      rw [entry_initial, if_pos controller]
    · cases found
  rankUnderway := by
    intro t frame member
    cases member
  far := by
    intro s pe found
    rw [entry_initial] at found
    split at found
    · rename_i controller
      cases found
      rw [away, controller, SimpleGraph.dist_self]
      exact le_rfl
    · cases found

def Unexpired (_ : NetworkState Switch) (action : NetworkAction Switch) : Prop :=
  ∀ s, action ≠ .expire s

theorem Ranked.step {state after : NetworkState Switch} {action : NetworkAction Switch}
    (ranked : net.Ranked state) (connected : net.graph.Connected)
    (few : Fintype.card Switch < 0xFFFF) (unexpired : Unexpired state action)
    (moves : net.Step state action after) : net.Ranked after := by
  rcases step_cases moves with ⟨msec, rfl, rfl⟩ | ⟨s, rfl, -, rfl⟩ | ⟨i, t, frame, rfl, sent, rfl⟩ |
    ⟨s, pe, rfl, -⟩
  · exact ⟨⟨ranked.counts.controller, ranked.counts.positive, ranked.counts.parent,
      ranked.counts.underway, ranked.counts.keys⟩, ranked.sender, ranked.rank, ranked.rankUnderway,
      ranked.far⟩
  · exact ranked.announced s
  · exact ranked.delivered connected few sent
  · exact absurd rfl (unexpired s)

theorem ranked_of_unexpired (connected : net.graph.Connected) (few : Fintype.card Switch < 0xFFFF)
    {state : NetworkState Switch}
    (run : Transition.Reaches (· = net.initial) net.Step Unexpired state) : net.Ranked state := by
  refine run.invariant net.Ranked ?_ fun before action after ranked unexpired moves => ?_
  · rintro _ rfl
    exact initial_ranked
  · exact ranked.step connected few unexpired moves

/-- As long as no entry expires, a hop count is between the true distance and the number of
switches, so it never wraps, and the parents are on the way to the controller. -/
theorem hops_bounded (connected : net.graph.Connected) (few : Fintype.card Switch < 0xFFFF)
    {state : NetworkState Switch}
    (run : Transition.Reaches (· = net.initial) net.Step Unexpired state) :
    net.Acyclic state ∧ ∀ s pe, net.entry state s = some pe →
      net.away s + 1 ≤ pe.hopsToVcc.toNat ∧ pe.hopsToVcc.toNat ≤ Fintype.card Switch := by
  have ranked := ranked_of_unexpired connected few run
  refine ⟨ranked.counts.acyclic, fun s pe found => ⟨ranked.far s pe found, ?_⟩⟩
  exact (ranked.rank s pe found).trans (card_reached_le state _)

end Ranks

/-! ### Runs in which every link keeps getting an advertisement through -/

section Timely

variable [DecidableEq Switch] {net : SpanningNetwork Switch}

def Advertises (run : TimedRun net.Step) (s t : Switch) (n k : Nat) : Prop :=
  ∃ j mac pe i, n ≤ j ∧ j < k ∧ run.action j = .broadcast s ∧ net.entry (run.state j) s = some pe ∧
    mac ∈ net.interfaces s ∧ run.action k = .deliver i ∧
    (run.state k).flight[i]? = some (t, SpanningTreeState.advertisement mac net.vccmac pe.hopsToVcc)

/-- A switch that has had an entry for `gap` has got an advertisement through to each neighbour
within that time. -/
def Timely (run : TimedRun net.Step) (gap : Nat) : Prop :=
  ∀ s t, net.Hears s t → ∀ n m, n ≤ m → m ≤ run.length →
    (run.state n).now + gap ≤ (run.state m).now →
    (∀ l, n ≤ l → l ≤ m → (net.entry (run.state l) s).isSome) →
    ∃ k, n ≤ k ∧ k < m ∧ Advertises run s t n k

theorem now_le_step {state after : NetworkState Switch} {action : NetworkAction Switch}
    (moves : net.Step state action after) : state.now ≤ after.now := by
  rcases step_cases moves with ⟨msec, -, rfl⟩ | ⟨s, -, -, rfl⟩ | ⟨i, t, frame, -, -, rfl⟩ |
    ⟨s, pe, -, -, -, -, rfl⟩
  · exact Nat.le_add_right _ _
  all_goals exact le_rfl

theorem now_mono (run : TimedRun net.Step) {n m : Nat} (order : n ≤ m) (within : m ≤ run.length) :
    (run.state n).now ≤ (run.state m).now :=
  TimedRun.keeps (fun k => (run.state n).now ≤ (run.state k).now) le_rfl
    (fun k _ earlier before =>
      before.trans (now_le_step (run.moves k (lt_of_lt_of_le earlier within)))) order

variable [Fintype Switch]

theorem Ranked.within_step {state after : NetworkState Switch} {action : NetworkAction Switch}
    (ranked : net.Ranked state) (unexpired : Unexpired state action)
    (moves : net.Step state action after) {s : Switch} {hops : Nat}
    (within : net.Within state s hops) : net.Within after s hops := by
  rcases step_cases moves with ⟨msec, rfl, rfl⟩ | ⟨s, rfl, -, rfl⟩ | ⟨i, t, frame, rfl, sent, rfl⟩ |
    ⟨s, pe, rfl, -⟩
  · exact within
  · exact within
  · exact within.delivered (ranked.counts.underway t frame (List.mem_of_getElem? sent)).1
  · exact absurd rfl (unexpired s)

omit [Fintype Switch] in
theorem expire_cases {state after : NetworkState Switch} {s : Switch}
    (moves : net.Step state (.expire s) after) :
    s ≠ net.vcc ∧ ∃ pe, net.entry state s = some pe ∧ pe.expiry ≤ state.now := by
  rcases step_cases moves with ⟨_, impossible, -⟩ | ⟨_, impossible, -⟩ | ⟨_, _, _, impossible, -⟩ |
    ⟨t, pe, same, other, found, due, -⟩
  · cases impossible
  · cases impossible
  · cases impossible
  · cases same
    exact ⟨other, pe, found, due⟩

def Quiet (run : TimedRun net.Step) (n : Nat) : Prop :=
  ∀ k < n, Unexpired (run.state k) (run.action k)

variable {run : TimedRun net.Step} (connected : net.graph.Connected)
  (few : Fintype.card Switch < 0xFFFF)
  (begins : run.state 0 = net.initial)

include connected few begins

theorem Quiet.ranked {n : Nat} (quiet : Quiet run n) (inside : n ≤ run.length) :
    net.Ranked (run.state n) :=
  ranked_of_unexpired connected few (run.reaches begins inside quiet)

theorem Quiet.within {n m : Nat} (quiet : Quiet run m) (inside : m ≤ run.length) (order : n ≤ m)
    {s : Switch} {hops : Nat} (within : net.Within (run.state n) s hops) :
    net.Within (run.state m) s hops := by
  refine TimedRun.keeps (fun k => net.Within (run.state k) s hops) within
    (fun k _ earlier before => ?_) order
  have earlierQuiet : Quiet run k := fun l less => quiet l (less.trans earlier)
  exact (earlierQuiet.ranked connected few begins (earlier.le.trans inside)).within_step
    (quiet k earlier) (run.moves k (lt_of_lt_of_le earlier inside)) before

theorem Quiet.accepted {n : Nat} (quiet : Quiet run n) (inside : n ≤ run.length) {s : Switch}
    (other : s ≠ net.vcc) {pe : ParentEntry} (found : net.entry (run.state n) s = some pe) :
    ∃ a < n, ∃ i frame, run.action a = .deliver i ∧ (run.state a).flight[i]? = some (s, frame) ∧
      pe = ⟨frame.shost, frame.shortAt 6 + 1, (run.state a).now + veilSpanningTreeEntryExpiry⟩ ∧
      ∀ l, a < l → l ≤ n → net.entry (run.state l) s = some pe := by
  have missing : ¬net.entry (run.state 0) s = some pe := by
    rw [begins, entry_initial, if_neg other]
    exact nofun
  obtain ⟨a, earlier, before, since⟩ :=
    TimedRun.exists_last (fun l => net.entry (run.state l) s = some pe) missing found
  have after := since (a + 1) (Nat.lt_succ_self a) earlier
  refine ⟨a, earlier, ?_⟩
  have moves := run.moves a (lt_of_lt_of_le earlier inside)
  rcases step_cases moves with ⟨msec, -, same⟩ | ⟨t, -, -, same⟩ | ⟨i, t, frame,
    delivers, sent, same⟩ |
    ⟨t, _, expires, -⟩
  · rw [same] at after
    exact absurd after before
  · rw [same] at after
    exact absurd after before
  · have earlierQuiet : Quiet run a := fun k less => quiet k (less.trans earlier)
    have ranked := earlierQuiet.ranked connected few begins (earlier.le.trans inside)
    have forController := (ranked.counts.underway t frame (List.mem_of_getElem? sent)).1
    rw [same, entry_delivered _ i t forController] at after
    split at after
    · rename_i accepts
      obtain ⟨rfl, -⟩ := accepts
      exact ⟨i, frame, delivers, sent, (Option.some.inj after).symm, since⟩
    · exact absurd after before
  · exact absurd expires (quiet a earlier t)

theorem Quiet.refreshed {s t : Switch} {n k hops : Nat} (quiet : Quiet run k)
    (inside : k < run.length) (advertises : Advertises run s t n k)
    (within : net.Within (run.state n) s hops) :
    (run.state (k + 1)).now = (run.state k).now ∧ net.Within (run.state (k + 1)) t (hops + 1) ∧
      ∀ pe, net.entry (run.state k) t = some pe → hops + 1 ≤ pe.hopsToVcc.toNat →
        ∃ after, net.entry (run.state (k + 1)) t = some after ∧
          after.expiry = (run.state k).now + veilSpanningTreeEntryExpiry := by
  obtain ⟨j, mac, own, i, later, earlier, -, found, -, delivers, sent⟩ := advertises
  have earlierQuiet : Quiet run j := fun l less => quiet l (less.trans earlier)
  obtain ⟨same, stored, small⟩ := earlierQuiet.within connected few begins
    (earlier.le.trans inside.le) later within
  rw [found, Option.some.injEq] at stored
  subst same
  have ranked := quiet.ranked connected few begins inside.le
  have rank := ranked.rankUnderway _ _ (List.mem_of_getElem? sent)
  have bound : _ ≤ Fintype.card Switch := net.card_reached_le (run.state k) own.hopsToVcc.toNat
  rw [cost, SpanningTreeState.advertisement_cost] at rank
  have room : own.hopsToVcc.toNat < 0xFFFF := lt_of_le_of_lt (rank.trans bound) few
  have moves := run.moves k inside
  rw [Step, delivers, perform, sent, Option.map_some, Option.some.injEq] at moves
  have entries := net.entry_delivered (run.state k) i t
    (SpanningTreeState.advertisement_vccmac mac net.vccmac own.hopsToVcc) t
  rw [SpanningTreeState.advertisement_cost] at entries
  rw [← moves]
  refine ⟨rfl, ?_, ?_⟩
  · rw [Within, entries]
    split
    · exact ⟨_, rfl, by rw [SpanningTreeState.toNat_cost_succ room]; omega⟩
    · rename_i refused
      rw [not_and, Accepts, SpanningTreeState.advertisement_cost] at refused
      have kept := refused rfl
      push Not at kept
      obtain ⟨pe, stored, closer⟩ := kept
      exact ⟨pe, stored, by omega⟩
  · intro pe stored farther
    refine ⟨_, by rw [entries, if_pos ⟨rfl, fun again found => ?_⟩], rfl⟩
    rw [stored, Option.some.injEq] at found
    rw [SpanningTreeState.advertisement_cost, ← found]
    omega

theorem Timely.quiet {gap : Nat} (timely : Timely run gap)
    (short : gap ≤ veilSpanningTreeEntryExpiry) {n : Nat} (inside : n ≤ run.length) :
    Quiet run n := by
  induction n with
  | zero => exact fun k less => absurd less (Nat.not_lt_zero k)
  | succ n ih =>
      have quiet := ih (Nat.le_of_succ_le inside)
      intro k earlier s expires
      rcases Nat.lt_succ_iff_lt_or_eq.mp earlier with before | rfl
      · exact quiet k before s expires
      have here := Nat.le_of_succ_le inside
      have moves := run.moves k inside
      rw [expires] at moves
      obtain ⟨other, pe, found, due⟩ := expire_cases moves
      obtain ⟨a, earlier, i, frame, delivers, sent, rfl, since⟩ :=
        quiet.accepted connected few begins here other found
      dsimp only at due
      have acceptedQuiet : Quiet run a := fun l less => quiet l (less.trans earlier)
      have ranked := acceptedQuiet.ranked connected few begins (earlier.le.trans here)
      have member := List.mem_of_getElem? sent
      obtain ⟨p, owned, near, -⟩ := ranked.sender s frame member
      have heard : net.Hears p s :=
        ⟨frame.shost, (net.owner_iff _ _).mp owned, (ranked.counts.underway s frame member).2.2⟩
      have room : (frame.shortAt 6).toNat < 0xFFFF :=
        lt_of_le_of_lt ((ranked.rankUnderway s frame member).trans (card_reached_le _ _)) few
      have stays {l : Nat} (later : a ≤ l) (before : l ≤ k) :
          net.Within (run.state l) p (cost frame) := by
        have sofar : Quiet run l := fun x less => quiet x (less.trans_le before)
        exact sofar.within connected few begins (before.trans here) later near
      have instant : (run.state (a + 1)).now = (run.state a).now := by
        have arrives := run.moves a (lt_of_lt_of_le earlier here)
        rw [Step, delivers, perform, sent, Option.map_some, Option.some.injEq] at arrives
        rw [← arrives]
        rfl
      -- the last moment from which on an advertisement of the parent has had its time
      have zero : (run.state 0).now ≤ (run.state k).now - gap := by
        rw [begins]
        exact Nat.zero_le _
      obtain ⟨m, order, past, ahead⟩ :=
        @TimedRun.exists_moment (fun l => (run.state l).now) _ zero k
      have afterwards : a + 1 ≤ m := by
        by_contra early
        have passed := ahead (a + 1) (by omega) earlier
        omega
      obtain ⟨c, later, before, advertises⟩ :=
        timely p s heard m k order here (by omega) fun l from' bound => by
        obtain ⟨own, stored, -⟩ := stays (by omega) bound
        rw [stored]
        rfl
      have sofar : Quiet run c := fun l less => quiet l (less.trans before)
      obtain ⟨steady, -, renewed⟩ :=
        sofar.refreshed connected few begins (lt_of_lt_of_le before here)
        advertises (stays (by omega) order)
      obtain ⟨after, stored, fresh⟩ := renewed _ (since c (by omega) before.le) (by
        rw [SpanningTreeState.toNat_cost_succ room, cost])
      rw [since (c + 1) (by omega) before, Option.some.injEq] at stored
      rw [← stored] at fresh
      dsimp only at fresh
      have recent := ahead (c + 1) (by omega) before
      omega

theorem Timely.spreads {gap : Nat} (timely : Timely run gap)
    (short : gap ≤ veilSpanningTreeEntryExpiry) {d : Nat} :
    ∀ n ≤ run.length, d * gap ≤ (run.state n).now → ∀ s, net.away s = d →
      net.Within (run.state n) s (d + 1) := by
  induction d with
  | zero =>
      intro n inside _ s near
      obtain rfl := connected.dist_eq_zero_iff.mp near
      obtain ⟨pe, found, -, one⟩ :=
        (((timely.quiet connected few begins short inside).ranked connected few
        begins inside).counts).controller
      exact ⟨pe, found, by rw [one]; decide⟩
  | succ d ih =>
      intro n inside passed s distance
      obtain ⟨t, near, heard⟩ := exists_nearer connected distance
      rw [Nat.succ_mul] at passed
      have zero : (run.state 0).now ≤ d * gap := by
        rw [begins]
        exact Nat.zero_le _
      obtain ⟨m, order, past, ahead⟩ :=
        @TimedRun.exists_moment (fun l => (run.state l).now) _ zero n
      -- at the last moment before its time the neighbour has its entry already
      have start : net.Within (run.state m) t (d + 1) := by
        by_cases exact : d * gap ≤ (run.state m).now
        · exact ih m (order.trans inside) exact t near
        · have earlier : m < n := by
            refine Nat.lt_of_le_of_ne order ?_
            rintro rfl
            omega
          have room : m < run.length := lt_of_lt_of_le earlier inside
          have passing := ahead (m + 1) (Nat.lt_succ_self m) earlier
          have after := ih (m + 1) room passing.le t near
          have moves := run.moves m room
          rcases step_cases moves with
            ⟨msec, -, same⟩ | ⟨x, -, -, same⟩ | ⟨i, x, frame, -, -, same⟩ |
            ⟨x, pe, -, -, -, -, same⟩
          · rw [same] at after
            exact after
          all_goals
            have still : (run.state (m + 1)).now = (run.state m).now := by rw [same]; rfl
            omega
      have stays {l : Nat} (later : m ≤ l) (before : l ≤ n) : net.Within (run.state l) t (d + 1) :=
        (timely.quiet connected few begins short (before.trans inside)).within connected few begins
          (before.trans inside) later start
      obtain ⟨k, later, before, advertises⟩ := timely t s heard m n order inside (by omega)
        fun l since bound => by
          obtain ⟨pe, found, -⟩ := stays since bound
          rw [found]
          rfl
      have within := lt_of_lt_of_le before inside
      have arrived :=
        ((timely.quiet connected few begins short within.le).refreshed connected few begins
        within advertises start).2.1
      exact (timely.quiet connected few begins short inside).within connected few begins inside
        before arrived

/-- Where every link gets an advertisement through each `gap`, within the life of an entry, no
entry ever expires, and a switch that is `d` hops away knows its true distance from `d` gaps on,
for ever, with a parent one hop nearer. -/
theorem converges {gap : Nat} (timely : Timely run gap)
    (short : gap ≤ veilSpanningTreeEntryExpiry) :
    Quiet run run.length ∧ ∀ n ≤ run.length, ∀ s, net.away s * gap ≤ (run.state n).now →
      ∃ pe, net.entry (run.state n) s = some pe ∧ pe.hopsToVcc.toNat = net.away s + 1 ∧
        (s ≠ net.vcc → ∃ t, net.Follows (run.state n) s t ∧ net.Hears t s ∧
          net.away s = net.away t + 1) := by
  refine ⟨timely.quiet connected few begins short (Nat.le_refl _), fun n inside s passed => ?_⟩
  have ranked := (timely.quiet connected few begins short inside).ranked connected few begins inside
  obtain ⟨pe, found, small⟩ := timely.spreads connected few begins short n inside passed s rfl
  have large := ranked.far s pe found
  refine ⟨pe, found, by omega, fun other => ?_⟩
  obtain ⟨t, owned, hearing, hops, fewer, own, stored, less⟩ :=
    ranked.counts.parent s pe other found
  have heard : net.Hears t s := ⟨pe.parentMac, (net.owner_iff _ _).mp owned, hearing⟩
  have lower := ranked.far t own stored
  have upper := heard.away_le connected
  exact ⟨t, follows_iff.mpr ⟨pe, found, owned⟩, heard, by omega⟩

end Timely

/-! ### The controller, a neighbour of it and a neighbour of that, for two rounds -/

theorem lineSwitches_hears {s t : Fin 3} : lineSwitches.Hears s t ↔ t ∈ lineNeighbors s := by
  have heard : lineSwitches.hears (lineMac s) = lineNeighbors s := by
    change (lineOwner (lineMac s)).elim [] lineNeighbors = lineNeighbors s
    rw [(lineOwner_iff (lineMac s) s).mpr (List.mem_singleton_self _)]
    rfl
  constructor
  · rintro ⟨mac, interface, hearing⟩
    rw [List.mem_singleton.mp interface, heard] at hearing
    exact hearing
  · intro near
    exact ⟨lineMac s, List.mem_singleton_self _, heard ▸ near⟩

theorem lineSwitches_connected : lineSwitches.graph.Connected := by
  have first : lineSwitches.graph.Adj 0 1 :=
    adj_iff.mpr ⟨by decide, lineSwitches_hears.mpr (by decide)⟩
  have second : lineSwitches.graph.Adj 1 2 :=
    adj_iff.mpr ⟨by decide, lineSwitches_hears.mpr (by decide)⟩
  have all : ∀ s, lineSwitches.graph.Reachable 0 s := by
    intro s
    match s with
    | 0 => exact SimpleGraph.Reachable.refl _
    | 1 => exact first.reachable
    | 2 => exact first.reachable.trans second.reachable
  exact ⟨fun s t => (all s).symm.trans (all t)⟩

def lineRound : List (NetworkAction (Fin 3)) :=
  (List.finRange 3).flatMap (fun s => .broadcast s :: (lineNeighbors s).map fun _ => .deliver 0) ++
    [.pass 25000]

def lineRounds : TimedRun lineSwitches.Step :=
  TimedRun.ofActions lineSwitches.perform lineSwitches.initial (.pass 0) (lineRound ++ lineRound)
    (by decide +kernel)

theorem lineRounds_now : ∀ n ≤ 16, (lineRounds.state n).now = 25000 * (n / 8) := by decide +kernel

theorem lineRounds_timely : Timely lineRounds 50000 := by
  intro s t heard n m order inside passed _
  have long : m ≤ 16 := inside
  rw [lineRounds_now n (order.trans long), lineRounds_now m long] at passed
  have early : n ≤ 8 := by omega
  have late : 15 < m := by omega
  have shown (j k : Nat) (bounds : 8 ≤ j ∧ j < k ∧ k ≤ 15)
      (sent : ∃ pe, lineSwitches.entry (lineRounds.state j) s = some pe ∧
        (lineRounds.state k).flight[0]? =
          some (t, SpanningTreeState.advertisement (lineMac s) lineSwitches.vccmac pe.hopsToVcc))
      (does : lineRounds.action j = .broadcast s ∧ lineRounds.action k = .deliver 0) :
      ∃ k, n ≤ k ∧ k < m ∧ Advertises lineRounds s t n k := by
    obtain ⟨pe, found, underway⟩ := sent
    exact ⟨k, by omega, by omega, j, lineMac s, pe, 0, by omega, bounds.2.1, does.1, found,
      List.mem_singleton_self _, does.2, underway⟩
  have links : ∀ s t, t ∈ lineNeighbors s →
      (s = 0 ∧ t = 1) ∨ (s = 1 ∧ t = 0) ∨ (s = 1 ∧ t = 2) ∨ (s = 2 ∧ t = 1) := by decide
  rcases links s t (lineSwitches_hears.mp heard) with
    ⟨rfl, rfl⟩ | ⟨rfl, rfl⟩ | ⟨rfl, rfl⟩ | ⟨rfl, rfl⟩
  · exact shown 8 9 (by decide) ⟨_, rfl, by decide +kernel⟩ ⟨rfl, rfl⟩
  · exact shown 10 11 (by decide) ⟨_, rfl, by decide +kernel⟩ ⟨rfl, rfl⟩
  · exact shown 10 12 (by decide) ⟨_, rfl, by decide +kernel⟩ ⟨rfl, rfl⟩
  · exact shown 13 14 (by decide) ⟨_, rfl, by decide +kernel⟩ ⟨rfl, rfl⟩

theorem hops_bounded_line : lineSwitches.Acyclic (lineRounds.state 16) ∧
    ∀ s pe, lineSwitches.entry (lineRounds.state 16) s = some pe →
      lineSwitches.away s + 1 ≤ pe.hopsToVcc.toNat ∧ pe.hopsToVcc.toNat ≤ Fintype.card (Fin 3) := by
  have few : Fintype.card (Fin 3) < 0xFFFF := by simp
  have quiet := lineRounds_timely.quiet lineSwitches_connected few rfl (by decide) (le_refl 16)
  exact hops_bounded lineSwitches_connected few (lineRounds.reaches rfl (le_refl 16) quiet)

theorem converges_line : Quiet lineRounds 16 ∧
    ∃ pe, lineSwitches.entry (lineRounds.state 16) 1 = some pe ∧
      pe.hopsToVcc.toNat = lineSwitches.away 1 + 1 ∧ ((1 : Fin 3) ≠ lineSwitches.vcc →
        ∃ t, lineSwitches.Follows (lineRounds.state 16) 1 t ∧ lineSwitches.Hears t 1 ∧
          lineSwitches.away 1 = lineSwitches.away t + 1) := by
  have near : lineSwitches.away 1 ≤ lineSwitches.away 0 + 1 :=
    (lineSwitches_hears.mpr (by decide)).away_le lineSwitches_connected
  rw [show lineSwitches.away 0 = 0 from SimpleGraph.dist_self] at near
  have now : (lineRounds.state 16).now = 50000 := lineRounds_now 16 le_rfl
  have few : Fintype.card (Fin 3) < 0xFFFF := by simp
  obtain ⟨quiet, knows⟩ := converges lineSwitches_connected few rfl lineRounds_timely (by decide)
  exact ⟨quiet, knows 16 (le_refl 16) 1 (now ▸ Nat.mul_le_mul_right 50000 near)⟩

end SpanningNetwork

end Veil
