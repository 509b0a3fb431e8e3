import Veil.SimPy.Switch

/-! The mutual calls of `routepacket` and `processPacket`, with what is handled and sent on the
way. -/

namespace Veil

namespace SimPy

open HashTable

/-! ### Flipping bits -/

@[simp] theorem length_flipBit (dst : List Bool) (dist : Nat) :
    (flipBit dst dist).length = dst.length :=
  List.length_modify ..

theorem delta_flipBit_self {dst : List Bool} {dist : Nat} (positive : 0 < dist)
    (bound : dist ≤ dst.length) :
    delta dst (flipBit dst dist) = dist := by
  induction dst with
  | nil => exact (Nat.not_lt.mpr bound positive).elim
  | cons bit dst ih =>
      by_cases top : dist = dst.length + 1
      · have other : ¬bit = !bit := by cases bit <;> decide
        rw [flipBit, top, List.length_cons, Nat.sub_self, List.modify_zero_cons,
          delta, if_neg other]
      · have inside : dist ≤ dst.length := by
          rw [List.length_cons] at bound
          omega
        rw [flipBit, List.length_cons, Nat.succ_sub inside, List.modify_succ_cons,
          delta, if_pos rfl]
        exact ih inside

theorem delta_flipBit {vid dst : List Bool} (same : vid.length = dst.length)
    (apart : delta vid dst ≠ 0) :
    delta vid (flipBit dst (delta vid dst)) < delta vid dst := by
  have positive := Nat.pos_of_ne_zero apart
  refine delta_lt_of_eq same (length_flipBit dst _).symm ?_ positive
  exact (delta_flipBit_self positive (same ▸ delta_le_length vid dst)).symm

section Loop

variable {α : Type} {site : Site α} {tables : Tables} {oper : BitVec 16}

theorem searchHop_cases {flips : Nat} {dst found : List Bool} {hop : Option α}
    (search : searchHop site tables oper (flips + 1) dst = some (hop, found)) :
    found = dst ∨ ((oper = RDV_PUBLISH ∨ oper = RDV_QUERY) ∧ delta site.myvid dst ≠ 0 ∧
      searchHop site tables oper flips (flipBit dst (delta site.myvid dst)) =
        some (hop, found)) := by
  rw [searchHop] at search
  cases neighbor : site.vid2pid.lookup dst with
  | some nexthop =>
      rw [neighbor] at search
      cases search
      exact Or.inl rfl
  | none =>
      simp only [neighbor, Option.bind_eq_bind] at search
      by_cases here : delta site.myvid dst = 0
      · rw [if_pos here] at search
        cases search
        exact Or.inl rfl
      · rw [if_neg here] at search
        obtain ⟨bucket, -, rest⟩ := Option.bind_eq_some_iff.mp search
        cases bucket with
        | some nexthop =>
            cases rest
            exact Or.inl rfl
        | none =>
            simp only at rest
            split at rest
            · cases rest
              exact Or.inl rfl
            · rename_i moves
              rw [← not_or, not_not] at moves
              exact Or.inr ⟨moves, here, rest⟩

section Turn

variable {dst : List Bool} (stranger : site.vid2pid.lookup dst = none)
  (apart : delta site.myvid dst ≠ 0)
include stranger apart

theorem searchHop_bucket {nexthop : α}
    (bucket : bucketHop site tables (delta site.myvid dst) = some (some nexthop)) (flips : Nat) :
    searchHop site tables oper (flips + 1) dst = some (some nexthop, dst) := by
  simp only [searchHop, stranger, if_neg apart, bucket, Option.bind_eq_bind, Option.bind_some,
    Option.pure_def]

theorem searchHop_flip (absent : delta site.myvid dst ∉ tables.routingTable)
    (control : oper = RDV_PUBLISH ∨ oper = RDV_QUERY) (flips : Nat) :
    searchHop site tables oper (flips + 1) dst =
      searchHop site tables oper flips (flipBit dst (delta site.myvid dst)) := by
  have bucket : bucketHop site tables (delta site.myvid dst) = some none := by
    rw [bucketHop, AList.lookup_eq_none.mpr absent]
  have moves : ¬(oper ≠ RDV_PUBLISH ∧ oper ≠ RDV_QUERY) := by
    rintro ⟨publish, query⟩
    exact control.elim publish query
  simp only [searchHop, stranger, if_neg apart, bucket, Option.bind_eq_bind,
    Option.bind_some, if_neg moves]

end Turn

theorem searchHop_stays (fixed : ¬(oper = RDV_PUBLISH ∨ oper = RDV_QUERY)) {flips : Nat}
    {dst found : List Bool} {hop : Option α}
    (search : searchHop site tables oper flips dst = some (hop, found)) : found = dst := by
  cases flips with
  | zero => cases search
  | succ flips => exact (searchHop_cases search).resolve_right fun flipped => fixed flipped.1

theorem searchHop_nearer {flips : Nat} {dst found : List Bool} {hop : Option α}
    (search : searchHop site tables oper flips dst = some (hop, found)) :
    found.length = dst.length ∧
      (dst.length = site.L → delta site.myvid found ≤ delta site.myvid dst) := by
  induction flips generalizing dst with
  | zero => cases search
  | succ flips ih =>
      rcases searchHop_cases search with rfl | ⟨-, apart, rest⟩
      · exact ⟨rfl, fun _ => Nat.le_refl _⟩
      · obtain ⟨length, near⟩ := ih rest
        rw [length_flipBit] at length near
        refine ⟨length, fun same => Nat.le_trans (near same) ?_⟩
        exact Nat.le_of_lt (delta_flipBit same.symm apart)

end Loop

/-! ### Re-routing -/

def Event.handles {α : Type} (packet : Packet) : Event α → Bool
  | handled other => decide ({ other with dvid := packet.dvid } = packet)
  | sent _ _ => false

section Rerouting

variable {α : Type} [DecidableEq α]

/-- What a run makes of a publication or a query for which the loop has come to a hop and a
destination. -/
structure Run.Delivers (site : Site α) (tables : Tables) (packet : Packet) (hop : Option α)
    (dst : List Bool) (run : Run α) : Prop where
  ends : run.ending ≠ .limit
  here : dst = site.myvid → run.events.countP (Event.handles packet) = 1 ∧
    ∀ nexthop dvid, .sent nexthop { packet with dvid } ∉ run.events
  onward : dst ≠ site.myvid → ∃ nexthop flipped, hop = some nexthop ∧
    updateDestination packet dst = some flipped ∧ run = ⟨[.sent nexthop flipped], .returned tables⟩

def Reroutes (site : Site α) (tables : Tables) (packet : Packet) (call : Nat → Run α) : Prop :=
  ∃ hop dst, searchHop site tables packet.oper (site.L + 1) (getDest packet site.L) =
      some (hop, dst) ∧
    ∃ enough, ∀ calls, enough ≤ calls → (call calls).Delivers site tables packet hop dst

def NexthopsAreNeighbors (site : Site α) (tables : Tables) : Prop :=
  ∀ dist ∈ tables.routingTable, ∃ nexthop, bucketHop site tables dist = some (some nexthop)

/-- No bit of the destination has to be flipped. -/
def Routable (site : Site α) (tables : Tables) (packet : Packet) : Prop :=
  getDest packet site.L = site.myvid ∨ getDest packet site.L ∈ site.vid2pid ∨
    delta site.myvid (getDest packet site.L) ∈ tables.routingTable

instance (site : Site α) (tables : Tables) (packet : Packet) :
    Decidable (Routable site tables packet) :=
  inferInstanceAs (Decidable (_ ∨ _ ∨ _))

variable {site : Site α} {tables : Tables} {packet : Packet}

omit [DecidableEq α] in
theorem updateDestination_getDest (packet : Packet) (L : Nat) :
    updateDestination packet (getDest packet L) = some packet := by
  rw [updateDestination, getDest, value_bin2str, pack, if_pos packet.dvid.isLt, BitVec.ofNat_toNat,
    BitVec.setWidth_eq]
  rfl

omit [DecidableEq α] in
theorem updateDestination_ne {L : Nat} {dst : List Bool} {updated : Packet}
    (update : updateDestination packet dst = some updated)
    (same : dst.length = (getDest packet L).length) (changed : dst ≠ getDest packet L) :
    updated ≠ packet := by
  rintro rfl
  obtain ⟨dvid, packed, field⟩ := Option.map_eq_some_iff.mp update
  rw [pack] at packed
  split at packed
  · rename_i small
    cases packed
    refine changed ((BitString.value_inj same).mp ?_)
    rw [getDest, value_bin2str, ← congrArg Packet.dvid field, BitVec.toNat_ofNat,
      Nat.mod_eq_of_lt small]
  · cases packed

theorem Run.processPacket_eq_routepacket (away : getDest packet site.L ≠ site.myvid) (calls : Nat)
    (tables : Tables) :
    processPacket site (calls + 1) tables packet = routepacket site calls tables packet := by
  rw [processPacket, if_pos away]

theorem Run.routepacket_eq_processPacket (here : getDest packet site.L = site.myvid) (calls : Nat)
    (tables : Tables) :
    routepacket site (calls + 1) tables packet = processPacket site calls tables packet := by
  rw [routepacket, if_pos here]

theorem Run.routepacket_reply (reply : packet.oper = RDV_REPLY) (calls : Nat) (tables : Tables) :
    (routepacket site (calls + 2) tables packet).ending ≠ .limit ∧
      ∀ event ∈ (routepacket site (calls + 2) tables packet).events, ∃ nexthop,
        event = .sent nexthop packet := by
  have fixed : ¬(packet.oper = RDV_PUBLISH ∨ packet.oper = RDV_QUERY) := by
    rw [reply]
    decide
  obtain ⟨noPublish, noQuery⟩ := not_or.mp fixed
  rw [routepacket]
  split
  · rename_i here
    rw [processPacket, if_neg (not_not_intro here), if_neg noPublish, if_neg noQuery, if_pos reply]
    cases receiveReply site tables packet with
    | none => exact ⟨Ending.raised_ne, List.forall_mem_nil _⟩
    | some after => exact ⟨Ending.returned_ne after, List.forall_mem_nil _⟩
  · rename_i away
    have sent (nexthop : α) : ∀ event ∈ [Event.sent nexthop packet], ∃ nexthop,
        event = .sent nexthop packet :=
      fun event member => ⟨nexthop, List.mem_singleton.mp member⟩
    cases site.vid2pid.lookup (getDest packet site.L) with
    | some nexthop => exact ⟨Ending.returned_ne _, sent nexthop⟩
    | none =>
        cases search : searchHop site tables packet.oper (site.L + 1) (getDest packet site.L) with
        | none => exact ⟨Ending.raised_ne, List.forall_mem_nil _⟩
        | some found =>
            obtain ⟨hop, dst⟩ := found
            obtain rfl := searchHop_stays fixed search
            simp only [ne_eq, not_true, if_false, if_neg away]
            cases hop with
            | none => exact ⟨Ending.returned_ne tables, List.forall_mem_nil _⟩
            | some nexthop => exact ⟨Ending.returned_ne _, sent nexthop⟩

omit [DecidableEq α] in
theorem oper_createRDV_REPLY {gw bucket_dist : Nat} {myvid dst : List Bool} {reply : Packet}
    (created : createRDV_REPLY gw bucket_dist myvid dst = some reply) : reply.oper = RDV_REPLY := by
  simp only [createRDV_REPLY, Option.bind_eq_bind, Option.pure_def, Option.bind_eq_some_iff,
    Option.some.injEq] at created
  obtain ⟨svid, -, dvid, -, payload, -, z, -, rfl⟩ := created
  rfl

omit [DecidableEq α] in
theorem Run.delivers_here {run : Run α} {hop : Option α} {rest : List (Event α)}
    (ends : run.ending ≠ .limit) (events : run.events = .handled packet :: rest)
    (others : ∀ event ∈ rest, ∃ nexthop reply, event = .sent nexthop reply ∧
      reply.oper ≠ packet.oper) :
    run.Delivers site tables packet hop site.myvid where
  ends := ends
  here := by
    intro _
    rw [events]
    have own : (Event.handled packet : Event α).handles packet = true := decide_eq_true rfl
    refine ⟨?_, fun nexthop dvid member => ?_⟩
    · rw [List.countP_cons_of_pos own, Nat.add_eq_right, List.countP_eq_zero]
      intro event member
      obtain ⟨nexthop, reply, rfl, -⟩ := others event member
      exact Bool.false_ne_true
    · rcases List.mem_cons.mp member with same | later
      · cases same
      · obtain ⟨_, reply, same, other⟩ := others _ later
        cases same
        exact other rfl
  onward := fun away => (away rfl).elim

theorem Run.processPacket_here (here : getDest packet site.L = site.myvid)
    (control : packet.oper = RDV_PUBLISH ∨ packet.oper = RDV_QUERY) (hop : Option α) (calls : Nat) :
    (processPacket site (calls + 3) tables packet).Delivers site tables packet hop site.myvid := by
  rw [processPacket, if_neg (not_not_intro here)]
  rcases control with publish | query
  · rw [if_pos publish]
    exact delivers_here (Ending.returned_ne _) rfl (List.forall_mem_nil _)
  · have other : packet.oper ≠ RDV_PUBLISH := by
      rw [query]
      decide
    rw [if_neg other, if_pos query]
    simp only
    cases findAGW tables.rdvStore (BitString.value (bin2str packet.payload.toNat site.L))
        (bin2str packet.svid.toNat site.L) with
    | none => exact delivers_here (Ending.returned_ne _) rfl (List.forall_mem_nil _)
    | some gw =>
        simp only
        cases created : createRDV_REPLY (BitString.value gw)
            (BitString.value (bin2str packet.payload.toNat site.L)) site.myvid
            (bin2str packet.svid.toNat site.L) with
        | none => exact delivers_here Ending.raised_ne rfl (List.forall_mem_nil _)
        | some reply =>
            have kind := oper_createRDV_REPLY created
            obtain ⟨ends, events⟩ := @routepacket_reply α _ site reply kind calls tables
            refine delivers_here ends rfl fun event member => ?_
            obtain ⟨nexthop, rfl⟩ := events event member
            refine ⟨nexthop, reply, rfl, ?_⟩
            rw [kind, query]
            decide

theorem Run.routepacket_of_routable (neighbors : NexthopsAreNeighbors site tables)
    (control : packet.oper = RDV_PUBLISH ∨ packet.oper = RDV_QUERY)
    (dest : (getDest packet site.L).length = site.L) (routable : Routable site tables packet) :
    ∃ hop, searchHop site tables packet.oper (site.L + 1) (getDest packet site.L) =
        some (hop, getDest packet site.L) ∧
      ∀ calls, (routepacket site (calls + 4) tables packet).Delivers site tables packet hop
        (getDest packet site.L) := by
  by_cases here : getDest packet site.L = site.myvid
  · have search : ∃ hop, searchHop site tables packet.oper (site.L + 1) (getDest packet site.L) =
        some (hop, getDest packet site.L) := by
      rw [searchHop]
      cases site.vid2pid.lookup (getDest packet site.L) with
      | some nexthop => exact ⟨_, rfl⟩
      | none =>
          simp only [if_pos ((delta_eq_zero_iff (congrArg List.length here.symm)).mpr here.symm)]
          exact ⟨_, rfl⟩
    obtain ⟨hop, search⟩ := search
    refine ⟨hop, search, fun calls => ?_⟩
    rw [routepacket_eq_processPacket here, here]
    exact processPacket_here here control hop calls
  · have onward (nexthop : α) (calls : Nat)
        (run : routepacket site calls tables packet = ⟨[.sent nexthop packet], .returned tables⟩) :
        (routepacket site calls tables packet).Delivers site tables packet (some nexthop)
          (getDest packet site.L) := by
      rw [run]
      exact ⟨Ending.returned_ne _, fun own => (here own).elim,
        fun _ => ⟨nexthop, packet, rfl, updateDestination_getDest packet site.L, rfl⟩⟩
    cases neighbor : site.vid2pid.lookup (getDest packet site.L) with
    | some nexthop =>
        refine ⟨some nexthop, by rw [searchHop, neighbor], fun calls => onward nexthop _ ?_⟩
        rw [routepacket, if_neg here, neighbor]
    | none =>
        have level := (routable.resolve_left here).resolve_left (AList.lookup_eq_none.mp neighbor)
        obtain ⟨nexthop, bucket⟩ := neighbors _ level
        have apart : delta site.myvid (getDest packet site.L) ≠ 0 := fun zero =>
          here ((delta_eq_zero_iff dest.symm).mp zero).symm
        have search := @searchHop_bucket α site tables packet.oper _ neighbor apart
          nexthop bucket site.L
        refine ⟨some nexthop, search, fun calls => onward nexthop _ ?_⟩
        rw [routepacket, if_neg here, neighbor]
        simp only [search, ne_eq, not_true, if_false, if_neg here]
        rfl

theorem Run.endless (away : getDest packet site.L ≠ site.myvid)
    (stranger : site.vid2pid.lookup (getDest packet site.L) = none) {hop : Option α}
    {updated : Packet}
    (search : searchHop site tables packet.oper (site.L + 1) (getDest packet site.L) =
      some (hop, site.myvid))
    (update : updateDestination packet site.myvid = some updated) (calls : Nat) :
    processPacket site calls tables packet = ⟨[], .limit⟩ ∧
      routepacket site calls tables packet = ⟨[], .limit⟩ := by
  induction calls with
  | zero => exact ⟨rfl, rfl⟩
  | succ calls ih =>
      constructor
      · rw [processPacket_eq_routepacket away, ih.2]
      · rw [routepacket, if_neg away, stranger]
        simp only [search, ne_eq, away.symm, not_false_eq_true, if_true, update, ih.1]
        cases hop <;> rfl

omit [DecidableEq α] in
theorem searchHop_changes (control : packet.oper = RDV_PUBLISH ∨ packet.oper = RDV_QUERY)
    (dest : (getDest packet site.L).length = site.L) (unroutable : ¬Routable site tables packet)
    {hop : Option α} {dst : List Bool}
    (search : searchHop site tables packet.oper (site.L + 1) (getDest packet site.L) =
      some (hop, dst)) :
    dst ≠ getDest packet site.L := by
  have apart : delta site.myvid (getDest packet site.L) ≠ 0 := fun zero =>
    unroutable (Or.inl ((delta_eq_zero_iff dest.symm).mp zero).symm)
  have stranger : site.vid2pid.lookup (getDest packet site.L) = none :=
    AList.lookup_eq_none.mpr fun member => unroutable (Or.inr (Or.inl member))
  rw [searchHop_flip stranger apart (fun level => unroutable (Or.inr (Or.inr level)))
    control] at search
  have near := (searchHop_nearer search).2 (by rw [length_flipBit, dest])
  rintro rfl
  exact Nat.lt_irrefl _ (Nat.lt_of_le_of_lt near (delta_flipBit dest.symm apart))

theorem Run.not_delivers (unroutable : ¬Routable site tables packet) {hop : Option α}
    {dst : List Bool}
    (search : searchHop site tables packet.oper (site.L + 1) (getDest packet site.L) =
      some (hop, dst))
    (changed : dst ≠ getDest packet site.L) (calls : Nat) :
    ¬(routepacket site (calls + 1) tables packet).Delivers site tables packet hop dst := by
  intro delivers
  have away : getDest packet site.L ≠ site.myvid := fun here => unroutable (Or.inl here)
  have stranger : site.vid2pid.lookup (getDest packet site.L) = none :=
    AList.lookup_eq_none.mpr fun member => unroutable (Or.inr (Or.inl member))
  have length := (searchHop_nearer search).1
  by_cases here : dst = site.myvid
  · subst dst
    cases update : updateDestination packet site.myvid with
    | none =>
        have once := (delivers.here rfl).1
        rw [routepacket, if_neg away, stranger] at once
        simp only [search, ne_eq, changed, not_false_eq_true, if_true, update] at once
        cases once
    | some updated =>
        exact delivers.ends
          (congrArg Run.ending (endless away stranger search update (calls + 1)).2)
  · obtain ⟨nexthop, flipped, rfl, update, run⟩ := delivers.onward here
    rw [routepacket, if_neg away, stranger] at run
    simp only [search, ne_eq, changed, not_false_eq_true, if_true, update, if_neg here, andThen,
      List.nil_append, Run.mk.injEq, and_true, List.cons.injEq, Event.sent.injEq, true_and] at run
    exact updateDestination_ne update length changed run.symm

theorem not_reroutes (control : packet.oper = RDV_PUBLISH ∨ packet.oper = RDV_QUERY)
    (dest : (getDest packet site.L).length = site.L) (unroutable : ¬Routable site tables packet) :
    ¬Reroutes site tables packet fun calls => Run.routepacket site calls tables packet := by
  rintro ⟨hop, dst, search, enough, delivers⟩
  exact Run.not_delivers unroutable search (searchHop_changes control dest unroutable search) enough
    (delivers (enough + 1) (Nat.le_succ enough))

omit [DecidableEq α] in
theorem reroutes_succ {first second : Nat → Run α}
    (shift : ∀ calls, first (calls + 1) = second calls) :
    Reroutes site tables packet first ↔ Reroutes site tables packet second := by
  constructor
  · rintro ⟨hop, dst, search, enough, delivers⟩
    refine ⟨hop, dst, search, enough, fun calls later => ?_⟩
    rw [← shift]
    exact delivers (calls + 1) (Nat.le_succ_of_le later)
  · rintro ⟨hop, dst, search, enough, delivers⟩
    refine ⟨hop, dst, search, enough + 1, fun calls later => ?_⟩
    obtain ⟨more, rfl⟩ := Nat.exists_eq_add_of_le' later
    rw [← Nat.add_assoc, shift]
    exact delivers (more + enough) (Nat.le_add_left enough more)

theorem reroutes_processPacket_iff :
    Reroutes site tables packet (fun calls => Run.processPacket site calls tables packet) ↔
      Reroutes site tables packet fun calls => Run.routepacket site calls tables packet := by
  by_cases here : getDest packet site.L = site.myvid
  · exact (reroutes_succ fun calls => Run.routepacket_eq_processPacket here calls tables).symm
  · exact reroutes_succ fun calls => Run.processPacket_eq_routepacket here calls tables

/-- A publication or a query is re-routed exactly when it needs no other destination. -/
theorem reroutes_iff (neighbors : NexthopsAreNeighbors site tables)
    (control : packet.oper = RDV_PUBLISH ∨ packet.oper = RDV_QUERY)
    (dest : (getDest packet site.L).length = site.L) :
    (Reroutes site tables packet (fun calls => Run.routepacket site calls tables packet) ↔
        Routable site tables packet) ∧
      (Reroutes site tables packet (fun calls => Run.processPacket site calls tables packet) ↔
        Routable site tables packet) := by
  rw [reroutes_processPacket_iff, and_self]
  refine ⟨?_, fun routable => ?_⟩
  · intro reroutes
    by_contra unroutable
    exact not_reroutes control dest unroutable reroutes
  · obtain ⟨hop, search, delivers⟩ := Run.routepacket_of_routable neighbors control dest routable
    refine ⟨hop, _, search, 4, fun calls enough => ?_⟩
    obtain ⟨more, rfl⟩ := Nat.exists_eq_add_of_le' enough
    exact delivers more

end Rerouting

/-- The switch `01` with the neighbor `11`, after the first round. -/
def lonelySite : Site Nat :=
  ⟨[false, true], (∅ : HashTable (List Bool) Nat).insert [true, true] 1,
    (∅ : HashTable Nat (List Bool)).insert 1 [true, true]⟩

def lonelyTables : Tables :=
  ⟨(∅ : HashTable Nat (List Bucket)).insert 2 [⟨3, 1, [some true, none]⟩], ∅⟩

example : firstTables lonelySite [[true, true]] = some lonelyTables := rfl

theorem lonelyTables_neighbors : NexthopsAreNeighbors lonelySite lonelyTables := by
  intro dist member
  rcases (AList.mem_insert _).mp member with rfl | nothing
  · exact ⟨1, rfl⟩
  · exact (AList.notMem_empty dist nothing).elim

theorem reroutes_iff_neighbor :
    Reroutes lonelySite lonelyTables ⟨RDV_PUBLISH, 1, 3, 3, none⟩
      fun calls => Run.routepacket lonelySite calls lonelyTables ⟨RDV_PUBLISH, 1, 3, 3, none⟩ :=
  (reroutes_iff lonelyTables_neighbors (Or.inl rfl) (by decide)).1.mpr (by decide)

/-- The rendezvous VID `00` of the second round belongs to no switch. -/
theorem not_always_reroutes : ¬∀ (site : Site Nat) (tables : Tables) (packet : Packet),
    NexthopsAreNeighbors site tables → packet.oper = RDV_PUBLISH ∨ packet.oper = RDV_QUERY →
      (getDest packet site.L).length = site.L →
      Reroutes site tables packet fun calls => Run.routepacket site calls tables packet := by
  intro always
  have unroutable : ¬Routable lonelySite lonelyTables ⟨RDV_PUBLISH, 1, 0, 3, none⟩ := by decide
  exact not_reroutes (Or.inl rfl) (by decide) unroutable
    (always lonelySite lonelyTables _ lonelyTables_neighbors (Or.inl rfl) (by decide))

end SimPy

end Veil
