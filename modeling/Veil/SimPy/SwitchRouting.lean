import Veil.Library.GatewayRouting
import Veil.SimPy.Rounds

/-! What one switch does with its tables: the hops are those of the rule of gateways, and what is
stored and learned keeps the tables right. -/

namespace Veil

namespace SimPy

open HashTable

section FindAGW

variable {svid : List Bool}

theorem mem_gateways (entries : List (List Bool × List Bool)) (table : HashTable Nat (List Bool))
    (r : Nat) :
    r ∈ entries.foldl (fun gw t => gw.insert (delta t.1 svid) t.1) table ↔
      (∃ t ∈ entries, r = delta t.1 svid) ∨ r ∈ table := by
  induction entries generalizing table with
  | nil => simp
  | cons first rest ih =>
      rw [List.foldl_cons, ih, AList.mem_insert]
      simp only [List.mem_cons, exists_eq_or_imp]
      rw [← or_assoc, or_comm (b := r = delta first.1 svid)]

theorem lookup_gateways (entries : List (List Bool × List Bool))
    (table : HashTable Nat (List Bool)) {r : Nat} {vid : List Bool}
    (found : (entries.foldl (fun gw t => gw.insert (delta t.1 svid) t.1) table).lookup r =
      some vid) :
    (∃ t ∈ entries, t.1 = vid ∧ delta vid svid = r) ∨ table.lookup r = some vid := by
  induction entries generalizing table with
  | nil => exact Or.inr found
  | cons first rest ih =>
      rcases ih _ found with ⟨t, member, same⟩ | before
      · exact Or.inl ⟨t, List.mem_cons_of_mem first member, same⟩
      · rw [lookup_insert_ite] at before
        split at before
        · rename_i same
          rw [Option.some.injEq] at before
          exact Or.inl ⟨first, List.mem_cons_self, before, by rw [same, before]⟩
        · exact Or.inr before

theorem findAGW_eq_none {rdvStore : HashTable Nat (List (List Bool × List Bool))} {k : Nat}
    (absent : findAGW rdvStore k svid = none) : (rdvStore.lookup k).getD [] = [] := by
  by_contra some
  obtain ⟨t, member⟩ := List.exists_mem_of_ne_nil _ some
  have key := (mem_gateways ((rdvStore.lookup k).getD []) ∅ (delta t.1 svid)).mpr
    (Or.inl ⟨t, member, rfl⟩)
  unfold findAGW at absent
  rcases Option.bind_eq_none_iff.mp absent with none
  cases least : (((rdvStore.lookup k).getD []).foldl (fun gw t => gw.insert (delta t.1 svid) t.1)
      (∅ : HashTable Nat (List Bool))).keys.min? with
  | none =>
      rw [List.min?_eq_none_iff] at least
      rw [AList.mem_keys, least] at key
      exact List.not_mem_nil key
  | some r =>
      have inside := AList.mem_keys.mpr (List.min?_eq_some_iff.mp least).1
      exact (AList.lookup_eq_none.mp (none r least)) inside

theorem findAGW_eq_some {rdvStore : HashTable Nat (List (List Bool × List Bool))} {k : Nat}
    {vid : List Bool} (found : findAGW rdvStore k svid = some vid) :
    (∃ t ∈ (rdvStore.lookup k).getD [], t.1 = vid) ∧
      ∀ t ∈ (rdvStore.lookup k).getD [], delta vid svid ≤ delta t.1 svid := by
  obtain ⟨r, least, lookup⟩ := Option.bind_eq_some_iff.mp found
  rcases lookup_gateways _ _ lookup with ⟨t, member, same, rfl⟩ | nothing
  · refine ⟨⟨t, member, same⟩, fun other inside => ?_⟩
    exact (List.min?_eq_some_iff.mp least).2 _
      (AList.mem_keys.mp ((mem_gateways _ _ _).mpr (Or.inl ⟨other, inside, rfl⟩)))
  · cases nothing

end FindAGW

structure Deployment.Sound {α : Type} [DecidableEq α] (deployment : Deployment α) (L : Nat) :
    Prop where
  symm : ∀ x y, deployment.Adjacent x y → deployment.Adjacent y x
  irrefl : ∀ x, ¬deployment.Adjacent x x
  addressing : Addressing deployment.Adjacent (fun _ => True) deployment.vid L

namespace Deployment

variable {α : Type} [DecidableEq α] (deployment : Deployment α)

def distance (x y : α) : Nat := delta (deployment.vid x) (deployment.vid y)

def Hop (x : α) (level : Nat) (y : α) : Prop :=
  GatewayRouting.NextHop deployment.distance (fun _ => True) deployment.Adjacent x level y

def IsGateway (x : α) (level : Nat) (gateway : α) : Prop :=
  GatewayRouting.Gateway deployment.distance (fun _ => True) deployment.Adjacent x level gateway

def word (x : α) : BitVec 32 := BitVec.ofNat 32 (BitString.value (deployment.vid x))

end Deployment

structure Deployment.Fits {α : Type} (deployment : Deployment α) (L : Nat) : Prop where
  vid : ∀ x, BitString.value (deployment.vid x) < 2 ^ 32
  level : L < 2 ^ 32

theorem Deployment.Fits.pack_vid {α : Type} {deployment : Deployment α} {L : Nat}
    (fits : deployment.Fits L) (x : α) :
    pack (BitString.value (deployment.vid x)) = some (deployment.word x) :=
  if_pos (fits.vid x)

theorem Deployment.Fits.toNat_word {α : Type} {deployment : Deployment α} {L : Nat}
    (fits : deployment.Fits L) (x : α) :
    (deployment.word x).toNat = BitString.value (deployment.vid x) := by
  rw [word, BitVec.toNat_ofNat, Nat.mod_eq_of_lt (fits.vid x)]

section Deployment

variable {α : Type} [DecidableEq α] {deployment : Deployment α} {L : Nat}
  (sound : deployment.Sound L)
include sound

theorem Deployment.Sound.length (x : α) : (deployment.vid x).length = L :=
  sound.addressing.length x trivial

theorem Deployment.Sound.injective : Function.Injective deployment.vid :=
  fun x y same => sound.addressing.distinct x y trivial trivial same

theorem Deployment.Sound.tree : IsTreeDistance deployment.distance :=
  isTreeDistance_delta sound.length sound.injective

theorem Deployment.Sound.positive {x y : α} (adjacent : deployment.Adjacent x y) :
    0 < deployment.distance x y := by
  refine sound.tree.pos_iff.mpr ?_
  rintro rfl
  exact sound.irrefl x adjacent

theorem Deployment.Sound.distance_le (x y : α) : deployment.distance x y ≤ L :=
  sound.length x ▸ delta_le_length _ _

theorem Deployment.Sound.some_vid (x : α) (positive : 0 < L) : deployment.vid x ≠ [] := by
  intro none
  have length := sound.length x
  rw [none] at length
  exact positive.ne length

theorem Deployment.Sound.bin2str_word (fits : deployment.Fits L) (positive : 0 < L) (x : α) :
    bin2str (deployment.word x).toNat L = deployment.vid x := by
  rw [fits.toNat_word, ← sound.length x, bin2str_value (sound.some_vid x positive)]

theorem Deployment.Sound.L_site (x : α) : (deployment.site x).L = L := sound.length x

theorem Deployment.Sound.lookup_vid2pid (x : α) (vid : List Bool) (y : α) :
    (deployment.site x).vid2pid.lookup vid = some y ↔
      deployment.Adjacent x y ∧ deployment.vid y = vid := by
  have loop (neighbors : List α) (table : HashTable (List Bool) α) :
      (neighbors.foldl (fun vid2pid y => vid2pid.insert (deployment.vid y) y) table).lookup
          vid = some y ↔
        (y ∈ neighbors ∧ deployment.vid y = vid) ∨
          ((∀ z ∈ neighbors, deployment.vid z ≠ vid) ∧ table.lookup vid = some y) := by
    induction neighbors generalizing table with
    | nil => simp
    | cons first rest ih =>
        rw [List.foldl_cons, ih, lookup_insert_ite]
        by_cases same : vid = deployment.vid first
        · subst vid
          rw [if_pos rfl, Option.some.injEq]
          constructor
          · rintro (⟨member, vid⟩ | ⟨-, rfl⟩)
            · exact Or.inl ⟨List.mem_cons_of_mem first member, vid⟩
            · exact Or.inl ⟨List.mem_cons_self, rfl⟩
          · rintro (⟨-, vid⟩ | ⟨none, -⟩)
            · obtain rfl := sound.injective vid
              by_cases later : y ∈ rest
              · exact Or.inl ⟨later, rfl⟩
              · refine Or.inr ⟨fun z member again => later ?_, rfl⟩
                exact sound.injective again ▸ member
            · exact (none first List.mem_cons_self rfl).elim
        · rw [if_neg same]
          simp only [List.mem_cons, forall_eq_or_imp]
          constructor
          · rintro (⟨member, vid⟩ | ⟨none, found⟩)
            · exact Or.inl ⟨Or.inr member, vid⟩
            · exact Or.inr ⟨⟨Ne.symm same, none⟩, found⟩
          · rintro (⟨rfl | member, vid⟩ | ⟨⟨-, none⟩, found⟩)
            · exact (same vid.symm).elim
            · exact Or.inl ⟨member, vid⟩
            · exact Or.inr ⟨none, found⟩
  refine (loop (deployment.neighbors x) ∅).trans (or_iff_left ?_)
  rintro ⟨-, nothing⟩
  cases nothing

omit sound in
theorem Deployment.lookup_pid2vid {x y : α} (adjacent : deployment.Adjacent x y) :
    (deployment.site x).pid2vid.lookup y = some (deployment.vid y) := by
  have member : y ∈ deployment.neighbors x := adjacent
  rw [site, lookup_insertAll, if_pos member]

theorem Deployment.Sound.getDest_word (fits : deployment.Fits L) (positive : 0 < L) (x : α) {y : α}
    {packet : Packet} (dvid : packet.dvid = deployment.word y) :
    getDest packet (deployment.site x).L = deployment.vid y := by
  rw [getDest, dvid, sound.L_site, sound.bin2str_word fits positive]

theorem Deployment.Sound.processPacket_elsewhere {x y : α} (apart : x ≠ y) {packet : Packet}
    (dest : getDest packet (deployment.site x).L = deployment.vid y) (tables : Tables)
    (calls : Nat) :
    processPacket (deployment.site x) (calls + 1) tables packet =
      routepacket (deployment.site x) calls tables packet := by
  have other : getDest packet (deployment.site x).L ≠ (deployment.site x).myvid := fun here =>
    apart (sound.injective (dest.symm.trans here)).symm
  exact processPacket_away other

def Deployment.RightBucket (deployment : Deployment α) (x : α) (k : Nat) (bucket : Bucket) : Prop :=
  ∃ y, bucket.nexthop = BitString.value (deployment.vid y) ∧ deployment.Adjacent x y ∧
    deployment.Hop x k y ∧
    (bucket.gateway = BitString.value (deployment.vid x) → deployment.distance x y = k)

structure Deployment.Right (deployment : Deployment α) (x : α) (tables : Tables) : Prop where
  bucket : ∀ k buckets, tables.routingTable.lookup k = some buckets →
    buckets ≠ [] ∧ ∀ bucket ∈ buckets, deployment.RightBucket x k bucket
  direct : ∀ y, deployment.Adjacent x y → ∃ buckets,
    tables.routingTable.lookup (deployment.distance x y) = some buckets ∧
      ∃ bucket ∈ buckets, bucket.gateway = BitString.value (deployment.vid x)
  stored : ∀ k, ∀ entry ∈ (tables.rdvStore.lookup k).getD [], ∃ gateway,
    entry.1 = deployment.vid gateway ∧ deployment.IsGateway x k gateway

section Right

variable {x y : α} {tables : Tables} (right : deployment.Right x tables)
include right

theorem Deployment.Right.exists_switch {k : Nat} (present : k ∈ tables.routingTable) :
    ∃ z, z ≠ x ∧ deployment.distance x z = k := by
  obtain ⟨buckets, found⟩ := (mem_iff_lookup _ _).mp present
  obtain ⟨some, all⟩ := right.bucket k buckets found
  obtain ⟨bucket, member⟩ := List.exists_mem_of_ne_nil buckets some
  obtain ⟨z, -, -, hop, -⟩ := all bucket member
  cases hop with
  | direct _ adjacent away =>
      exact ⟨z, (sound.tree.pos_iff.mp (sound.positive adjacent)).symm, away⟩
  | gateway _ gateway _ _ =>
      obtain ⟨neighbor, -, -, away⟩ := gateway.leads
      have positive : 0 < deployment.distance x neighbor := away ▸ Nat.zero_lt_of_lt gateway.near
      exact ⟨neighbor, (sound.tree.pos_iff.mp positive).symm, away⟩

omit [DecidableEq α] sound in
theorem Deployment.Right.mem_of_adjacent (adjacent : deployment.Adjacent x y) :
    deployment.distance x y ∈ tables.routingTable := by
  obtain ⟨buckets, found, -⟩ := right.direct y adjacent
  exact mem_of_lookup found

theorem Deployment.Right.bucketHop_eq {k : Nat} (present : k ∈ tables.routingTable) :
    ∃ z, bucketHop (deployment.site x) tables k = some (some z) ∧ deployment.Adjacent x z ∧
      deployment.Hop x k z := by
  obtain ⟨buckets, found⟩ := (mem_iff_lookup _ _).mp present
  obtain ⟨some, all⟩ := right.bucket k buckets found
  obtain ⟨bucket, rest, rfl⟩ := List.exists_cons_of_ne_nil some
  obtain ⟨z, nexthop, adjacent, hop, -⟩ := all bucket List.mem_cons_self
  have positive : 0 < L := Nat.lt_of_lt_of_le (sound.positive adjacent) (sound.distance_le x z)
  have vid : bin2str bucket.nexthop (deployment.site x).L = deployment.vid z := by
    rw [nexthop, sound.L_site, ← sound.length z, bin2str_value (sound.some_vid z positive)]
  have pid := (sound.lookup_vid2pid x _ z).mpr ⟨adjacent, vid.symm⟩
  refine ⟨z, ?_, adjacent, hop⟩
  simp only [bucketHop, found, List.head?_cons, pid, Option.bind_eq_bind, Option.bind_some,
    Option.pure_def]

theorem Deployment.Right.getNextHop_eq
    (known : deployment.Adjacent x y ∨ deployment.distance x y ∈ tables.routingTable) :
    ∃ z, getNextHop (deployment.site x) tables (deployment.vid y) = some (some z) ∧
      deployment.Adjacent x z ∧ deployment.Hop x (deployment.distance x y) z := by
  rw [getNextHop]
  cases found : (deployment.site x).vid2pid.lookup (deployment.vid y) with
  | some z =>
      obtain ⟨adjacent, same⟩ := (sound.lookup_vid2pid x _ z).mp found
      obtain rfl := sound.injective same
      exact ⟨z, rfl, adjacent, .direct trivial adjacent rfl⟩
  | none =>
      refine right.bucketHop_eq sound (known.resolve_left fun adjacent => ?_)
      rw [(sound.lookup_vid2pid x _ y).mpr ⟨adjacent, rfl⟩] at found
      cases found

theorem Deployment.Right.routepacket_eq (apart : x ≠ y)
    (known : deployment.Adjacent x y ∨ deployment.distance x y ∈ tables.routingTable)
    {packet : Packet} (dest : getDest packet (deployment.site x).L = deployment.vid y) :
    ∃ z, getNextHop (deployment.site x) tables (deployment.vid y) = some (some z) ∧
      (∀ calls, routepacket (deployment.site x) (calls + 1) tables packet =
        some (tables, [(z, packet)])) ∧
      deployment.Adjacent x z ∧ deployment.Hop x (deployment.distance x y) z := by
  obtain ⟨z, next, adjacent, hop⟩ := right.getNextHop_eq sound known
  have distance : 0 < deployment.distance x y := sound.tree.pos_iff.mpr apart
  have other : deployment.vid y ≠ (deployment.site x).myvid := fun same =>
    apart (sound.injective same).symm
  have away : delta (deployment.site x).myvid (deployment.vid y) ≠ 0 := distance.ne'
  rw [← dest] at other away
  exact ⟨z, next, fun calls => routepacket_hop other away (dest ▸ next), adjacent, hop⟩

end Right

end Deployment

end SimPy

end Veil
