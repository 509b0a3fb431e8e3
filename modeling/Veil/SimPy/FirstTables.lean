import Veil.SimPy.LevelInvariant

/-! The tables with which the switches start: every neighbour has its entry. -/

namespace Veil

namespace SimPy

open HashTable

section Start

variable {α : Type} [DecidableEq α] {deployment : Deployment α} {L : Nat}
  (sound : deployment.Sound L)
include sound

open Deployment

theorem Deployment.Sound.addNeighbor_eq {x y : α} (adjacent : deployment.Adjacent x y)
    (routingTable : HashTable Nat (List Bucket)) :
    ∃ bucket : Bucket, bucket.nexthop = BitString.value (deployment.vid y) ∧
      bucket.gateway = BitString.value (deployment.vid x) ∧
      addNeighbor (deployment.site x) routingTable (deployment.vid y) =
        some (routingTable.addNew (deployment.distance x y) bucket) := by
  have away : delta (deployment.vid y) (deployment.site x).myvid = deployment.distance x y :=
    sound.tree.comm y x
  obtain ⟨range, prefixed⟩ : ∃ range,
    getPrefix (deployment.site x).myvid (deployment.distance x y) =
      some range :=
    getPrefix_eq (sound.positive adjacent) (delta_le_length _ _)
  refine ⟨⟨BitString.value (deployment.vid y), BitString.value (deployment.vid x),
    range⟩, rfl, rfl, ?_⟩
  rw [addNeighbor, away, prefixed]
  rfl

structure Deployment.Walked (deployment : Deployment α) (x : α) (walked : List α)
    (routingTable : HashTable Nat (List Bucket)) : Prop where
  nonempty : ∀ k, routingTable.lookup k ≠ some []
  bucket : ∀ k, ∀ bucket ∈ (routingTable.lookup k).getD [], ∃ y, deployment.Adjacent x y ∧
    deployment.distance x y = k ∧ bucket.nexthop = BitString.value (deployment.vid y)
  direct : ∀ y ∈ walked, ∃ bucket ∈ (routingTable.lookup (deployment.distance x y)).getD [],
    bucket.gateway = BitString.value (deployment.vid x)

theorem Deployment.Walked.loop {x : α} {walked rest : List α}
    {routingTable : HashTable Nat (List Bucket)} (before : deployment.Walked x walked routingTable)
    (neighbors : ∀ y ∈ rest, deployment.Adjacent x y) :
    ∃ after, (rest.map deployment.vid).foldlM (addNeighbor (deployment.site x))
        routingTable = some after ∧
      deployment.Walked x (rest.reverse ++ walked) after := by
  induction rest generalizing walked routingTable with
  | nil => exact ⟨routingTable, rfl, before⟩
  | cons y rest ih =>
      have adjacent := neighbors y List.mem_cons_self
      obtain ⟨bucket, nexthop, gateway, added⟩ := sound.addNeighbor_eq adjacent routingTable
      have step : deployment.Walked x (y :: walked)
          (routingTable.addNew (deployment.distance x y) bucket) := by
        refine ⟨fun k => addNew_ne_nil _ _ _ _ (before.nonempty k), fun k other member => ?_,
          fun z walked => ?_⟩
        · rcases (mem_addNew _ _ _ _ _).mp member with ⟨rfl, rfl⟩ | old
          · exact ⟨y, adjacent, rfl, nexthop⟩
          · exact before.bucket k other old
        · rcases List.mem_cons.mp walked with rfl | earlier
          · exact ⟨bucket, (mem_addNew _ _ _ _ _).mpr (Or.inl ⟨rfl, rfl⟩), gateway⟩
          · obtain ⟨other, member, own⟩ := before.direct z earlier
            exact ⟨other, (mem_addNew _ _ _ _ _).mpr (Or.inr member), own⟩
      obtain ⟨after, result, done⟩ :=
        ih step fun z member => neighbors z (List.mem_cons_of_mem y member)
      refine ⟨after, ?_, ?_⟩
      · rw [List.map_cons, List.foldlM_cons, added]
        exact result
      · rw [List.reverse_cons, List.append_assoc]
        exact done

theorem Deployment.Sound.mem_vids (x : α) (vid : List Bool) :
    vid ∈ (deployment.site x).vid2pid.keys ↔
      ∃ y, deployment.Adjacent x y ∧ deployment.vid y = vid := by
  rw [← AList.mem_keys, mem_iff_lookup]
  exact exists_congr fun y => sound.lookup_vid2pid x vid y

/-- However the neighbours are walked, the tables at the start are right. -/
theorem Deployment.Sound.firstTables_eq (x : α) {walk : List (List Bool)}
    (perm : walk.Perm (deployment.site x).vid2pid.keys) :
    ∃ tables, firstTables (deployment.site x) walk = some tables ∧ deployment.Right x tables := by
  have named (vid : List Bool) (member : vid ∈ walk) :=
    (sound.mem_vids x vid).mp (perm.mem_iff.mp member)
  have inhabited : Nonempty α := ⟨x⟩
  choose! neighbor adjacent same using named
  have names : (walk.map neighbor).map deployment.vid = walk := by
    rw [List.map_map]
    exact (List.map_congr_left (f := deployment.vid ∘ neighbor) (g := id) same).trans
      (List.map_id walk)
  have start : deployment.Walked x [] ∅ := by
    refine ⟨fun k => ?_, fun k bucket member => ?_, nofun⟩
    · rw [AList.lookup_empty]
      nofun
    · rw [AList.lookup_empty] at member
      exact (List.not_mem_nil member).elim
  have edges : ∀ y ∈ walk.map neighbor, deployment.Adjacent x y := by
    intro y member
    obtain ⟨vid, inside, rfl⟩ := List.mem_map.mp member
    exact adjacent vid inside
  obtain ⟨routingTable, result, walked⟩ := start.loop sound edges
  rw [names] at result
  refine ⟨⟨routingTable, ∅⟩, by rw [firstTables, result]; rfl, fun k buckets found => ?_,
    fun y edge => ?_,
    fun k entry member => ?_⟩
  · refine ⟨?_, fun bucket member => ?_⟩
    · rintro rfl
      exact walked.nonempty k found
    · obtain ⟨y, edge, away, nexthop⟩ := walked.bucket k bucket (by rwa [found])
      exact ⟨y, nexthop, edge, .direct trivial edge away, fun _ => away⟩
  · have visited : y ∈ (walk.map neighbor).reverse ++ [] := by
      obtain ⟨vid, member⟩ : ∃ vid, vid ∈ walk ∧ deployment.vid y = vid :=
        ⟨_, perm.mem_iff.mpr ((sound.mem_vids x _).mpr ⟨y, edge, rfl⟩), rfl⟩
      rw [List.append_nil, List.mem_reverse, List.mem_map]
      exact ⟨vid, member.1, sound.injective ((same vid member.1).trans member.2.symm)⟩
    obtain ⟨bucket, member, own⟩ := walked.direct y visited
    cases found : routingTable.lookup (deployment.distance x y) with
    | none =>
        rw [found] at member
        exact (List.not_mem_nil member).elim
    | some buckets =>
        rw [found] at member
        exact ⟨buckets, rfl, bucket, member, own⟩
  · rw [AList.lookup_empty] at member
    exact (List.not_mem_nil member).elim

theorem Deployment.Right.filled_two {x : α} {tables : Tables} (right : deployment.Right x tables) :
    deployment.Filled 2 x tables := by
  rintro k positive below ⟨y, away⟩
  obtain rfl : k = 1 := by omega
  have bound : 1 ≤ L := away ▸ sound.distance_le x y
  have connected := sound.addressing.connected x trivial 1 (Nat.le_refl 1) bound
  have self : deployment.distance x x = 0 := sound.tree.self x
  have other : y ≠ x := by
    rintro rfl
    rw [self] at away
    exact Nat.zero_ne_one away
  obtain ⟨v, z, edge, -, ⟨-, near⟩, same, different⟩ := connected.crossing (· = x)
    ⟨trivial, self.trans_le (Nat.zero_le 1)⟩ ⟨trivial, Nat.le_of_eq away⟩ rfl other
  subst v
  have close : deployment.distance x z = 1 :=
    Nat.le_antisymm near (sound.tree.pos_iff.mpr (Ne.symm different))
  exact close ▸ right.mem_of_adjacent edge

end Start

end SimPy

end Veil
