import Mathlib.Order.Lattice.Nat
import Veil.Library.Connectivity
import Veil.Library.TreeDistance

/-! Routing through gateways. The members of a network are leaves of a binary tree. To reach a
member whose distance is `level`, a source hands the packet to a neighbour at that distance;
without one it turns to the closest member that has such a neighbour, by the same rule at a lower
level. Every hop makes its own choice, and yet a rank falls from hop to hop. -/

namespace GatewayRouting

variable {α : Type*} (distance : α → α → Nat) (member : α → Prop) (adjacent : α → α → Prop)

/-- A member below `level` of `source` with a neighbour at that level. -/
structure Gateway (source : α) (level : Nat) (gateway : α) : Prop where
  inside : member gateway
  near : distance source gateway < level
  leads : ∃ neighbor, member neighbor ∧ adjacent gateway neighbor ∧ distance source neighbor = level

/-- The hops that the rule allows from `source` towards members at distance `level`. -/
inductive NextHop (source : α) : Nat → α → Prop
  | direct {level next} : member next → adjacent source next → distance source next = level →
      NextHop source level next
  | gateway {level gateway next} :
      (∀ neighbor, member neighbor → adjacent source neighbor → distance source neighbor ≠ level) →
      Gateway distance member adjacent source level gateway →
      (∀ other, Gateway distance member adjacent source level other →
        distance source gateway ≤ distance source other) →
      NextHop source (distance source gateway) next → NextHop source level next

noncomputable def gap (source : α) (level : Nat) : Nat :=
  sInf {near | ∃ gateway, Gateway distance member adjacent source level gateway ∧
    distance source gateway = near}

theorem gap_lt (source : α) {level : Nat} (positive : 0 < level) :
    gap distance member adjacent source level < level := by
  by_cases some : {near | ∃ gateway, Gateway distance member adjacent source level gateway ∧
      distance source gateway = near}.Nonempty
  · obtain ⟨gateway, found, near⟩ := Nat.sInf_mem some
    have below := found.near
    rw [near] at below
    exact below
  · rw [Set.not_nonempty_iff_eq_empty] at some
    rw [gap, some, Nat.sInf_empty]
    exact positive

/-- One binary digit for every level of the chain of gateways. -/
noncomputable def rank (source : α) (level : Nat) : Nat :=
  if gap distance member adjacent source level < level then
    2 ^ level + rank source (gap distance member adjacent source level)
  else 0
termination_by level

theorem rank_zero (source : α) : rank distance member adjacent source 0 = 0 := by
  rw [rank, if_neg (Nat.not_lt_zero _)]

theorem rank_pos (source : α) {level : Nat} (positive : 0 < level) :
    rank distance member adjacent source level =
      2 ^ level + rank distance member adjacent source
        (gap distance member adjacent source level) := by
  rw [rank, if_pos (gap_lt distance member adjacent source positive)]

theorem two_pow_le_rank (source : α) {level : Nat} (positive : 0 < level) :
    2 ^ level ≤ rank distance member adjacent source level := by
  rw [rank_pos distance member adjacent source positive]
  exact Nat.le_add_right _ _

theorem rank_lt_two_pow (source : α) (level : Nat) :
    rank distance member adjacent source level < 2 ^ (level + 1) := by
  induction level using Nat.strongRecOn with
  | ind level ih =>
      by_cases positive : 0 < level
      · have below := gap_lt distance member adjacent source positive
        have tail := ih _ below
        have power : 2 ^ (gap distance member adjacent source level + 1) ≤ 2 ^ level :=
          Nat.pow_le_pow_right (by decide) below
        rw [rank_pos distance member adjacent source positive, Nat.pow_succ]
        omega
      · obtain rfl : level = 0 := by omega
        rw [rank_zero]
        decide

theorem rank_lt_of_lt (source other : α) {lower level : Nat} (below : lower < level) :
    rank distance member adjacent source lower < rank distance member adjacent other level := by
  have first := rank_lt_two_pow distance member adjacent source lower
  have power : 2 ^ (lower + 1) ≤ 2 ^ level := Nat.pow_le_pow_right (by decide) below
  have second := two_pow_le_rank distance member adjacent other (Nat.zero_lt_of_lt below)
  omega

variable {distance member adjacent}

section TreeDistance

variable (tree : IsTreeDistance distance)
include tree

/-- Where the members within `level` of a source are joined and one of them is that far away, a walk
to it leaves the lower levels through a gateway. -/
theorem exists_gateway_of_connected {source target : α} {level : Nat}
    (connected : ConnectedWithin adjacent fun vertex =>
      member vertex ∧ distance source vertex ≤ level)
    (inside : member source) (targetInside : member target)
    (away : distance source target = level) (positive : 0 < level) :
    ∃ gateway, Gateway distance member adjacent source level gateway := by
  have self : distance source source = 0 := tree.self source
  obtain ⟨gateway, neighbor, edge, gatewayInside, neighborInside, near, far⟩ :=
    connected.crossing (fun vertex => distance source vertex < level)
      ⟨inside, self.trans_le (Nat.zero_le level)⟩ ⟨targetInside, Nat.le_of_eq away⟩
      (self.trans_lt positive) (Nat.not_lt.mpr (Nat.le_of_eq away.symm))
  exact ⟨gateway, gatewayInside.1, near, neighbor, neighborInside.1, edge,
    Nat.le_antisymm neighborInside.2 (Nat.not_lt.mp far)⟩

theorem Gateway.move {source other gateway : α} {level : Nat} (near : distance source other < level)
    (found : Gateway distance member adjacent source level gateway) :
    Gateway distance member adjacent other level gateway := by
  obtain ⟨neighbor, neighborInside, edge, away⟩ := found.leads
  have back : distance other source < level := by rwa [tree.comm]
  refine ⟨found.inside, tree.lt_trans back found.near, neighbor, neighborInside, edge, ?_⟩
  rw [tree.eq_of_lt (by rwa [away]), away]

theorem Gateway.move_iff {source other gateway : α} {level : Nat}
    (near : distance source other < level) :
    Gateway distance member adjacent other level gateway ↔
      Gateway distance member adjacent source level gateway :=
  ⟨fun found => found.move tree (by rwa [tree.comm]), fun found => found.move tree near⟩

theorem gap_move {source other : α} {level : Nat}
    (near : distance source other < gap distance member adjacent source level)
    (below : distance source other < level) :
    gap distance member adjacent other level = gap distance member adjacent source level := by
  have same : ∀ gateway, Gateway distance member adjacent source level gateway →
    distance other gateway = distance source gateway := by
    intro gateway found
    have least : gap distance member adjacent source level ≤ distance source gateway :=
      Nat.sInf_le ⟨gateway, found, rfl⟩
    apply tree.eq_of_lt
    rw [tree.comm]
    omega
  unfold gap
  congr 1
  ext near
  constructor
  · rintro ⟨gateway, found, rfl⟩
    have moved := (Gateway.move_iff tree below).mp found
    exact ⟨gateway, moved, (same gateway moved).symm⟩
  · rintro ⟨gateway, found, rfl⟩
    exact ⟨gateway, found.move tree below, same gateway found⟩

theorem NextHop.progress {source next : α} {level : Nat}
    (hop : NextHop distance member adjacent source level next) :
    distance source next = level ∨ distance source next < level ∧
      rank distance member adjacent next level < rank distance member adjacent source level := by
  induction hop with
  | direct _ _ away => exact Or.inl away
  | @gateway level gateway next none found closest _ ih =>
      have nearest : gap distance member adjacent source level = distance source gateway := by
        apply Nat.le_antisymm
        · exact Nat.sInf_le ⟨gateway, found, rfl⟩
        · have attained : (gap distance member adjacent source level) ∈
              {near | ∃ gateway, Gateway distance member adjacent source level gateway ∧
                distance source gateway = near} := Nat.sInf_mem ⟨_, gateway, found, rfl⟩
          obtain ⟨other, otherFound, near⟩ := attained
          rw [← near]
          exact closest other otherFound
      have positive : 0 < level := Nat.zero_lt_of_lt found.near
      have apart : 0 < distance source gateway := by
        rw [tree.pos_iff]
        rintro rfl
        obtain ⟨neighbor, neighborInside, edge, away⟩ := found.leads
        exact none neighbor neighborInside edge away
      have below := found.near
      refine Or.inr ?_
      rw [rank_pos _ _ _ source positive, rank_pos _ _ _ next positive, nearest]
      rcases ih with crossed | ⟨stayed, falls⟩
      · -- The hop enters the gateway's half, where the gateway is closer than it was.
        have inward : distance next gateway < distance source gateway :=
          tree.lt_of_eq (by rwa [tree.comm]) rfl apart
        have moved : Gateway distance member adjacent next level gateway :=
          found.move tree (by omega)
        have shrinks : gap distance member adjacent next level ≤ distance next gateway :=
          Nat.sInf_le ⟨gateway, moved, rfl⟩
        have falls := rank_lt_of_lt distance member adjacent next source
          (Nat.lt_of_le_of_lt shrinks inward)
        omega
      · have same : gap distance member adjacent next level =
            gap distance member adjacent source level := gap_move tree (by omega) (by omega)
        rw [same, nearest]
        omega

/-- Every hop towards a destination lowers the rank of the current member at its distance from
it. -/
theorem NextHop.rank_lt {source next target : α} (apart : source ≠ target)
    (hop : NextHop distance member adjacent source (distance source target) next) :
    rank distance member adjacent next (distance next target) <
      rank distance member adjacent source (distance source target) := by
  rcases hop.progress tree with crossed | ⟨stayed, falls⟩
  -- across the level the target is closer, so the rank is one of a lower level
  · have closer : distance next target < distance source target :=
      tree.lt_of_eq (by rwa [tree.comm]) rfl (tree.pos_iff.mpr apart)
    exact rank_lt_of_lt distance member adjacent next source closer
  · have same : distance next target = distance source target :=
      tree.eq_of_lt (by rwa [tree.comm])
    rw [same]
    exact falls

end TreeDistance

inductive Path (hop : α → α → Prop) (target : α) : α → List α → Prop
  | arrived : Path hop target target [target]
  | hop {source next path} : source ≠ target → hop source next → Path hop target next path →
      Path hop target source (source :: path)

theorem exists_path {hop : α → α → Prop} {target : α} (inside : α → Prop) (measure : α → Nat)
    (progress : ∀ source, inside source → source ≠ target →
      ∃ next, inside next ∧ hop source next ∧ measure next < measure source)
    (source : α) (sourceInside : inside source) :
    ∃ path, Path hop target source path ∧ path.Nodup := by
  have bounded : ∀ bound source, measure source < bound → inside source →
      ∃ path, Path hop target source path ∧ path.Nodup ∧
        ∀ vertex ∈ path, measure vertex ≤ measure source := by
    intro bound
    induction bound with
    | zero =>
        intro source below
        exact (Nat.not_lt_zero _ below).elim
    | succ bound ih =>
        intro source below sourceInside
        by_cases arrived : source = target
        · subst target
          exact ⟨[source], .arrived, List.nodup_singleton source, by simp⟩
        · obtain ⟨next, nextInside, edge, falls⟩ := progress source sourceInside arrived
          obtain ⟨path, walk, unique, lower⟩ := ih next (by omega) nextInside
          refine ⟨source :: path, .hop arrived edge walk, ?_, ?_⟩
          · refine List.nodup_cons.mpr ⟨fun again => ?_, unique⟩
            have back := lower source again
            omega
          · intro vertex visited
            rcases List.mem_cons.mp visited with rfl | later
            · exact Nat.le_refl _
            · have under := lower vertex later
              omega
  obtain ⟨path, walk, unique, -⟩ := bounded (measure source + 1) source
    (Nat.lt_succ_self _) sourceInside
  exact ⟨path, walk, unique⟩

end GatewayRouting
