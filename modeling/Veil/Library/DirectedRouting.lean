import Veil.Library.GatewayRouting

/-! Routing with a directive. Below the level of its destination a packet carries the gateway that
it is on the way to, and the hops towards that gateway follow the rule of gateways for lower
levels. A packet without a gateway carries its destination. -/

namespace DirectedRouting

open GatewayRouting

variable {α : Type*} (distance : α → α → Nat) (member : α → Prop) (adjacent : α → α → Prop)
  (target : α)

inductive Hop : α → α → α → α → Prop
  | cross {source directive next} : distance next target < distance source target →
      Hop source directive next target
  | record {source gateway next} :
      Gateway distance member adjacent source (distance source target) gateway → source ≠ gateway →
      NextHop distance member adjacent source (distance source gateway) next →
      Hop source target next gateway
  | follow {source directive next} : directive ≠ target → source ≠ directive →
      NextHop distance member adjacent source (distance source directive) next →
      Hop source directive next directive

/-- The member comes before another one on every way to the target under the directive. -/
def Before (directive source earlier : α) : Prop :=
  distance source target < distance earlier target ∨
    directive ≠ target ∧ distance source target = distance earlier target ∧
      rank distance member adjacent source (distance source directive) <
        rank distance member adjacent earlier (distance earlier directive)

structure Ahead (source directive : α) (visited : List α) : Prop where
  leads : directive ≠ target → Gateway distance member adjacent source
    (distance source target) directive
  before : ∀ earlier ∈ visited, Before distance member adjacent target directive source earlier

variable {distance member adjacent target}

theorem Ahead.start (source : α) : Ahead distance member adjacent target source target [] where
  leads := fun differ => absurd rfl differ
  before := fun _ none => absurd none List.not_mem_nil

theorem Ahead.not_mem {source directive : α} {visited : List α}
    (ahead : Ahead distance member adjacent target source directive visited) :
    source ∉ visited := by
  intro again
  rcases ahead.before source again with closer | ⟨_, _, lower⟩
  · exact Nat.lt_irrefl _ closer
  · exact Nat.lt_irrefl _ lower

theorem Before.distance_le {directive source earlier : α}
    (before : Before distance member adjacent target directive source earlier) :
    distance source target ≤ distance earlier target := by
  rcases before with closer | ⟨_, same, _⟩
  · exact Nat.le_of_lt closer
  · exact Nat.le_of_eq same

variable (tree : IsTreeDistance distance)
include tree

theorem NextHop.distance_le {source next : α} {level : Nat}
    (hop : NextHop distance member adjacent source level next) : distance source next ≤ level := by
  rcases hop.progress tree with crossed | ⟨stayed, _⟩
  · exact Nat.le_of_eq crossed
  · exact Nat.le_of_lt stayed

theorem towards_gateway {source gateway next : α}
    (leads : Gateway distance member adjacent source (distance source target) gateway)
    (hop : NextHop distance member adjacent source (distance source gateway) next) :
    distance next target = distance source target ∧
      Gateway distance member adjacent next (distance next target) gateway := by
  have near : distance source next < distance source target :=
    Nat.lt_of_le_of_lt (NextHop.distance_le tree hop) leads.near
  have same : distance next target = distance source target := tree.eq_of_lt (by rwa [tree.comm])
  refine ⟨same, ?_⟩
  rw [same]
  exact leads.move tree near

theorem Ahead.hop {source directive next after : α} {visited : List α}
    (ahead : Ahead distance member adjacent target source directive visited)
    (hop : Hop distance member adjacent target source directive next after) :
    Ahead distance member adjacent target next after (source :: visited) := by
  cases hop with
  | cross closer =>
      refine ⟨fun differ => absurd rfl differ, fun earlier member => Or.inl ?_⟩
      rcases List.mem_cons.mp member with rfl | before
      · exact closer
      · exact Nat.lt_of_lt_of_le closer (ahead.before earlier before).distance_le
  | record leads apart lower =>
      obtain ⟨same, still⟩ := towards_gateway tree leads lower
      have other : after ≠ target := by
        rintro rfl
        exact Nat.lt_irrefl _ leads.near
      refine ⟨fun _ => still, fun earlier member => ?_⟩
      rcases List.mem_cons.mp member with rfl | before
      · exact Or.inr ⟨other, same, lower.rank_lt tree apart⟩
      · rcases ahead.before earlier before with closer | ⟨differ, _⟩
        · exact Or.inl (same ▸ closer)
        · exact absurd rfl differ
  | follow differ apart lower =>
      obtain ⟨same, still⟩ := towards_gateway tree (ahead.leads differ) lower
      refine ⟨fun _ => still, fun earlier member => ?_⟩
      rcases List.mem_cons.mp member with rfl | before
      · exact Or.inr ⟨differ, same, lower.rank_lt tree apart⟩
      · rcases ahead.before earlier before with closer | ⟨_, equal, falls⟩
        · exact Or.inl (same ▸ closer)
        · exact Or.inr ⟨differ, same.trans equal, Nat.lt_trans (lower.rank_lt tree apart) falls⟩

omit tree in
theorem Gateway.direct {gateway next : α} {level : Nat}
    (leads : Gateway distance member adjacent gateway level gateway)
    (hop : NextHop distance member adjacent gateway level next) :
    member next ∧ adjacent gateway next ∧ distance gateway next = level := by
  cases hop with
  | direct inside edge away => exact ⟨inside, edge, away⟩
  | gateway none _ _ _ =>
      obtain ⟨neighbor, inside, edge, away⟩ := leads.leads
      exact absurd away (none neighbor inside edge)

end DirectedRouting
