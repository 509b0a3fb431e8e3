import Mathlib.Data.List.Nodup
import Mathlib.Logic.Relation

/-! Connectivity of the subgraph that a set of vertices induces. -/

def ConnectedWithin {α : Type*} (adjacent : α → α → Prop) (inside : α → Prop) : Prop :=
  ∀ source target, inside source → inside target →
    Relation.ReflTransGen (fun left right => adjacent left right ∧ inside left ∧ inside right)
      source target

namespace ConnectedWithin

variable {α : Type*} {adjacent : α → α → Prop} {inside other : α → Prop}

theorem congr (same : ∀ vertex, inside vertex ↔ other vertex)
    (connected : ConnectedWithin adjacent inside) : ConnectedWithin adjacent other := by
  have equal : inside = other := funext fun vertex => propext (same vertex)
  exact equal ▸ connected

theorem singleton (adjacent : α → α → Prop) (center : α) :
    ConnectedWithin adjacent fun vertex => vertex = center := by
  rintro source target rfl rfl
  exact .refl

theorem of_center {center : α} (centerInside : inside center)
    (spokes : ∀ vertex, inside vertex → vertex ≠ center →
      adjacent vertex center ∧ adjacent center vertex) :
    ConnectedWithin adjacent inside := by
  have inward (vertex : α) (vertexInside : inside vertex) : Relation.ReflTransGen
      (fun left right => adjacent left right ∧ inside left ∧ inside right) vertex center := by
    by_cases same : vertex = center
    · subst vertex
      exact .refl
    · exact .single ⟨(spokes vertex vertexInside same).1, vertexInside, centerInside⟩
  intro source target sourceInside targetInside
  by_cases same : target = center
  · subst target
    exact inward source sourceInside
  · exact (inward source sourceInside).tail
      ⟨(spokes target targetInside same).2, centerInside, targetInside⟩

theorem crossing (connected : ConnectedWithin adjacent inside) (part : α → Prop)
    {source target : α} (sourceInside : inside source) (targetInside : inside target)
    (sourcePart : part source) (targetOutside : ¬part target) :
    ∃ left right, adjacent left right ∧ inside left ∧ inside right ∧ part left ∧ ¬part right := by
  have walk := connected source target sourceInside targetInside
  induction walk using Relation.ReflTransGen.head_induction_on with
  | refl => exact (targetOutside sourcePart).elim
  | @head left middle edge _ ih =>
      by_cases middlePart : part middle
      · exact ih edge.2.2 middlePart
      · exact ⟨left, middle, edge.1, edge.2.1, edge.2.2, sourcePart, middlePart⟩

theorem walk_mono (other : α → Prop) (larger : ∀ vertex, inside vertex → other vertex)
    {source target : α}
    (walk : Relation.ReflTransGen (fun left right => adjacent left right ∧ inside left ∧
      inside right) source target) :
    Relation.ReflTransGen
      (fun left right => adjacent left right ∧ other left ∧ other right) source target := by
  refine Relation.ReflTransGen.mono ?_ source target walk
  intro left right edge
  exact ⟨edge.1, larger left edge.2.1, larger right edge.2.2⟩

theorem image {β : Type*} {linked : β → β → Prop} {reached : β → Prop} (name : α → β)
    (connected : ConnectedWithin adjacent inside)
    (edges : ∀ left right, inside left → inside right → adjacent left right →
      linked (name left) (name right))
    (reaches : ∀ vertex, reached vertex ↔ ∃ origin, inside origin ∧ name origin = vertex) :
    ConnectedWithin linked reached := by
  intro source target sourceReached targetReached
  obtain ⟨first, firstInside, rfl⟩ := (reaches source).mp sourceReached
  obtain ⟨last, lastInside, rfl⟩ := (reaches target).mp targetReached
  refine (connected first last firstInside lastInside).lift name ?_
  rintro left right ⟨edge, leftInside, rightInside⟩
  exact ⟨edges left right leftInside rightInside edge, (reaches _).mpr ⟨left, leftInside, rfl⟩,
    (reaches _).mpr ⟨right, rightInside, rfl⟩⟩

theorem union (symmetric : ∀ left right, adjacent left right → adjacent right left)
    (first : ConnectedWithin adjacent inside) (second : ConnectedWithin adjacent other)
    {left right : α} (leftInside : inside left) (rightInside : other right)
    (edge : adjacent left right) :
    ConnectedWithin adjacent fun vertex => inside vertex ∨ other vertex := by
  intro source target sourceInside targetInside
  have firstWalk (a b : α) (ha : inside a) (hb : inside b) :=
    walk_mono (fun vertex => inside vertex ∨ other vertex) (fun _ => Or.inl)
      (first a b ha hb)
  have secondWalk (a b : α) (ha : other a) (hb : other b) :=
    walk_mono (fun vertex => inside vertex ∨ other vertex) (fun _ => Or.inr)
      (second a b ha hb)
  rcases sourceInside with sourceFirst | sourceSecond <;>
    rcases targetInside with targetFirst | targetSecond
  · exact firstWalk source target sourceFirst targetFirst
  · exact ((firstWalk source left sourceFirst leftInside).tail
      ⟨edge, Or.inl leftInside, Or.inr rightInside⟩).trans
      (secondWalk right target rightInside targetSecond)
  · exact ((secondWalk source right sourceSecond rightInside).tail
      ⟨symmetric _ _ edge, Or.inr rightInside, Or.inl leftInside⟩).trans
      (firstWalk left target leftInside targetFirst)
  · exact secondWalk source target sourceSecond targetSecond

end ConnectedWithin

def ByIndex {α : Type*} (linked : α → α → Prop) (ids : List α) (i j : Nat) : Prop :=
  ∃ node other, ids[i]? = some node ∧ ids[j]? = some other ∧ linked node other

namespace ConnectedWithin

variable {α : Type*} {linked : α → α → Prop} {ids : List α}

theorem byIndex [DecidableEq α] (connected : ConnectedWithin linked fun node => node ∈ ids)
    (unique : ids.Nodup) : ConnectedWithin (ByIndex linked ids) fun i => i < ids.length := by
  have found (node : α) (member : node ∈ ids) : ids[ids.idxOf node]? = some node := by
    rw [List.getElem?_eq_getElem (List.idxOf_lt_length_of_mem member), List.getElem_idxOf]
  refine connected.image ids.idxOf ?_ fun i => ⟨fun bound => ?_, ?_⟩
  · intro node other member otherMember edge
    exact ⟨node, other, found node member, found other otherMember, edge⟩
  · exact ⟨ids[i], List.getElem_mem bound, unique.idxOf_getElem i bound⟩
  · rintro ⟨node, member, rfl⟩
    exact List.idxOf_lt_length_of_mem member

theorem of_byIndex {inside : Nat → Prop} (connected : ConnectedWithin (ByIndex linked ids) inside)
    (bounded : ∀ i, inside i → i < ids.length) :
    ConnectedWithin linked fun node => ∃ i, inside i ∧ ids[i]? = some node := by
  intro source
  have named : ConnectedWithin linked fun node => ∃ i, inside i ∧ ids[i]? = some node := ?_
  · exact named source
  refine connected.image (fun i => (ids[i]?).getD source) ?_ fun node => ?_
  · rintro i j - - ⟨node, other, first, last, edge⟩
    rw [first, last]
    exact edge
  · constructor
    · rintro ⟨i, member, found⟩
      exact ⟨i, member, by rw [found]; rfl⟩
    · rintro ⟨i, member, rfl⟩
      exact ⟨i, member, by rw [List.getElem?_eq_getElem (bounded i member)]; rfl⟩

end ConnectedWithin
