import Veil.ClusterLoop
import Veil.SimPy.VidAssignment

/-! What the loop keeps. Under a mark at the end, the strings are the codes of a forest, as those
of the controller are; every cluster has the node that its label names; and the lists of
neighbours are exact. -/

namespace Veil

namespace SimPy

namespace Assignment

open HashTable
open Clusters (Belongs Live Represents Bordering newLabel mergedNode merged live_iff live_merged
  belongs_merged newLabel_eq_min newLabel_eq_other)

def marked (node : ClusterNode) : ClusterNode := { node with vid := node.vid ++ [true] }

def Own (nodes : List ClusterNode) : Prop := ∀ label, Live nodes label → Belongs nodes label label

theorem foldlM_eq_some {β γ : Type} {step : β → γ → Option β} {pure : β → γ → β} {elements : List γ}
    (each : ∀ x ∈ elements, ∀ state, step state x = some (pure state x)) (start : β) :
    elements.foldlM step start = some (elements.foldl pure start) := by
  induction elements generalizing start with
  | nil => rfl
  | cons first rest ih =>
      rw [List.foldlM_cons, each first List.mem_cons_self]
      exact ih (fun x member => each x (List.mem_cons_of_mem first member)) _

section Strings

variable {nodes : List ClusterNode} {smallest second first last : Nat}

theorem belongs_marked {i label : Nat} :
    Belongs (nodes.map marked) i label ↔ Belongs nodes i label := by
  simp only [Belongs, List.getElem?_map, Option.map_eq_some_iff, exists_exists_and_eq_and]
  exact Iff.rfl

theorem live_marked {label : Nat} : Live (nodes.map marked) label ↔ Live nodes label := by
  simp only [live_iff, belongs_marked]

theorem Own.merged {height : Nat} (own : Own nodes) (smallestLive : Live nodes smallest)
    (secondLive : Live nodes second) : Own (nodes.map (mergedNode height smallest second)) := by
  intro label live
  obtain ⟨before, became, belonged⟩ := live_merged.mp live
  refine belongs_merged.mpr ⟨label, ?_, own label ?_⟩
  · simp only [newLabel] at became ⊢
    split at became <;> split <;> omega
  · by_cases new : label = min smallest second
    · rcases Nat.le_total smallest second with low | low
      · rwa [new, Nat.min_eq_left low]
      · rwa [new, Nat.min_eq_right low]
    · exact (newLabel_eq_other new became).1 ▸ belonged

theorem Own.clusterSizes_eq (own : Own nodes) : clusterSizes (nodes.map (·.cluster)) =
    some (Clusters.clusterSizes (nodes.map (·.cluster))) := by
  refine foldlM_eq_some (fun label member clustersizes => ?_) ∅
  obtain ⟨node, inside, rfl⟩ := List.mem_map.mp member
  obtain ⟨found, at_label, same⟩ := own node.cluster ⟨node, inside, rfl⟩
  rw [List.getElem?_map, at_label, Option.map_some, same]
  rfl

theorem Own.lengths_eq (own : Own nodes) (different : smallest ≠ second)
    (firstLength : ∀ node ∈ nodes, node.cluster = smallest → node.vid.length = first)
    (lastLength : ∀ node ∈ nodes, node.cluster = second → node.vid.length = last)
    (smallestLive : Live nodes smallest) (secondLive : Live nodes second) :
    lengths nodes smallest second = some ((last : Int), (first : Int)) := by
  have loop (entries : List ClusterNode) (start : Int × Int) :
      open Classical in entries.foldl (fun len entry =>
        if entry.cluster = second then ((last : Int), len.2)
        else if entry.cluster = smallest then (len.1, (first : Int))
        else len) start =
      (if Live entries second then (last : Int) else start.1,
        if Live entries smallest then (first : Int) else start.2) := by
    induction entries generalizing start with
    | nil => simp [Live]
    | cons entry rest ih =>
        rw [List.foldl_cons, ih]
        by_cases isSecond : entry.cluster = second
        · simp [Live, isSecond, different.symm]
        · by_cases isSmallest : entry.cluster = smallest
          · simp [Live, isSmallest, different]
          · simp [Live, isSecond, isSmallest]
  have looked := loop nodes (-1, -1)
  rw [if_pos secondLive, if_pos smallestLive] at looked
  rw [← looked, lengths]
  refine foldlM_eq_some (fun entry member len => ?_) _
  -- the node that the label names stands for its cluster
  obtain ⟨x, found, same⟩ := own entry.cluster ⟨entry, member, rfl⟩
  have inside := List.mem_of_getElem? found
  rw [found]
  simp only [Option.bind_eq_bind, Option.bind_some, same, Option.pure_def, Option.some.injEq]
  by_cases isSecond : entry.cluster = second
  · rw [if_pos isSecond, if_pos isSecond, lastLength x inside (same.trans isSecond)]
  · rw [if_neg isSecond, if_neg isSecond]
    by_cases isSmallest : entry.cluster = smallest
    · rw [if_pos isSmallest, if_pos isSmallest, firstLength x inside (same.trans isSmallest)]
    · rw [if_neg isSmallest, if_neg isSmallest]

theorem equalize_eq
    (firstLength : ∀ node ∈ nodes, node.cluster = smallest → node.vid.length = first)
    (lastLength : ∀ node ∈ nodes, node.cluster = second → node.vid.length = last) :
    equalize nodes smallest second last first = nodes.map fun node =>
      if node.cluster = second ∨ node.cluster = smallest then
        { node with vid := BitString.pad (max first last) node.vid }
      else node := by
  have longer : (max (last : Int) first).toNat = max first last := by omega
  rw [equalize, longer]
  split
  · rfl
  · rename_i same
    refine (List.map_id nodes).symm.trans (List.map_congr_left fun node member => ?_)
    split
    · rename_i either
      have long : max first last ≤ node.vid.length := by
        rcases either with isSecond | isSmallest
        · have length := lastLength node member isSecond
          omega
        · have length := firstLength node member isSmallest
          omega
      rw [BitString.pad_of_le long]
      rfl
    · rfl

theorem marked_relabel (different : smallest ≠ second)
    (firstLength : ∀ node ∈ nodes, node.cluster = smallest → node.vid.length = first)
    (lastLength : ∀ node ∈ nodes, node.cluster = second → node.vid.length = last) :
    (Clusters.relabel (equalize nodes smallest second last first) smallest second).map marked =
      (nodes.map marked).map (mergedNode (max first last + 1) smallest second) := by
  rw [equalize_eq firstLength lastLength, Clusters.relabel, List.map_map,
    List.map_map, List.map_map]
  refine List.map_congr_left fun node _ => ?_
  simp only [Function.comp_apply, marked, mergedNode, newLabel]
  by_cases isSecond : node.cluster = second
  · simp [isSecond, BitString.pad_concat]
  · by_cases isSmallest : node.cluster = smallest
    · simp [isSmallest, different, BitString.pad_concat]
    · simp [isSecond, isSmallest]

end Strings

def Neighbors (clusterTopo : HashTable Nat (List Nat)) (first second : Nat) : Prop :=
  ∃ neighbors, clusterTopo.lookup first = some neighbors ∧ second ∈ neighbors

section MergeTopo

variable {smallest second : Nat}

theorem relabelNeighbors_eq (neighbors : List Nat) : relabelNeighbors smallest second neighbors =
    if 1 < (neighbors.map (newLabel smallest second)).count (min smallest second) then
      (neighbors.map (newLabel smallest second)).erase (min smallest second)
    else neighbors.map (newLabel smallest second) := by
  have relabeled :
      (fun label => if label = smallest ∨ label = second then min second smallest else label) =
      newLabel smallest second := by
    funext label
    simp only [newLabel, Nat.min_comm second smallest, or_comm]
  rw [relabelNeighbors, relabeled, Nat.min_comm second smallest]

theorem mem_relabelNeighbors (neighbors : List Nat) (label : Nat) :
    label ∈ relabelNeighbors smallest second neighbors ↔
      ∃ before ∈ neighbors, newLabel smallest second before = label := by
  rw [← List.mem_map, relabelNeighbors_eq]
  split
  · rename_i twice
    by_cases new : label = min smallest second
    · subst label
      rw [← List.count_pos_iff, ← List.count_pos_iff, List.count_erase_self]
      omega
    · exact List.mem_erase_of_ne new
  · exact Iff.rfl

theorem nodup_relabelNeighbors {neighbors : List Nat} (unique : neighbors.Nodup) :
    (relabelNeighbors smallest second neighbors).Nodup := by
  have few (label : Nat) : neighbors.count label ≤ 1 := List.nodup_iff_count_le_one.mp unique label
  -- only the new label may occur twice, once for each label of the pair
  have twice : (neighbors.map (newLabel smallest second)).count (min smallest second) ≤ 2 := by
    have either : (neighbors.map (newLabel smallest second)).count (min smallest second) ≤
        neighbors.count second + neighbors.count smallest := by
      clear unique few
      induction neighbors with
      | nil => exact Nat.le_refl 0
      | cons label rest ih =>
          have split := @newLabel_eq_min smallest second label
          simp only [List.map_cons, List.count_cons, beq_iff_eq]
          split_ifs <;> omega
    have first := few second
    have last := few smallest
    omega
  have once (label : Nat) (other : label ≠ min smallest second) :
      (neighbors.map (newLabel smallest second)).count label ≤ 1 := by
    refine Nat.le_trans ?_ (few label)
    rw [List.count_eq_countP, List.count_eq_countP, List.countP_map]
    refine List.countP_mono_left fun before _ same => ?_
    rw [Function.comp_apply, beq_iff_eq] at same
    exact beq_iff_eq.mpr (newLabel_eq_other other same).1
  rw [relabelNeighbors_eq, List.nodup_iff_count_le_one]
  intro label
  split
  · by_cases new : label = min smallest second
    · subst label
      rw [List.count_erase_self]
      omega
    · rw [List.count_erase_of_ne new]
      exact once label new
  · by_cases new : label = min smallest second
    · subst label
      omega
    · exact once label new

theorem mergeTopo_eq_some {clusterTopo : HashTable Nat (List Nat)} {first last : List Nat}
    (different : smallest ≠ second) (smallestFound : clusterTopo.lookup smallest = some first)
    (secondFound : clusterTopo.lookup second = some last) (order : IterationOrder Nat)
    (walk : Nat) :
    ∃ after neighbors, mergeTopo order walk clusterTopo smallest second = some after ∧
      neighbors.Nodup ∧
      (∀ label, label ∈ neighbors ↔ label ≠ min smallest second ∧
        (label ∈ relabelNeighbors smallest second first ∨
          label ∈ relabelNeighbors smallest second last)) ∧
      (∀ label, after.lookup label =
        if label = min smallest second then some neighbors
        else if label = second ∨ label = smallest then none
        else (clusterTopo.lookup label).map (relabelNeighbors smallest second)) ∧
      after.keys.length + 1 = clusterTopo.keys.length := by
  have smallestKey : smallest ∈ mapValues (relabelNeighbors smallest second) clusterTopo :=
    (mem_mapValues _ _ _).mpr (mem_of_lookup smallestFound)
  have secondKey :
      second ∈ (mapValues (relabelNeighbors smallest second) clusterTopo).erase smallest :=
    AList.mem_erase.mpr ⟨different.symm, (mem_mapValues _ _ _).mpr (mem_of_lookup secondFound)⟩
  obtain ⟨neighbors, defined⟩ : ∃ neighbors,
    neighbors = order.arrange walk (insertAll (fun _ => 0) ∅
      ((relabelNeighbors smallest second first ++ relabelNeighbors smallest second last).filter
        (· ≠ min second smallest))).keys := ⟨_, rfl⟩
  refine ⟨(((mapValues (relabelNeighbors smallest second) clusterTopo).erase smallest).erase
    second).insert
    (min second smallest) neighbors, neighbors, ?_, ?_, ?_, ?_, ?_⟩
  · simp only [mergeTopo, lookup_mapValues, smallestFound, secondFound, Option.map_some, defined]
    rfl
  · rw [defined]
    exact order.nodup_arrange walk (AList.keys_nodup _)
  · intro label
    rw [defined, order.mem_arrange, ← AList.mem_keys, mem_insertAll, List.mem_filter,
      List.mem_append,
      Nat.min_comm second smallest]
    simp only [decide_eq_true_eq]
    exact ⟨fun found => (found.resolve_right (AList.notMem_empty label)).symm,
      fun found => Or.inl found.symm⟩
  · intro label
    simp only [lookup_insert_ite, lookup_erase_ite, lookup_mapValues, Nat.min_comm second smallest]
    split_ifs <;> first | rfl | tauto
  · have removed := length_keys_erase _ _ smallestKey
    have removedSecond := length_keys_erase _ _ secondKey
    have absent : min second smallest ∉
        (((mapValues (relabelNeighbors smallest second) clusterTopo).erase smallest).erase
          second).keys := by
      rw [← AList.mem_keys, AList.mem_erase, AList.mem_erase]
      omega
    rw [keys_mapValues] at removed
    rw [AList.keys_insert, List.erase_of_not_mem absent, List.length_cons]
    omega

theorem neighbors_mergeTopo {clusterTopo after : HashTable Nat (List Nat)}
    {first last neighbors : List Nat} (loopless : ∀ label, ¬Neighbors clusterTopo label label)
    (smallestFound : clusterTopo.lookup smallest = some first)
    (secondFound : clusterTopo.lookup second = some last)
    (joined : ∀ label, label ∈ neighbors ↔
      label ≠ min smallest second ∧ (label ∈ relabelNeighbors smallest second first ∨
      label ∈ relabelNeighbors smallest second last))
    (lookup : ∀ label, after.lookup label =
      if label = min smallest second then some neighbors
      else if label = second ∨ label = smallest then none
      else (clusterTopo.lookup label).map (relabelNeighbors smallest second))
    (label other : Nat) :
    Neighbors after label other ↔ label ≠ other ∧
      ∃ before next, newLabel smallest second before = label ∧
      newLabel smallest second next = other ∧ Neighbors clusterTopo before next := by
  rw [Neighbors, lookup]
  by_cases new : label = min smallest second
  · subst label
    rw [if_pos rfl]
    simp only [Option.some.injEq, exists_eq_left', joined, mem_relabelNeighbors]
    constructor
    · rintro ⟨apart, ⟨next, member, same⟩ | ⟨next, member, same⟩⟩
      · exact ⟨apart.symm, smallest, next, newLabel_eq_min.mpr (Or.inr rfl), same, first,
          smallestFound, member⟩
      · exact ⟨apart.symm, second, next, newLabel_eq_min.mpr (Or.inl rfl), same, last,
          secondFound, member⟩
    · rintro ⟨apart, before, next, became, same, listed, found, member⟩
      refine ⟨apart.symm, ?_⟩
      rcases newLabel_eq_min.mp became with rfl | rfl
      · rw [secondFound, Option.some.injEq] at found
        exact Or.inr ⟨next, found ▸ member, same⟩
      · rw [smallestFound, Option.some.injEq] at found
        exact Or.inl ⟨next, found ▸ member, same⟩
  · rw [if_neg new]
    by_cases gone : label = second ∨ label = smallest
    · rw [if_pos gone]
      refine iff_of_false (fun ⟨_, found, _⟩ => nomatch found) ?_
      rintro ⟨-, before, next, became, -⟩
      obtain ⟨-, notSecond, notSmallest⟩ := newLabel_eq_other new became
      exact gone.elim notSecond notSmallest
    · rw [if_neg gone]
      simp only [Option.map_eq_some_iff]
      constructor
      · rintro ⟨_, ⟨listed, found, rfl⟩, member⟩
        obtain ⟨next, inside, same⟩ := (mem_relabelNeighbors listed other).mp member
        refine ⟨?_, label, next, if_neg gone, same, listed, found, inside⟩
        rintro rfl
        obtain ⟨rfl, -⟩ := newLabel_eq_other new same
        exact loopless _ ⟨listed, found, inside⟩
      · rintro ⟨-, before, next, became, same, listed, found, inside⟩
        obtain ⟨rfl, -⟩ := newLabel_eq_other new became
        exact ⟨_, ⟨listed, found, rfl⟩,
          (mem_relabelNeighbors listed other).mpr ⟨next, inside, same⟩⟩

end MergeTopo

structure Quotient (adjacent : Nat → Nat → Prop) (state : Assignment) : Prop where
  live : ∀ label, label ∈ state.clusterTopo ↔ Live state.nodes label
  neighbors : ∀ first last, Neighbors state.clusterTopo first last ↔
    Bordering adjacent state.nodes first last
  unique : ∀ label neighbors, state.clusterTopo.lookup label = some neighbors → neighbors.Nodup
  own : Own state.nodes
  zero : ∀ label, Live state.nodes label → Belongs state.nodes 0 0

structure Invariant (adjacent : Nat → Nat → Prop) (state : Assignment)
    (forest : Nat → Dendrogram Nat) : Prop where
  represents : Represents (state.nodes.map marked) forest
  joined : ∀ label, Live state.nodes label → (forest label).Joined adjacent
  quotient : Quotient adjacent state

section Step

variable {adjacent : Nat → Nat → Prop} {state : Assignment} {forest : Nat → Dendrogram Nat}
  {smallest second : Nat}

theorem Quotient.mergeTopo (quotient : Quotient adjacent state)
    (edge : Neighbors state.clusterTopo smallest second) (order : IterationOrder Nat)
    (walk draws : Nat) {nodes : List ClusterNode} {height : Nat}
    (relabeled : nodes.map marked =
      (state.nodes.map marked).map (mergedNode height smallest second)) :
    ∃ after, mergeTopo order walk state.clusterTopo smallest second = some after ∧
      Quotient adjacent ⟨nodes, after, draws⟩ ∧
      after.keys.length + 1 = state.clusterTopo.keys.length := by
  obtain ⟨different, smallestLive, secondLive⟩ := Bordering.live ((quotient.neighbors _ _).mp edge)
  obtain ⟨first, smallestFound⟩ := (mem_iff_lookup _ _).mp
    ((quotient.live smallest).mpr smallestLive)
  obtain ⟨last, secondFound⟩ := (mem_iff_lookup _ _).mp ((quotient.live second).mpr secondLive)
  obtain ⟨after, neighbors, merged, unique, joined, lookup, shorter⟩ :=
    mergeTopo_eq_some different smallestFound secondFound order walk
  have belongs (i label : Nat) : Belongs nodes i label ↔
      Belongs ((state.nodes.map marked).map (mergedNode height smallest second)) i label := by
    rw [← relabeled, belongs_marked]
  have live (label : Nat) : Live nodes label ↔
      Live ((state.nodes.map marked).map (mergedNode height smallest second)) label := by
    rw [← relabeled, live_marked]
  have loopless (label : Nat) : ¬Neighbors state.clusterTopo label label :=
    fun loop => ((quotient.neighbors label label).mp loop).1 rfl
  refine ⟨after, merged, ⟨?_, ?_, ?_, ?_, ?_⟩, shorter⟩
  · intro label
    rw [live, live_merged]
    simp only [live_marked, ← quotient.live, mem_iff_lookup]
    rw [lookup]
    by_cases new : label = min smallest second
    · rw [if_pos new]
      exact iff_of_true ⟨_, rfl⟩
        ⟨smallest, new ▸ Clusters.newLabel_eq_min.mpr (Or.inr rfl), first, smallestFound⟩
    · rw [if_neg new]
      constructor
      · rintro ⟨value, found⟩
        split at found
        · cases found
        · rename_i kept
          obtain ⟨listed, present, -⟩ := Option.map_eq_some_iff.mp found
          exact ⟨label, if_neg kept, listed, present⟩
      · rintro ⟨before, became, listed, found⟩
        obtain ⟨rfl, notSecond, notSmallest⟩ := newLabel_eq_other new became
        rw [if_neg (not_or.mpr ⟨notSecond, notSmallest⟩), found]
        exact ⟨_, rfl⟩
  · intro label other
    rw [neighbors_mergeTopo loopless smallestFound secondFound joined lookup]
    simp only [quotient.neighbors]
    have bordering (nodes : List ClusterNode) (label other : Nat) :
        Bordering adjacent (nodes.map marked) label other ↔
          Bordering adjacent nodes label other := by
      simp only [Bordering, belongs_marked]
    rw [← bordering nodes, relabeled, Clusters.bordering_merged]
    simp only [bordering]
  · intro label listed found
    rw [lookup] at found
    split at found
    · cases found
      exact unique
    · split at found
      · cases found
      · obtain ⟨before, present, rfl⟩ := Option.map_eq_some_iff.mp found
        exact nodup_relabelNeighbors (quotient.unique label before present)
  · have own : Own (state.nodes.map marked) := fun label inside =>
      belongs_marked.mpr (quotient.own label (live_marked.mp inside))
    intro label inside
    exact (belongs label label).mpr
      (own.merged (live_marked.mpr smallestLive) (live_marked.mpr secondLive) label
        ((live label).mp inside))
  · intro _ _
    exact (belongs 0 0).mpr
      (Clusters.zero_merged (belongs_marked.mpr (quotient.zero smallest smallestLive)) _ _ _)

end Step

end Assignment

end SimPy

end Veil
