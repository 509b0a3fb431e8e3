import Veil.Clustering

/-! The clustering loop. Whatever the topology, an iteration merges two clusters or leaves all of
them as they are and breaks out. On a connected graph the loop never breaks out, and merges two
clusters at every iteration until one is left. -/

namespace Veil

namespace Clusters

open HashTable

/-- The cluster topology is the quotient of the graph by the clusters; the cluster of the first node
keeps the label 0. -/
structure Quotient (adjacent : Nat → Nat → Prop) (state : Clusters) : Prop where
  live : ∀ label, label ∈ state.clusterTopo ↔ Live state.nodes label
  neighbors : ∀ first last, Neighbors state.clusterTopo first last ↔ first ≠ last ∧
    ∃ i j, Belongs state.nodes i first ∧ Belongs state.nodes j last ∧ adjacent i j
  unmarked : Unmarked state.clusterTopo
  zero : Belongs state.nodes 0 0

structure Invariant (adjacent : Nat → Nat → Prop) (state : Clusters)
    (forest : Nat → Dendrogram Nat) : Prop where
  represents : Represents state.nodes forest
  joined : ∀ label, Live state.nodes label → (forest label).Joined adjacent
  quotient : Quotient adjacent state

def join (state : Clusters) (forest : Nat → Dendrogram Nat) (smallest second : Nat) : Clusters where
  nodes := state.nodes.map
    (mergedNode (max (forest second).height (forest smallest).height) smallest second)
  clusterTopo := mergeTopo state.clusterTopo smallest second

section Merge

variable {adjacent : Nat → Nat → Prop} {state : Clusters} {forest : Nat → Dendrogram Nat}
  {smallest second : Nat}

theorem Quotient.loopless (quotient : Quotient adjacent state) (label : Nat) :
    ¬Neighbors state.clusterTopo label label :=
  fun edge => ((quotient.neighbors label label).mp edge).1 rfl

theorem Quotient.live_of_neighbors (quotient : Quotient adjacent state)
    (edge : Neighbors state.clusterTopo smallest second) :
    smallest ≠ second ∧ Live state.nodes smallest ∧ Live state.nodes second :=
  Bordering.live ((quotient.neighbors smallest second).mp edge)

theorem live_join (live : ∀ label, label ∈ state.clusterTopo ↔ Live state.nodes label)
    (forest : Nat → Dendrogram Nat) (different : smallest ≠ second)
    (smallestLive : Live state.nodes smallest) (label : Nat) :
    label ∈ (state.join forest smallest second).clusterTopo ↔
      Live (state.join forest smallest second).nodes label := by
  rw [join, mem_mergeTopo different ((live smallest).mpr smallestLive), live_merged]
  simp only [live]
  exact ⟨fun ⟨before, belongs, same⟩ => ⟨before, same, belongs⟩,
    fun ⟨before, same, belongs⟩ => ⟨before, belongs, same⟩⟩

theorem Quotient.join (quotient : Quotient adjacent state) (forest : Nat → Dendrogram Nat)
    (edge : Neighbors state.clusterTopo smallest second) :
    Quotient adjacent (state.join forest smallest second) := by
  obtain ⟨different, smallestLive, -⟩ := quotient.live_of_neighbors edge
  refine ⟨live_join quotient.live forest different smallestLive, ?_,
    quotient.unmarked.mergeTopo different,
    zero_merged quotient.zero _ smallest second⟩
  intro first last
  rw [Clusters.join, neighbors_mergeTopo different quotient.loopless]
  simp only [quotient.neighbors]
  exact bordering_merged.symm

theorem Invariant.join (invariant : Invariant adjacent state forest)
    (symmetric : ∀ i j, adjacent i j → adjacent j i)
    (edge : Neighbors state.clusterTopo smallest second) :
    Invariant adjacent (state.join forest smallest second) (merged forest smallest second) := by
  obtain ⟨different, smallestLive, secondLive⟩ := invariant.quotient.live_of_neighbors edge
  obtain ⟨-, i, j, first, last, linked⟩ := (invariant.quotient.neighbors smallest second).mp edge
  exact ⟨invariant.represents.merge different smallestLive secondLive,
    invariant.represents.joined_merged invariant.joined different smallestLive secondLive
      ((invariant.represents.leaves second secondLive j).mpr last)
      ((invariant.represents.leaves smallest smallestLive i).mpr first) (symmetric i j linked),
    invariant.quotient.join forest edge⟩

end Merge

def pair (order : IterationOrder Nat) (c_iter : Nat) (node2cluster : List Nat)
    (clusterTopo : HashTable Nat (HashTable Nat Nat)) : Option (Nat × Nat) :=
  match choose order c_iter node2cluster clusterTopo with
  | (_, none) => none
  | (smallest, some second) =>
      if smallest.1 ≠ second.1 ∧ smallest.1 ∈ node2cluster ∧ second.1 ∈ node2cluster then
        some (smallest.1, second.1)
      else none

section Iteration

variable {adjacent : Nat → Nat → Prop} {state : Clusters} {forest : Nat → Dendrogram Nat}
  {order : IterationOrder Nat} {c_iter : Nat}

theorem mem_node2cluster {label : Nat} : label ∈ state.node2cluster ↔ Live state.nodes label :=
  List.mem_map

theorem choose_spec {node2cluster : List Nat} {clusterTopo : HashTable Nat (HashTable Nat Nat)}
    {smallest second : Nat × Nat}
    (chosen : choose order c_iter node2cluster clusterTopo = (smallest, some second)) :
    smallest.2 = ((clusterSizes node2cluster).lookup smallest.1).getD 0 ∧
      second.2 = ((clusterSizes node2cluster).lookup second.1).getD 0 ∧
      Neighbors clusterTopo smallest.1 second.1 := by
  simp only [choose, Prod.mk.injEq] at chosen
  obtain ⟨first, last⟩ := chosen
  rw [first] at last
  obtain ⟨⟨walked, size⟩, -⟩ := secondCluster_eq_some last
  rw [order.mem_arrange, ← AList.mem_keys] at walked
  exact ⟨first ▸ (smallestCluster_spec _ _).2, size, neighbors_iff.mpr walked⟩

theorem pair_eq_some {node2cluster : List Nat} {clusterTopo : HashTable Nat (HashTable Nat Nat)}
    {smallest second : Nat}
    (paired : pair order c_iter node2cluster clusterTopo = some (smallest, second)) :
    smallest ≠ second ∧ smallest ∈ node2cluster ∧ second ∈ node2cluster ∧
      ∃ size secondSize,
        choose order c_iter node2cluster clusterTopo =
          ((smallest, size), some (second, secondSize)) := by
  unfold pair at paired
  split at paired
  · cases paired
  · rename_i first last chosen
    split at paired
    · rename_i both
      cases paired
      exact ⟨both.1, both.2.1, both.2.2, first.2, last.2, chosen⟩
    · cases paired

theorem neighbors_of_pair {node2cluster : List Nat}
    {clusterTopo : HashTable Nat (HashTable Nat Nat)} {smallest second : Nat}
    (paired : pair order c_iter node2cluster clusterTopo = some (smallest, second)) :
    Neighbors clusterTopo smallest second := by
  obtain ⟨-, -, -, size, secondSize, chosen⟩ := pair_eq_some paired
  exact (choose_spec chosen).2.2

theorem Represents.length_mem {nodes : List ClusterNode} (represents : Represents nodes forest)
    {node : ClusterNode} (member : node ∈ nodes) {label : Nat} (cluster : node.cluster = label) :
    node.vid.length = (forest label).height := by
  obtain ⟨i, found⟩ := List.mem_iff_getElem?.mp member
  rw [represents.length found, cluster]

theorem Represents.iterate_merges (represents : Represents state.nodes forest)
    {smallest second : Nat}
    (paired : pair order c_iter state.node2cluster state.clusterTopo = some (smallest, second)) :
    iterate order c_iter state = (state.join forest smallest second, false) := by
  obtain ⟨different, smallestLive, secondLive, size, secondSize, chosen⟩ := pair_eq_some paired
  obtain ⟨known, secondKnown, -⟩ := choose_spec chosen
  have positive := size_pos smallestLive
  have secondPositive := size_pos secondLive
  simp only at known secondKnown
  rw [← known] at positive
  rw [← secondKnown] at secondPositive
  rw [mem_node2cluster] at smallestLive secondLive
  have relabeled := relabel_equalize different (fun _ member => represents.length_mem member)
    (fun _ member => represents.length_mem member) smallestLive secondLive
  have lengths := lengths_eq different (fun _ member => represents.length_mem member)
    (fun _ member => represents.length_mem member)
  rw [if_pos smallestLive, if_pos secondLive] at lengths
  simp only [iterate, chosen, Option.map_some, lengths, relabeled]
  rw [if_neg (by simp; omega), join, Nat.max_comm]

theorem Represents.iterate_breaks (represents : Represents state.nodes forest)
    (stuck : pair order c_iter state.node2cluster state.clusterTopo = none) :
    iterate order c_iter state = (state, true) := by
  unfold pair at stuck
  split at stuck
  · rename_i smallest chosen
    have kept : equalize state.nodes smallest.1 none = state.nodes := by
      refine equalize_of_alike fun node member other otherMember inside otherInside => ?_
      rw [represents.length_mem member (inside.resolve_left nofun),
        represents.length_mem otherMember (otherInside.resolve_left nofun)]
    simp only [iterate, chosen, Option.map_none, kept]
  · rename_i smallest second chosen
    split at stuck
    · cases stuck
    · rename_i apart
      -- one cluster at most is looked at, so its strings have one length
      have one : smallest.1 = second.1 ∨ ¬Live state.nodes smallest.1 ∨
        ¬Live state.nodes second.1 := by
        rw [mem_node2cluster, mem_node2cluster] at apart
        tauto
      have kept : equalize state.nodes smallest.1 (some second.1) = state.nodes := by
        refine equalize_of_alike fun node member other otherMember inside otherInside => ?_
        simp only [Option.some.injEq] at inside otherInside
        have together : other.cluster = node.cluster := by
          rcases one with same | gone | gone
          · rw [same, or_self] at inside otherInside
            rw [inside, otherInside]
          · rw [inside.resolve_right fun same => gone ⟨node, member, same⟩,
              otherInside.resolve_right fun same => gone ⟨other, otherMember, same⟩]
          · rw [inside.resolve_left fun same => gone ⟨node, member, same⟩,
              otherInside.resolve_left fun same => gone ⟨other, otherMember, same⟩]
        rw [represents.length_mem member rfl, represents.length_mem otherMember together]
      have missing : (lengths state.nodes smallest.1 (some second.1)).1 = none ∨
        (lengths state.nodes smallest.1 (some second.1)).2 = none := by
        by_cases same : smallest.1 = second.1
        · rw [same]
          exact Or.inl (lengths_same state.nodes second.1)
        · rw [lengths_eq same (fun _ member => represents.length_mem member)
            (fun _ member => represents.length_mem member)]
          rcases one.resolve_left same with gone | gone
          · exact Or.inl (if_neg gone)
          · exact Or.inr (if_neg gone)
      simp only [iterate, chosen, Option.map_some, kept]
      rw [if_pos (missing.elim Or.inl fun absent => Or.inr (Or.inl absent))]

theorem exists_other {ν : Type} {clusterTopo : HashTable Nat ν}
    (several : 1 < clusterTopo.keys.length) (label : Nat) :
    ∃ other ∈ clusterTopo, other ≠ label := by
  by_contra none
  have only : clusterTopo.keys ⊆ [label] := by
    intro other member
    by_contra different
    exact none ⟨other, AList.mem_keys.mpr member,
      fun same => different (same ▸ List.mem_singleton_self _)⟩
  have few := (clusterTopo.keys_nodup.subperm only).length_le
  simp only [List.length_singleton] at few
  omega

theorem Quotient.exists_neighbor (quotient : Quotient adjacent state)
    (connected : ConnectedWithin adjacent fun i => i < state.nodes.length)
    (several : 1 < state.clusterTopo.keys.length) {label : Nat} (live : Live state.nodes label) :
    ∃ other, Neighbors state.clusterTopo label other := by
  obtain ⟨other, present, different⟩ := exists_other several label
  obtain ⟨next, bordering⟩ := exists_bordering connected live
    ((quotient.live other).mp present) different
  exact ⟨next, (quotient.neighbors label next).mpr bordering⟩

theorem Quotient.exists_pair (quotient : Quotient adjacent state)
    (connected : ConnectedWithin adjacent fun i => i < state.nodes.length)
    (several : 1 < state.clusterTopo.keys.length) (order : IterationOrder Nat) (c_iter : Nat) :
    pair order c_iter state.node2cluster state.clusterTopo ≠ none := by
  obtain ⟨member, -⟩ := smallestCluster_spec (clusterSizes state.node2cluster)
    (order.arrange (2 * c_iter) (clusterSizes state.node2cluster).keys)
  rcases chosen : choose order c_iter state.node2cluster state.clusterTopo with ⟨smallest, last⟩
  have selected := chosen
  simp only [choose] at selected
  generalize smallestCluster (clusterSizes state.node2cluster)
    (order.arrange (2 * c_iter) (clusterSizes state.node2cluster).keys) = first at member selected
  obtain ⟨rfl, second⟩ := Prod.mk.injEq .. ▸ selected
  have live : Live state.nodes first.1 := by
    rcases List.mem_cons.mp member with zero | walked
    · rw [zero]
      exact live_iff.mpr ⟨0, quotient.zero⟩
    · have present := AList.mem_keys.mpr ((order.mem_arrange _ _ _).mp walked)
      rw [← AList.lookup_isSome, clusterSizes_lookup] at present
      split at present
      · rename_i found
        exact mem_node2cluster.mp found
      · cases present
  cases last with
  | none =>
      obtain ⟨other, neighbors, found, near⟩ := quotient.exists_neighbor connected several live
      rw [found, Option.getD_some] at second
      have gone := secondCluster_eq_none second other
        ((order.mem_arrange _ _ _).mpr (AList.mem_keys.mp near))
      exact (quotient.unmarked _ _ found other gone).elim
  | some second =>
      obtain ⟨different, -, secondLive⟩ := quotient.live_of_neighbors (choose_spec chosen).2.2
      rw [pair, chosen]
      dsimp only
      rw [if_pos ⟨different, mem_node2cluster.mpr live, mem_node2cluster.mpr secondLive⟩]
      exact Option.some_ne_none _

end Iteration

def grow (order : IterationOrder Nat) : Nat → List Nat → HashTable Nat (HashTable Nat Nat) →
    (Nat → Dendrogram Nat) → Nat → Dendrogram Nat
  | 0, _, _, forest => forest
  | remaining + 1, node2cluster, clusterTopo, forest =>
      if clusterTopo.keys.length ≤ 1 then forest
      else match pair order remaining node2cluster clusterTopo with
        | none => forest
        | some (smallest, second) =>
            grow order remaining (node2cluster.map (newLabel smallest second))
              (mergeTopo clusterTopo smallest second) (merged forest smallest second)

theorem grow_alone (order : IterationOrder Nat) (remaining : Nat)
    {clusterTopo : HashTable Nat (HashTable Nat Nat)} (node2cluster : List Nat)
    (one : clusterTopo.keys.length ≤ 1) (forest : Nat → Dendrogram Nat) :
    grow order remaining node2cluster clusterTopo forest = forest := by
  cases remaining with
  | zero => rfl
  | succ remaining => exact if_pos one

/-- What holds for every topology: the strings are those of a forest, whose trees have no leaf
twice, and the cluster topology knows the clusters. -/
structure Labelled (state : Clusters) (forest : Nat → Dendrogram Nat) : Prop where
  represents : Represents state.nodes forest
  apart : ∀ label, Live state.nodes label → (forest label).Joined fun _ _ => True
  live : ∀ label, label ∈ state.clusterTopo ↔ Live state.nodes label
  zero : Belongs state.nodes 0 0

structure Ended (order : IterationOrder Nat) (remaining clusters : Nat) (final : Clusters)
    (exit : LoopExit) : Prop where
  oneCluster : exit = .oneCluster ↔ final.clusterTopo.keys.length ≤ 1
  brokeOut : exit = .brokeOut → ∃ c_iter,
    pair order c_iter final.node2cluster final.clusterTopo = none
  maxIter : exit = .maxIter → remaining + 1 < clusters

section Loop

variable {state : Clusters} {forest : Nat → Dendrogram Nat} {smallest second : Nat}

theorem Labelled.join (labelled : Labelled state forest) (different : smallest ≠ second)
    (smallestLive : Live state.nodes smallest) (secondLive : Live state.nodes second) :
    Labelled (state.join forest smallest second) (merged forest smallest second) := by
  obtain ⟨left, leftLeaf⟩ := (forest second).exists_leaf
  obtain ⟨right, rightLeaf⟩ := (forest smallest).exists_leaf
  exact ⟨labelled.represents.merge different smallestLive secondLive,
    labelled.represents.joined_merged labelled.apart different smallestLive secondLive
        leftLeaf rightLeaf
      trivial,
    live_join labelled.live forest different smallestLive,
      zero_merged labelled.zero _ smallest second⟩

theorem node2cluster_join (state : Clusters) (forest : Nat → Dendrogram Nat)
    (smallest second : Nat) :
    (state.join forest smallest second).node2cluster =
      state.node2cluster.map (newLabel smallest second) := by
  simp only [node2cluster, join, List.map_map]
  rfl

/-- The rule of the loop: what a merge keeps holds in the end, with the forest that the merges
build. -/
theorem Labelled.clusterLoop (labelled : Labelled state forest)
    (keeps : Clusters → (Nat → Dendrogram Nat) → Prop) (start : keeps state forest)
    (merge : ∀ state forest smallest second, keeps state forest →
      Neighbors state.clusterTopo smallest second →
      keeps (state.join forest smallest second) (merged forest smallest second))
    (order : IterationOrder Nat) (remaining : Nat) :
    Labelled (clusterLoop order remaining state).1
        (grow order remaining state.node2cluster state.clusterTopo forest) ∧
      keeps (clusterLoop order remaining state).1
        (grow order remaining state.node2cluster state.clusterTopo forest) ∧
      (clusterLoop order remaining state).1.nodes.length = state.nodes.length ∧
      Ended order remaining state.clusterTopo.keys.length (clusterLoop order remaining state).1
        (clusterLoop order remaining state).2 := by
  induction remaining generalizing state forest with
  | zero =>
      simp only [Clusters.clusterLoop, grow]
      refine ⟨labelled, start, trivial, ?_⟩
      by_cases one : state.clusterTopo.keys.length ≤ 1
      · rw [if_pos one]
        exact ⟨iff_of_true rfl one, nofun, nofun⟩
      · rw [if_neg one]
        exact ⟨iff_of_false nofun one, nofun, fun _ => by omega⟩
  | succ remaining ih =>
      simp only [Clusters.clusterLoop, grow]
      by_cases one : state.clusterTopo.keys.length ≤ 1
      · rw [if_pos one, if_pos one]
        exact ⟨labelled, start, rfl, iff_of_true rfl one, nofun, nofun⟩
      · rw [if_neg one, if_neg one]
        cases paired : pair order remaining state.node2cluster state.clusterTopo with
        | none =>
            rw [labelled.represents.iterate_breaks paired]
            exact ⟨labelled, start, rfl, iff_of_false nofun one,
              fun _ => ⟨remaining, paired⟩, nofun⟩
        | some both =>
            obtain ⟨smallest, second⟩ := both
            obtain ⟨different, smallestLive, secondLive, -⟩ := pair_eq_some paired
            rw [mem_node2cluster] at smallestLive secondLive
            have shorter := length_keys_mergeTopo different ((labelled.live _).mpr smallestLive)
              ((labelled.live _).mpr secondLive)
            obtain ⟨rest, kept, length, ends⟩ :=
              ih (labelled.join different smallestLive secondLive)
              (merge state forest smallest second start (neighbors_of_pair paired))
            rw [node2cluster_join] at rest kept
            rw [labelled.represents.iterate_merges paired]
            simp only [Bool.false_eq_true, if_false]
            refine ⟨rest, kept, ?_, ends.oneCluster, ends.brokeOut, fun exhausted => ?_⟩
            · rw [length, Clusters.join, List.length_map]
            · have many := ends.maxIter exhausted
              simp only [Clusters.join] at many
              omega

theorem Invariant.labelled {adjacent : Nat → Nat → Prop}
    (invariant : Invariant adjacent state forest) :
    Labelled state forest where
  represents := invariant.represents
  apart := fun label live => (invariant.joined label live).mono fun _ _ _ => trivial
  live := invariant.quotient.live
  zero := invariant.quotient.zero

/-- On a connected graph the loop ends without breaking out, and with one cluster when there are
enough iterations. -/
theorem Invariant.clusterLoop {adjacent : Nat → Nat → Prop}
    (invariant : Invariant adjacent state forest) (symmetric : ∀ i j, adjacent i j → adjacent j i)
    (connected : ConnectedWithin adjacent fun i => i < state.nodes.length)
    (order : IterationOrder Nat) (remaining : Nat) :
    Invariant adjacent (clusterLoop order remaining state).1
        (grow order remaining state.node2cluster state.clusterTopo forest) ∧
      (clusterLoop order remaining state).1.nodes.length = state.nodes.length ∧
      (clusterLoop order remaining state).2 ≠ .brokeOut ∧
      (state.clusterTopo.keys.length ≤ remaining + 1 →
        (clusterLoop order remaining state).1.clusterTopo.keys.length ≤ 1 ∧
        (clusterLoop order remaining state).2 = .oneCluster) := by
  obtain ⟨-, kept, length, ends⟩ := invariant.labelled.clusterLoop (Invariant adjacent) invariant
    (fun _ _ _ _ before edge => before.join symmetric edge) order remaining
  have stays : (Clusters.clusterLoop order remaining state).2 ≠ .brokeOut := by
    intro broke
    -- with two clusters left there is always a pair to merge
    obtain ⟨c_iter, stuck⟩ := ends.brokeOut broke
    have several : 1 < (Clusters.clusterLoop order remaining state).1.clusterTopo.keys.length := by
      by_contra one
      have exit := ends.oneCluster.mpr (Nat.not_lt.mp one)
      rw [exit] at broke
      cases broke
    exact kept.quotient.exists_pair (length ▸ connected) several order c_iter stuck
  refine ⟨kept, length, stays, fun few => ?_⟩
  have exit : (Clusters.clusterLoop order remaining state).2 = .oneCluster := by
    cases exit : (Clusters.clusterLoop order remaining state).2 with
    | oneCluster => rfl
    | maxIter => exact absurd (ends.maxIter exit) (by omega)
    | brokeOut => exact (stays exit).elim
  exact ⟨ends.oneCluster.mp exit, exit⟩

end Loop

end Clusters

end Veil
