import Veil.SimPy.Clustering

/-! The loop on a connected graph. An iteration always finds a second cluster, whatever the draws,
and one cluster is left before the iterations run out. -/

namespace Veil

namespace SimPy

namespace Assignment

open HashTable
open Clusters (Belongs Live Represents Bordering live_iff merged mergedNode)

section Iteration

variable {adjacent : Nat → Nat → Prop} {state : Assignment} {forest : Nat → Dendrogram Nat}

theorem foldlM_consider (rand : Nat → Bool) {clustersizes : HashTable Nat Nat} (walk : List Nat)
    (known : ∀ c ∈ walk, c ∈ clustersizes) (start : Choice) :
    ∃ choice, walk.foldlM (consider rand clustersizes) start = some choice ∧
      choice.label ∈ start.label :: walk := by
  induction walk generalizing start with
  | nil => exact ⟨start, rfl, List.mem_singleton_self _⟩
  | cons c rest ih =>
      obtain ⟨size, found⟩ := (mem_iff_lookup clustersizes c).mp (known c List.mem_cons_self)
      have considered : ∃ next, consider rand clustersizes start c = some next ∧
        (next.label = c ∨ next.label = start.label) := by
        rw [consider, found]
        by_cases smaller : size < start.size
        · exact ⟨_, if_pos smaller, Or.inl rfl⟩
        · by_cases tie : size = start.size
          · refine ⟨_, (if_neg smaller).trans (if_pos tie), ?_⟩
            split
            · exact Or.inl rfl
            · exact Or.inr rfl
          · exact ⟨start, (if_neg smaller).trans (if_neg tie), Or.inr rfl⟩
      obtain ⟨next, step, label⟩ := considered
      obtain ⟨choice, run, member⟩ :=
        ih (fun other later => known other (List.mem_cons_of_mem c later)) next
      refine ⟨choice, ?_, ?_⟩
      · rw [List.foldlM_cons, step]
        exact run
      · simp only [List.mem_cons] at member ⊢
        rcases label with same | same <;> rw [same] at member <;> tauto

theorem mem_clusterSizes {node2cluster : List Nat} {label : Nat} :
    label ∈ Clusters.clusterSizes node2cluster ↔ label ∈ node2cluster := by
  rw [← AList.lookup_isSome, Clusters.clusterSizes_lookup]
  split <;> simp [*]

theorem mem_node2cluster {label : Nat} : label ∈ state.node2cluster ↔ Live state.nodes label :=
  List.mem_map

theorem Quotient.exists_neighbor (quotient : Quotient adjacent state)
    (connected : ConnectedWithin adjacent fun i => i < state.nodes.length)
    (several : 1 < state.clusterTopo.keys.length) {label : Nat} (live : Live state.nodes label) :
    ∃ neighbors first, state.clusterTopo.lookup label = some neighbors ∧
      neighbors.head? = some first ∧
      first ∈ neighbors := by
  obtain ⟨other, present, different⟩ := Clusters.exists_other several label
  obtain ⟨next, bordering⟩ :=
    Clusters.exists_bordering connected live ((quotient.live other).mp present) different
  obtain ⟨neighbors, found, member⟩ := (quotient.neighbors label next).mpr bordering
  obtain ⟨first, rest, rfl⟩ := List.exists_cons_of_ne_nil (List.ne_nil_of_mem member)
  exact ⟨first :: rest, first, found, rfl, List.mem_cons_self⟩

theorem Quotient.choose (quotient : Quotient adjacent state)
    (connected : ConnectedWithin adjacent fun i => i < state.nodes.length)
    (several : 1 < state.clusterTopo.keys.length) (rand : Nat → Bool) (order : IterationOrder Nat)
    (walk draws : Nat) :
    ∃ smallest neighbors second,
      smallestCluster rand (Clusters.clusterSizes state.node2cluster)
        (order.arrange walk (Clusters.clusterSizes state.node2cluster).keys) draws = some smallest ∧
      state.clusterTopo.lookup smallest.label = some neighbors ∧
      secondCluster rand (Clusters.clusterSizes state.node2cluster) neighbors
        smallest.draws = some second ∧
      second.label ∈ neighbors := by
  have known (label : Nat) (live : Live state.nodes label) :
      label ∈ Clusters.clusterSizes state.node2cluster :=
    mem_clusterSizes.mpr (mem_node2cluster.mpr live)
  obtain ⟨some, someKey⟩ := List.exists_mem_of_length_pos (Nat.lt_of_succ_lt several)
  have zero := quotient.zero some ((quotient.live some).mp (AList.mem_keys.mpr someKey))
  obtain ⟨zeroSize, zeroFound⟩ := (mem_iff_lookup _ _).mp (known 0 (live_iff.mpr ⟨0, zero⟩))
  obtain ⟨smallest, chosen, member⟩ := foldlM_consider rand
    (order.arrange walk (Clusters.clusterSizes state.node2cluster).keys)
    (fun c walked => AList.mem_keys.mpr ((order.mem_arrange walk _ c).mp walked))
    ⟨0, zeroSize, draws⟩
  have live : Live state.nodes smallest.label := by
    rcases List.mem_cons.mp member with isZero | walked
    · rw [isZero]
      exact live_iff.mpr ⟨0, zero⟩
    · exact mem_node2cluster.mp (mem_clusterSizes.mp
        (AList.mem_keys.mpr ((order.mem_arrange walk _ _).mp walked)))
  obtain ⟨neighbors, first, found, head, firstMember⟩ :=
    quotient.exists_neighbor connected several live
  have neighborsKnown : ∀ c ∈ neighbors, c ∈ Clusters.clusterSizes state.node2cluster :=
    fun c inside =>
    known c (Bordering.live
      ((quotient.neighbors smallest.label c).mp ⟨neighbors, found, inside⟩)).2.2
  obtain ⟨size, sizeFound⟩ := (mem_iff_lookup _ _).mp (neighborsKnown first firstMember)
  obtain ⟨second, secondChosen, secondMember⟩ :=
    foldlM_consider rand neighbors neighborsKnown ⟨first, size, smallest.draws⟩
  refine ⟨smallest, neighbors, second, ?_, found, ?_, ?_⟩
  · rw [smallestCluster, zeroFound]
    exact chosen
  · rw [secondCluster, head]
    simp only [Option.bind_eq_bind, Option.bind_some, sizeFound]
    exact secondChosen
  · rcases List.mem_cons.mp secondMember with same | inside
    · exact same ▸ firstMember
    · exact inside

theorem Invariant.length_mem (invariant : Invariant adjacent state forest) {node : ClusterNode}
    (member : node ∈ state.nodes) {label : Nat} (cluster : node.cluster = label) :
    node.vid.length = (forest label).height - 1 := by
  have length := invariant.represents.length_mem (List.mem_map_of_mem member) cluster
  rw [marked, List.length_append, List.length_singleton] at length
  omega

theorem Invariant.iterate (invariant : Invariant adjacent state forest)
    (symmetric : ∀ i j, adjacent i j → adjacent j i)
    (connected : ConnectedWithin adjacent fun i => i < state.nodes.length)
    (several : 1 < state.clusterTopo.keys.length) (rand : Nat → Bool) (order : IterationOrder Nat)
    (iter : Nat) :
    ∃ after grown, iterate rand order iter (Clusters.clusterSizes state.node2cluster)
        state = some after ∧
      Invariant adjacent after grown ∧ after.nodes.length = state.nodes.length ∧
      after.clusterTopo.keys.length + 1 = state.clusterTopo.keys.length := by
  obtain ⟨smallest, neighbors, second, smallestChosen, found, secondChosen, member⟩ :=
    invariant.quotient.choose connected several rand order (2 * iter) state.draws
  have edge : Neighbors state.clusterTopo smallest.label second.label := ⟨neighbors, found, member⟩
  have bordering := (invariant.quotient.neighbors _ _).mp edge
  obtain ⟨different, smallestLive, secondLive⟩ := bordering.live
  have firstLength (node : ClusterNode) (inside : node ∈ state.nodes) (same : node.cluster =
      smallest.label) :=
    invariant.length_mem inside same
  have lastLength (node : ClusterNode) (inside : node ∈ state.nodes) (same : node.cluster =
      second.label) :=
    invariant.length_mem inside same
  have lengths := invariant.quotient.own.lengths_eq different firstLength lastLength
    smallestLive secondLive
  have relabeled := marked_relabel different firstLength lastLength
  have smallestTall := (forest smallest.label).height_pos
  have secondTall := (forest second.label).height_pos
  have height : max ((forest smallest.label).height - 1) ((forest second.label).height - 1) + 1 =
      max (forest second.label).height (forest smallest.label).height := by omega
  rw [height] at relabeled
  obtain ⟨after, merging, quotient, shorter⟩ :=
    invariant.quotient.mergeTopo edge order (2 * iter + 1) second.draws relabeled
  refine ⟨_, merged forest smallest.label second.label, ?_, ⟨?_, ?_, quotient⟩, ?_, shorter⟩
  · simp only [Assignment.iterate, smallestChosen, found, secondChosen, lengths, merging,
      Option.bind_eq_bind, Option.bind_some, Option.pure_def]
  · rw [relabeled]
    exact invariant.represents.merge different (live_marked.mpr smallestLive)
      (live_marked.mpr secondLive)
  · intro label live
    obtain ⟨-, i, j, first, last, linked⟩ := bordering
    have joined : ∀ label, Live (state.nodes.map marked) label → (forest label).Joined adjacent :=
      fun label inside => invariant.joined label (live_marked.mp inside)
    rw [← live_marked, relabeled] at live
    exact invariant.represents.joined_merged joined different (live_marked.mpr smallestLive)
      (live_marked.mpr secondLive)
      ((invariant.represents.leaves _ (live_marked.mpr secondLive) j).mpr (belongs_marked.mpr last))
      ((invariant.represents.leaves _ (live_marked.mpr smallestLive) i).mpr
        (belongs_marked.mpr first))
      (symmetric i j linked) label live
  · have same := congrArg List.length relabeled
    simpa only [List.length_map] using same

end Iteration

section Loop

variable {adjacent : Nat → Nat → Prop} {state : Assignment} {forest : Nat → Dendrogram Nat}

theorem Quotient.length_sizes (quotient : Quotient adjacent state) :
    (Clusters.clusterSizes state.node2cluster).keys.length = state.clusterTopo.keys.length := by
  refine ((List.perm_ext_iff_of_nodup (AList.keys_nodup _) (AList.keys_nodup _)).mpr fun label =>
    ?_).length_eq
  rw [← AList.mem_keys, ← AList.mem_keys, mem_clusterSizes, mem_node2cluster, quotient.live]

theorem Quotient.alone_of_sum (quotient : Quotient adjacent state)
    (sum : state.node2cluster.sum = 0) :
    state.clusterTopo.keys.length ≤ 1 := by
  by_contra several
  obtain ⟨other, present, different⟩ := Clusters.exists_other (Nat.not_le.mp several) 0
  have inside : other ∈ state.node2cluster :=
    mem_node2cluster.mpr ((quotient.live other).mp present)
  exact different (List.sum_eq_zero_iff_forall_eq_nat.mp sum other inside)

theorem Quotient.belongs_zero (quotient : Quotient adjacent state)
    (alone : state.clusterTopo.keys.length ≤ 1) {i : Nat} (bound : i < state.nodes.length) :
    Belongs state.nodes i 0 := by
  have inside : Belongs state.nodes i state.nodes[i].cluster :=
    ⟨_, List.getElem?_eq_getElem bound, rfl⟩
  have present (label j : Nat) (belongs : Belongs state.nodes j label) :
      label ∈ state.clusterTopo.keys :=
    AList.mem_keys.mp ((quotient.live label).mpr (live_iff.mpr ⟨j, belongs⟩))
  have own := present _ i inside
  have zero := present 0 0 (quotient.zero _ (live_iff.mpr ⟨i, inside⟩))
  obtain ⟨only, single⟩ := List.length_eq_one_iff.mp
    (Nat.le_antisymm alone (List.length_pos_of_mem zero))
  rw [single, List.mem_singleton] at own zero
  rw [own, ← zero] at inside
  exact inside

theorem Invariant.mem_leaves (invariant : Invariant adjacent state forest)
    (alone : state.clusterTopo.keys.length ≤ 1) (some : 0 < state.nodes.length) (i : Nat) :
    i ∈ (forest 0).leaves ↔ i < state.nodes.length := by
  have zero := live_marked.mpr (live_iff.mpr ⟨0, invariant.quotient.belongs_zero alone some⟩)
  rw [invariant.represents.leaves 0 zero i, belongs_marked]
  constructor
  · rintro ⟨node, found, -⟩
    exact (List.getElem?_eq_some_iff.mp found).1
  · exact invariant.quotient.belongs_zero alone

theorem Invariant.vid_eq (invariant : Invariant adjacent state forest)
    (alone : state.clusterTopo.keys.length ≤ 1) {i : Nat} (bound : i < state.nodes.length) :
    state.nodes[i].vid = (forest 0).way i := by
  obtain ⟨node, found, cluster⟩ := belongs_marked.mpr (invariant.quotient.belongs_zero alone bound)
  have code := invariant.represents.code i node found
  rw [List.getElem?_map, List.getElem?_eq_getElem bound, Option.map_some,
    Option.some.injEq] at found
  rw [cluster, ← found, Dendrogram.code_eq_way] at code
  exact List.append_cancel_right code

theorem Invariant.loop (invariant : Invariant adjacent state forest)
    (symmetric : ∀ i j, adjacent i j → adjacent j i)
    (connected : ConnectedWithin adjacent fun i => i < state.nodes.length) (rand : Nat → Bool)
    (order : IterationOrder Nat) (remaining : Nat)
    (few : state.clusterTopo.keys.length ≤ remaining + 1) :
    ∃ final grown, loop rand order remaining state = some final ∧ Invariant adjacent final grown ∧
      final.nodes.length = state.nodes.length ∧ final.clusterTopo.keys.length ≤ 1 := by
  induction remaining generalizing state forest with
  | zero => exact ⟨state, forest, rfl, invariant, rfl, few⟩
  | succ remaining ih =>
      rw [Assignment.loop]
      by_cases sum : state.node2cluster.sum = 0
      · rw [if_pos sum]
        exact ⟨state, forest, rfl, invariant, rfl, invariant.quotient.alone_of_sum sum⟩
      · rw [if_neg sum, node2cluster, invariant.quotient.own.clusterSizes_eq]
        have sizes := invariant.quotient.length_sizes
        simp only [Option.bind_eq_bind, Option.bind_some]
        rw [node2cluster] at sizes
        by_cases one : state.clusterTopo.keys.length = 1
        · rw [if_pos (sizes.trans one)]
          exact ⟨state, forest, rfl, invariant, rfl, Nat.le_of_eq one⟩
        · rw [if_neg (sizes ▸ one)]
          -- some label is not zero, so there is a cluster; and there is not one only
          have several : 1 < state.clusterTopo.keys.length := by
            have some : state.clusterTopo.keys.length ≠ 0 := by
              intro none
              refine sum (List.sum_eq_zero_iff_forall_eq_nat.mpr ?_)
              intro label inside
              have present := (invariant.quotient.live label).mpr (mem_node2cluster.mp inside)
              exact absurd (List.length_pos_of_mem (AList.mem_keys.mp present)) (by omega)
            omega
          obtain ⟨after, grown, iterated, kept, length, shorter⟩ :=
            invariant.iterate symmetric connected several rand order remaining
          rw [node2cluster] at iterated
          rw [iterated]
          obtain ⟨final, forest, run, ends, sameLength, alone⟩ :=
            ih kept (length ▸ connected) (by omega)
          exact ⟨final, forest, run, ends, sameLength.trans length, alone⟩

end Loop

end Assignment

end SimPy

end Veil
