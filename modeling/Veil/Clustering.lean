import Veil.Library.Dendrogram
import Veil.NetworkTopo

/-! What the clustering loop keeps. The bit strings are those of a forest of dendrograms, one for
every cluster, whatever pair of clusters is merged; and the cluster topology is the quotient of
the graph by the clusters. -/

namespace Veil

namespace Clusters

open HashTable
open BitString (pad)

def Belongs (nodes : List ClusterNode) (i label : Nat) : Prop :=
  ∃ node, nodes[i]? = some node ∧ node.cluster = label

def Live (nodes : List ClusterNode) (label : Nat) : Prop := ∃ node ∈ nodes, node.cluster = label

/-! ### The strings -/

/-- The nodes of a cluster are the leaves of its tree, and their strings are their codes there. -/
structure Represents (nodes : List ClusterNode) (forest : Nat → Dendrogram Nat) : Prop where
  leaves : ∀ label, Live nodes label → ∀ i, i ∈ (forest label).leaves ↔ Belongs nodes i label
  code : ∀ i node, nodes[i]? = some node → node.vid = (forest node.cluster).code i

def newLabel (smallest second label : Nat) : Nat :=
  if label = second ∨ label = smallest then min smallest second else label

def mergedNode (height smallest second : Nat) (node : ClusterNode) : ClusterNode where
  cluster := newLabel smallest second node.cluster
  vid :=
    if node.cluster = second then false :: pad height node.vid
    else if node.cluster = smallest then true :: pad height node.vid
    else node.vid

def merged (forest : Nat → Dendrogram Nat) (smallest second label : Nat) : Dendrogram Nat :=
  if label = min smallest second then .merge (forest second) (forest smallest) else forest label

section Merge

variable {nodes : List ClusterNode} {forest : Nat → Dendrogram Nat} {smallest second : Nat}

theorem live_iff {label : Nat} : Live nodes label ↔ ∃ i, Belongs nodes i label := by
  simp only [Live, Belongs, List.mem_iff_getElem?]
  constructor
  · rintro ⟨node, ⟨i, found⟩, same⟩
    exact ⟨i, node, found, same⟩
  · rintro ⟨i, node, found, same⟩
    exact ⟨node, ⟨i, found⟩, same⟩

theorem Belongs.unique {i first last : Nat} (one : Belongs nodes i first)
    (other : Belongs nodes i last) :
    first = last := by
  obtain ⟨node, found, rfl⟩ := one
  obtain ⟨same, foundSame, rfl⟩ := other
  rw [found, Option.some.injEq] at foundSame
  rw [foundSame]

theorem belongs_merged {height i label : Nat} :
    Belongs (nodes.map (mergedNode height smallest second)) i label ↔
      ∃ before, newLabel smallest second before = label ∧ Belongs nodes i before := by
  simp only [Belongs, List.getElem?_map, Option.map_eq_some_iff]
  constructor
  · rintro ⟨_, ⟨node, found, rfl⟩, rfl⟩
    exact ⟨node.cluster, rfl, node, found, rfl⟩
  · rintro ⟨before, rfl, node, found, rfl⟩
    exact ⟨_, ⟨node, found, rfl⟩, rfl⟩

theorem lengths_eq (different : smallest ≠ second) {first last : Nat}
    (firstLength : ∀ node ∈ nodes, node.cluster = smallest → node.vid.length = first)
    (lastLength : ∀ node ∈ nodes, node.cluster = second → node.vid.length = last) :
    open Classical in lengths nodes smallest (some second) =
      (if Live nodes smallest then some first else none,
        if Live nodes second then some last else none) := by
  have loop (start : Option Nat × Option Nat) :
      open Classical in nodes.foldl (fun len node =>
        if some node.cluster = some second then (len.1, some node.vid.length)
        else if node.cluster = smallest then (some node.vid.length, len.2)
        else len) start =
      (if Live nodes smallest then some first else start.1,
        if Live nodes second then some last else start.2) := by
    induction nodes generalizing start with
    | nil => simp [Live]
    | cons node rest ih =>
        rw [List.foldl_cons,
          ih (fun other member => firstLength other (List.mem_cons_of_mem _ member))
          (fun other member => lastLength other (List.mem_cons_of_mem _ member))]
        by_cases isSecond : node.cluster = second
        · have length := lastLength node List.mem_cons_self isSecond
          simp [Live, isSecond, length, different.symm]
        · by_cases isSmallest : node.cluster = smallest
          · have length := firstLength node List.mem_cons_self isSmallest
            simp [Live, isSmallest, length, different]
          · simp [Live, isSecond, isSmallest]
  exact loop (none, none)

theorem lengths_same (nodes : List ClusterNode) (smallest : Nat) :
    (lengths nodes smallest (some smallest)).1 = none := by
  refine List.foldlRecOn (motive := fun len : Option Nat × Option Nat => len.1 =
    none) nodes _ rfl ?_
  intro len absent node _
  split
  · exact absent
  · rename_i other
    rw [if_neg fun same => other (congrArg some same)]
    exact absent

theorem lengths_mem (nodes : List ClusterNode) (smallest : Nat) (second : Option Nat) (length : Nat)
    (found : (lengths nodes smallest second).1 = some length ∨
      (lengths nodes smallest second).2 = some length) :
    ∃ node ∈ nodes, (some node.cluster = second ∨ node.cluster = smallest) ∧
      node.vid.length = length := by
  refine List.foldlRecOn (motive := fun len : Option Nat × Option Nat => len.1 = some length ∨
    len.2 = some length →
    ∃ node ∈ nodes, (some node.cluster = second ∨ node.cluster = smallest) ∧
      node.vid.length = length)
    nodes _ (by simp) ?_ found
  intro len before node member found
  split at found
  · rename_i isSecond
    rcases found with kept | new
    · exact before (Or.inl kept)
    · exact ⟨node, member, Or.inl isSecond, Option.some.inj new⟩
  · split at found
    · rename_i isSmallest
      rcases found with new | kept
      · exact ⟨node, member, Or.inr isSmallest, Option.some.inj new⟩
      · exact before (Or.inr kept)
    · exact before found

theorem equalize_of_alike {second : Option Nat}
    (alike : ∀ node ∈ nodes, ∀ other ∈ nodes,
      (some node.cluster = second ∨ node.cluster = smallest) →
      (some other.cluster = second ∨ other.cluster = smallest) →
        node.vid.length = other.vid.length) :
    equalize nodes smallest second = nodes := by
  simp only [equalize]
  split
  · refine (List.map_congr_left fun node member => ?_).trans (List.map_id nodes)
    split
    · rename_i inside
      have bounded (len : Option Nat)
          (known : ∀ length, len = some length → ∃ other ∈ nodes,
            (some other.cluster = second ∨ other.cluster = smallest) ∧ other.vid.length = length) :
          len.getD 0 ≤ node.vid.length := by
        cases len with
        | none => exact Nat.zero_le _
        | some length =>
            obtain ⟨other, otherMember, otherInside, same⟩ := known length rfl
            exact Nat.le_of_eq
              (same.symm.trans (alike other otherMember node member otherInside inside))
      have short := Nat.max_le.mpr
        ⟨bounded _ fun length same => lengths_mem nodes smallest second length (Or.inl same),
          bounded _ fun length same => lengths_mem nodes smallest second length (Or.inr same)⟩
      rw [BitString.pad_of_le short]
      rfl
    · rfl
  · rfl

theorem relabel_equalize (different : smallest ≠ second) {first last : Nat}
    (firstLength : ∀ node ∈ nodes, node.cluster = smallest → node.vid.length = first)
    (lastLength : ∀ node ∈ nodes, node.cluster = second → node.vid.length = last)
    (smallestLive : Live nodes smallest) (secondLive : Live nodes second) :
    relabel (equalize nodes smallest (some second)) smallest second =
      nodes.map (mergedNode (max first last) smallest second) := by
  simp only [equalize, lengths_eq different firstLength lastLength, if_pos smallestLive,
    if_pos secondLive, Option.getD_some, relabel]
  by_cases same : first = last
  · subst last
    rw [if_neg (by simp)]
    refine List.map_congr_left fun node member => ?_
    simp only [mergedNode, newLabel]
    by_cases isSecond : node.cluster = second
    · simp [isSecond, BitString.pad_of_le (Nat.le_of_eq (lastLength node member isSecond).symm)]
    · by_cases isSmallest : node.cluster = smallest
      · simp [isSmallest, different,
          BitString.pad_of_le (Nat.le_of_eq (firstLength node member isSmallest).symm)]
      · simp [isSecond, isSmallest]
  · rw [if_pos (by simpa using same), List.map_map]
    refine List.map_congr_left fun node member => ?_
    simp only [mergedNode, newLabel, Function.comp_apply, Option.some.injEq]
    by_cases isSecond : node.cluster = second
    · simp [isSecond]
    · by_cases isSmallest : node.cluster = smallest
      · simp [isSmallest, different]
      · simp [isSecond, isSmallest]

theorem newLabel_eq_min {label : Nat} : newLabel smallest second label = min smallest second ↔
    label = second ∨ label = smallest := by
  simp only [newLabel]
  split
  · simp [*]
  · rename_i other
    have apart : label ≠ min smallest second := by omega
    simp [apart, other]

theorem newLabel_eq_other {label other : Nat} (elsewhere : label ≠ min smallest second)
    (kept : newLabel smallest second other = label) :
    other = label ∧ label ≠ second ∧ label ≠ smallest := by
  simp only [newLabel] at kept
  split at kept
  · exact (elsewhere kept.symm).elim
  · rename_i apart
    subst label
    exact ⟨rfl, fun same => apart (Or.inl same), fun same => apart (Or.inr same)⟩

theorem Represents.length {i : Nat} {node : ClusterNode} (represents : Represents nodes forest)
    (found : nodes[i]? = some node) : node.vid.length = (forest node.cluster).height := by
  rw [represents.code i node found, Dendrogram.length_code]

theorem Represents.merge (represents : Represents nodes forest) (different : smallest ≠ second)
    (smallestLive : Live nodes smallest) (secondLive : Live nodes second) :
    Represents (nodes.map (mergedNode (max (forest second).height (forest smallest).height)
      smallest second)) (merged forest smallest second) where
  leaves := by
    intro label live i
    obtain ⟨j, inside⟩ := live_iff.mp live
    obtain ⟨origin, same, belonged⟩ := belongs_merged.mp inside
    rw [belongs_merged]
    by_cases new : label = min smallest second
    · rw [new, merged, if_pos rfl, Dendrogram.leaves, List.mem_append,
        represents.leaves second secondLive,
        represents.leaves smallest smallestLive]
      constructor
      · rintro (isSecond | isSmallest)
        · exact ⟨second, newLabel_eq_min.mpr (Or.inl rfl), isSecond⟩
        · exact ⟨smallest, newLabel_eq_min.mpr (Or.inr rfl), isSmallest⟩
      · rintro ⟨before, became, belongs⟩
        rcases newLabel_eq_min.mp became with rfl | rfl
        · exact Or.inl belongs
        · exact Or.inr belongs
    · obtain ⟨rfl, notSecond, notSmallest⟩ := newLabel_eq_other new same
      rw [merged, if_neg new, represents.leaves origin (live_iff.mpr ⟨j, belonged⟩)]
      constructor
      · intro belongs
        exact ⟨origin, if_neg (by omega), belongs⟩
      · rintro ⟨before, became, belongs⟩
        exact (newLabel_eq_other new became).1 ▸ belongs
  code := by
    intro i after found
    rw [List.getElem?_map, Option.map_eq_some_iff] at found
    obtain ⟨node, foundNode, rfl⟩ := found
    have code := represents.code i node foundNode
    by_cases isSecond : node.cluster = second
    · subst second
      have inside : i ∈ (forest node.cluster).leaves :=
        (represents.leaves node.cluster secondLive i).mpr ⟨node, foundNode, rfl⟩
      have label : newLabel smallest node.cluster node.cluster = min smallest node.cluster :=
        newLabel_eq_min.mpr (Or.inl rfl)
      simp only [mergedNode, merged, label, if_true, Dendrogram.code, inside, code]
    · by_cases isSmallest : node.cluster = smallest
      · subst smallest
        have outside : i ∉ (forest second).leaves := by
          intro inside
          obtain ⟨other, foundOther, cluster⟩ := (represents.leaves second secondLive i).mp inside
          rw [foundNode, Option.some.injEq] at foundOther
          subst other
          exact isSecond cluster
        have label : newLabel node.cluster second node.cluster = min node.cluster second :=
          newLabel_eq_min.mpr (Or.inr rfl)
        simp only [mergedNode, merged, label, if_true, if_neg isSecond, Dendrogram.code, outside,
          if_false, code]
      · have label : newLabel smallest second node.cluster = node.cluster := by
          simp [newLabel, isSecond, isSmallest]
        have other : node.cluster ≠ min smallest second := by omega
        simp only [mergedNode, merged, label, if_neg isSecond, if_neg isSmallest, if_neg other]
        exact code

theorem live_merged {height label : Nat} :
    Live (nodes.map (mergedNode height smallest second)) label ↔
      ∃ before, newLabel smallest second before = label ∧ Live nodes before := by
  simp only [live_iff, belongs_merged]
  exact ⟨fun ⟨i, before, same, belongs⟩ => ⟨before, same, i, belongs⟩,
    fun ⟨before, same, i, belongs⟩ => ⟨i, before, same, belongs⟩⟩

theorem zero_merged (zero : Belongs nodes 0 0) (height smallest second : Nat) :
    Belongs (nodes.map (mergedNode height smallest second)) 0 0 := by
  refine belongs_merged.mpr ⟨0, ?_, zero⟩
  simp only [newLabel]
  split <;> omega

theorem Represents.joined_merged {adjacent : Nat → Nat → Prop}
    (represents : Represents nodes forest)
    (joined : ∀ label, Live nodes label → (forest label).Joined adjacent)
    (different : smallest ≠ second) (smallestLive : Live nodes smallest)
    (secondLive : Live nodes second) {left right : Nat} (leftLeaf : left ∈ (forest second).leaves)
    (rightLeaf : right ∈ (forest smallest).leaves) (linked : adjacent left right) {height : Nat}
    (label : Nat) (live : Live (nodes.map (mergedNode height smallest second)) label) :
    (merged forest smallest second label).Joined adjacent := by
  by_cases new : label = min smallest second
  · rw [merged, if_pos new]
    refine ⟨joined second secondLive, joined smallest smallestLive, ?_, left, leftLeaf,
      right, rightLeaf,
      linked⟩
    intro node inSecond inSmallest
    exact different (((represents.leaves smallest smallestLive node).mp inSmallest).unique
      ((represents.leaves second secondLive node).mp inSecond))
  · rw [merged, if_neg new]
    obtain ⟨before, became, belonged⟩ := live_merged.mp live
    obtain ⟨rfl, -⟩ := newLabel_eq_other new became
    exact joined before belonged

end Merge

/-! ### Clusters that an edge joins -/

def Bordering (adjacent : Nat → Nat → Prop) (nodes : List ClusterNode) (first last : Nat) : Prop :=
  first ≠ last ∧ ∃ i j, Belongs nodes i first ∧ Belongs nodes j last ∧ adjacent i j

section Bordering

variable {adjacent : Nat → Nat → Prop} {nodes : List ClusterNode} {smallest second : Nat}

theorem Bordering.live {first last : Nat} (bordering : Bordering adjacent nodes first last) :
    first ≠ last ∧ Live nodes first ∧ Live nodes last := by
  obtain ⟨different, i, j, inFirst, inLast, -⟩ := bordering
  exact ⟨different, live_iff.mpr ⟨i, inFirst⟩, live_iff.mpr ⟨j, inLast⟩⟩

theorem bordering_merged {height first last : Nat} :
    Bordering adjacent (nodes.map (mergedNode height smallest second)) first last ↔
      first ≠ last ∧ ∃ before after, newLabel smallest second before = first ∧
        newLabel smallest second after = last ∧ Bordering adjacent nodes before after := by
  simp only [Bordering, belongs_merged]
  constructor
  · rintro ⟨apart, i, j, ⟨before, became, belongs⟩, ⟨after, becameLast, belongsLast⟩, linked⟩
    refine ⟨apart, before, after, became, becameLast, ?_, i, j, belongs, belongsLast, linked⟩
    rintro rfl
    exact apart (became.symm.trans becameLast)
  · rintro ⟨apart, before, after, became, becameLast, -, i, j, belongs, belongsLast, linked⟩
    exact ⟨apart, i, j, ⟨before, became, belongs⟩, ⟨after, becameLast, belongsLast⟩, linked⟩

theorem exists_bordering (connected : ConnectedWithin adjacent fun i => i < nodes.length)
    {label other : Nat} (live : Live nodes label) (otherLive : Live nodes other)
    (different : other ≠ label) :
    ∃ next, Bordering adjacent nodes label next := by
  obtain ⟨i, inside⟩ := live_iff.mp live
  obtain ⟨j, outside⟩ := live_iff.mp otherLive
  have bound (k l : Nat) (belongs : Belongs nodes k l) : k < nodes.length := by
    obtain ⟨node, found, -⟩ := belongs
    exact (List.getElem?_eq_some_iff.mp found).1
  obtain ⟨left, right, edge, -, rightBound, leftPart, rightPart⟩ :=
    connected.crossing (fun k => Belongs nodes k label) (bound i label inside)
      (bound j other outside) inside fun both => different (outside.unique both)
  refine ⟨nodes[right].cluster, ?_, left, right, leftPart, ?_, edge⟩
  · intro same
    exact rightPart ⟨nodes[right], List.getElem?_eq_getElem rightBound, same.symm⟩
  · exact ⟨nodes[right], List.getElem?_eq_getElem rightBound, rfl⟩

end Bordering

/-! ### The choice of two clusters -/

theorem clusterSizes_lookup (node2cluster : List Nat) (label : Nat) :
    (clusterSizes node2cluster).lookup label =
      if label ∈ node2cluster then some (node2cluster.count label) else none := by
  have loop (table : HashTable Nat Nat) :
      (node2cluster.foldl (fun sizes label =>
        sizes.insert label ((sizes.lookup label).getD 0 + 1)) table).lookup label =
      if label ∈ node2cluster then some ((table.lookup label).getD 0 + node2cluster.count label)
      else table.lookup label := by
    induction node2cluster generalizing table with
    | nil => simp
    | cons first rest ih =>
        rw [List.foldl_cons, ih, lookup_insert_ite]
        by_cases same : label = first
        · subst first
          by_cases later : label ∈ rest
          · simp [later]
            omega
          · simp [later, List.count_eq_zero_of_not_mem later]
        · simp [same, Ne.symm same]
  simpa [clusterSizes] using loop ∅

theorem size_pos {node2cluster : List Nat} {label : Nat} (live : label ∈ node2cluster) :
    1 ≤ ((clusterSizes node2cluster).lookup label).getD 0 := by
  rw [clusterSizes_lookup, if_pos live, Option.getD_some]
  exact List.count_pos_iff.mpr live

def Sized (sizes : HashTable Nat Nat) (walk : List Nat) (chosen : Nat × Nat) : Prop :=
  chosen.1 ∈ walk ∧ chosen.2 = (sizes.lookup chosen.1).getD 0

theorem smallestCluster_spec (sizes : HashTable Nat Nat) (walk : List Nat) :
    Sized sizes (0 :: walk) (smallestCluster sizes walk) := by
  refine List.foldlRecOn (motive := Sized sizes (0 :: walk)) walk _ ⟨List.mem_cons_self, rfl⟩ ?_
  intro smallest chosen label member
  rw [considerSmallest]
  split
  · exact ⟨List.mem_cons_of_mem 0 member, rfl⟩
  · exact chosen

theorem secondCluster_eq_some {sizes neighbors : HashTable Nat Nat} {walk : List Nat}
    {second : Nat × Nat} (chosen : secondCluster sizes neighbors walk = some second) :
    Sized sizes walk second ∧ neighbors.lookup second.1 ≠ some 0 := by
  refine List.foldlRecOn (motive := fun result => ∀ second, result = some second →
    Sized sizes walk second ∧ neighbors.lookup second.1 ≠ some 0) walk
    (considerSecond sizes neighbors) (b := none) (fun _ found => nomatch found) ?_ second chosen
  intro result before label member second found
  unfold considerSecond at found
  split at found
  · exact before second found
  · rename_i present
    cases result with
    | none =>
        cases found
        exact ⟨⟨member, rfl⟩, present⟩
    | some smallest =>
        dsimp only [considerSmallest] at found
        split at found
        · cases found
          exact ⟨⟨member, rfl⟩, present⟩
        · exact before second found

theorem secondCluster_eq_none {sizes neighbors : HashTable Nat Nat} {walk : List Nat}
    (absent : secondCluster sizes neighbors walk = none) :
    ∀ label ∈ walk, neighbors.lookup label = some 0 := by
  have loop (walk : List Nat) (start : Option (Nat × Nat))
      (ends : walk.foldl (considerSecond sizes neighbors) start = none) :
      start = none ∧ ∀ label ∈ walk, neighbors.lookup label = some 0 := by
    induction walk generalizing start with
    | nil => exact ⟨ends, fun _ member => nomatch member⟩
    | cons label rest ih =>
        obtain ⟨kept, others⟩ := ih _ ends
        unfold considerSecond at kept
        split at kept
        · rename_i gone
          exact ⟨kept, fun other member => (List.mem_cons.mp member).elim (· ▸ gone) (others other)⟩
        · cases start <;> cases kept
  exact (loop walk none absent).2

/-! ### The cluster topology -/

def Neighbors (clusterTopo : HashTable Nat (HashTable Nat Nat)) (first second : Nat) : Prop :=
  ∃ neighbors, clusterTopo.lookup first = some neighbors ∧ second ∈ neighbors

theorem neighbors_iff {clusterTopo : HashTable Nat (HashTable Nat Nat)} {first second : Nat} :
    Neighbors clusterTopo first second ↔ second ∈ (clusterTopo.lookup first).getD ∅ := by
  cases found : clusterTopo.lookup first with
  | none => simp [Neighbors, found]
  | some neighbors => simp [Neighbors, found]

section MergeTopo

variable {smallest second : Nat} (different : smallest ≠ second)
include different

theorem relabelNeighbors_lookup (neighbors : HashTable Nat Nat) (label : Nat) :
    (relabelNeighbors smallest second neighbors).lookup label =
      if label = max smallest second then none
      else if label = min smallest second ∧ (smallest ∈ neighbors ∨ second ∈ neighbors) then some 1
      else neighbors.lookup label := by
  rcases Nat.lt_or_gt_of_ne different with less | greater
  · have low : min smallest second = smallest := by omega
    have high : max smallest second = second := by omega
    simp only [relabelNeighbors, low, high]
    by_cases hasSmallest : smallest ∈ neighbors <;> by_cases hasSecond : second ∈ neighbors <;>
      simp only [hasSmallest, hasSecond, AList.mem_insert, if_true, if_false, or_true,
        or_false, and_true,
        and_false, lookup_erase_ite, lookup_insert_ite, different.symm]
    all_goals split_ifs <;> rfl
  · have low : min smallest second = second := by omega
    have high : max smallest second = smallest := by omega
    simp only [relabelNeighbors, low, high]
    by_cases hasSmallest : smallest ∈ neighbors <;> by_cases hasSecond : second ∈ neighbors <;>
      simp only [hasSmallest, hasSecond, AList.mem_insert, if_true, if_false, or_true,
        or_false, true_or,
        and_true, and_false, lookup_erase_ite, lookup_insert_ite]
    all_goals split_ifs <;> rfl

theorem mem_relabelNeighbors (neighbors : HashTable Nat Nat) (label : Nat) :
    label ∈ relabelNeighbors smallest second neighbors ↔
      ∃ before ∈ neighbors, newLabel smallest second before = label := by
  rw [← AList.lookup_isSome, relabelNeighbors_lookup different]
  constructor
  · intro found
    split at found
    · cases found
    · rename_i kept
      split at found
      · rename_i merged
        rcases merged.2 with hasSmallest | hasSecond
        · exact ⟨smallest, hasSmallest, merged.1 ▸ newLabel_eq_min.mpr (Or.inr rfl)⟩
        · exact ⟨second, hasSecond, merged.1 ▸ newLabel_eq_min.mpr (Or.inl rfl)⟩
      · rename_i untouched
        have present : label ∈ neighbors := AList.lookup_isSome.mp found
        refine ⟨label, present, ?_⟩
        rw [newLabel, if_neg]
        rintro (rfl | rfl)
        · exact untouched ⟨by omega, Or.inr present⟩
        · exact untouched ⟨by omega, Or.inl present⟩
  · rintro ⟨before, present, rfl⟩
    by_cases either : before = second ∨ before = smallest
    · have new : newLabel smallest second before = min smallest second := newLabel_eq_min.mpr either
      have has : smallest ∈ neighbors ∨ second ∈ neighbors := by
        rcases either with rfl | rfl
        · exact Or.inr present
        · exact Or.inl present
      rw [new, if_neg (by omega), if_pos ⟨rfl, has⟩]
      rfl
    · have kept : newLabel smallest second before = before := if_neg either
      rw [kept, if_neg (by omega), if_neg (fun both => either (by omega))]
      exact AList.lookup_isSome.mpr present

omit different in
theorem mergeTopo_lookup (clusterTopo : HashTable Nat (HashTable Nat Nat)) (label : Nat) :
    (mergeTopo clusterTopo smallest second).lookup label =
      if label = max smallest second then none
      else if label = min smallest second then
        some ((insertAll (fun _ => 1)
          (((clusterTopo.lookup (min smallest second)).map
            (relabelNeighbors smallest second)).getD ∅)
          (((clusterTopo.lookup (max smallest second)).map
            (relabelNeighbors smallest second)).getD ∅).keys).erase (min smallest second))
      else (clusterTopo.lookup label).map (relabelNeighbors smallest second) := by
  simp only [mergeTopo, lookup_erase_ite, lookup_insert_ite, lookup_mapValues]

theorem mem_mergeTopo {clusterTopo : HashTable Nat (HashTable Nat Nat)}
    (smallestPresent : smallest ∈ clusterTopo) (label : Nat) :
    label ∈ mergeTopo clusterTopo smallest second ↔
      ∃ before ∈ clusterTopo, newLabel smallest second before = label := by
  rw [← AList.lookup_isSome, mergeTopo_lookup]
  constructor
  · intro found
    split at found
    · cases found
    · rename_i kept
      split at found
      · rename_i new
        exact ⟨smallest, smallestPresent, new ▸ newLabel_eq_min.mpr (Or.inr rfl)⟩
      · rename_i untouched
        rw [Option.isSome_map, AList.lookup_isSome] at found
        exact ⟨label, found, if_neg (by omega)⟩
  · rintro ⟨before, present, rfl⟩
    by_cases either : before = second ∨ before = smallest
    · have new : newLabel smallest second before = min smallest second := newLabel_eq_min.mpr either
      rw [new, if_neg (by omega), if_pos rfl]
      rfl
    · have kept : newLabel smallest second before = before := if_neg either
      rw [kept, if_neg (by omega), if_neg (by omega), Option.isSome_map]
      exact AList.lookup_isSome.mpr present

/-- A merge takes the quotient of the cluster topology, without the loop at the new cluster. -/
theorem neighbors_mergeTopo {clusterTopo : HashTable Nat (HashTable Nat Nat)}
    (loopless : ∀ label, ¬Neighbors clusterTopo label label) (first last : Nat) :
    Neighbors (mergeTopo clusterTopo smallest second) first last ↔
      first ≠ last ∧ ∃ before after, newLabel smallest second before = first ∧
        newLabel smallest second after = last ∧ Neighbors clusterTopo before after := by
  have image (label other : Nat) :
      other ∈ ((clusterTopo.lookup label).map (relabelNeighbors smallest second)).getD ∅ ↔
        ∃ after, newLabel smallest second after = other ∧ Neighbors clusterTopo label after := by
    cases found : clusterTopo.lookup label with
    | none => simp [Neighbors, found]
    | some neighbors =>
        simp only [Option.map_some, Option.getD_some, mem_relabelNeighbors different,
          Neighbors, found,
          Option.some.injEq, exists_eq_left']
        exact ⟨fun ⟨after, member, same⟩ => ⟨after, same, member⟩,
          fun ⟨after, same, member⟩ => ⟨after, member, same⟩⟩
  by_cases removed : first = max smallest second
  · have gone : (mergeTopo clusterTopo smallest second).lookup first = none := by
      rw [mergeTopo_lookup, if_pos removed]
    constructor
    · rintro ⟨neighbors, found, -⟩
      rw [gone] at found
      cases found
    · rintro ⟨-, before, after, rfl, -⟩
      simp only [newLabel] at removed
      split at removed <;> omega
  · by_cases new : first = min smallest second
    · subst first
      have joined : Neighbors (mergeTopo clusterTopo smallest second) (min smallest second) last ↔
          last ≠ min smallest second ∧
            (last ∈ ((clusterTopo.lookup (max smallest second)).map
              (relabelNeighbors smallest second)).getD ∅ ∨
            last ∈ ((clusterTopo.lookup (min smallest second)).map
              (relabelNeighbors smallest second)).getD ∅) := by
        rw [Neighbors, mergeTopo_lookup, if_neg removed, if_pos rfl]
        constructor
        · rintro ⟨neighbors, found, member⟩
          rw [Option.some.injEq] at found
          subst neighbors
          obtain ⟨different, joined⟩ := AList.mem_erase.mp member
          exact ⟨different, (mem_insertAll _ _ _ _).mp joined⟩
        · rintro ⟨different, joined⟩
          exact ⟨_, rfl, AList.mem_erase.mpr ⟨different, (mem_insertAll _ _ _ _).mpr joined⟩⟩
      rw [joined, image, image]
      constructor
      · rintro ⟨apart, ⟨after, same, edge⟩ | ⟨after, same, edge⟩⟩
        · exact ⟨apart.symm, max smallest second, after, newLabel_eq_min.mpr (by omega), same, edge⟩
        · exact ⟨apart.symm, min smallest second, after, newLabel_eq_min.mpr (by omega), same, edge⟩
      · rintro ⟨apart, before, after, merged, same, edge⟩
        refine ⟨apart.symm, ?_⟩
        by_cases high : before = max smallest second
        · exact Or.inl ⟨after, same, high ▸ edge⟩
        · have low : before = min smallest second := by
            have either := newLabel_eq_min.mp merged
            omega
          exact Or.inr ⟨after, same, low ▸ edge⟩
    · have kept : Neighbors (mergeTopo clusterTopo smallest second) first last ↔
          last ∈ ((clusterTopo.lookup first).map (relabelNeighbors smallest second)).getD ∅ := by
        rw [Neighbors, mergeTopo_lookup, if_neg removed, if_neg new]
        cases found : clusterTopo.lookup first with
        | none => simp
        | some neighbors => simp
      rw [kept, image]
      constructor
      · rintro ⟨after, same, edge⟩
        refine ⟨?_, first, after, if_neg (by omega), same, edge⟩
        rintro rfl
        obtain ⟨rfl, -⟩ := newLabel_eq_other new same
        exact loopless _ edge
      · rintro ⟨-, before, after, merged, same, edge⟩
        obtain ⟨rfl, -⟩ := newLabel_eq_other new merged
        exact ⟨after, same, edge⟩

def Unmarked (clusterTopo : HashTable Nat (HashTable Nat Nat)) : Prop :=
  ∀ label neighbors, clusterTopo.lookup label = some neighbors →
    ∀ other, neighbors.lookup other ≠ some 0

theorem Unmarked.mergeTopo {clusterTopo : HashTable Nat (HashTable Nat Nat)}
    (unmarked : Unmarked clusterTopo) : Unmarked (mergeTopo clusterTopo smallest second) := by
  have relabeled (label other : Nat) : (((clusterTopo.lookup label).map
      (relabelNeighbors smallest second)).getD ∅).lookup other ≠ some 0 := by
    cases found : clusterTopo.lookup label with
    | none => exact fun zero => nomatch zero
    | some neighbors =>
        rw [Option.map_some, Option.getD_some, relabelNeighbors_lookup different]
        split
        · exact fun zero => nomatch zero
        · split
          · exact fun zero => nomatch zero
          · exact unmarked label neighbors found other
  intro label neighbors found other
  rw [mergeTopo_lookup] at found
  split at found
  · cases found
  · split at found
    · cases found
      rw [lookup_erase_ite, lookup_insertAll]
      split
      · exact fun zero => nomatch zero
      · split
        · exact fun zero => nomatch zero
        · exact relabeled _ other
    · have same := relabeled label other
      rwa [found, Option.getD_some] at same

theorem length_keys_mergeTopo {clusterTopo : HashTable Nat (HashTable Nat Nat)}
    (smallestPresent : smallest ∈ clusterTopo) (secondPresent : second ∈ clusterTopo) :
    (Clusters.mergeTopo clusterTopo smallest second).keys.length + 1 = clusterTopo.keys.length := by
  have present (label : Nat) (either : label = smallest ∨ label = second) :
      label ∈ mapValues (relabelNeighbors smallest second) clusterTopo := by
    rcases either with rfl | rfl
    · exact (mem_mapValues _ _ _).mpr smallestPresent
    · exact (mem_mapValues _ _ _).mpr secondPresent
  have length := congrArg List.length
    (keys_mapValues (relabelNeighbors smallest second) clusterTopo)
  rw [← length, Clusters.mergeTopo, length_keys_erase, length_keys_insert]
  · exact present _ (by omega)
  · exact AList.mem_insert _ |>.mpr (Or.inr (present _ (by omega)))

end MergeTopo

end Clusters

end Veil
