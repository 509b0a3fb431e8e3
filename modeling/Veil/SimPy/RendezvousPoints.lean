import Veil.Topology
import Veil.SimPy.ClusterLoop
import Veil.SimPy.Vid

/-! From the lines of the adjacency list to the VIDs of its nodes. -/

namespace Veil

namespace SimPy

open HashTable
open Clusters (Belongs Live)

variable {α : Type} [DecidableEq α]

def nodesOf (lines : List (α × List α)) : List α :=
  (lines.flatMap fun line => line.1 :: line.2).dedup

def Adjacent (lines : List (α × List α)) (node other : α) : Prop :=
  ∃ line ∈ lines, (line.1 = node ∧ other ∈ line.2) ∨ (line.1 = other ∧ node ∈ line.2)

omit [DecidableEq α] in
theorem Adjacent.symm {lines : List (α × List α)} {node other : α}
    (edge : Adjacent lines node other) :
    Adjacent lines other node := by
  obtain ⟨line, member, either⟩ := edge
  exact ⟨line, member, either.symm⟩

namespace Topology

def Lists (nodes : HashTable α (HashTable α Nat)) (node other : α) : Prop :=
  ∃ neighbors, nodes.lookup node = some neighbors ∧ other ∈ neighbors

theorem mem_addNode (topology : Topology α) (node other : α) :
    other ∈ (topology.addNode node).nodes ↔ other = node ∨ other ∈ topology.nodes := by
  rw [addNode]
  split
  · rename_i present
    exact ⟨Or.inr, fun either => either.elim (fun same => same ▸ present) id⟩
  · exact AList.mem_insert topology.nodes

theorem lists_addNode (topology : Topology α) (node left right : α) :
    Lists (topology.addNode node).nodes left right ↔ Lists topology.nodes left right := by
  rw [addNode]
  split
  · exact Iff.rfl
  · rename_i absent
    have none : topology.nodes.lookup node = none := AList.lookup_eq_none.mpr absent
    simp only [Lists, lookup_insert_ite]
    by_cases same : left = node
    · subst left
      simp [none]
    · simp [same]

theorem mem_setNeighbor (nodes : HashTable α (HashTable α Nat)) (node node1 other : α) :
    other ∈ setNeighbor nodes node node1 ↔ other = node ∨ other ∈ nodes :=
  AList.mem_insert nodes

theorem lists_setNeighbor (nodes : HashTable α (HashTable α Nat)) (node node1 left right : α) :
    Lists (setNeighbor nodes node node1) left right ↔
      (left = node ∧ right = node1) ∨ Lists nodes left right := by
  simp only [Lists, setNeighbor, lookup_insert_ite]
  by_cases same : left = node
  · subst left
    cases found : nodes.lookup node with
    | none => simp [AList.mem_keys]
    | some neighbors => simp
  · simp [same]

theorem mem_readNeighbor (node : α) (topology : Topology α) (node1 other : α) :
    other ∈ (readNeighbor node topology node1).nodes ↔
      (other = node ∨ other = node1) ∨ other ∈ topology.nodes := by
  simp only [readNeighbor, mem_setNeighbor, mem_addNode]
  tauto

theorem lists_readNeighbor (node : α) (topology : Topology α) (node1 left right : α) :
    Lists (readNeighbor node topology node1).nodes left right ↔
      ((left = node ∧ right = node1) ∨ (left = node1 ∧ right = node)) ∨
        Lists topology.nodes left right := by
  simp only [readNeighbor, lists_setNeighbor, lists_addNode]
  tauto

theorem mem_readLine (topology : Topology α) (line : α × List α) (other : α) :
    other ∈ (readLine topology line).nodes ↔ other ∈ line.1 :: line.2 ∨ other ∈ topology.nodes := by
  rw [readLine, NetworkTopo.foldl_iff (fun topology : Topology α => other ∈ topology.nodes) _
    (fun topology node1 => mem_readNeighbor line.1 topology node1 other), mem_addNode]
  simp only [List.mem_cons]
  constructor
  · rintro (⟨node1, member, rfl | rfl⟩ | rfl | before)
    · exact Or.inl (Or.inl rfl)
    · exact Or.inl (Or.inr member)
    · exact Or.inl (Or.inl rfl)
    · exact Or.inr before
  · rintro ((rfl | member) | before)
    · exact Or.inr (Or.inl rfl)
    · exact Or.inl ⟨other, member, Or.inr rfl⟩
    · exact Or.inr (Or.inr before)

theorem mem_readLines (lines : List (α × List α)) (node : α) :
    node ∈ (readLines lines).nodes ↔ node ∈ nodesOf lines := by
  rw [readLines, NetworkTopo.foldl_iff (fun topology : Topology α => node ∈ topology.nodes) _
    (fun topology line => mem_readLine topology line node), nodesOf, List.mem_dedup,
      List.mem_flatMap]
  exact or_iff_left (AList.notMem_empty node)

theorem lists_readLines (lines : List (α × List α)) (node other : α) :
    Lists (readLines lines).nodes node other ↔ Adjacent lines node other := by
  have inner (topology : Topology α) (line : α × List α) :
      Lists (readLine topology line).nodes node other ↔
        ((line.1 = node ∧ other ∈ line.2) ∨ (line.1 = other ∧ node ∈ line.2)) ∨
          Lists topology.nodes node other := by
    rw [readLine,
      NetworkTopo.foldl_iff (fun topology : Topology α => Lists topology.nodes node other) _
      (fun topology node1 => lists_readNeighbor line.1 topology node1 node other), lists_addNode]
    refine or_congr_left ⟨?_, ?_⟩
    · rintro ⟨node1, member, ⟨rfl, rfl⟩ | ⟨rfl, rfl⟩⟩
      · exact Or.inl ⟨rfl, member⟩
      · exact Or.inr ⟨rfl, member⟩
    · rintro (⟨rfl, member⟩ | ⟨rfl, member⟩)
      · exact ⟨other, member, Or.inl ⟨rfl, rfl⟩⟩
      · exact ⟨node, member, Or.inr ⟨rfl, rfl⟩⟩
  rw [readLines,
    NetworkTopo.foldl_iff (fun topology : Topology α => Lists topology.nodes node other) _ inner]
  exact or_iff_left fun ⟨neighbors, found, _⟩ => nomatch found

structure Numbered (topology : Topology α) : Prop where
  unique : topology.ids2node.Nodup
  known : ∀ node, node ∈ topology.ids2node ↔ node ∈ topology.nodes

theorem Numbered.addNode {topology : Topology α} (numbered : Numbered topology) (node : α) :
    Numbered (topology.addNode node) := by
  rw [Topology.addNode]
  split
  · exact numbered
  · rename_i absent
    refine ⟨List.nodup_append_comm.mp (List.nodup_cons.mpr ⟨?_, numbered.unique⟩), fun other => ?_⟩
    · exact fun member => absent ((numbered.known node).mp member)
    · rw [List.mem_append, List.mem_singleton, AList.mem_insert, numbered.known, or_comm]

theorem Numbered.readLine {topology : Topology α} (numbered : Numbered topology)
    (line : α × List α) :
    Numbered (topology.readLine line) := by
  refine (List.foldlRecOn (motive := fun topology : Topology α => Numbered topology ∧
    line.1 ∈ topology.nodes)
    line.2 (readNeighbor line.1) ⟨numbered.addNode line.1,
      (mem_addNode _ _ _).mpr (Or.inl rfl)⟩ ?_).1
  rintro topology ⟨before, present⟩ node1 -
  have added := before.addNode node1
  refine ⟨⟨added.unique, fun node => ?_⟩, (mem_readNeighbor _ _ _ _).mpr (Or.inr present)⟩
  rw [mem_readNeighbor, readNeighbor, added.known, mem_addNode]
  constructor
  · rintro (rfl | member)
    · exact Or.inl (Or.inr rfl)
    · exact Or.inr member
  · rintro ((rfl | rfl) | member)
    · exact Or.inr present
    · exact Or.inl rfl
    · exact Or.inr member

theorem numbered_readLines (lines : List (α × List α)) : Numbered (readLines lines) := by
  refine List.foldlRecOn (motive := Numbered) lines readLine ⟨List.nodup_nil, fun node => ?_⟩
    fun topology before line _ => before.readLine line
  exact iff_of_false List.not_mem_nil (AList.notMem_empty node)

theorem ids2node_perm (lines : List (α × List α)) :
    (readLines lines).ids2node.Perm (nodesOf lines) := by
  have numbered := numbered_readLines lines
  refine (List.perm_ext_iff_of_nodup numbered.unique (List.nodup_dedup _)).mpr fun node => ?_
  rw [numbered.known, mem_readLines]
  exact Iff.rfl

theorem mem_of_lists {lines : List (α × List α)} {node other : α}
    (lists : Lists (readLines lines).nodes node other) : other ∈ (readLines lines).ids2node := by
  obtain ⟨neighbors, found, -⟩ := (lists_readLines lines other node).mpr
    ((lists_readLines lines _ _).mp lists).symm
  exact ((numbered_readLines lines).known other).mpr (mem_of_lookup found)

theorem mem_neighborIds (lines : List (α × List α)) (names : IterationOrder α) (i j : Nat) :
    j ∈ (readLines lines).neighborIds names i ↔
      ByIndex (Adjacent lines) (readLines lines).ids2node i j := by
  have unique := (numbered_readLines lines).unique
  have listed (node other : α) : other ∈ (((readLines lines).nodes.lookup node).getD ∅).keys ↔
      Lists (readLines lines).nodes node other := by
    rw [← AList.mem_keys]
    cases found : (readLines lines).nodes.lookup node with
    | none => simp [Lists, found, AList.notMem_empty]
    | some neighbors => simp [Lists, found]
  rw [neighborIds, ByIndex]
  cases (readLines lines).ids2node[i]? with
  | none => simp
  | some node =>
      simp only [List.mem_map, names.mem_arrange, listed, Option.some.injEq]
      constructor
      · rintro ⟨other, lists, same⟩
        exact ⟨node, other, rfl, (NetworkTopo.idxOf_eq_iff unique).mp ⟨mem_of_lists lists, same⟩,
          (lists_readLines lines _ _).mp lists⟩
      · rintro ⟨_, other, rfl, found, edge⟩
        exact ⟨other, (lists_readLines lines _ _).mpr edge,
          ((NetworkTopo.idxOf_eq_iff unique).mpr found).2⟩

theorem nodup_neighborIds (lines : List (α × List α)) (names : IterationOrder α) (i : Nat) :
    ((readLines lines).neighborIds names i).Nodup := by
  rw [neighborIds]
  cases (readLines lines).ids2node[i]? with
  | none => exact List.nodup_nil
  | some node =>
      refine (names.nodup_arrange i (AList.keys_nodup _)).map_on ?_
      intro left leftKey right rightKey same
      have known (other : α) (key : other ∈ names.arrange i
          (((readLines lines).nodes.lookup node).getD ∅).keys) : other ∈
            (readLines lines).ids2node := by
        rw [names.mem_arrange, ← AList.mem_keys] at key
        cases found : (readLines lines).nodes.lookup node with
        | none =>
            rw [found] at key
            exact (AList.notMem_empty other key).elim
        | some neighbors =>
            rw [found] at key
            exact mem_of_lists ⟨neighbors, found, key⟩
      exact (List.idxOf_inj (known left leftKey)).mp same

end Topology

section Initial

variable (lines : List (α × List α)) (names : IterationOrder α)

theorem marked_initial (topology : Topology α) :
    (Assignment.initial topology names).nodes.map Assignment.marked =
    (NetworkTopo.initialClusters topology.ids2node.length ∅).nodes := by
  rw [Assignment.initial, List.map_map]
  rfl

theorem initial_invariant (selfless : ∀ line ∈ lines, line.1 ∉ line.2) :
    Assignment.Invariant (ByIndex (Adjacent lines) (Topology.readLines lines).ids2node)
      (Assignment.initial (Topology.readLines lines) names) .leaf := by
  have loopless (node : α) : ¬Adjacent lines node node := by
    rintro ⟨line, member, ⟨rfl, listed⟩ | ⟨rfl, listed⟩⟩
    · exact selfless line member listed
    · exact selfless line member listed
  have belongs (i label : Nat) :
      Belongs (Assignment.initial (Topology.readLines lines) names).nodes i label ↔
      i < (Topology.readLines lines).ids2node.length ∧ i = label := by
    rw [← Assignment.belongs_marked, marked_initial, NetworkTopo.belongs_initial]
  have live (label : Nat) : Live (Assignment.initial (Topology.readLines lines) names).nodes label ↔
      label < (Topology.readLines lines).ids2node.length := by
    rw [← Assignment.live_marked, marked_initial, NetworkTopo.live_initial]
  have lookup (label : Nat) :
      (Assignment.initial (Topology.readLines lines) names).clusterTopo.lookup label =
      if label < (Topology.readLines lines).ids2node.length then
        some ((Topology.readLines lines).neighborIds names label) else none := by
    rw [Assignment.initial, lookup_insertAll]
    simp only [List.mem_range]
    rfl
  refine ⟨?_, fun _ _ => trivial, ?_, ?_, ?_, ?_, ?_⟩
  · rw [marked_initial]
    exact NetworkTopo.initial_represents _ _
  · intro label
    rw [live, mem_iff_lookup, lookup]
    split <;> simp [*]
  · intro first last
    rw [Assignment.Neighbors, lookup]
    simp only [Clusters.Bordering, belongs]
    constructor
    · rintro ⟨neighbors, found, member⟩
      split at found
      · rename_i bound
        cases found
        obtain ⟨node, other, firstNode, lastNode, adjacent⟩ :=
          (Topology.mem_neighborIds lines names first last).mp member
        refine ⟨?_, first, last, ⟨bound, rfl⟩, ⟨(List.getElem?_eq_some_iff.mp lastNode).1, rfl⟩,
          node, other, firstNode, lastNode, adjacent⟩
        rintro rfl
        rw [firstNode, Option.some.injEq] at lastNode
        exact loopless other (lastNode ▸ adjacent)
      · cases found
    · rintro ⟨-, i, j, ⟨bound, rfl⟩, ⟨-, rfl⟩, edge⟩
      exact ⟨_, if_pos bound, (Topology.mem_neighborIds lines names i j).mpr edge⟩
  · intro label neighbors found
    rw [lookup] at found
    split at found
    · cases found
      exact Topology.nodup_neighborIds lines names label
    · cases found
  · intro label inside
    exact (belongs label label).mpr ⟨(live label).mp inside, rfl⟩
  · intro label inside
    exact (belongs 0 0).mpr ⟨Nat.zero_lt_of_lt ((live label).mp inside), rfl⟩

theorem initial_length (topology : Topology α) :
    (Assignment.initial topology names).nodes.length = topology.ids2node.length ∧
      (Assignment.initial topology names).clusterTopo.keys.length = topology.ids2node.length := by
  simp [Assignment.initial, length_keys_insertAll _ List.nodup_range]

end Initial

theorem exists_mapM {γ : Type} {step : Nat → Option γ} {walk : List Nat} {results : List γ}
    (each : ∀ i < results.length, step i = results[i]?)
    (walked : walk.Perm (List.range results.length)) :
    ∃ output, walk.mapM step = some output ∧ output.Perm results := by
  cases results with
  | nil =>
      rw [List.length_nil, List.range_zero, List.perm_nil] at walked
      exact ⟨[], by rw [walked]; rfl, List.Perm.refl _⟩
  | cons first rest =>
      have found (i : Nat) (bound : i < (first :: rest).length) :
          step i = some ((first :: rest).getD i first) := by
        rw [each i bound, List.getD_eq_getElem?_getD, List.getElem?_eq_getElem bound,
          Option.getD_some]
      have run (walk : List Nat) (bounded : ∀ i ∈ walk, i < (first :: rest).length) :
          walk.mapM step = some (walk.map fun i => (first :: rest).getD i first) := by
        induction walk with
        | nil => rfl
        | cons i walk ih =>
            rw [List.mapM_cons, found i (bounded i List.mem_cons_self),
              ih fun j member => bounded j (List.mem_cons_of_mem i member)]
            rfl
      refine ⟨_, run walk fun i member => List.mem_range.mp (walked.mem_iff.mp member), ?_⟩
      have whole : (List.range (first :: rest).length).map (fun i => (first :: rest).getD i first) =
          first :: rest := by
        refine List.ext_getElem (by simp) fun i bound _ => ?_
        rw [List.length_map, List.length_range] at bound
        rw [List.getElem_map, List.getElem_range, List.getD_eq_getElem?_getD,
          List.getElem?_eq_getElem bound,
          Option.getD_some]
      exact (walked.map _).trans (.of_eq whole)

section Tree

variable {lines : List (α × List α)} {ids : List α} {tree : Dendrogram Nat}

theorem addressing_way (unique : ids.Nodup) (joined : tree.Joined (ByIndex (Adjacent lines) ids))
    (leaves : ∀ i, i ∈ tree.leaves ↔ i < ids.length) :
    Addressing (Adjacent lines) (fun node => node ∈ ids) (fun node => tree.way (ids.idxOf node))
      (tree.height - 1) := by
  have length (i : Nat) : (tree.way i).length = tree.height - 1 := by
    have marked := tree.length_way i
    omega
  have leaf (node : α) (member : node ∈ ids) : ids.idxOf node ∈ tree.leaves :=
    (leaves _).mpr (List.idxOf_lt_length_of_mem member)
  have symmetric (i j : Nat) (edge : ByIndex (Adjacent lines) ids i j) :
      ByIndex (Adjacent lines) ids j i := by
    obtain ⟨node, other, first, last, adjacent⟩ := edge
    exact ⟨other, node, last, first, adjacent.symm⟩
  refine ⟨fun node _ => length _, ?_, ?_, ?_⟩
  · intro node other member otherMember same
    have code : tree.code (ids.idxOf node) = tree.code (ids.idxOf other) := by
      rw [Dendrogram.code_eq_way, Dendrogram.code_eq_way, same]
    exact (List.idxOf_inj member).mp
      (tree.code_inj (leaf node member) (leaf other otherMember) code)
  · intro node member d positive bound
    have alike := joined.alike_connected symmetric (tree.height - 1 - d) (leaf node member)
    have near (i : Nat) : delta (tree.way (ids.idxOf node)) (tree.way i) ≤ d ↔
        (tree.code i).take (tree.height - 1 - d) =
          (tree.code (ids.idxOf node)).take (tree.height - 1 - d) := by
      have inside (j : Nat) : (tree.code j).take (tree.height - 1 - d) =
          (tree.way j).take (tree.height - 1 - d) := by
        rw [Dendrogram.code_eq_way, List.take_append_of_le_length (by rw [length]; omega)]
      rw [delta_le_iff ((length _).trans (length i).symm), length, inside, inside, eq_comm]
    refine (ConnectedWithin.of_byIndex alike fun i inside => (leaves i).mp inside.1).congr
      fun other => ?_
    constructor
    · rintro ⟨i, ⟨inside, same⟩, found⟩
      obtain ⟨otherMember, rfl⟩ := (NetworkTopo.idxOf_eq_iff unique).mpr found
      exact ⟨otherMember, (near _).mpr same⟩
    · rintro ⟨otherMember, close⟩
      exact ⟨ids.idxOf other, ⟨leaf other otherMember, (near _).mp close⟩,
        (NetworkTopo.idxOf_eq_iff unique).mp ⟨otherMember, rfl⟩⟩
  · intro node member d positive bound
    obtain ⟨i, inside, cleared⟩ := joined.exists_clear (tree.height - d) (leaf node member)
    have below : i < ids.length := (leaves i).mp inside
    have count : tree.height - 1 + 1 - d = tree.height - d := by
      have tall := tree.height_pos
      omega
    refine ⟨ids[i], List.getElem_mem below, ?_⟩
    rw [unique.idxOf_getElem i below, cleared,
      getRendezvousID_eq_clear positive (by rw [length]; exact bound),
      length, count]

end Tree

/-- Whatever is drawn, and in whatever order dictionaries are walked, the output gives every node
of a connected graph a VID, and every rendezvous VID is that of a node. -/
theorem assign_addressing (lines : List (α × List α)) (selfless : ∀ line ∈ lines, line.1 ∉ line.2)
    (connected : ConnectedWithin (Adjacent lines) fun node => node ∈ nodesOf lines)
    (few : (nodesOf lines).length ≤ 5000) (names : IterationOrder α) (labels : IterationOrder Nat)
    (rand : Nat → Bool) :
    ∃ output vid L, assign lines names labels rand = some output ∧
      output.Perm ((nodesOf lines).map fun node => (node, vid node)) ∧
      Addressing (Adjacent lines) (fun node => node ∈ nodesOf lines) vid L := by
  have perm := Topology.ids2node_perm lines
  have unique := (Topology.numbered_readLines lines).unique
  obtain ⟨length, keys⟩ := initial_length names (Topology.readLines lines)
  have graph : ConnectedWithin (ByIndex (Adjacent lines) (Topology.readLines lines).ids2node)
      fun i => i < (Assignment.initial (Topology.readLines lines) names).nodes.length := by
    rw [length]
    exact (connected.congr fun node => perm.mem_iff.symm).byIndex unique
  have symmetric (i j : Nat) (edge :
      ByIndex (Adjacent lines) (Topology.readLines lines).ids2node i j) :
      ByIndex (Adjacent lines) (Topology.readLines lines).ids2node j i := by
    obtain ⟨node, other, first, last, adjacent⟩ := edge
    exact ⟨other, node, last, first, adjacent.symm⟩
  obtain ⟨final, forest, run, invariant, sameLength, alone⟩ :=
    (initial_invariant lines names selfless).loop symmetric graph rand labels Assignment.maxiter
      (by rw [keys, perm.length_eq, Assignment.maxiter]; omega)
  rw [length] at sameLength
  have bound (i : Nat) (below : i < (Topology.readLines lines).ids2node.length) : i <
      final.nodes.length :=
    sameLength.symm ▸ below
  -- the output holds the way to every node in the tree of the last cluster
  obtain ⟨output, written, outputPerm⟩ : ∃ output, assign lines names labels rand = some output ∧
      output.Perm ((Topology.readLines lines).ids2node.map fun node =>
        (node, (forest 0).way ((Topology.readLines lines).ids2node.idxOf node))) := by
    rw [assign, run]
    refine exists_mapM (fun i below => ?_) ?_
    · rw [List.length_map] at below
      have vid := invariant.vid_eq alone (bound i below)
      rw [List.getElem?_map, List.getElem?_eq_getElem below,
        List.getElem?_eq_getElem (bound i below),
        Option.map_some, unique.idxOf_getElem i below, ← vid]
      rfl
    · rw [List.length_map, ← sameLength]
      exact labels.perm _ _
  refine ⟨output, _, (forest 0).height - 1, written, outputPerm.trans (perm.map _), ?_⟩
  rcases Nat.eq_zero_or_pos (Topology.readLines lines).ids2node.length with none | some
  · have nobody (node : α) : node ∉ nodesOf lines := by
      rw [← perm.mem_iff, List.length_eq_zero_iff.mp none]
      exact List.not_mem_nil
    exact ⟨fun v member => (nobody v member).elim, fun v _ member => (nobody v member).elim,
      fun v member => (nobody v member).elim, fun v member => (nobody v member).elim⟩
  · have joined := invariant.joined 0 (Clusters.live_iff.mpr
      ⟨0, invariant.quotient.belongs_zero alone (bound 0 some)⟩)
    have leaves := invariant.mem_leaves alone (bound 0 some)
    rw [sameLength] at leaves
    have addressed := addressing_way unique joined leaves
    simp only [perm.mem_iff] at addressed
    exact addressed

theorem assign_addressing_path :
    ∃ output vid L, assign [(7, [8]),
        (8, [9])] (.stored _) (.stored _) (fun _ => true) = some output ∧
      output.Perm ((nodesOf [(7, [8]), (8, [9])]).map fun node => (node, vid node)) ∧
      Addressing (Adjacent [(7, [8]), (8, [9])])
        (fun node => node ∈ nodesOf [(7, [8]), (8, [9])]) vid L := by
  refine assign_addressing [(7, [8]),
    (8, [9])] (by decide) ?_ (by decide) (.stored _) (.stored _) fun _ => true
  have nodes : nodesOf [(7, [8]), (8, [9])] = [7, 8, 9] := by decide
  have first : Adjacent [(7, [8]), (8, [9])] 7 8 := ⟨_, List.mem_cons_self, Or.inl (by decide)⟩
  have last : Adjacent [(7, [8]), (8, [9])] 8 9 :=
    ⟨_, List.mem_cons_of_mem _ List.mem_cons_self, Or.inl (by decide)⟩
  refine @ConnectedWithin.of_center _ _ _ 8 (by decide) fun node member different => ?_
  simp only [nodes, List.mem_cons, List.not_mem_nil, or_false, different, false_or] at member
  rcases member with rfl | rfl
  · exact ⟨first, first.symm⟩
  · exact ⟨last.symm, last⟩

end SimPy

end Veil
