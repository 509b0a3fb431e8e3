import Veil.NetworkTopo

/-! The assignment of VIDs to the nodes of an adjacency list, from `vid-assignment.py`. A lookup
that finds no key or no element ends the program, which stands as `none`. `rand` tells of every
call of `myrandom` whether it returns more than 0.5, and a dictionary is walked in any order. -/

namespace Veil

namespace SimPy

open HashTable

section Topology

variable {α : Type}

/-- The position of a node in `ids2node` is its id. -/
structure Topology (α : Type) where
  ids2node : List α
  nodes : HashTable α (HashTable α Nat)

namespace Topology

variable [DecidableEq α]

def addNode (topology : Topology α) (node : α) : Topology α :=
  if node ∈ topology.nodes then topology
  else ⟨topology.ids2node ++ [node], topology.nodes.insert node ∅⟩

def setNeighbor (nodes : HashTable α (HashTable α Nat)) (node node1 : α) :
    HashTable α (HashTable α Nat) :=
  nodes.insert node (((nodes.lookup node).getD ∅).insert node1 0)

def readNeighbor (node : α) (topology : Topology α) (node1 : α) : Topology α :=
  let added := topology.addNode node1
  { added with nodes := setNeighbor (setNeighbor added.nodes node node1) node1 node }

def readLine (topology : Topology α) (line : α × List α) : Topology α :=
  line.2.foldl (readNeighbor line.1) (topology.addNode line.1)

def readLines (lines : List (α × List α)) : Topology α := lines.foldl readLine ⟨[], ∅⟩

def neighborIds (topology : Topology α) (names : IterationOrder α) (id : Nat) : List Nat :=
  match topology.ids2node[id]? with
  | none => []
  | some node =>
      (names.arrange id ((topology.nodes.lookup node).getD ∅).keys).map topology.ids2node.idxOf

end Topology

end Topology

/-- `node2cluster` and `node2vid` together, the topology of the clusters, and the calls of
`myrandom`. -/
structure Assignment where
  nodes : List ClusterNode
  clusterTopo : HashTable Nat (List Nat)
  draws : Nat

structure Choice where
  label : Nat
  size : Nat
  draws : Nat

namespace Assignment

def node2cluster (state : Assignment) : List Nat := state.nodes.map (·.cluster)

def initial {α : Type} [DecidableEq α] (topology : Topology α) (names : IterationOrder α) :
    Assignment where
  nodes := (List.range topology.ids2node.length).map fun id => ⟨id, []⟩
  clusterTopo := insertAll (topology.neighborIds names) ∅ (List.range topology.ids2node.length)
  draws := 0

def clusterSizes (node2cluster : List Nat) : Option (HashTable Nat Nat) :=
  node2cluster.foldlM (fun clustersizes t => do
    let label ← node2cluster[t]?
    return clustersizes.insert label ((clustersizes.lookup label).getD 0 + 1)) ∅

def consider (rand : Nat → Bool) (clustersizes : HashTable Nat Nat) (choice : Choice) (c : Nat) :
    Option Choice := do
  let size ← clustersizes.lookup c
  if size < choice.size then return { choice with label := c, size := size }
  else if size = choice.size then
    return if rand choice.draws then ⟨c, size, choice.draws + 1⟩
      else { choice with draws := choice.draws + 1 }
  else return choice

def smallestCluster (rand : Nat → Bool) (clustersizes : HashTable Nat Nat) (walk : List Nat)
    (draws : Nat) :
    Option Choice := do
  let size ← clustersizes.lookup 0
  walk.foldlM (consider rand clustersizes) ⟨0, size, draws⟩

def secondCluster (rand : Nat → Bool) (clustersizes : HashTable Nat Nat) (neighbors : List Nat)
    (draws : Nat) : Option Choice := do
  let first ← neighbors.head?
  let size ← clustersizes.lookup first
  neighbors.foldlM (consider rand clustersizes) ⟨first, size, draws⟩

def lengths (nodes : List ClusterNode) (smallest second : Nat) : Option (Int × Int) :=
  nodes.foldlM (fun len entry => do
    let x ← nodes[entry.cluster]?
    return if x.cluster = second then ((x.vid.length : Int), len.2)
      else if x.cluster = smallest then (len.1, (x.vid.length : Int))
      else len) (-1, -1)

def equalize (nodes : List ClusterNode) (smallest second : Nat) (len1 len2 : Int) :
    List ClusterNode :=
  if len2 ≠ len1 then
    nodes.map fun node =>
      if node.cluster = second ∨ node.cluster = smallest then
        { node with vid := BitString.pad (max len1 len2).toNat node.vid }
      else node
  else nodes

def relabelNeighbors (smallest second : Nat) (neighbors : List Nat) : List Nat :=
  let newclusterLabel := min second smallest
  let relabeled := neighbors.map fun label =>
    if label = smallest ∨ label = second then newclusterLabel else label
  if 1 < relabeled.count newclusterLabel then relabeled.erase newclusterLabel else relabeled

def mergeTopo (order : IterationOrder Nat) (walk : Nat) (clusterTopo : HashTable Nat (List Nat))
    (smallest second : Nat) : Option (HashTable Nat (List Nat)) := do
  let newclusterLabel := min second smallest
  let relabeled := mapValues (relabelNeighbors smallest second) clusterTopo
  let first ← relabeled.lookup smallest
  let last ← relabeled.lookup second
  let newkeys := insertAll (fun _ => 0) ∅ ((first ++ last).filter (· ≠ newclusterLabel))
  return ((relabeled.erase smallest).erase second).insert newclusterLabel
    (order.arrange walk newkeys.keys)

/-- What an iteration does when more than one cluster is left. The bits are put before the strings
as in the controller. -/
def iterate (rand : Nat → Bool) (order : IterationOrder Nat) (iter : Nat)
    (clustersizes : HashTable Nat Nat) (state : Assignment) : Option Assignment := do
  let smallest ← smallestCluster rand clustersizes
      (order.arrange (2 * iter) clustersizes.keys) state.draws
  let neighbors ← state.clusterTopo.lookup smallest.label
  let second ← secondCluster rand clustersizes neighbors smallest.draws
  let (len1, len2) ← lengths state.nodes smallest.label second.label
  let clusterTopo ← mergeTopo order (2 * iter + 1) state.clusterTopo smallest.label second.label
  return ⟨Clusters.relabel (equalize state.nodes smallest.label second.label len1 len2)
      smallest.label
    second.label, clusterTopo, second.draws⟩

def loop (rand : Nat → Bool) (order : IterationOrder Nat) : Nat → Assignment → Option Assignment
  | 0, state => some state
  | remaining + 1, state =>
      if state.node2cluster.sum = 0 then some state
      else do
        let clustersizes ← clusterSizes state.node2cluster
        if clustersizes.keys.length = 1 then return state
        else loop rand order remaining (← iterate rand order remaining clustersizes state)

def maxiter : Nat := 5000

end Assignment

def assign {α : Type} [DecidableEq α] (lines : List (α × List α)) (names : IterationOrder α)
    (labels : IterationOrder Nat) (rand : Nat → Bool) : Option (List (α × List Bool)) := do
  let topology := Topology.readLines lines
  let final ← Assignment.loop rand labels Assignment.maxiter (Assignment.initial topology names)
  (labels.arrange (2 * Assignment.maxiter) (List.range final.nodes.length)).mapM fun x => do
    return (← topology.ids2node[x]?, (← final.nodes[x]?).vid)

end SimPy

end Veil
