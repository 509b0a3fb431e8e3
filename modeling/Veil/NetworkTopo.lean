import Veil.Frame
import Veil.Library.BitString
import Veil.Library.HashTable

/-! The network as its switches report it to the controller, and the VIDs that the controller
assigns, from `networkTopoVIDAssignment.hh`, `networkTopoVIDAssignment.cc` and
`processVCCSTAdSub.cc`. A string of `'0'` and `'1'` is a list of bits. -/

namespace Veil

open HashTable

def veilSpanningTreeCostBroadcast : Nat := 25000

structure NetworkTopo where
  networktopo : HashTable EtherAddress (List EtherAddress)
  ether2vid : HashTable EtherAddress VID
  vid2ether : HashTable VID EtherAddress
  lastNodeUpdateTime : HashTable EtherAddress Nat

namespace NetworkTopo

def empty : NetworkTopo := ⟨∅, ∅, ∅, ∅⟩

def removeNode (topo : NetworkTopo) (mac : EtherAddress) : NetworkTopo × Nat :=
  ({ topo with
      lastNodeUpdateTime := topo.lastNodeUpdateTime.erase mac
      networktopo := topo.networktopo.erase mac },
    if mac ∈ topo.networktopo then 1 else 0)

def addAnEdge (topo : NetworkTopo) (fromMac toMac : EtherAddress) : NetworkTopo × Bool :=
  let listed := (topo.networktopo.lookup fromMac).getD []
  ({ topo with
      networktopo := topo.networktopo.insert fromMac
        (if toMac ∈ listed then listed else listed ++ [toMac]) },
    toMac ∉ listed)

def lastUpdateTimeForNode (topo : NetworkTopo) (now : Nat) (mac : EtherAddress) : NetworkTopo :=
  { topo with lastNodeUpdateTime := topo.lastNodeUpdateTime.insert mac now }

def reportedNeighbors (frame : Frame) : List EtherAddress :=
  (List.range (frame.shortAt 0).toNat).map fun i => frame.vidAt (2 + 6 * i)

def processLocalTopo (topo : NetworkTopo) (now : Nat) (frame : Frame) : NetworkTopo :=
  let srcmac := frame.svid
  let learned := (reportedNeighbors frame).foldl (fun topo neighmac =>
    ((topo.addAnEdge srcmac neighmac).1.addAnEdge neighmac srcmac).1) (topo.removeNode srcmac).1
  learned.lastUpdateTimeForNode now srcmac

end NetworkTopo

structure ClusterNode where
  cluster : Nat
  vid : List Bool
deriving DecidableEq

structure Clusters where
  nodes : List ClusterNode
  clusterTopo : HashTable Nat (HashTable Nat Nat)

inductive LoopExit where
  | oneCluster
  | maxIter
  | brokeOut
deriving DecidableEq

namespace Clusters

def node2cluster (state : Clusters) : List Nat := state.nodes.map (·.cluster)

def clusterSizes (node2cluster : List Nat) : HashTable Nat Nat :=
  node2cluster.foldl (fun sizes label =>
    sizes.insert label ((sizes.lookup label).getD 0 + 1)) ∅

def considerSmallest (sizes : HashTable Nat Nat) (smallest : Nat × Nat) (label : Nat) : Nat × Nat :=
  let size := (sizes.lookup label).getD 0
  if size < smallest.2 then (label, size) else smallest

def smallestCluster (sizes : HashTable Nat Nat) (walk : List Nat) : Nat × Nat :=
  walk.foldl (considerSmallest sizes) (0, (sizes.lookup 0).getD 0)

def considerSecond (sizes neighbors : HashTable Nat Nat) (second : Option (Nat × Nat))
    (label : Nat) :
    Option (Nat × Nat) :=
  if neighbors.lookup label = some 0 then second
  else match second with
    | none => some (label, (sizes.lookup label).getD 0)
    | some smallest => some (considerSmallest sizes smallest label)

def secondCluster (sizes neighbors : HashTable Nat Nat) (walk : List Nat) : Option (Nat × Nat) :=
  walk.foldl (considerSecond sizes neighbors) none

def choose (order : IterationOrder Nat) (c_iter : Nat) (node2cluster : List Nat)
    (clusterTopo : HashTable Nat (HashTable Nat Nat)) : (Nat × Nat) × Option (Nat × Nat) :=
  let sizes := clusterSizes node2cluster
  let smallest := smallestCluster sizes (order.arrange (2 * c_iter) sizes.keys)
  let neighbors := (clusterTopo.lookup smallest.1).getD ∅
  (smallest, secondCluster sizes neighbors (order.arrange (2 * c_iter + 1) neighbors.keys))

def lengths (nodes : List ClusterNode) (smallest : Nat) (second : Option Nat) :
    Option Nat × Option Nat :=
  nodes.foldl (fun len node =>
    if some node.cluster = second then (len.1, some node.vid.length)
    else if node.cluster = smallest then (some node.vid.length, len.2)
    else len) (none, none)

def equalize (nodes : List ClusterNode) (smallest : Nat) (second : Option Nat) : List ClusterNode :=
  let (len1, len2) := lengths nodes smallest second
  if len1 ≠ len2 then
    nodes.map fun node =>
      if some node.cluster = second ∨ node.cluster = smallest then
        { node with vid := BitString.pad (max (len1.getD 0) (len2.getD 0)) node.vid }
      else node
  else nodes

def relabel (nodes : List ClusterNode) (smallest second : Nat) : List ClusterNode :=
  nodes.map fun node =>
    if node.cluster = second then ⟨min smallest second, false :: node.vid⟩
    else if node.cluster = smallest then ⟨min smallest second, true :: node.vid⟩
    else node

def relabelNeighbors (smallest second : Nat) (neighbors : HashTable Nat Nat) : HashTable Nat Nat :=
  let newLabel := min smallest second
  -- a label of the pair is marked with zero before the surviving one is set
  let neighbors :=
    if smallest ∈ neighbors then (neighbors.insert smallest 0).insert newLabel 1 else neighbors
  let neighbors :=
    if second ∈ neighbors then (neighbors.insert second 0).insert newLabel 1 else neighbors
  neighbors.erase (max smallest second)

def mergeTopo (clusterTopo : HashTable Nat (HashTable Nat Nat)) (smallest second : Nat) :
    HashTable Nat (HashTable Nat Nat) :=
  let newLabel := min smallest second
  let clusterid2remove := max smallest second
  let relabeled := mapValues (relabelNeighbors smallest second) clusterTopo
  let joined := insertAll (fun _ => 1) ((relabeled.lookup newLabel).getD ∅)
    ((relabeled.lookup clusterid2remove).getD ∅).keys
  (relabeled.insert newLabel (joined.erase newLabel)).erase clusterid2remove

def iterate (order : IterationOrder Nat) (c_iter : Nat) (state : Clusters) : Clusters × Bool :=
  let (smallest, second) := choose order c_iter state.node2cluster state.clusterTopo
  let (len1, len2) := lengths state.nodes smallest.1 (second.map (·.1))
  -- the strings are extended before the loop may break
  let nodes := equalize state.nodes smallest.1 (second.map (·.1))
  match second with
  | none => ({ state with nodes }, true)
  | some (label, size) =>
      if len1 = none ∨ len2 = none ∨ size < 1 ∨ smallest.2 < 1 then ({ state with nodes }, true)
      else (⟨relabel nodes smallest.1 label, mergeTopo state.clusterTopo smallest.1 label⟩, false)

/-- The loop, with the number of iterations that are left. -/
def clusterLoop (order : IterationOrder Nat) : Nat → Clusters → Clusters × LoopExit
  | 0, state => (state, if state.clusterTopo.keys.length ≤ 1 then .oneCluster else .maxIter)
  | remaining + 1, state =>
      if state.clusterTopo.keys.length ≤ 1 then (state, .oneCluster)
      else
        let (after, broke) := iterate order remaining state
        if broke then (after, .brokeOut) else clusterLoop order remaining after

end Clusters

namespace NetworkTopo

def outdated (topo : NetworkTopo) (now : Nat) (node : EtherAddress) : Bool :=
  match topo.lastNodeUpdateTime.lookup node with
  | none => true
  | some timelastupdated => 2 * veilSpanningTreeCostBroadcast < (now - timelastupdated) * 1000

def forget (topo : NetworkTopo) (node : EtherAddress) : NetworkTopo :=
  let unlisted := { topo with
    networktopo := topo.networktopo.erase node
    lastNodeUpdateTime := topo.lastNodeUpdateTime.erase node }
  match topo.ether2vid.lookup node with
  | none => unlisted
  | some vid => { unlisted with
      vid2ether := topo.vid2ether.erase vid
      ether2vid := topo.ether2vid.erase node }

def purge (topo : NetworkTopo) (now : Nat) (walk : List EtherAddress) : NetworkTopo :=
  walk.foldl (fun topo node => if topo.outdated now node then topo.forget node else topo) topo

def setEdge (nodes : HashTable Nat (HashTable Nat Nat)) (nodeid neighid : Nat) :
    HashTable Nat (HashTable Nat Nat) :=
  nodes.insert nodeid (((nodes.lookup nodeid).getD ∅).insert neighid 1)

/-- The edge to a neighbour, in both directions, unless the neighbour has sent no report. -/
def learnNeighbor (ids : List EtherAddress) (nodeid : Nat)
    (nodes : HashTable Nat (HashTable Nat Nat)) (neigh : EtherAddress) :
    HashTable Nat (HashTable Nat Nat) :=
  if neigh ∈ ids then
    let neighid := ids.idxOf neigh
    setEdge (setEdge nodes nodeid neighid) neighid nodeid
  else nodes

def learnTopology (networktopo : HashTable EtherAddress (List EtherAddress))
    (ids walk : List EtherAddress) : HashTable Nat (HashTable Nat Nat) :=
  walk.foldl (fun nodes node =>
    ((networktopo.lookup node).getD []).foldl (learnNeighbor ids (ids.idxOf node)) nodes)
    (insertAll (fun _ => ∅) ∅ (List.range ids.length))

def initialClusters (count : Nat) (nodes : HashTable Nat (HashTable Nat Nat)) : Clusters where
  nodes := (List.range count).map fun i => ⟨i, [true]⟩
  clusterTopo := insertAll (fun i => insertAll (fun _ => 1) ∅ ((nodes.lookup i).getD ∅).keys) ∅
    (List.range count)

def maxIter : Nat := 5000

def ids (topo : NetworkTopo) (macs : IterationOrder EtherAddress) : List EtherAddress :=
  macs.arrange 1 topo.networktopo.keys

def firstClusters (topo : NetworkTopo) (macs : IterationOrder EtherAddress) : Clusters :=
  initialClusters (topo.ids macs).length
    (learnTopology topo.networktopo (topo.ids macs) (macs.arrange 2 topo.networktopo.keys))

def cluster (topo : NetworkTopo) (macs : IterationOrder EtherAddress)
    (labels : IterationOrder Nat) :
    Clusters × LoopExit :=
  Clusters.clusterLoop labels maxIter (topo.firstClusters macs)

def node2vid (topo : NetworkTopo) (macs : IterationOrder EtherAddress)
    (labels : IterationOrder Nat) :
    List (List Bool) :=
  (topo.cluster macs labels).1.nodes.map (·.vid)

/-- The loop that adds a prefix, and when that is used up a suffix, with the rounds that are
left. -/
def addRoom : Nat → Int → List (List Bool) → List (List Bool)
  | 0, _, node2vid => node2vid
  | rounds + 1, prefixlen, node2vid =>
      addRoom rounds (if 0 < prefixlen then prefixlen - 1 else 0)
        (node2vid.map fun vid => if 0 < prefixlen then false :: vid else vid ++ [false])

def vidlen (node2vid : List (List Bool)) : Nat := (node2vid.headD []).length

def spread (node2vid : List (List Bool)) : List (List Bool) :=
  addRoom (32 - vidlen node2vid) (32 - 2 - vidlen node2vid) node2vid

/-- `strtoul` in base two: too large a number reads as the largest one. -/
def strtoul (bits : List Bool) : Nat := min (BitString.value bits) (2 ^ 64 - 1)

def convert (bits : List Bool) : VID :=
  ((List.range 4).foldl (fun (state : VID × Nat) j =>
    let bitshiftval := (3 - j) * 8
    (state.1.setByte j (BitVec.ofNat 8 (state.2 >>> bitshiftval)), state.2 % 2 ^ bitshiftval))
    (0, strtoul bits % 2 ^ 32)).1

def assign (state : NetworkTopo × Bool) (node : EtherAddress × List Bool) : NetworkTopo × Bool :=
  let (topo, vid_changed) := state
  let (mac, bits) := node
  let vid := convert bits
  let mapped := { topo with
    ether2vid := topo.ether2vid.insert mac vid
    vid2ether := topo.vid2ether.insert vid mac }
  match topo.ether2vid.lookup mac with
  -- vid2ether keeps the entry of the old VID
  | some old => if old ≠ vid then (mapped, true) else (topo, vid_changed)
  | none => (mapped, vid_changed)

def performVIDAssignment (topo : NetworkTopo) (now : Nat) (macs : IterationOrder EtherAddress)
    (labels : IterationOrder Nat) : NetworkTopo × Bool :=
  let topo := topo.purge now (macs.arrange 0 topo.networktopo.keys)
  if topo.networktopo.keys.length ≤ 1 then (topo, false)
  else
    let node2vid := spread (topo.node2vid macs labels)
    -- too long a string leaves the mappings as they are
    if 32 < vidlen node2vid ∨ vidlen node2vid = 0 then (topo, true)
    else ((topo.ids macs).zip node2vid).foldl assign (topo, false)

end NetworkTopo

end Veil
