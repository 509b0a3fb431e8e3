import Veil.Controller

/-! What the controller knows after reports that may come in any order. A report removes its
sender from the topology and enters it again with its neighbours, if it names any. -/

namespace Veil

namespace NetworkTopo

open HashTable

def learn (reports : List (Nat × Frame)) : NetworkTopo :=
  reports.foldl (fun topo report => topo.processLocalTopo report.1 report.2) empty

def Names (reports : List (Nat × Frame)) (node other : EtherAddress) : Prop :=
  ∃ report ∈ reports, report.2.svid = node ∧ other ∈ reportedNeighbors report.2

/-! ### One report -/

section Report

variable (topo : NetworkTopo) (now : Nat) (frame : Frame) (node other : EtherAddress)

theorem lists_addAnEdge (fromMac toMac : EtherAddress) :
    Lists (topo.addAnEdge fromMac toMac).1.networktopo node other ↔
      (node = fromMac ∧ other = toMac) ∨ Lists topo.networktopo node other := by
  simp only [Lists, addAnEdge, lookup_insert_ite]
  by_cases same : node = fromMac
  · subst node
    cases listed : topo.networktopo.lookup fromMac with
    | none => simp
    | some neighbors =>
        simp only [if_true, Option.some.injEq, exists_eq_left', Option.getD_some, true_and]
        split
        · rename_i present
          refine ⟨Or.inr, fun either => either.elim (fun added => ?_) id⟩
          rwa [added]
        · rw [List.mem_append, List.mem_singleton, or_comm]
  · simp [same]

theorem mem_addAnEdge (fromMac toMac : EtherAddress) :
    node ∈ (topo.addAnEdge fromMac toMac).1.networktopo ↔
      node = fromMac ∨ node ∈ topo.networktopo := by
  rw [addAnEdge, AList.mem_insert]

theorem lists_processLocalTopo :
    Lists (topo.processLocalTopo now frame).networktopo node other ↔
      (node = frame.svid ∧ other ∈ reportedNeighbors frame) ∨
      (node ∈ reportedNeighbors frame ∧ other = frame.svid) ∨
      node ≠ frame.svid ∧ Lists topo.networktopo node other := by
  have removed : Lists (topo.removeNode frame.svid).1.networktopo node other ↔
      node ≠ frame.svid ∧ Lists topo.networktopo node other := by
    simp only [Lists, removeNode, lookup_erase_ite]
    by_cases same : node = frame.svid
    · simp [same]
    · simp [same]
  have entered := @foldl_iff EtherAddress NetworkTopo
    (fun topo => Lists topo.networktopo node other)
    (fun neighmac => (node = frame.svid ∧ other = neighmac) ∨
      (node = neighmac ∧ other = frame.svid))
    (fun topo neighmac => ((topo.addAnEdge frame.svid neighmac).1.addAnEdge neighmac frame.svid).1)
    (fun topo neighmac => by rw [lists_addAnEdge, lists_addAnEdge, or_assoc, or_left_comm])
    (topo.removeNode frame.svid).1 (reportedNeighbors frame)
  have each : (∃ neighmac ∈ reportedNeighbors frame,
      (node = frame.svid ∧ other = neighmac) ∨ (node = neighmac ∧ other = frame.svid)) ↔
      (node = frame.svid ∧ other ∈ reportedNeighbors frame) ∨
        (node ∈ reportedNeighbors frame ∧ other = frame.svid) := by
    constructor
    · rintro ⟨neighmac, reported, ⟨sender, rfl⟩ | ⟨rfl, sender⟩⟩
      · exact Or.inl ⟨sender, reported⟩
      · exact Or.inr ⟨reported, sender⟩
    · rintro (⟨sender, reported⟩ | ⟨reported, sender⟩)
      · exact ⟨other, reported, Or.inl ⟨sender, rfl⟩⟩
      · exact ⟨node, reported, Or.inr ⟨rfl, sender⟩⟩
  rw [each, removed, or_assoc] at entered
  exact entered

theorem mem_processLocalTopo :
    node ∈ (topo.processLocalTopo now frame).networktopo ↔
      (node = frame.svid ∧ reportedNeighbors frame ≠ []) ∨ node ∈ reportedNeighbors frame ∨
        node ≠ frame.svid ∧ node ∈ topo.networktopo := by
  have removed : node ∈ (topo.removeNode frame.svid).1.networktopo ↔
      node ≠ frame.svid ∧ node ∈ topo.networktopo := AList.mem_erase
  have entered := @foldl_iff EtherAddress NetworkTopo (fun topo => node ∈ topo.networktopo)
    (fun neighmac => node = neighmac ∨ node = frame.svid)
    (fun topo neighmac => ((topo.addAnEdge frame.svid neighmac).1.addAnEdge neighmac frame.svid).1)
    (fun topo neighmac => by rw [mem_addAnEdge, mem_addAnEdge, or_assoc])
    (topo.removeNode frame.svid).1 (reportedNeighbors frame)
  have each : (∃ neighmac ∈ reportedNeighbors frame, node = neighmac ∨ node = frame.svid) ↔
      (node = frame.svid ∧ reportedNeighbors frame ≠ []) ∨ node ∈ reportedNeighbors frame := by
    constructor
    · rintro ⟨neighmac, reported, rfl | sender⟩
      · exact Or.inr reported
      · exact Or.inl ⟨sender, List.ne_nil_of_mem reported⟩
    · rintro (⟨sender, some⟩ | reported)
      · obtain ⟨neighmac, reported⟩ := List.exists_mem_of_ne_nil _ some
        exact ⟨neighmac, reported, Or.inr sender⟩
      · exact ⟨node, reported, Or.inl rfl⟩
  rw [each, removed, or_assoc] at entered
  exact entered

theorem lastNodeUpdateTime_processLocalTopo :
    (topo.processLocalTopo now frame).lastNodeUpdateTime.lookup node =
      if node = frame.svid then some now else topo.lastNodeUpdateTime.lookup node := by
  have kept (reported : List EtherAddress) (learned : NetworkTopo) :
      (reported.foldl (fun topo neighmac =>
        ((topo.addAnEdge frame.svid neighmac).1.addAnEdge neighmac frame.svid).1)
          learned).lastNodeUpdateTime =
        learned.lastNodeUpdateTime := by
    induction reported generalizing learned with
    | nil => rfl
    | cons neighmac rest ih =>
        rw [List.foldl_cons, ih]
        rfl
  rw [processLocalTopo, lastUpdateTimeForNode, lookup_insert_ite, kept, removeNode,
    lookup_erase_ite]
  split
  · rfl
  · rfl

end Report

/-! ### All reports -/

theorem learn_append (reports : List (Nat × Frame)) (report : Nat × Frame) :
    learn (reports ++ [report]) = (learn reports).processLocalTopo report.1 report.2 := by
  rw [learn, List.foldl_append]
  rfl

theorem names_append {reports : List (Nat × Frame)} {report : Nat × Frame}
    {node other : EtherAddress} :
    Names (reports ++ [report]) node other ↔
      Names reports node other ∨ report.2.svid = node ∧ other ∈ reportedNeighbors report.2 := by
  simp only [Names, List.mem_append, List.mem_singleton, or_and_right, exists_or, exists_eq_left]

theorem names_of_lists {reports : List (Nat × Frame)} {node other : EtherAddress}
    (lists : Lists (learn reports).networktopo node other) :
    Names reports node other ∨ Names reports other node := by
  induction reports using List.reverseRecOn with
  | nil =>
      obtain ⟨neighbors, stored, -⟩ := lists
      cases stored
  | append_singleton reports report ih =>
      rw [learn_append, lists_processLocalTopo] at lists
      rw [names_append, names_append]
      rcases lists with ⟨sender, named⟩ | ⟨named, sender⟩ | ⟨-, before⟩
      · exact Or.inl (Or.inr ⟨sender.symm, named⟩)
      · exact Or.inr (Or.inr ⟨sender.symm, named⟩)
      · exact (ih before).imp Or.inl Or.inl

theorem lists_of_names {reports : List (Nat × Frame)} (once : (reports.map (·.2.svid)).Nodup)
    {node other : EtherAddress} (names : Names reports node other) :
    Lists (learn reports).networktopo node other := by
  induction reports using List.reverseRecOn with
  | nil =>
      obtain ⟨report, member, -⟩ := names
      cases member
  | append_singleton reports report ih =>
      rw [List.map_append, List.nodup_append] at once
      rw [learn_append, lists_processLocalTopo]
      rcases names_append.mp names with before | ⟨sender, named⟩
      · refine Or.inr (Or.inr ⟨?_, ih once.1 before⟩)
        obtain ⟨earlier, member, rfl, -⟩ := before
        exact once.2.2 _ (List.mem_map_of_mem member) _ (List.mem_singleton_self _)
      · exact Or.inl ⟨sender.symm, named⟩

theorem exists_lists {reports : List (Nat × Frame)} {node : EtherAddress}
    (stored : node ∈ (learn reports).networktopo) :
    ∃ other, Lists (learn reports).networktopo node other := by
  induction reports using List.reverseRecOn with
  | nil => exact absurd stored (AList.notMem_empty node)
  | append_singleton reports report ih =>
      rw [learn_append, mem_processLocalTopo] at stored
      simp only [learn_append, lists_processLocalTopo]
      rcases stored with ⟨sender, some⟩ | named | ⟨away, before⟩
      · obtain ⟨other, named⟩ := List.exists_mem_of_ne_nil _ some
        exact ⟨other, Or.inl ⟨sender, named⟩⟩
      · exact ⟨report.2.svid, Or.inr (Or.inl ⟨named, rfl⟩)⟩
      · obtain ⟨other, lists⟩ := ih before
        exact ⟨other, Or.inr (Or.inr ⟨away, lists⟩)⟩

theorem lastNodeUpdateTime_learn (reports : List (Nat × Frame)) (node : EtherAddress) :
    (∃ report ∈ reports, report.2.svid = node ∧
      (learn reports).lastNodeUpdateTime.lookup node = some report.1) ∨
    (∀ report ∈ reports, report.2.svid ≠ node) ∧
      (learn reports).lastNodeUpdateTime.lookup node = none := by
  induction reports using List.reverseRecOn with
  | nil => exact Or.inr ⟨nofun, rfl⟩
  | append_singleton reports report ih =>
      rw [learn_append, lastNodeUpdateTime_processLocalTopo]
      by_cases sender : node = report.2.svid
      · rw [if_pos sender]
        exact Or.inl ⟨report, List.mem_append_right _ (List.mem_singleton_self _), sender.symm, rfl⟩
      · rw [if_neg sender]
        rcases ih with ⟨earlier, member, known⟩ | ⟨silent, unknown⟩
        · exact Or.inl ⟨earlier, List.mem_append_left _ member, known⟩
        · refine Or.inr ⟨fun some member => ?_, unknown⟩
          rcases List.mem_append.mp member with before | last
          · exact silent some before
          · rw [List.mem_singleton.mp last]
            exact Ne.symm sender

/-! ### The purge -/

theorem forget_lookup (topo : NetworkTopo) (node other : EtherAddress) :
    (topo.forget node).networktopo.lookup other =
      (if other = node then none else topo.networktopo.lookup other) ∧
    (topo.forget node).lastNodeUpdateTime.lookup other =
      if other = node then none else topo.lastNodeUpdateTime.lookup other := by
  rw [← lookup_erase_ite, ← lookup_erase_ite, forget]
  split
  · exact ⟨rfl, rfl⟩
  · exact ⟨rfl, rfl⟩

theorem purge_lookup (topo : NetworkTopo) (now : Nat) (walk : List EtherAddress)
    (node : EtherAddress) :
    (topo.purge now walk).networktopo.lookup node =
      if node ∈ walk ∧ topo.outdated now node = true then none
      else topo.networktopo.lookup node := by
  induction walk generalizing topo with
  | nil => simp [purge]
  | cons first rest ih =>
      have later := ih (if topo.outdated now first then topo.forget first else topo)
      rw [purge] at later ⊢
      rw [List.foldl_cons, later]
      by_cases same : node = first
      · subst node
        cases old : topo.outdated now first with
        | true =>
            have gone := (topo.forget_lookup first first).1
            simp only [if_true] at gone
            simp [gone]
        | false => simp [old]
      · have kept := topo.forget_lookup first node
        rw [if_neg same, if_neg same] at kept
        have age : (topo.forget first).outdated now node = topo.outdated now node := by
          rw [outdated, outdated, kept.2]
        cases old : topo.outdated now first with
        | true => simp [same, age, kept.1]
        | false => simp [same]

section Purged

variable (topo : NetworkTopo) (now : Nat) (macs : IterationOrder EtherAddress)
  (node other : EtherAddress)

theorem purged_lookup :
    (topo.purged now macs).networktopo.lookup node =
      if topo.outdated now node = true then none else topo.networktopo.lookup node := by
  have walked : node ∈ macs.arrange 0 topo.networktopo.keys ↔ node ∈ topo.networktopo := by
    rw [macs.mem_arrange, AList.mem_keys]
  rw [purged, purge_lookup]
  by_cases stored : node ∈ topo.networktopo
  · simp only [walked, stored, true_and]
  · rw [if_neg fun both => stored (walked.mp both.1), AList.lookup_eq_none.mpr stored, ite_self]

theorem mem_purged :
    node ∈ (topo.purged now macs).networktopo ↔
      topo.outdated now node = false ∧ node ∈ topo.networktopo := by
  rw [mem_iff_lookup, purged_lookup, mem_iff_lookup]
  cases topo.outdated now node with
  | true => simp
  | false => simp

theorem linked_purged :
    Linked (topo.purged now macs).networktopo node other ↔
      node ∈ (topo.purged now macs).networktopo ∧ other ∈ (topo.purged now macs).networktopo ∧
        (Lists topo.networktopo node other ∨ Lists topo.networktopo other node) := by
  refine and_congr_right fun first => and_congr_right fun second => ?_
  have fresh := ((topo.mem_purged now macs node).mp first).1
  have otherFresh := ((topo.mem_purged now macs other).mp second).1
  simp only [Lists, purged_lookup, fresh, otherFresh, Bool.false_eq_true, if_false]

end Purged

/-! ### The order of the reports -/

structure Processed (reports : List Frame) (now : Nat) (order : List (Nat × Frame)) : Prop where
  perm : (order.map (·.2)).Perm reports
  recent : ∀ report ∈ order, (now - report.1) * 1000 ≤ 2 * veilSpanningTreeCostBroadcast

/-- The same nodes, and the same edges between them when every edge is taken in both directions. -/
def SameGraph (first second : HashTable EtherAddress (List EtherAddress)) : Prop :=
  (∀ node, node ∈ first ↔ node ∈ second) ∧
    ∀ node other, Linked first node other ↔ Linked second node other

section Order

variable {reports : List Frame} {now : Nat} {order : List (Nat × Frame)}

theorem Processed.mem_iff (processed : Processed reports now order) (frame : Frame) :
    frame ∈ reports ↔ ∃ report ∈ order, report.2 = frame := by
  rw [← processed.perm.mem_iff, List.mem_map]

theorem Processed.names_iff (processed : Processed reports now order) (node other : EtherAddress) :
    Names order node other ↔ ∃ frame ∈ reports, frame.svid = node ∧
      other ∈ reportedNeighbors frame := by
  simp only [Names, processed.mem_iff]
  constructor
  · rintro ⟨report, member, named⟩
    exact ⟨report.2, ⟨report, member, rfl⟩, named⟩
  · rintro ⟨_, ⟨report, member, rfl⟩, named⟩
    exact ⟨report, member, named⟩

theorem Processed.once (processed : Processed reports now order)
    (once : (reports.map (·.svid)).Nodup) :
    (order.map (·.2.svid)).Nodup := by
  have each := (processed.perm.map (·.svid)).nodup_iff.mpr once
  rwa [List.map_map] at each

theorem Processed.outdated_iff (processed : Processed reports now order) (node : EtherAddress) :
    (learn order).outdated now node = false ↔ ∃ frame ∈ reports, frame.svid = node := by
  simp only [outdated, processed.mem_iff]
  rcases lastNodeUpdateTime_learn order node with
    ⟨report, member, sender, known⟩ | ⟨silent, unknown⟩
  · rw [known]
    have recent := processed.recent report member
    refine iff_of_true ?_ ⟨report.2, ⟨report, member, rfl⟩, sender⟩
    simp only [decide_eq_false_iff_not]
    omega
  · rw [unknown]
    refine iff_of_false (by simp) ?_
    rintro ⟨_, ⟨report, member, rfl⟩, sender⟩
    exact silent report member sender

/-- No report without neighbours comes from a node that another report names. -/
def EmptyUnnamed (reports : List Frame) : Prop :=
  ∀ report ∈ reports, reportedNeighbors report = [] →
    ∀ other ∈ reports, report.svid ∉ reportedNeighbors other

theorem Processed.mem_graph (processed : Processed reports now order)
    (once : (reports.map (·.svid)).Nodup) (unnamed : EmptyUnnamed reports)
    (macs : IterationOrder EtherAddress) (node : EtherAddress) :
    node ∈ ((learn order).purged now macs).networktopo ↔
      ∃ frame ∈ reports, frame.svid = node ∧ reportedNeighbors frame ≠ [] := by
  rw [mem_purged, processed.outdated_iff]
  constructor
  · rintro ⟨⟨frame, member, rfl⟩, stored⟩
    refine ⟨frame, member, rfl, fun none => ?_⟩
    obtain ⟨other, lists⟩ := exists_lists stored
    rcases names_of_lists lists with own | named
    · obtain ⟨same, again, sender, reported⟩ := (processed.names_iff _ _).mp own
      rw [List.inj_on_of_nodup_map once again member sender, none] at reported
      cases reported
    · obtain ⟨naming, origin, -, reported⟩ := (processed.names_iff _ _).mp named
      exact unnamed frame member none naming origin reported
  · rintro ⟨frame, member, rfl, some⟩
    refine ⟨⟨frame, member, rfl⟩, ?_⟩
    obtain ⟨other, reported⟩ := List.exists_mem_of_ne_nil _ some
    obtain ⟨neighbors, stored, -⟩ := lists_of_names (processed.once once)
      ((processed.names_iff _ _).mpr ⟨frame, member, rfl, reported⟩)
    exact mem_of_lookup stored

theorem Processed.linked_graph (processed : Processed reports now order)
    (once : (reports.map (·.svid)).Nodup) (macs : IterationOrder EtherAddress)
    (node other : EtherAddress) :
    Linked ((learn order).purged now macs).networktopo node other ↔
      node ∈ ((learn order).purged now macs).networktopo ∧
        other ∈ ((learn order).purged now macs).networktopo ∧
          (Names order node other ∨ Names order other node) := by
  rw [linked_purged]
  refine and_congr_right fun _ => and_congr_right fun _ => ⟨fun lists => ?_, fun names => ?_⟩
  · exact lists.elim names_of_lists fun back => (names_of_lists back).symm
  · exact names.imp (lists_of_names (processed.once once)) (lists_of_names (processed.once once))

theorem sameGraph_of_emptyUnnamed (once : (reports.map (·.svid)).Nodup)
    (unnamed : EmptyUnnamed reports) {first second : List (Nat × Frame)}
    (processed : Processed reports now first) (again : Processed reports now second)
    (macs othermacs : IterationOrder EtherAddress) :
    SameGraph ((learn first).purged now macs).networktopo
      ((learn second).purged now othermacs).networktopo := by
  refine ⟨fun node => ?_, fun node other => ?_⟩
  · rw [processed.mem_graph once unnamed, again.mem_graph once unnamed]
  · rw [processed.linked_graph once, again.linked_graph once]
    simp only [processed.mem_graph once unnamed, again.mem_graph once unnamed, processed.names_iff,
      again.names_iff]

theorem mem_learn_of_later {before after : List (Nat × Frame)} {naming : Nat × Frame}
    {node : EtherAddress} (named : node ∈ reportedNeighbors naming.2)
    (silent : ∀ report ∈ after, report.2.svid ≠ node) :
    node ∈ (learn (before ++ naming :: after)).networktopo := by
  induction after using List.reverseRecOn with
  | nil =>
      rw [learn_append, mem_processLocalTopo]
      exact Or.inr (Or.inl named)
  | append_singleton after report ih =>
      have earlier := ih fun some member => silent some (List.mem_append_left _ member)
      have other := silent report (List.mem_append_right _ (List.mem_singleton_self _))
      rw [← List.cons_append, ← List.append_assoc, learn_append, mem_processLocalTopo]
      exact Or.inr (Or.inr ⟨Ne.symm other, earlier⟩)

theorem not_mem_learn_last (order : List (Nat × Frame)) {frame : Frame}
    (none : reportedNeighbors frame = []) :
    frame.svid ∉ (learn (order ++ [(now, frame)])).networktopo := by
  rw [learn_append, mem_processLocalTopo, none]
  rintro (⟨-, some⟩ | named | ⟨away, -⟩)
  · exact some rfl
  · cases named
  · exact away rfl

def atOnce (now : Nat) (frames : List Frame) : List (Nat × Frame) := frames.map (now, ·)

theorem processed_atOnce (now : Nat) {frames : List Frame} (perm : frames.Perm reports) :
    Processed reports now (atOnce now frames) where
  perm := by
    rw [atOnce, List.map_map]
    exact (List.map_id frames).symm ▸ perm
  recent := by
    intro report member
    obtain ⟨frame, -, rfl⟩ := List.mem_map.mp member
    simp

theorem emptyUnnamed_of_sameGraph (once : (reports.map (·.svid)).Nodup)
    (same : ∀ first second, Processed reports now first → Processed reports now second →
      ∀ macs othermacs, SameGraph ((learn first).purged now macs).networktopo
        ((learn second).purged now othermacs).networktopo) : EmptyUnnamed reports := by
  intro frame member none naming origin named
  obtain ⟨before, after, split⟩ := List.append_of_mem member
  have elsewhere : naming ∈ before ++ after := by
    rw [split, List.mem_append, List.mem_cons] at origin
    rcases origin with earlier | itself | later
    · exact List.mem_append_left _ earlier
    · rw [itself, none] at named
      cases named
    · exact List.mem_append_right _ later
  have silent : ∀ other ∈ before ++ after, other.svid ≠ frame.svid := by
    intro other member sender
    have middle : ((frame :: (before ++ after)).map (·.svid)).Nodup := by
      rw [split] at once
      exact (List.perm_middle.map Frame.svid).nodup_iff.mp once
    rw [List.map_cons, List.nodup_cons] at middle
    exact middle.1 (sender ▸ List.mem_map_of_mem member)
  have first : Processed reports now (atOnce now (frame :: (before ++ after))) :=
    processed_atOnce now (split ▸ List.perm_middle.symm)
  have last : Processed reports now (atOnce now ((before ++ after) ++ [frame])) := by
    refine processed_atOnce now (split ▸ ?_)
    rw [List.append_assoc]
    exact (List.perm_append_singleton frame after).append_left before
  have graph := (same _ _ first last (.stored _) (.stored _)).1 frame.svid
  have reported : ∃ report ∈ reports, report.svid = frame.svid := ⟨frame, member, rfl⟩
  rw [mem_purged, mem_purged, first.outdated_iff, last.outdated_iff, and_iff_right reported,
    and_iff_right reported] at graph
  have gone : frame.svid ∉ (learn (atOnce now ((before ++ after) ++ [frame]))).networktopo := by
    rw [atOnce, List.map_append]
    exact not_mem_learn_last _ none
  have stays : frame.svid ∈ (learn (atOnce now (frame :: (before ++ after)))).networktopo := by
    obtain ⟨earlier, later, found⟩ := List.append_of_mem elsewhere
    rw [found] at silent ⊢
    rw [atOnce, List.map_cons, List.map_append, List.map_cons, ← List.cons_append]
    refine mem_learn_of_later named fun report member => ?_
    obtain ⟨other, follows, rfl⟩ := List.mem_map.mp member
    exact silent other (List.mem_append_right _ (List.mem_cons_of_mem _ follows))
  exact gone (graph.mp stays)

/-- The topology is the same for all orders exactly when every node whose report names nobody is
named by nobody. -/
theorem sameGraph_iff (once : (reports.map (·.svid)).Nodup) :
    (∀ first second, Processed reports now first → Processed reports now second →
      ∀ macs othermacs, SameGraph ((learn first).purged now macs).networktopo
        ((learn second).purged now othermacs).networktopo) ↔ EmptyUnnamed reports :=
  ⟨emptyUnnamed_of_sameGraph once, fun unnamed _ _ processed again macs othermacs =>
    sameGraph_of_emptyUnnamed once unnamed processed again macs othermacs⟩

end Order

theorem sameGraph_iff_pair :
    SameGraph
      ((learn (atOnce 0 [localTopoToVCC 1 9 9 [2], localTopoToVCC 2 9 9 [1]])).purged 0
        (.stored _)).networktopo
      ((learn (atOnce 0 [localTopoToVCC 2 9 9 [1], localTopoToVCC 1 9 9 [2]])).purged 0
        (.stored _)).networktopo := by
  have some : ∀ report ∈ [localTopoToVCC 1 9 9 [2], localTopoToVCC 2 9 9 [1]],
      reportedNeighbors report ≠ [] := by decide +kernel
  have unnamed : EmptyUnnamed [localTopoToVCC 1 9 9 [2], localTopoToVCC 2 9 9 [1]] :=
    fun report member none => absurd none (some report member)
  exact (sameGraph_iff (by decide)).mpr unnamed _ _ (processed_atOnce 0 (List.Perm.refl _))
    (processed_atOnce 0 (List.Perm.swap _ _ _)) (.stored _) (.stored _)

/-- The node 1 reports no neighbours, the node 2 names it. -/
theorem graph_depends_on_order :
    ¬∀ (reports : List Frame) (now : Nat), (reports.map (·.svid)).Nodup →
      ∀ first second, Processed reports now first → Processed reports now second → ∀ macs othermacs,
        SameGraph ((learn first).purged now macs).networktopo
          ((learn second).purged now othermacs).networktopo := by
  intro always
  have once : ([localTopoToVCC 1 9 9 [], localTopoToVCC 2 9 9 [1]].map (·.svid)).Nodup := by decide
  have unnamed := emptyUnnamed_of_sameGraph once (always _ 0 once)
  have named : (1 : EtherAddress) ∈ reportedNeighbors (localTopoToVCC 2 9 9 [1]) := by
    decide +kernel
  exact unnamed (localTopoToVCC 1 9 9 []) (by decide) (by decide +kernel) (localTopoToVCC 2 9 9 [1])
    (by decide) named

end NetworkTopo

end Veil
