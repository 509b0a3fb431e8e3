import Veil.SimJava.GatewayLists
import Veil.SimJava.LoopFreedom
import Veil.SimJava.RoutingTable

/-! What enters routes into the table of a Java switch, from `veil_switch.java`: `RTbuilder` those
to its neighbours, and `updateRTEntry` those over the gateways of a reply. -/

namespace Veil

namespace SimJava

def noGateway : List Char := List.replicate 8 'f'

/-- The VID of a neighbour is null until `RTbuilder` has found it. -/
structure RoutingSwitch (Pid : Type) where
  veil_ID : Vid
  adj_hosts : List (Pid × Option Vid)
  vid_hosts : List (Pid × Vid)
  rTable : TimedTable Vid

namespace RoutingSwitch

variable {Pid : Type} (node : RoutingSwitch Pid)

/-! ### `updateRTEntry` -/

/-- The first neighbour at the distance. A neighbour without a VID throws. -/
def ownNexthop (bucket : Nat) : List (Pid × Option Vid) → Option (Option Vid)
  | [] => some none
  | (_, none) :: _ => none
  | (_, some vid) :: rest =>
      if bucket = node.veil_ID.distance vid then some (some vid) else ownNexthop bucket rest

def nexthopFor (bucket : Nat) (rTable : TimedTable Vid) (gateWay1 : Vid) : Option (Option Vid) :=
  let k := node.veil_ID.distance gateWay1
  if k = 0 then node.ownNexthop bucket node.adj_hosts else some (rTable.firstNexthop k)

def gatewayAt (gwList : List Char) (ij : Nat) : Option (Option Vid) :=
  if gwList.length < 8 * (ij + 1) then none
  else
    let gateWay1 := substring gwList (8 * ij) (8 * (ij + 1))
    if gateWay1 = noGateway then some none else (vidOfHex gateWay1).map some

/-- The rounds that are left: whether they return, or else throw, and the table after them.
`getPrefix` throws for a level that no bit of a VID has. -/
def updateFrom (clock : Nat → Int) (gwList : List Char) (bucket : Nat) :
    List Nat → TimedTable Vid → Bool × TimedTable Vid
  | [], rTable => (true, rTable)
  | ij :: rest, rTable =>
      match gatewayAt gwList ij with
      | none => (false, rTable)
      | some none => updateFrom clock gwList bucket rest rTable
      | some (some gateWay1) =>
          match node.nexthopFor bucket rTable gateWay1 with
          | none => (false, rTable)
          | some none => (true, rTable)
          | some (some nexthop1) =>
              if 1 ≤ bucket ∧ bucket ≤ 32 then
                updateFrom clock gwList bucket rest
                  (rTable.addEntry (clock ij) ⟨bucket, nexthop1, gateWay1, 0⟩)
              else (false, rTable)

def updateRTEntry (clock : Nat → Int) (gwList : List Char) (bucket : Nat) : Bool × TimedTable Vid :=
  if gwList = "ERROR".toList then (true, node.rTable)
  else node.updateFrom clock gwList bucket [0, 1, 2] node.rTable

/-! ### `RTbuilder` -/

/-- The last row with the physical identifier, or what was there before. -/
def findVid [DecidableEq Pid] (vid_hosts : List (Pid × Vid)) (pid : Pid) (before : Option Vid) :
    Option Vid :=
  vid_hosts.foldl (fun vid host => if host.1 = pid then some host.2 else vid) before

/-- The neighbours that are left, with the VID that `adj_vid` still has from the one before: their
rows and the table after it, and whether it returns. -/
def buildFrom [DecidableEq Pid] (clock : Nat → Int) :
    List (Pid × Option Vid) → Option Vid → TimedTable Vid →
      List (Pid × Option Vid) × TimedTable Vid × Bool
  | [], _, rTable => ([], rTable, true)
  | (pid, vid) :: rest, adj_vid, rTable =>
      let row := (pid, findVid node.vid_hosts pid vid)
      match findVid node.vid_hosts pid adj_vid with
      | none => (row :: rest, rTable, false)
      | some adj_vid =>
          let k := node.veil_ID.distance adj_vid
          if 1 ≤ k then
            let rTable := rTable.addEntry (clock rest.length) ⟨k, adj_vid, node.veil_ID, 0⟩
            let (rows, rTable, returned) := buildFrom clock rest (some adj_vid) rTable
            (row :: rows, rTable, returned)
          else (row :: rest, rTable, false)

def rtBuilder [DecidableEq Pid] (clock : Nat → Int) : RoutingSwitch Pid :=
  let (adj_hosts, rTable, _) := node.buildFrom clock node.adj_hosts none node.rTable
  { node with adj_hosts, rTable }

/-! ### Lists of gateways -/

def Spells (digits : List Char) (slot : Option Vid) : Prop :=
  digits.length = 8 ∧
    match slot with
    | none => digits = noGateway
    | some gateway => vidOfHex digits = some gateway

structure Lists (gwList : List Char) (bucket : Nat) (slots : List (Option Vid)) : Prop where
  spelled : ∃ pieces, gwList = pieces.flatten ∧ List.Forall₂ Spells pieces slots
  three : slots.length = 3
  near : ∀ gateway, some gateway ∈ slots → node.veil_ID.distance gateway < bucket

def install (clock : Nat → Int) (bucket : Nat) :
    Nat → List (Option Vid) → TimedTable Vid → TimedTable Vid
  | _, [], rTable => rTable
  | ij, none :: slots, rTable => install clock bucket (ij + 1) slots rTable
  | ij, some gateway :: slots, rTable =>
      match (node.nexthopFor bucket rTable gateway).join with
      | none => rTable
      | some nexthop =>
          install clock bucket (ij + 1) slots
            (rTable.addEntry (clock ij) ⟨bucket, nexthop, gateway, 0⟩)

theorem vidOfHex_noGateway : vidOfHex noGateway = none := by
  have big : parseInt 16 noGateway = none := by decide
  rw [vidOfHex, bitsOfHex, big]
  rfl

theorem gatewayAt_eq (front back : List Char) (ij : Nat) (before : front.length = 8 * ij)
    {digits : List Char} {slot : Option Vid} (here : Spells digits slot) :
    gatewayAt (front ++ digits ++ back) ij = some slot := by
  obtain ⟨eight, read⟩ := here
  have long : ¬(front ++ digits ++ back).length < 8 * (ij + 1) := by
    rw [List.length_append, List.length_append, before, eight]
    omega
  have cut : substring (front ++ digits ++ back) (8 * ij) (8 * (ij + 1)) = digits :=
    substring_middle front digits back before eight
  rw [gatewayAt, if_neg long, cut]
  cases slot with
  | none => rw [if_pos read]
  | some gateway =>
      dsimp only at read
      rw [if_neg, read]
      · rfl
      · rintro rfl
        rw [vidOfHex_noGateway] at read
        cases read

def Known : Prop := ∀ row ∈ node.adj_hosts, row.2 ≠ none

variable {node}

theorem Known.nexthopFor (known : node.Known) (bucket : Nat) (rTable : TimedTable Vid)
    (gateway : Vid) :
    node.nexthopFor bucket rTable gateway ≠ none := by
  have loop (rows : List (Pid × Option Vid)) (set : ∀ row ∈ rows, row.2 ≠ none) :
      node.ownNexthop bucket rows ≠ none := by
    induction rows with
    | nil => exact Option.some_ne_none none
    | cons row rest ih =>
        obtain ⟨pid, vid⟩ := row
        cases vid with
        | none => exact absurd rfl (set _ List.mem_cons_self)
        | some vid =>
            rw [ownNexthop]
            split
            · exact Option.some_ne_none _
            · exact ih fun row member => set row (List.mem_cons_of_mem _ member)
  rw [RoutingSwitch.nexthopFor]
  split
  · exact loop _ known
  · exact Option.some_ne_none _

theorem updateFrom_eq (clock : Nat → Int) {bucket : Nat} {pieces : List (List Char)}
    {slots : List (Option Vid)} (spelled : List.Forall₂ Spells pieces slots)
    (level : ∀ gateway, some gateway ∈ slots → 1 ≤ bucket ∧ bucket ≤ 32) (front : List Char)
    (ij : Nat) (before : front.length = 8 * ij) (rTable : TimedTable Vid) :
    let updated := node.updateFrom clock (front ++ pieces.flatten) bucket
      (List.range' ij pieces.length) rTable
    updated.2 = node.install clock bucket ij slots rTable ∧ (node.Known → updated.1 = true) := by
  induction spelled generalizing front ij rTable with
  | nil => exact ⟨rfl, fun _ => rfl⟩
  | @cons digits slot pieces slots here rest ih =>
      have further := ih (fun gateway member => level gateway (List.mem_cons_of_mem _ member))
        (front ++ digits)
        (ij + 1) (by rw [List.length_append, before, here.1]; omega)
      dsimp only at further ⊢
      rw [List.flatten_cons, ← List.append_assoc, List.length_cons, List.range'_succ, updateFrom,
        gatewayAt_eq front _ ij before here]
      cases slot with
      | none => exact further rTable
      | some gateway =>
          rw [install]
          dsimp only
          cases found : node.nexthopFor bucket rTable gateway with
          | none => exact ⟨rfl, fun known => absurd found (known.nexthopFor bucket rTable gateway)⟩
          | some next =>
              cases next with
              | none => exact ⟨rfl, fun _ => rfl⟩
              | some nexthop =>
                  dsimp only
                  rw [if_pos (level gateway List.mem_cons_self)]
                  exact further _

theorem length_spelled {pieces : List (List Char)} {slots : List (Option Vid)}
    (spelled : List.Forall₂ Spells pieces slots) : pieces.flatten.length = 8 * slots.length := by
  induction spelled with
  | nil => rfl
  | cons here rest ih =>
      rw [List.flatten_cons, List.length_append, here.1, ih, List.length_cons]
      omega

theorem updateRTEntry_eq (clock : Nat → Int) {gwList : List Char} {bucket : Nat}
    {slots : List (Option Vid)} (lists : node.Lists gwList bucket slots) (le_bits : bucket ≤ 32) :
    (node.updateRTEntry clock gwList bucket).2 = node.install clock bucket 0 slots node.rTable ∧
      (node.Known → (node.updateRTEntry clock gwList bucket).1 = true) := by
  obtain ⟨⟨pieces, rfl, spelled⟩, three, near⟩ := lists
  have count : pieces.length = 3 := spelled.length_eq.trans three
  have size : pieces.flatten.length = 24 := by rw [length_spelled spelled, three]
  have no_error : pieces.flatten ≠ "ERROR".toList := by
    intro same
    rw [same] at size
    exact absurd size (by decide)
  have level : ∀ gateway, some gateway ∈ slots → 1 ≤ bucket ∧ bucket ≤ 32 := fun gateway member =>
    ⟨Nat.one_le_of_lt (near gateway member), le_bits⟩
  have loop := @updateFrom_eq Pid node clock bucket pieces slots spelled level [] 0 rfl node.rTable
  rw [updateRTEntry, if_neg no_error]
  rw [List.nil_append, count] at loop
  exact loop

end RoutingSwitch

/-! ### Gateways of a bucket -/

namespace TimedTable

variable {rTable : TimedTable Vid}

def Installed (rTable : TimedTable Vid) (bucket : Nat) (gateway : Vid) : Prop :=
  ∃ entry ∈ rTable, entry.bucket = bucket ∧ entry.gateway = gateway

/-- The gateway has an entry, or the bucket no room for it. -/
def Kept (rTable : TimedTable Vid) (bucket : Nat) (gateway : Vid) : Prop :=
  rTable.Installed bucket gateway ∨ 3 ≤ rTable.inBucket bucket

theorem installed_iff_keys {bucket : Nat} {gateway : Vid} : rTable.Installed bucket gateway ↔
    ∃ key ∈ rTable.map TimedEntry.key, key.1 = bucket ∧ key.2.2 = gateway := by
  simp [Installed, TimedEntry.key]

theorem installed_addEntry {time : Int} {newEntry : TimedEntry Vid} {bucket : Nat} {gateway : Vid} :
    (rTable.addEntry time newEntry).Installed bucket gateway ↔ rTable.Installed bucket gateway ∨
      newEntry.bucket = bucket ∧ newEntry.gateway = gateway ∧ rTable.inBucket bucket < 3 := by
  rw [installed_iff_keys, installed_iff_keys]
  constructor
  · rintro ⟨key, member, level, same⟩
    rcases mem_keys_addEntry.mp member with old | ⟨rfl, room⟩
    · exact Or.inl ⟨key, old, level, same⟩
    · exact Or.inr ⟨level, same, level ▸ room⟩
  · rintro (⟨key, old, level, same⟩ | ⟨level, same, room⟩)
    · exact ⟨key, mem_keys_addEntry.mpr (Or.inl old), level, same⟩
    · exact ⟨newEntry.key, mem_keys_addEntry.mpr (Or.inr ⟨rfl, level ▸ room⟩), level, same⟩

theorem Kept.addEntry {bucket : Nat} {gateway : Vid} (kept : rTable.Kept bucket gateway)
    (time : Int) (newEntry : TimedEntry Vid) :
    (rTable.addEntry time newEntry).Kept bucket gateway := by
  rcases kept with there | full
  · exact Or.inl (installed_addEntry.mpr (Or.inl there))
  · refine Or.inr (Nat.le_trans full ?_)
    rw [inBucket_addEntry]
    exact Nat.le_add_right _ _

theorem kept_addEntry_iff {time : Int} {newEntry : TimedEntry Vid} {gateway : Vid} :
    (rTable.addEntry time newEntry).Kept newEntry.bucket gateway ↔
      rTable.Installed newEntry.bucket gateway ∨ newEntry.gateway = gateway ∨
        3 ≤ rTable.inBucket newEntry.bucket +
          if newEntry.key ∈ rTable.map TimedEntry.key then 0 else 1 := by
  rw [Kept, installed_addEntry, inBucket_addEntry]
  by_cases known : newEntry.key ∈ rTable.map TimedEntry.key
  · rw [if_neg fun new => new.2.1 known, if_pos known, Nat.add_zero]
    constructor
    · rintro ((old | ⟨-, same, -⟩) | full)
      · exact Or.inl old
      · exact Or.inr (Or.inl same)
      · exact Or.inr (Or.inr full)
    · rintro (old | same | full)
      · exact Or.inl (Or.inl old)
      · exact Or.inl (Or.inl (installed_iff_keys.mpr ⟨_, known, rfl, same⟩))
      · exact Or.inr full
  · rw [if_neg known]
    by_cases room : rTable.inBucket newEntry.bucket < 3
    · rw [if_pos ⟨rfl, known, room⟩]
      simp only [room, true_and, and_true, or_assoc]
    · have full : 3 ≤ rTable.inBucket newEntry.bucket := Nat.le_of_not_lt room
      exact iff_of_true (Or.inr (Nat.le_trans full (Nat.le_add_right _ _)))
        (Or.inr (Or.inr (Nat.le_trans full (Nat.le_add_right _ _))))

theorem kept_addEntry (rTable : TimedTable Vid) (time : Int) (newEntry : TimedEntry Vid) :
    (rTable.addEntry time newEntry).Kept newEntry.bucket newEntry.gateway :=
  kept_addEntry_iff.mpr (Or.inr (Or.inl rfl))

end TimedTable

/-! ### No gateway is lost -/

namespace RoutingSwitch

variable {Pid : Type} (node : RoutingSwitch Pid)

/-- The switch itself needs a neighbour at the distance, and another gateway a route to it. -/
def HasNexthop (bucket : Nat) (gateway : Vid) : Prop :=
  (gateway = node.veil_ID ∧ ∃ pid vid, (pid, some vid) ∈ node.adj_hosts ∧
      node.veil_ID.distance vid = bucket) ∨
    (gateway ≠ node.veil_ID ∧ ∃ entry ∈ node.rTable, entry.bucket = node.veil_ID.distance gateway)

def brings (bucket : Nat) (slot : Option Vid) : Bool :=
  match slot.bind fun gateway => (node.nexthopFor bucket node.rTable gateway).join.map
    (gateway, ·) with
  | none => false
  | some (gateway, nexthop) =>
      ! node.rTable.any fun entry => entry.equals ⟨bucket, nexthop, gateway, 0⟩

def KeepsGateways (clock : Nat → Int) (gwList : List Char) (bucket : Nat)
    (slots : List (Option Vid)) : Prop :=
  (node.updateRTEntry clock gwList bucket).1 = true ∧ ∀ gateway, some gateway ∈ slots →
    node.HasNexthop bucket gateway → (node.updateRTEntry clock gwList bucket).2.Kept bucket gateway

/-- What follows the first gateway without a nexthop and has one itself is in the bucket already,
or comes before that one too, or the bucket is full with what comes before. -/
def NoneBehind (bucket : Nat) (slots : List (Option Vid)) : Prop :=
  ∀ before lost after, slots = before ++ some lost :: after →
    (∀ gateway, some gateway ∈ before → node.HasNexthop bucket gateway) →
      ¬node.HasNexthop bucket lost →
    ∀ gateway, some gateway ∈ after → node.HasNexthop bucket gateway →
      node.rTable.Installed bucket gateway ∨ some gateway ∈ before ∨
        3 ≤ node.rTable.inBucket bucket + before.countP (node.brings bucket)

variable {node}

theorem ownNexthop_iff {bucket : Nat} {rows : List (Pid × Option Vid)}
    (set : ∀ row ∈ rows, row.2 ≠ none) :
    (∃ pid vid, (pid, some vid) ∈ rows ∧ node.veil_ID.distance vid = bucket) ↔
      ∃ nexthop, (node.ownNexthop bucket rows).join = some nexthop := by
  induction rows with
  | nil => simp [ownNexthop]
  | cons row rest ih =>
      obtain ⟨pid, vid⟩ := row
      cases vid with
      | none => exact absurd rfl (set _ List.mem_cons_self)
      | some vid =>
          have later := ih fun row member => set row (List.mem_cons_of_mem _ member)
          rw [ownNexthop]
          split
          · rename_i here
            exact iff_of_true ⟨pid, vid, List.mem_cons_self, here.symm⟩ ⟨vid, rfl⟩
          · rename_i apart
            rw [← later]
            constructor
            · rintro ⟨pid, other, member, level⟩
              rcases List.mem_cons.mp member with same | member
              · cases same
                exact absurd level.symm apart
              · exact ⟨pid, other, member, level⟩
            · rintro ⟨pid, other, member, level⟩
              exact ⟨pid, other, List.mem_cons_of_mem _ member, level⟩

theorem Known.hasNexthop_iff (known : node.Known) {bucket : Nat} {gateway : Vid} :
    node.HasNexthop bucket gateway ↔
      ∃ nexthop, (node.nexthopFor bucket node.rTable gateway).join = some nexthop := by
  have zero : node.veil_ID.distance gateway = 0 ↔ gateway = node.veil_ID :=
    Vid.isTreeDistance.eq_zero_iff.trans eq_comm
  rw [HasNexthop, RoutingSwitch.nexthopFor]
  by_cases self : gateway = node.veil_ID
  · rw [if_pos (zero.mpr self)]
    simp only [self, true_and, ne_eq, not_true_eq_false, false_and, or_false]
    exact ownNexthop_iff known
  · simp only [mt zero.mp self, self, if_false, false_and, ne_eq, not_false_eq_true,
      true_and, false_or,
      Option.join_some]
    rw [← TimedTable.firstNexthop_isSome_iff, Option.isSome_iff_exists]

theorem nexthopFor_addEntry {bucket : Nat} {gateway : Vid}
    (near : node.veil_ID.distance gateway < bucket) (rTable : TimedTable Vid) (time : Int)
    (newEntry : TimedEntry Vid) (level : newEntry.bucket = bucket) :
    node.nexthopFor bucket (rTable.addEntry time newEntry) gateway =
      node.nexthopFor bucket rTable gateway := by
  rw [nexthopFor, nexthopFor, TimedTable.firstNexthop_addEntry (by omega)]

def Steady (node : RoutingSwitch Pid) (bucket : Nat) (rTable : TimedTable Vid) : Prop :=
  ∀ gateway, node.veil_ID.distance gateway < bucket →
    node.nexthopFor bucket rTable gateway = node.nexthopFor bucket node.rTable gateway

theorem Steady.addEntry {bucket : Nat} {rTable : TimedTable Vid}
    (steady : node.Steady bucket rTable) (time : Int) {newEntry : TimedEntry Vid}
    (level : newEntry.bucket = bucket) :
    node.Steady bucket (rTable.addEntry time newEntry) := fun gateway near =>
  (nexthopFor_addEntry near rTable time newEntry level).trans (steady gateway near)

theorem install_kept {bucket : Nat} {gateway : Vid} (clock : Nat → Int) (ij : Nat)
    (slots : List (Option Vid)) {rTable : TimedTable Vid} (kept : rTable.Kept bucket gateway) :
    (node.install clock bucket ij slots rTable).Kept bucket gateway := by
  induction slots generalizing ij rTable with
  | nil => exact kept
  | cons slot slots ih =>
      cases slot with
      | none => exact ih (ij + 1) kept
      | some other =>
          rw [install]
          split
          · exact kept
          · exact ih (ij + 1) (kept.addEntry _ _)

theorem install_cons (clock : Nat → Int) {bucket : Nat} {gateway nexthop : Vid}
    {rTable : TimedTable Vid} (steady : node.Steady bucket rTable)
    (near : node.veil_ID.distance gateway < bucket)
    (found : (node.nexthopFor bucket node.rTable gateway).join = some nexthop) (ij : Nat)
    (slots : List (Option Vid)) : node.install clock bucket ij (some gateway :: slots) rTable =
      node.install clock bucket (ij + 1) slots
        (rTable.addEntry (clock ij) ⟨bucket, nexthop, gateway, 0⟩) := by
  rw [install, steady gateway near, found]

theorem install_lost (clock : Nat → Int) {bucket : Nat} {lost : Vid} {rTable : TimedTable Vid}
    (steady : node.Steady bucket rTable) (near : node.veil_ID.distance lost < bucket)
    (none : (node.nexthopFor bucket node.rTable lost).join = none) (ij : Nat)
    (slots : List (Option Vid)) :
    node.install clock bucket ij (some lost :: slots) rTable = rTable := by
  rw [install, steady lost near, none]

def Reaches (node : RoutingSwitch Pid) (bucket : Nat) (slots : List (Option Vid)) : Prop :=
  ∀ gateway, some gateway ∈ slots → node.veil_ID.distance gateway < bucket ∧
    node.HasNexthop bucket gateway

section Install

variable (known : node.Known) (clock : Nat → Int) {bucket : Nat}
include known

theorem install_front {front : List (Option Vid)} (reaches : node.Reaches bucket front)
    (back : List (Option Vid)) (ij : Nat) {rTable : TimedTable Vid}
    (steady : node.Steady bucket rTable) :
    node.install clock bucket ij (front ++ back) rTable =
        node.install clock bucket (ij + front.length) back
          (node.install clock bucket ij front rTable) ∧
      node.Steady bucket (node.install clock bucket ij front rTable) ∧
      ∀ gateway, some gateway ∈ front →
        (node.install clock bucket ij front rTable).Kept bucket gateway := by
  induction front generalizing ij rTable with
  | nil => exact ⟨rfl, steady, fun gateway member => absurd member List.not_mem_nil⟩
  | cons slot front ih =>
      have later : node.Reaches bucket front := fun gateway member =>
        reaches gateway (List.mem_cons_of_mem _ member)
      have length : ij + (slot :: front).length = ij + 1 + front.length := by
        rw [List.length_cons]
        omega
      rw [List.cons_append, length]
      cases slot with
      | none =>
          obtain ⟨split, still, kept⟩ := ih later (ij + 1) steady
          refine ⟨split, still, fun gateway member => kept gateway ?_⟩
          exact (List.mem_cons.mp member).resolve_left (Option.some_ne_none gateway)
      | some gateway =>
          obtain ⟨near, has⟩ := reaches gateway List.mem_cons_self
          obtain ⟨nexthop, found⟩ := known.hasNexthop_iff.mp has
          obtain ⟨split, still, kept⟩ := ih later (ij + 1)
            (steady.addEntry (clock ij)
              (rfl : (⟨bucket, nexthop, gateway, 0⟩ : TimedEntry Vid).bucket = bucket))
          rw [install_cons clock steady near found, install_cons clock steady near found]
          refine ⟨split, still, fun other member => ?_⟩
          rcases List.mem_cons.mp member with same | member
          · cases same
            exact install_kept clock (ij + 1) front
              (rTable.kept_addEntry (clock ij) ⟨bucket, nexthop, gateway, 0⟩)
          · exact kept other member

theorem kept_install_iff {before : List (Option Vid)} (few : before.length ≤ 1)
    (reaches : node.Reaches bucket before) (ij : Nat) {gateway : Vid} :
    (node.install clock bucket ij before node.rTable).Kept bucket gateway ↔
      node.rTable.Installed bucket gateway ∨ some gateway ∈ before ∨
        3 ≤ node.rTable.inBucket bucket + before.countP (node.brings bucket) := by
  match before, few with
  | [], _ => simp [install, TimedTable.Kept]
  | [none], _ => simp [install, TimedTable.Kept, brings]
  | [some first], _ =>
      obtain ⟨near, has⟩ := reaches first List.mem_cons_self
      obtain ⟨nexthop, found⟩ := known.hasNexthop_iff.mp has
      have steady : node.Steady bucket node.rTable := fun _ _ => rfl
      let entry : TimedEntry Vid := ⟨bucket, nexthop, first, 0⟩
      have counted : [some first].countP (node.brings bucket) =
          if entry.key ∈ node.rTable.map TimedEntry.key then 0 else 1 := by
        have new : node.brings bucket (some first) = true ↔
            entry.key ∉ node.rTable.map TimedEntry.key := by
          simp only [brings, Option.bind_some, found, Option.map_some,
            Bool.not_eq_true', ← Bool.not_eq_true,
            List.any_eq_true, TimedEntry.equals_iff_key, List.mem_map, entry]
        rw [List.countP_singleton]
        simp only [new, ite_not]
      have kept := @TimedTable.kept_addEntry_iff node.rTable (clock ij) entry gateway
      rw [install_cons clock steady near found, install, counted, List.mem_singleton,
        Option.some.injEq,
        @eq_comm _ gateway]
      exact kept

theorem install_stops {slots before after : List (Option Vid)} {lost : Vid}
    (near : ∀ gateway, some gateway ∈ slots → node.veil_ID.distance gateway < bucket)
    (split : slots = before ++ some lost :: after)
    (has : ∀ gateway, some gateway ∈ before → node.HasNexthop bucket gateway)
    (none : ¬node.HasNexthop bucket lost) :
    node.Reaches bucket before ∧
      node.install clock bucket 0 slots node.rTable =
        node.install clock bucket 0 before node.rTable := by
  have reaches : node.Reaches bucket before := fun gateway member =>
    ⟨near gateway (by rw [split]; exact List.mem_append_left _ member), has gateway member⟩
  have missing : (node.nexthopFor bucket node.rTable lost).join = Option.none := by
    cases found : (node.nexthopFor bucket node.rTable lost).join with
    | none => rfl
    | some nexthop => exact absurd (known.hasNexthop_iff.mpr ⟨nexthop, found⟩) none
  have listed : some lost ∈ slots := by
    rw [split]
    exact List.mem_append_right _ List.mem_cons_self
  obtain ⟨whole, still, -⟩ := install_front known clock reaches (some lost :: after) 0 fun _ _ =>
    rfl
  refine ⟨reaches, ?_⟩
  rw [split, whole, install_lost clock still (near lost listed) missing]

end Install

/-- Every gateway of a list that has a nexthop gets its entry exactly when none is behind one
without a nexthop, or those that are were there already or find no room. -/
theorem updateRTEntry_keeps_iff (known : node.Known) (clock : Nat → Int) {gwList : List Char}
    {bucket : Nat} {slots : List (Option Vid)} (lists : node.Lists gwList bucket slots)
    (le_bits : bucket ≤ 32) :
    node.KeepsGateways clock gwList bucket slots ↔ node.NoneBehind bucket slots := by
  obtain ⟨table, returns⟩ := updateRTEntry_eq clock lists le_bits
  have steady : node.Steady bucket node.rTable := fun _ _ => rfl
  rw [KeepsGateways, returns known, table, eq_self_iff_true, true_and]
  have few {before after : List (Option Vid)} {lost gateway : Vid} (split : slots =
      before ++ some lost :: after)
      (behind : some gateway ∈ after) : before.length ≤ 1 := by
    have three := lists.three
    have more := List.length_pos_of_mem behind
    rw [split, List.length_append, List.length_cons] at three
    omega
  constructor
  · intro keeps before lost after split has none gateway behind reached
    obtain ⟨reaches, same⟩ := install_stops known clock lists.near split has none
    have listed : some gateway ∈ slots := by
      rw [split]
      exact List.mem_append_right _ (List.mem_cons_of_mem _ behind)
    have kept := keeps gateway listed reached
    rw [same] at kept
    exact (kept_install_iff known clock (few split behind) reaches 0).mp kept
  · intro behind
    rcases all_or_first (fun slot => ∀ gateway, slot = some gateway →
      node.HasNexthop bucket gateway) slots with
      all | ⟨before, slot, after, split, has, fails⟩
    · intro gateway listed _
      have reaches : node.Reaches bucket slots := fun gateway member =>
        ⟨lists.near gateway member, all _ member gateway rfl⟩
      obtain ⟨-, -, kept⟩ := install_front known clock reaches [] 0 steady
      exact kept gateway listed
    · cases slot with
      | none => exact absurd (fun _ none => nomatch none) fails
      | some lost =>
          have none : ¬node.HasNexthop bucket lost :=
            fun has => fails fun _ same => Option.some.inj same ▸ has
          have has (gateway : Vid) (member : some gateway ∈ before) := has _ member gateway rfl
          obtain ⟨reaches, same⟩ := install_stops known clock lists.near split has none
          rw [same]
          intro gateway listed reached
          rw [split] at listed
          rcases List.mem_append.mp listed with front | back
          · exact (install_front known clock reaches [] 0 steady).2.2 gateway front
          · rcases List.mem_cons.mp back with here | back
            · cases here
              exact absurd reached none
            · exact (kept_install_iff known clock (few split back) reaches 0).mpr
                (behind before lost after split has none gateway back reached)

/-! ### A gateway behind one without a nexthop -/

def pair : RoutingSwitch Nat where
  veil_ID := Vid.ofNat 0
  adj_hosts := [(1, some (Vid.ofNat 1))]
  vid_hosts := [(0, Vid.ofNat 0), (1, Vid.ofNat 1)]
  rTable := [⟨1, Vid.ofNat 1, Vid.ofNat 0, 0⟩]

theorem pair_known : pair.Known := fun row member => by
  rw [List.mem_singleton.mp member]
  exact Option.some_ne_none _

def behindLost : List (Option Vid) := [some (Vid.ofNat 2), some (Vid.ofNat 1), none]

def behindLostList : List Char :=
  localHex 4 (Vid.ofNat 2).bits ++ localHex 4 (Vid.ofNat 1).bits ++ noGateway

theorem pair_lists : pair.Lists behindLostList 3 behindLost where
  spelled := by
    refine ⟨[localHex 4 (Vid.ofNat 2).bits, localHex 4 (Vid.ofNat 1).bits, noGateway],
      by decide +kernel, ?_⟩
    refine .cons ⟨by decide +kernel, ?_⟩ (.cons ⟨by decide +kernel, ?_⟩ (.cons ⟨rfl, rfl⟩ .nil))
    · exact vidOfHex_localHex (by decide +kernel)
    · exact vidOfHex_localHex (by decide +kernel)
  three := rfl
  near := by
    intro gateway member
    rcases List.mem_cons.mp member with same | member
    · cases same
      decide +kernel
    · rcases List.mem_cons.mp member with same | member
      · cases same
        decide +kernel
      · exact absurd (List.mem_singleton.mp member) (Option.some_ne_none gateway)

theorem updateRTEntry_keeps_pair : pair.KeepsGateways (fun _ => 0) behindLostList 3 behindLost ↔
    pair.NoneBehind 3 behindLost :=
  updateRTEntry_keeps_iff pair_known (fun _ => 0) pair_lists (by decide)

/-- The first gateway has no nexthop, and the second one is not entered although it is a
neighbour. -/
theorem updateRTEntry_loses :
    (RoutingSwitch.mk (Vid.ofNat 0) [(1, none)] pair.vid_hosts []).rtBuilder (fun _ => 0) =
      pair ∧ pair.Lists behindLostList 3 behindLost ∧
    ¬pair.KeepsGateways (fun _ => 0) behindLostList 3 behindLost := by
  refine ⟨rfl, pair_lists, ?_⟩
  rintro ⟨-, keeps⟩
  have reached : pair.HasNexthop 3 (Vid.ofNat 1) :=
    Or.inr ⟨by decide +kernel, _, List.mem_singleton_self _, by decide +kernel⟩
  have kept := keeps (Vid.ofNat 1) (List.mem_cons_of_mem _ List.mem_cons_self) reached
  have stopped : (pair.nexthopFor 3 pair.rTable (Vid.ofNat 2)).join = none := by decide +kernel
  rw [(updateRTEntry_eq _ pair_lists (by decide)).1, behindLost,
    install_lost _ (fun _ _ => rfl) (pair_lists.near _ List.mem_cons_self) stopped] at kept
  rcases kept with ⟨entry, member, level, -⟩ | full
  · rw [List.mem_singleton.mp member] at level
    cases level
  · exact absurd full (by decide)

end RoutingSwitch

end SimJava

end Veil
