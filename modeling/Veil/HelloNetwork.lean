import Veil.Library.TimedRun
import Veil.ProcessVCCSTAdSub
import Veil.SoftState

/-! The exchange of hellos among switches, from `generatehelloNew.cc` and `processhelloNew.cc`. A
switch announces each of its interfaces, and who hears an announcement notes the neighbour and
replies. -/

namespace Veil

open Lease

def veilHelloReply : BitVec 16 := 0x0002
def veilHelloInterval : Nat := 10000

/-- The frames of one round with the ports they leave by. An interface without an assigned VID
announces zero. -/
def GenerateHelloNew.runTimer (interfaces : InterfaceTable) : List (Nat × Frame) :=
  (List.range interfaces.numInterfaces).filterMap fun i =>
    match interfaces.getMacAddr i, interfaces.lookupIntEntry i with
    | some macadd, some vid =>
        some (i, helloPacket macadd vid ((interfaces.isvidset.lookup i).getD false) 0)
    | _, _ => none

/-- The neighbours after a frame has come in by the port it is annotated with, and the reply to
send out there. -/
def ProcessHelloNew.smaction (interfaces : InterfaceTable) (neighbors : TimedNeighborTable)
    (frame : Frame) : TimedNeighborTable × Option Frame :=
  let myvid := (interfaces.lookupIntEntry frame.port).getD 0
  let mymac := (interfaces.getMacAddr frame.port).getD 0
  let neighbors := (neighbors.updateEntry frame.shost frame.svid mymac myvid).1
  if frame.veilType = veilHello then
    (neighbors, some { frame with
      veilType := veilHelloReply
      dhost := frame.shost
      shost := mymac
      dvid := frame.svid
      svid := myvid })
  else (neighbors, none)

/-- Who hears what leaves a switch by a port, and by which of its own ports. -/
structure HelloNetwork (Switch : Type) where
  interfaces : Switch → InterfaceTable
  hears : Switch → Nat → List (Switch × Nat)
  configured : ∀ s, (interfaces s).Configured
  plugged : ∀ s i t j, (t, j) ∈ hears s i → j < (interfaces t).numInterfaces

structure HelloState (Switch : Type) where
  neighbors : Switch → Traced EtherAddress NeighborTableEntry
  flight : List (Switch × Frame)

inductive HelloAction (Switch : Type) where
  | pass (msec : Nat)
  | hello (s : Switch)
  | deliver (i : Nat)
  | lose (i : Nat)
  | expire (s : Switch) (timer : Nat)

namespace HelloNetwork

variable {Switch : Type} (net : HelloNetwork Switch)

def sent (s : Switch) (out : Nat × Frame) : List (Switch × Frame) :=
  (net.hears s out.1).map fun port => (port.1, { out.2 with port := port.2 })

def noted (t : Switch) (frame : Frame) : Action EtherAddress NeighborTableEntry :=
  .update frame.shost ⟨frame.svid, ((net.interfaces t).lookupIntEntry frame.port).getD 0,
    ((net.interfaces t).getMacAddr frame.port).getD 0⟩

def initial : HelloState Switch := ⟨fun _ => .empty, []⟩

section Steps

variable [DecidableEq Switch]

def advance (state : HelloState Switch) (t : Switch)
    (action : Action EtherAddress NeighborTableEntry) (table : TimedNeighborTable) :
    HelloState Switch :=
  { state with
    neighbors := Function.update state.neighbors t ⟨table, (state.neighbors t).note action⟩ }

def perform (state : HelloState Switch) : HelloAction Switch → Option (HelloState Switch)
  | .pass msec => some { state with
      neighbors := fun s => { state.neighbors s with
        table := { (state.neighbors s).table with now := (state.neighbors s).table.now + msec } } }
  | .hello s => some { state with
      flight := state.flight ++ (GenerateHelloNew.runTimer (net.interfaces s)).flatMap
        (net.sent s) }
  | .deliver i =>
      match state.flight[i]? with
      | none => none
      | some (t, frame) =>
          let handled := ProcessHelloNew.smaction (net.interfaces t) (state.neighbors t).table frame
          some { advance state t (net.noted t frame) handled.1 with
            flight := state.flight.eraseIdx i ++ handled.2.toList.flatMap fun answer =>
              net.sent t (frame.port, answer) }
  | .lose i => some { state with flight := state.flight.eraseIdx i }
  | .expire s timer =>
      (TimedNeighborTable.expire (state.neighbors s).table timer).map
        (advance state s (.fire timer))

def Step (state : HelloState Switch) (action : HelloAction Switch) (after : HelloState Switch) :
    Prop :=
  net.perform state action = some after

def Prompt (state : HelloState Switch) : HelloAction Switch → Prop
  | .pass msec => ∀ s, (state.neighbors s).Prompt (.pass msec)
  | _ => True

end Steps

/-- What `t` notes under the address `mac` is a neighbour's interface, with its VID or, unless it
has one assigned, zero, and its own interface on the same wire. -/
def Physical (t : Switch) (mac : EtherAddress) (entry : NeighborTableEntry) : Prop :=
  ∃ s i j vid, (t, j) ∈ net.hears s i ∧ (net.interfaces s).getMacAddr i = some mac ∧
    (net.interfaces s).lookupIntEntry i = some vid ∧
    (entry.neighborVID = vid ∨
      (net.interfaces s).isvidset.lookup i ≠ some true ∧ entry.neighborVID = 0) ∧
    (net.interfaces t).getMacAddr j = some entry.myMac ∧
      (net.interfaces t).lookupIntEntry j = some entry.myVid

def Genuine (t : Switch) (frame : Frame) : Prop :=
  ∃ s i vid, (t, frame.port) ∈ net.hears s i ∧ (net.interfaces s).getMacAddr i = some frame.shost ∧
    (net.interfaces s).lookupIntEntry i = some vid ∧
    (frame.svid = vid ∨ (net.interfaces s).isvidset.lookup i ≠ some true ∧ frame.svid = 0)

variable {net}

theorem mem_runTimer {interfaces : InterfaceTable} {i : Nat} {frame : Frame} :
    (i, frame) ∈ GenerateHelloNew.runTimer interfaces ↔ i < interfaces.numInterfaces ∧
      ∃ macadd vid, interfaces.getMacAddr i = some macadd ∧ interfaces.lookupIntEntry i = some vid ∧
        frame = helloPacket macadd vid ((interfaces.isvidset.lookup i).getD false) 0 := by
  simp only [GenerateHelloNew.runTimer, List.mem_filterMap, List.mem_range]
  constructor
  · rintro ⟨port, inside, made⟩
    split at made
    · rename_i macadd vid hasMac hasVid
      cases made
      exact ⟨inside, macadd, vid, hasMac, hasVid, rfl⟩
    · cases made
  · rintro ⟨inside, macadd, vid, hasMac, hasVid, rfl⟩
    exact ⟨i, inside, by rw [hasMac, hasVid]⟩

theorem genuine_hello {s t : Switch} {out : Nat × Frame} {frame : Frame}
    (made : out ∈ GenerateHelloNew.runTimer (net.interfaces s))
    (heard : (t, frame) ∈ net.sent s out) :
    net.Genuine t frame := by
  obtain ⟨i, hello⟩ := out
  obtain ⟨-, macadd, vid, hasMac, hasVid, rfl⟩ := mem_runTimer.mp made
  obtain ⟨port, member, same⟩ := List.mem_map.mp heard
  cases same
  refine ⟨s, i, vid, member, hasMac, hasVid, ?_⟩
  cases assigned : (net.interfaces s).isvidset.lookup i with
  | none => exact Or.inr ⟨nofun, rfl⟩
  | some isset =>
      cases isset with
      | true => exact Or.inl rfl
      | false => exact Or.inr ⟨nofun, rfl⟩

theorem exists_port {t : Switch} {j : Nat} (plugged : j < (net.interfaces t).numInterfaces) :
    ∃ mac vid, (net.interfaces t).getMacAddr j = some mac ∧
      (net.interfaces t).lookupIntEntry j = some vid := by
  have configured := net.configured t
  obtain ⟨mac, hasMac⟩ := Option.ne_none_iff_exists'.mp
    fun none => absurd ((configured.ports j).mp none) (Nat.not_le.mpr plugged)
  obtain ⟨vid, hasVid⟩ := Option.ne_none_iff_exists'.mp
    fun none => absurd ((configured.vids j).mp none) (Nat.not_le.mpr plugged)
  exact ⟨mac, vid, hasMac, hasVid⟩

theorem Genuine.physical {t : Switch} {frame : Frame} (genuine : net.Genuine t frame) :
    net.Physical t frame.shost ⟨frame.svid, ((net.interfaces t).lookupIntEntry frame.port).getD 0,
      ((net.interfaces t).getMacAddr frame.port).getD 0⟩ := by
  obtain ⟨s, i, vid, heard, hasMac, hasVid, announced⟩ := genuine
  obtain ⟨mymac, myvid, ownMac, ownVid⟩ := exists_port (net.plugged s i t frame.port heard)
  exact ⟨s, i, frame.port, vid, heard, hasMac, hasVid, announced, by rw [ownMac, Option.getD_some],
    by rw [ownVid, Option.getD_some]⟩

theorem Genuine.reply {t u : Switch} {frame answer answered : Frame} (genuine : net.Genuine t frame)
    {neighbors : TimedNeighborTable}
    (replies : (ProcessHelloNew.smaction (net.interfaces t) neighbors frame).2 = some answer)
    (heard : (u, answered) ∈ net.sent t (frame.port, answer)) : net.Genuine u answered := by
  obtain ⟨s, i, vid, plugged, -⟩ := genuine
  obtain ⟨mymac, myvid, ownMac, ownVid⟩ := exists_port (net.plugged s i t frame.port plugged)
  obtain ⟨port, member, same⟩ := List.mem_map.mp heard
  cases same
  rw [ProcessHelloNew.smaction] at replies
  split at replies
  · cases replies
    exact ⟨t, frame.port, myvid, member, by rw [ownMac, Option.getD_some], ownVid,
      Or.inl (by rw [ownVid, Option.getD_some])⟩
  · cases replies

section Steps

variable [DecidableEq Switch]

theorem step_cases {state after : HelloState Switch} {action : HelloAction Switch}
    (moves : net.Step state action after) :
    (∃ msec, action = .pass msec ∧ after = { state with
      neighbors := fun s => { state.neighbors s with
        table := { (state.neighbors s).table with
          now := (state.neighbors s).table.now + msec } } }) ∨
    (∃ s, action = .hello s ∧ after = { state with
      flight := state.flight ++ (GenerateHelloNew.runTimer (net.interfaces s)).flatMap
        (net.sent s) }) ∨
    (∃ i t frame, action = .deliver i ∧ state.flight[i]? = some (t, frame) ∧
      let handled := ProcessHelloNew.smaction (net.interfaces t) (state.neighbors t).table frame
      after = { advance state t (net.noted t frame) handled.1 with
        flight := state.flight.eraseIdx i ++ handled.2.toList.flatMap fun answer =>
          net.sent t (frame.port, answer) }) ∨
    (∃ i, action = .lose i ∧ after = { state with flight := state.flight.eraseIdx i }) ∨
    ∃ s timer table, action = .expire s timer ∧
      TimedNeighborTable.expire (state.neighbors s).table timer = some table ∧
        after = advance state s (.fire timer) table := by
  cases action with
  | pass msec => exact Or.inl ⟨msec, rfl, (Option.some.inj moves).symm⟩
  | hello s => exact Or.inr (Or.inl ⟨s, rfl, (Option.some.inj moves).symm⟩)
  | deliver i =>
      simp only [Step, perform] at moves
      split at moves
      · cases moves
      · rename_i t frame underway
        exact Or.inr (Or.inr (Or.inl ⟨i, t, frame, rfl, underway, (Option.some.inj moves).symm⟩))
  | lose i => exact Or.inr (Or.inr (Or.inr (Or.inl ⟨i, rfl, (Option.some.inj moves).symm⟩)))
  | expire s timer =>
      obtain ⟨table, fires, same⟩ := Option.map_eq_some_iff.mp moves
      exact Or.inr (Or.inr (Or.inr (Or.inr ⟨s, timer, table, rfl, fires, same.symm⟩)))

theorem advance_neighbors (state : HelloState Switch) (t : Switch)
    (action : Action EtherAddress NeighborTableEntry) (table : TimedNeighborTable) (s : Switch) :
    (advance state t action table).neighbors s =
      if s = t then ⟨table, (state.neighbors t).note action⟩ else state.neighbors s :=
  Function.update_apply _ _ _ _

theorem smaction_write (interfaces : InterfaceTable) (neighbors : TimedNeighborTable)
    (frame : Frame) :
    (ProcessHelloNew.smaction interfaces neighbors frame).1 =
      neighbors.write frame.shost
        ⟨frame.svid, (interfaces.lookupIntEntry frame.port).getD 0,
          (interfaces.getMacAddr frame.port).getD 0⟩ := by
  rw [ProcessHelloNew.smaction]
  split <;> rfl

theorem Step.neighbors {state after : HelloState Switch} {action : HelloAction Switch}
    (moves : net.Step state action after) (t : Switch) : after.neighbors t = state.neighbors t ∨
      ∃ own, (state.neighbors t).Step TimedNeighborTable.write own (after.neighbors t) ∧
        (Prompt state action → (state.neighbors t).Prompt own) := by
  rcases step_cases moves with ⟨msec, rfl, rfl⟩ | ⟨s, rfl, rfl⟩ | ⟨i, s, frame, rfl, -, rfl⟩ |
    ⟨i, rfl, rfl⟩ | ⟨s, timer, table, rfl, fires, rfl⟩
  · exact Or.inr ⟨.pass msec, ⟨rfl, rfl⟩, fun prompt => prompt t⟩
  · exact Or.inl rfl
  · by_cases receiver : t = s
    · subst s
      have own := advance_neighbors state t (net.noted t frame)
        (ProcessHelloNew.smaction (net.interfaces t) (state.neighbors t).table frame).1 t
      rw [if_pos rfl] at own
      refine Or.inr ⟨net.noted t frame, ⟨?_, congrArg Traced.last own⟩, fun _ => trivial⟩
      exact congrArg some ((smaction_write _ _ _).symm.trans (congrArg Traced.table own).symm)
    · refine Or.inl ?_
      rw [advance_neighbors, if_neg receiver]
  · exact Or.inl rfl
  · by_cases owner : t = s
    · subst s
      refine Or.inr ⟨.fire timer, ⟨?_, ?_⟩, fun _ => trivial⟩
      · rw [advance_neighbors, if_pos rfl]
        exact fires
      · rw [advance_neighbors, if_pos rfl]
    · refine Or.inl ?_
      rw [advance_neighbors, if_neg owner]

variable (net) in
structure Honest (state : HelloState Switch) : Prop where
  physical : ∀ t mac entry since, (state.neighbors t).last mac = some (entry, since) →
    net.Physical t mac entry
  genuine : ∀ t frame, (t, frame) ∈ state.flight → net.Genuine t frame

theorem Honest.step {state after : HelloState Switch} {action : HelloAction Switch}
    (honest : net.Honest state) (moves : net.Step state action after) : net.Honest after := by
  rcases step_cases moves with ⟨msec, rfl, rfl⟩ | ⟨s, rfl, rfl⟩ | ⟨i, s, frame, rfl,
    underway, rfl⟩ |
    ⟨i, rfl, rfl⟩ | ⟨s, timer, table, rfl, -, rfl⟩
  · exact ⟨honest.physical, honest.genuine⟩
  · refine ⟨honest.physical, fun t frame member => ?_⟩
    rcases List.mem_append.mp member with before | new
    · exact honest.genuine t frame before
    · obtain ⟨out, made, heard⟩ := List.mem_flatMap.mp new
      exact genuine_hello made heard
  · have own := honest.genuine s frame (List.mem_of_getElem? underway)
    constructor
    · intro t mac entry since written
      dsimp only at written
      rw [advance_neighbors] at written
      split at written
      · rename_i receiver
        subst t
        dsimp only [noted, Traced.note] at written
        by_cases same : mac = frame.shost
        · subst mac
          rw [Function.update_self] at written
          cases written
          exact own.physical
        · rw [Function.update_of_ne same] at written
          exact honest.physical s mac entry since written
      · exact honest.physical t mac entry since written
    · intro t another member
      rcases List.mem_append.mp member with before | replied
      · exact honest.genuine t another (List.mem_of_mem_eraseIdx before)
      · obtain ⟨answer, replies, heard⟩ := List.mem_flatMap.mp replied
        exact own.reply (Option.mem_toList.mp replies) heard
  · exact ⟨honest.physical, fun t frame member =>
      honest.genuine t frame (List.mem_of_mem_eraseIdx member)⟩
  · refine ⟨fun t mac entry since written => ?_, honest.genuine⟩
    rw [advance_neighbors] at written
    split at written
    · rename_i owner
      subst t
      exact honest.physical s mac entry since written
    · exact honest.physical t mac entry since written

theorem honest_of_reaches {allowed : HelloState Switch → HelloAction Switch → Prop}
    {state : HelloState Switch} (run : Transition.Reaches (· = initial) net.Step allowed state) :
    net.Honest state := by
  refine run.invariant net.Honest ?_ fun before action after honest _ moves => honest.step moves
  rintro _ rfl
  refine ⟨fun t mac entry since written => ?_, fun t frame member => ?_⟩
  · cases written
  · cases member

theorem reaches_neighbors {allowed : HelloState Switch → HelloAction Switch → Prop}
    {own : Traced EtherAddress NeighborTableEntry → Action EtherAddress NeighborTableEntry → Prop}
    {t : Switch} (guarded : ∀ state action mine, allowed state action →
      (Prompt state action → (state.neighbors t).Prompt mine) → own (state.neighbors t) mine)
    {state : HelloState Switch} (run : Transition.Reaches (· = initial) net.Step allowed state) :
    Transition.Reaches (· = Traced.empty) (Traced.Step TimedNeighborTable.write) own
      (state.neighbors t) := by
  refine run.invariant (fun state => Transition.Reaches (· = Traced.empty)
    (Traced.Step TimedNeighborTable.write) own (state.neighbors t)) ?_
    fun before action after sofar permitted moves => ?_
  · rintro _ rfl
    exact .start rfl
  · rcases moves.neighbors t with same | ⟨mine, steps, prompt⟩
    · rw [same]
      exact sofar
    · exact .next sofar (guarded before action mine permitted prompt) steps

theorem remembers_of_reaches {allowed : HelloState Switch → HelloAction Switch → Prop}
    {state : HelloState Switch} (run : Transition.Reaches (· = initial) net.Step allowed state)
    (t : Switch) : (state.neighbors t).Remembers veilTblEntryExpiry := by
  have own : Transition.Reachable (· = Traced.empty) (Traced.Step TimedNeighborTable.write)
      (state.neighbors t) := reaches_neighbors (fun _ _ _ _ _ => trivial) run
  exact Traced.remembers_of_reaches TimedNeighborTable.write_grants own

/-- However late timers fire, every entry is physical; where they fire in time, a switch lists
exactly the interfaces it has heard from within the last term, each with the VID it announced
last. -/
theorem lists_neighbors {allowed : HelloState Switch → HelloAction Switch → Prop}
    {state : HelloState Switch} (run : Transition.Reaches (· = initial) net.Step allowed state)
    (t : Switch) :
    (∀ mac entry, (state.neighbors t).table.lookup mac = some entry → net.Physical t mac entry) ∧
      ((∀ before action, allowed before action → Prompt before action) →
        (state.neighbors t).Current veilTblEntryExpiry) := by
  refine ⟨fun mac entry found => ?_, fun prompt => ?_⟩
  · obtain ⟨since, written, -⟩ := (remembers_of_reaches run t).stored mac entry found
    exact (honest_of_reaches run).physical t mac entry since written
  · exact Traced.current_of_prompt TimedNeighborTable.write_grants
      (reaches_neighbors (fun before action _ given mine => mine (prompt before action given)) run)

/-! ### Links that stay up -/

def Heard (run : TimedRun net.Step) (t : Switch) (mac : EtherAddress) (k : Nat) : Prop :=
  ∃ i frame, run.action k = .deliver i ∧ (run.state k).flight[i]? = some (t, frame) ∧
    frame.shost = mac

def clock (run : TimedRun net.Step) (t : Switch) (n : Nat) : Nat :=
  ((run.state n).neighbors t).table.now

section Links

variable {run : TimedRun net.Step} {t : Switch}
  (begins : Transition.Reachable (· = initial) net.Step (run.state 0))

include begins

theorem reachable_at {n : Nat} (inside : n ≤ run.length) :
    Transition.Reachable (· = initial) net.Step (run.state n) :=
  run.reaches_from begins inside fun _ _ => trivial

theorem clock_le_succ {n : Nat} (inside : n < run.length) :
    clock run t n ≤ clock run t (n + 1) := by
  rcases (run.moves n inside).neighbors t with same | ⟨own, steps, -⟩
  · rw [clock, clock, same]
  · exact (remembers_of_reaches (reachable_at begins inside.le) t).now_le
      TimedNeighborTable.write_grants steps

theorem clock_mono {n m : Nat} (order : n ≤ m) (inside : m ≤ run.length) :
    clock run t n ≤ clock run t m :=
  TimedRun.keeps (fun k => clock run t n ≤ clock run t k) (Nat.le_refl _)
    (fun _ _ earlier before =>
      before.trans (clock_le_succ begins (Nat.lt_of_lt_of_le earlier inside))) order

omit begins in
theorem Heard.written {mac : EtherAddress} {k : Nat} (inside : k < run.length)
    (heard : Heard run t mac k) :
    clock run t (k + 1) = clock run t k ∧
      ∃ entry, ((run.state (k + 1)).neighbors t).last mac = some (entry, clock run t k) := by
  obtain ⟨i, frame, delivers, underway, rfl⟩ := heard
  have moves := run.moves k inside
  rcases step_cases moves with ⟨_, other, -⟩ | ⟨_, other, -⟩ | ⟨j, s, another, same,
    arrives, after⟩ |
    ⟨_, other, -⟩ | ⟨_, _, _, other, -⟩
  · rw [delivers] at other
    cases other
  · rw [delivers] at other
    cases other
  · rw [delivers] at same
    cases same
    rw [underway, Option.some.injEq, Prod.mk.injEq] at arrives
    obtain ⟨rfl, rfl⟩ := arrives
    have own := advance_neighbors (run.state k) t (net.noted t frame)
      (ProcessHelloNew.smaction (net.interfaces t) ((run.state k).neighbors t).table frame).1 t
    rw [if_pos rfl] at own
    rw [clock, clock, after]
    dsimp only
    rw [own, smaction_write]
    exact ⟨rfl, _, Function.update_self ..⟩
  · rw [delivers] at other
    cases other
  · rw [delivers] at other
    cases other

theorem since_of_heard {mac : EtherAddress} {k n : Nat} (heard : Heard run t mac k) (before : k < n)
    (inside : n ≤ run.length) :
    ∃ value since, ((run.state n).neighbors t).last mac = some (value, since) ∧
      clock run t k ≤ since := by
  obtain ⟨-, entry, written⟩ := Heard.written (Nat.lt_of_lt_of_le before inside) heard
  refine TimedRun.keeps (fun l => ∃ value since,
    ((run.state l).neighbors t).last mac = some (value, since) ∧ clock run t k ≤ since)
    ⟨entry, _, written, Nat.le_refl _⟩ (fun l after earlier sofar => ?_) before
  rcases (run.moves l (Nat.lt_of_lt_of_le earlier inside)).neighbors t with same | ⟨own, steps, -⟩
  · rw [same]
    exact sofar
  · exact steps.last_since (clock_mono begins (by omega) (earlier.le.trans inside)) sofar

/-- A neighbour's interface that was heard once, and from then on gets a frame through within the
life of an entry again and again, is listed ever after, whatever happens to the other frames. -/
theorem stays_listed {mac : EtherAddress} {gap start : Nat} (short : gap ≤ veilTblEntryExpiry)
    (first : Heard run t mac start)
    (recurs : TimedRun.Recurs (clock run t) start run.length gap (Heard run t mac)) {n : Nat}
    (later : start < n) (inside : n ≤ run.length) :
    ∃ entry, ((run.state n).neighbors t).table.lookup mac = some entry ∧
      net.Physical t mac entry := by
  obtain ⟨k, -, before, heard, young⟩ := recurs.recent
    (fun k within heard => (Heard.written within heard).1) first later inside
  obtain ⟨last, since, found, kept⟩ := since_of_heard begins heard before inside
  have reaches := reachable_at begins inside
  refine ⟨last, (remembers_of_reaches reaches t).recent mac last since found ?_, ?_⟩
  · change clock run t n < since + veilTblEntryExpiry
    omega
  · exact (honest_of_reaches reaches).physical t mac last since found

end Links

end Steps

/-! ### Two switches on one cable -/

def cableEnd (s : Fin 2) : InterfaceTable :=
  .configure [(BitVec.ofNat 48 ((s + 1) * 0x10000), BitVec.ofNat 48 (s + 1))] true

def cable : HelloNetwork (Fin 2) where
  interfaces := cableEnd
  hears := fun s i => if i = 0 then [(1 - s, 0)] else []
  configured := fun _ => InterfaceTable.configure_configured true (by simp)
  plugged := by
    intro s i t j heard
    have count : ∀ t, (cableEnd t).numInterfaces = 1 := by decide
    split at heard
    · cases List.mem_singleton.mp heard
      rw [count]
      exact Nat.one_pos
    · cases heard

def cableRound : List (HelloAction (Fin 2)) :=
  [.hello 0, .deliver 0, .deliver 0, .pass veilHelloInterval]

def cableRounds : TimedRun cable.Step :=
  TimedRun.ofActions cable.perform initial (.pass 0) (cableRound ++ cableRound) (by decide +kernel)

/-- One end is heard again and the other one is not, so that its entry expires. -/
def cableLapse : TimedRun cable.Step :=
  TimedRun.ofActions cable.perform initial (.pass 0)
    (cableRound ++ [.hello 0, .deliver 0, .lose 0, .pass 50000, .expire 0 0]) (by decide +kernel)

theorem cableLapse_prompt :
    Transition.Reaches (· = initial) cable.Step Prompt (cableLapse.state 9) := by
  refine cableLapse.reaches rfl (by decide) fun k earlier => ?_
  have inTime : ∀ s, ((cableLapse.state 3).neighbors s).InTime (.pass veilHelloInterval) ∧
      ((cableLapse.state 7).neighbors s).InTime (.pass 50000) := by decide +kernel
  match k with
  | 0 | 1 | 2 | 4 | 5 | 6 | 8 => trivial
  | 3 => exact fun s => (inTime s).1.prompt
  | 7 => exact fun s => (inTime s).2.prompt

theorem lists_neighbors_cable : ∃ entry,
    ((cableLapse.state 9).neighbors 1).table.lookup 1 = some entry ∧ cable.Physical 1 1 entry ∧
      ((cableLapse.state 9).neighbors 1).Current veilTblEntryExpiry ∧
      ((cableLapse.state 9).neighbors 0).table.lookup 2 = none ∧
      ((cableLapse.state 9).neighbors 0).Current veilTblEntryExpiry := by
  have listed : ((cableLapse.state 9).neighbors 1).table.lookup 1 = some ⟨0x10000, 0x20000, 2⟩ ∧
      ((cableLapse.state 9).neighbors 0).table.lookup 2 = none := ⟨rfl, rfl⟩
  obtain ⟨physical, current⟩ := lists_neighbors cableLapse_prompt 1
  obtain ⟨-, other⟩ := lists_neighbors cableLapse_prompt 0
  exact ⟨_, listed.1, physical 1 _ listed.1, current fun _ _ => id, listed.2, other fun _ _ => id⟩

theorem cableRounds_clock : ∀ n ≤ 8, clock cableRounds 1 n = 10000 * (n / 4) := by decide +kernel

theorem cableRounds_recurs :
    TimedRun.Recurs (clock cableRounds 1) 1 8 20000 (Heard cableRounds 1 1) := by
  intro n m begun order inside passed
  rw [cableRounds_clock n (order.trans inside), cableRounds_clock m inside] at passed
  refine ⟨5, by omega, by omega, ?_, 0, _, rfl, rfl, by decide +kernel⟩
  rw [cableRounds_clock n (order.trans inside), cableRounds_clock 5 (by decide)]
  omega

theorem stays_listed_cable :
    ∃ entry, ((cableRounds.state 8).neighbors 1).table.lookup 1 = some entry ∧
      cable.Physical 1 1 entry :=
  stays_listed (.start rfl) (by decide) ⟨0, _, rfl, rfl, by decide +kernel⟩ cableRounds_recurs
    (by decide : 1 < 8) (Nat.le_refl 8)

end HelloNetwork

end Veil
