import Clicky.DmaSafety
import Clicky.MemSniffer
import Clicky.Eapp.Cpu

/-! The debugger on the machine: its watchpoints and breakpoints, and what a step of the machine
under it reports. -/
namespace Clicky
open Runs Outcome

namespace Ipod4g

variable {β ρ : Type} [BlockDev β] [Peripherals ρ]

/-- The share of a core in a step while some addresses are watched. -/
def runCoreSniffed (s : Ipod4g β ρ) (addrs : List U32) (input : StepInput ρ) (id : CpuId) :
    Outcome FatalMemException (Ipod4g β ρ) (List (CpuId × MemAccess)) :=
  if Peripherals.isCpuRunning s.devices.rest id then
    let mem : MemoryAdapter (MemSniffer (Ipod4gBus β ρ)) :=
      { mem := { mem := s.devices.setCpuid id, addrs } }
    match mem.performAll (input.accesses id) with
    | .panic m => .panic m
    | .done mem _ =>
      let s := { s with devices := mem.mem.mem }
      let told := mem.mem.log.map fun access => (id, access)
      match mem.exception with
      | none => .ok s told
      | some (access, e) =>
        let inDevice := id.display ++ ", " ++ input.probe access.offset
        match e.resolve { pc := input.pc id, access, inDevice } with
        | .ok () => .ok s told
        | .error fatal => .raise s fatal
  else .ok s []

def runCoresSniffed (s : Ipod4g β ρ) (addrs : List U32) (input : StepInput ρ) :
    Outcome FatalMemException (Ipod4g β ρ) (List (CpuId × MemAccess) × Bool) :=
  if s.frozen then .ok s ([], false)
  else (s.runCoreSniffed addrs input .cpu).bind fun s cpu =>
    (s.runCoreSniffed addrs input .cop).map fun cop => (cpu ++ cop, !s.skipIrqCheck)

/-- A step of the machine, with the calls of the listener in order. -/
def stepSniffed (s : Ipod4g β ρ) (addrs : List U32) (input : StepInput ρ) :
    Outcome FatalMemException (Ipod4g β ρ) (List (CpuId × MemAccess)) :=
  (s.runCoresSniffed addrs input).bind fun s (told, on) =>
    if on then
      let s := s.runTasks input
      (s.devices.ideDma.zoom fun devices => { s with devices }).bind fun s _ =>
        .ok (s.service input) told
    else .ok s told

end Ipod4g

/-- What a watchpoint watches for. -/
inductive WatchKind where
  | write | read | readWrite
  deriving DecidableEq, Repr

inductive Event where
  | break_
  | watchWrite (addr : U32)
  | watchRead (addr : U32)
  deriving DecidableEq, Repr

/-- The registers of the cores are here what each step leaves of them. -/
structure Ipod4gGdb (β ρ : Type) where
  sys : Ipod4g β ρ
  cores : CpuId → Cpu
  watchpoints : List U32 := []
  watchpointKinds : U32 → Option MemAccessKind := fun _ => none
  breakpoints : List U32 := []

def WatchKind.accessKind : WatchKind → MemAccessKind
  | .write => .write
  | .read => .read
  | .readWrite => .read

/-- The event for an access that hit a watchpoint. -/
def MemAccess.event (access : MemAccess) : Event :=
  match access.kind with
  | .read => .watchRead access.offset
  | .write => .watchWrite access.offset
  | .execute => .watchRead access.offset

def Cpu.instructionSize (cpu : Cpu) : U32 := if cpu.thumbMode then 2 else 4

namespace Ipod4gGdb

variable {β ρ : Type}

def addHwWatchpoint (s : Ipod4gGdb β ρ) (addr : U32) (kind : WatchKind) : Ipod4gGdb β ρ × Bool :=
  ({ s with
      watchpoints := s.watchpoints ++ [addr]
      watchpointKinds := Function.update s.watchpointKinds addr (some kind.accessKind) }, true)

/-- The kind is not looked at. -/
def removeHwWatchpoint (s : Ipod4gGdb β ρ) (addr : U32) (_kind : WatchKind) :
    Ipod4gGdb β ρ × Bool :=
  if s.watchpoints.contains addr then
    ({ s with
        watchpoints := s.watchpoints.erase addr
        watchpointKinds := Function.update s.watchpointKinds addr none }, true)
  else (s, false)

def addSwBreakpoint (s : Ipod4gGdb β ρ) (addr : U32) : Ipod4gGdb β ρ × Bool :=
  ({ s with breakpoints := s.breakpoints ++ [addr] }, true)

def removeSwBreakpoint (s : Ipod4gGdb β ρ) (addr : U32) : Ipod4gGdb β ρ × Bool :=
  if s.breakpoints.contains addr then ({ s with breakpoints := s.breakpoints.erase addr }, true)
  else (s, false)

/-- Each access that hits takes the place of the one before. -/
def hitWatchpoint (s : Ipod4gGdb β ρ) (told : List (CpuId × MemAccess)) : Option (CpuId × MemAccess) :=
  told.foldl (fun hit call =>
    if s.watchpointKinds call.2.offset = some call.2.kind then some call else hit) none

def report (s : Ipod4gGdb β ρ) (told : List (CpuId × MemAccess)) :
    Outcome FatalMemException (Ipod4gGdb β ρ) (Option (Event × CpuId)) :=
  match s.hitWatchpoint told with
  | some (id, access) =>
    let cpu := s.cores id
    let pc := cpu.get .pc
    if pc < cpu.instructionSize then .panic underflow
    else
      .ok { s with cores := Function.update s.cores id (cpu.set .pc (pc - cpu.instructionSize)) }
        (some (access.event, id))
  | none =>
    .ok s (([CpuId.cpu, CpuId.cop].find? fun id =>
        s.breakpoints.contains ((s.cores id).get .pc)).map
      fun id => (.break_, id))

variable [BlockDev β] [Peripherals ρ]

/-- The machine's own share of a step. The listener is told of what the watched addresses see. -/
def stepSys (s : Ipod4gGdb β ρ) (input : StepInput ρ) (cores : CpuId → Cpu) :
    Outcome FatalMemException (Ipod4gGdb β ρ) (List (CpuId × MemAccess)) :=
  (s.sys.stepSniffed s.watchpoints { input with pc := fun id => (cores id).get .pc }).zoom
    fun sys => { s with sys, cores }

def step (s : Ipod4gGdb β ρ) (input : StepInput ρ) (cores : CpuId → Cpu) :
    Outcome FatalMemException (Ipod4gGdb β ρ) (Option (Event × CpuId)) :=
  (s.stepSys input cores).bind report

end Ipod4gGdb

def WatchKind.covers : WatchKind → MemAccessKind → Bool
  | .write, .write | .read, .read | .readWrite, .write | .readWrite, .read => true
  | _, _ => false

/-- What is asked of the debugger. With a step comes what the machine does in it. -/
inductive GdbRequest (ρ : Type) where
  | addHwWatchpoint (addr : U32) (kind : WatchKind)
  | removeHwWatchpoint (addr : U32) (kind : WatchKind)
  | addSwBreakpoint (addr : U32)
  | removeSwBreakpoint (addr : U32)
  | step (input : StepInput ρ) (cores : CpuId → Cpu)

/-- The debugger, and which watchpoints have been added and not yet removed. -/
structure GdbSession (β ρ : Type) where
  gdb : Ipod4gGdb β ρ
  isSet : U32 → WatchKind → Bool := fun _ _ => false

namespace GdbSession

variable {β ρ : Type}

def put (s : GdbSession β ρ) (addr : U32) (kind : WatchKind) (on : Bool) : U32 → WatchKind → Bool :=
  fun a k => if a = addr ∧ k = kind then on else s.isSet a k

def Covered (s : GdbSession β ρ) (access : MemAccess) : Prop :=
  ∃ kind, s.isSet access.offset kind = true ∧ kind.covers access.kind = true

/-- What is promised of a step in which the listener is told of `told`: a watch event if and only
if one of the accesses is covered, and then the event of the last such access. -/
structure Fires (s : GdbSession β ρ) (told : List (CpuId × MemAccess))
    (result : Option (Event × CpuId)) : Prop where
  iff_covered : (∃ event id, result = some (event, id) ∧ event ≠ .break_) ↔
    ∃ call ∈ told, s.Covered call.2
  last : ∀ call, LastWith (fun call => s.Covered call.2) told call →
    result = some (call.2.event, call.1)

variable [BlockDev β] [Peripherals ρ]

def step (s : GdbSession β ρ) : GdbRequest ρ → Option (GdbSession β ρ)
  | .addHwWatchpoint addr kind =>
    some { gdb := (s.gdb.addHwWatchpoint addr kind).1, isSet := s.put addr kind true }
  | .removeHwWatchpoint addr kind =>
    some { gdb := (s.gdb.removeHwWatchpoint addr kind).1, isSet := s.put addr kind false }
  | .addSwBreakpoint addr => some { s with gdb := (s.gdb.addSwBreakpoint addr).1 }
  | .removeSwBreakpoint addr => some { s with gdb := (s.gdb.removeSwBreakpoint addr).1 }
  | .step input cores => (s.gdb.step input cores).state?.map fun gdb => { s with gdb }

/-- Watchpoints are kept as they are set, each kind for itself. -/
def Kept (s : GdbSession β ρ) : GdbRequest ρ → Prop
  | .addHwWatchpoint addr kind => (s.gdb.addHwWatchpoint addr kind).2 = true
  | .removeHwWatchpoint addr kind => (s.gdb.removeHwWatchpoint addr kind).2 = s.isSet addr kind
  | .addSwBreakpoint _ | .removeSwBreakpoint _ => True
  | .step input cores =>
    ∃ mid told gdb result, s.gdb.stepSys input cores = .ok mid told ∧
      s.gdb.step input cores = .ok gdb result ∧ s.Fires told result

/-- One kind for an address at a time and no watchpoint for both, a watchpoint that is removed is
set or its address is not on the list, and a step of the machine returns and leaves the core that
is reported room to go back. -/
def Plain (s : GdbSession β ρ) : GdbRequest ρ → Prop
  | .addHwWatchpoint addr kind => kind ≠ .readWrite ∧ ∀ other, s.isSet addr other = true → other = kind
  | .removeHwWatchpoint addr kind => s.isSet addr kind = true ∨ addr ∉ s.gdb.watchpoints
  | .addSwBreakpoint _ | .removeSwBreakpoint _ => True
  | .step input cores =>
    ∃ mid told, s.gdb.stepSys input cores = .ok mid told ∧
      ∀ call, LastWith (fun call => s.Covered call.2) told call →
        (cores call.1).instructionSize ≤ (cores call.1).get .pc

/-- The list and the map say what is set. -/
structure Consistent (s : GdbSession β ρ) : Prop where
  kinds : ∀ addr kind, s.gdb.watchpointKinds addr = some kind ↔
    ∃ set, s.isSet addr set = true ∧ set.accessKind = kind
  listed : ∀ addr set, s.isSet addr set = true → addr ∈ s.gdb.watchpoints
  single : ∀ addr, s.isSet addr .readWrite = false

theorem covers_iff {set : WatchKind} (single : set ≠ .readWrite) (kind : MemAccessKind) :
    set.covers kind = true ↔ set.accessKind = kind := by
  cases set with
  | readWrite => exact absurd rfl single
  | write | read => cases kind <;> decide

omit [BlockDev β] [Peripherals ρ] in
theorem Consistent.ne_readWrite {s : GdbSession β ρ} (consistent : s.Consistent) {addr : U32}
    {set : WatchKind} (isSet : s.isSet addr set = true) : set ≠ .readWrite := by
  rintro rfl
  rw [consistent.single addr] at isSet
  cases isSet

omit [BlockDev β] [Peripherals ρ] in
theorem Consistent.unique {s : GdbSession β ρ} (consistent : s.Consistent) {addr : U32}
    {set other : WatchKind} (isSet : s.isSet addr set = true) (also : s.isSet addr other = true) :
    set = other := by
  have first := (consistent.kinds addr _).mpr ⟨set, isSet, rfl⟩
  have second := (consistent.kinds addr _).mpr ⟨other, also, rfl⟩
  have same : set.accessKind = other.accessKind := Option.some.inj (first.symm.trans second)
  have left := consistent.ne_readWrite isSet
  have right := consistent.ne_readWrite also
  cases set <;> cases other <;> simp_all [WatchKind.accessKind]

omit [BlockDev β] [Peripherals ρ] in
theorem Consistent.covered_iff {s : GdbSession β ρ} (consistent : s.Consistent)
    (access : MemAccess) :
    s.gdb.watchpointKinds access.offset = some access.kind ↔ s.Covered access := by
  rw [consistent.kinds]
  exact exists_congr fun set => and_congr_right fun isSet =>
    (covers_iff (consistent.ne_readWrite isSet) access.kind).symm

omit [BlockDev β] [Peripherals ρ] in
theorem Consistent.addHwWatchpoint {s : GdbSession β ρ} (consistent : s.Consistent) {addr : U32}
    {kind : WatchKind} (single : kind ≠ .readWrite)
    (alone : ∀ other, s.isSet addr other = true → other = kind) :
    Consistent { gdb := (s.gdb.addHwWatchpoint addr kind).1, isSet := s.put addr kind true } where
  kinds a k := by
    by_cases here : a = addr
    · subst here
      dsimp only [Ipod4gGdb.addHwWatchpoint]
      rw [Function.update_self, Option.some.injEq]
      constructor
      · rintro rfl
        exact ⟨kind, if_pos ⟨rfl, rfl⟩, rfl⟩
      · rintro ⟨set, isSet, rfl⟩
        by_cases same : set = kind
        · rw [same]
        · rw [put, if_neg fun both => same both.2] at isSet
          exact absurd (alone set isSet) same
    · simp only [Ipod4gGdb.addHwWatchpoint, Function.update_of_ne here, put, here, false_and, if_false]
      exact consistent.kinds a k
  listed a set isSet := by
    by_cases here : a = addr
    · exact here ▸ List.mem_concat_self
    · simp only [put, here, false_and, if_false] at isSet
      exact List.mem_append_left _ (consistent.listed a set isSet)
  single a := by
    refine (if_neg fun both => ?_).trans (consistent.single a)
    exact single both.2.symm

omit [BlockDev β] [Peripherals ρ] in
theorem Consistent.removeHwWatchpoint {s : GdbSession β ρ} (consistent : s.Consistent) {addr : U32}
    {kind : WatchKind} (plain : s.isSet addr kind = true ∨ addr ∉ s.gdb.watchpoints) :
    Consistent { gdb := (s.gdb.removeHwWatchpoint addr kind).1, isSet := s.put addr kind false } := by
  rcases plain with isSet | unlisted
  · have listed := consistent.listed addr kind isSet
    rw [Ipod4gGdb.removeHwWatchpoint, if_pos (List.contains_iff_mem.mpr listed)]
    have gone : ∀ set, s.put addr kind false addr set = false := by
      intro set
      by_cases same : set = kind
      · exact if_pos ⟨rfl, same⟩
      · rw [put, if_neg fun both => same both.2]
        exact Bool.eq_false_iff.mpr fun also => same (consistent.unique also isSet)
    have others : ∀ a, a ≠ addr → s.put addr kind false a = s.isSet a := fun a away =>
      funext fun set => if_neg fun both => away both.1
    constructor
    · intro a k
      by_cases here : a = addr
      · subst here
        simp [gone]
      · simp only [Function.update_of_ne here, others a here]
        exact consistent.kinds a k
    · intro a set still
      have away : a ≠ addr := fun here => by
        subst here
        simp [gone] at still
      simp only [others a away] at still
      exact (List.mem_erase_of_ne away).mpr (consistent.listed a set still)
    · intro a
      by_cases here : a = addr
      · exact here ▸ gone .readWrite
      · simp only [others a here]
        exact consistent.single a
  · have unset : s.put addr kind false = s.isSet := by
      funext a set
      by_cases here : a = addr ∧ set = kind
      · obtain ⟨rfl, rfl⟩ := here
        rw [put, if_pos ⟨rfl, rfl⟩, eq_comm, Bool.eq_false_iff]
        exact fun isSet => unlisted (consistent.listed a set isSet)
      · exact if_neg here
    rw [Ipod4gGdb.removeHwWatchpoint, if_neg (unlisted ∘ List.contains_iff_mem.mp), unset]
    exact consistent

omit [BlockDev β] [Peripherals ρ] in
theorem Consistent.of_same {s s' : GdbSession β ρ} (consistent : s.Consistent)
    (watchpoints : s'.gdb.watchpoints = s.gdb.watchpoints)
    (kinds : s'.gdb.watchpointKinds = s.gdb.watchpointKinds) (isSet : s'.isSet = s.isSet) :
    s'.Consistent where
  kinds := kinds ▸ isSet ▸ consistent.kinds
  listed := watchpoints ▸ isSet ▸ consistent.listed
  single := isSet ▸ consistent.single

omit [BlockDev β] [Peripherals ρ] in
theorem report_leaves (s : Ipod4gGdb β ρ) (told : List (CpuId × MemAccess)) :
    (s.report told).Leaves fun s' => s'.sys = s.sys ∧
      s'.watchpoints = s.watchpoints ∧ s'.watchpointKinds = s.watchpointKinds := by
  unfold Ipod4gGdb.report
  split
  · dsimp only
    split
    · exact leaves_panic _ _
    · exact (leaves_done ..).mpr ⟨rfl, rfl, rfl⟩
  · exact (leaves_done ..).mpr ⟨rfl, rfl, rfl⟩

theorem step_leaves (s : Ipod4gGdb β ρ) (input : StepInput ρ) (cores : CpuId → Cpu) :
    (s.step input cores).Leaves fun s' =>
      s'.watchpoints = s.watchpoints ∧ s'.watchpointKinds = s.watchpointKinds := by
  have sys : (s.stepSys input cores).Leaves fun s' =>
      s'.watchpoints = s.watchpoints ∧ s'.watchpointKinds = s.watchpointKinds := by
    rw [Ipod4gGdb.stepSys, leaves_zoom]
    exact fun _ _ => ⟨rfl, rfl⟩
  refine sys.bind (fun _ h => h) fun mid told _ same => ?_
  exact (report_leaves mid told).mono fun s' here =>
    ⟨here.2.1.trans same.1, here.2.2.trans same.2⟩

theorem Consistent.step {s s' : GdbSession β ρ} {request : GdbRequest ρ}
    (consistent : s.Consistent) (plain : s.Plain request) (next : s.step request = some s') :
    s'.Consistent := by
  cases request with
  | addHwWatchpoint addr kind =>
    cases next
    exact consistent.addHwWatchpoint plain.1 plain.2
  | removeHwWatchpoint addr kind =>
    cases next
    exact consistent.removeHwWatchpoint plain
  | addSwBreakpoint addr =>
    cases next
    exact consistent.of_same rfl rfl rfl
  | removeSwBreakpoint addr =>
    cases next
    unfold Ipod4gGdb.removeSwBreakpoint
    split <;> exact consistent.of_same rfl rfl rfl
  | step input cores =>
    obtain ⟨gdb, stepped, rfl⟩ := Option.map_eq_some_iff.mp next
    obtain ⟨watchpoints, kinds⟩ := step_leaves s.gdb input cores gdb stepped
    exact consistent.of_same watchpoints kinds rfl

omit [BlockDev β] [Peripherals ρ] in
/-- The step reports by the list and the map; they say what is covered. -/
theorem report_fires {s : GdbSession β ρ} {mid : Ipod4gGdb β ρ} {told : List (CpuId × MemAccess)}
    (hits : ∀ access : MemAccess,
      mid.watchpointKinds access.offset = some access.kind ↔ s.Covered access)
    (room : ∀ call, LastWith (fun call => s.Covered call.2) told call →
      (mid.cores call.1).instructionSize ≤ (mid.cores call.1).get .pc) :
    ∃ gdb result, mid.report told = .ok gdb result ∧ s.Fires told result := by
  have same : (fun call : CpuId × MemAccess =>
      mid.watchpointKinds call.2.offset = some call.2.kind) = fun call => s.Covered call.2 :=
    funext fun call => propext (hits call.2)
  have hit_iff : ∀ call, mid.hitWatchpoint told = some call ↔
      LastWith (fun call => s.Covered call.2) told call := by
    intro call
    rw [← same]
    exact foldl_last_eq_some_iff _ told call
  cases hit : mid.hitWatchpoint told with
  | some call =>
    have last := (hit_iff call).mp hit
    have enough := BitVec.not_lt.mpr (room call last)
    rw [Ipod4gGdb.report, hit]
    dsimp only
    rw [if_neg enough]
    refine ⟨_, _, rfl, ⟨?_, fun other also => ?_⟩⟩
    · obtain ⟨before, after, parts, covered, _⟩ := last
      refine iff_of_true ⟨_, _, rfl, ?_⟩
        ⟨call, parts ▸ List.mem_append_right _ List.mem_cons_self, covered⟩
      unfold MemAccess.event
      split <;> nofun
    · cases Option.some.inj (hit.symm.trans ((hit_iff other).mpr also))
      rfl
  | none =>
    have uncovered : ∀ call ∈ told, ¬ s.Covered call.2 := by
      intro call member
      rw [← hits]
      exact (foldl_last_eq_none_iff _ told).mp hit call member
    rw [Ipod4gGdb.report, hit]
    refine ⟨_, _, rfl, ⟨iff_of_false ?_ ?_, fun call last => ?_⟩⟩
    · rintro ⟨event, id, found, watch⟩
      obtain ⟨_, _, rest⟩ := Option.map_eq_some_iff.mp found
      cases rest
      exact watch rfl
    · rintro ⟨call, member, covered⟩
      exact uncovered call member covered
    · have found := (hit_iff call).mpr last
      rw [hit] at found
      cases found

theorem Consistent.kept {s : GdbSession β ρ} {request : GdbRequest ρ} (consistent : s.Consistent)
    (plain : s.Plain request) : s.Kept request := by
  cases request with
  | addHwWatchpoint addr kind => rfl
  | removeHwWatchpoint addr kind =>
    rcases plain with isSet | unlisted
    · have listed := List.contains_iff_mem.mpr (consistent.listed addr kind isSet)
      rw [Kept, Ipod4gGdb.removeHwWatchpoint, if_pos listed, isSet]
    · have unset : s.isSet addr kind = false :=
        Bool.eq_false_iff.mpr fun isSet => unlisted (consistent.listed addr kind isSet)
      rw [Kept, Ipod4gGdb.removeHwWatchpoint, if_neg (unlisted ∘ List.contains_iff_mem.mp), unset]
  | addSwBreakpoint addr => trivial
  | removeSwBreakpoint addr => trivial
  | step input cores =>
    obtain ⟨mid, told, stepped, room⟩ := plain
    obtain ⟨sys, _, rfl⟩ := zoom_eq_done.mp stepped
    have reports : ∃ gdb result,
        ({ s.gdb with sys, cores } : Ipod4gGdb β ρ).report told = .ok gdb result ∧
          s.Fires told result := report_fires consistent.covered_iff room
    obtain ⟨gdb, result, reported, fires⟩ := reports
    refine ⟨_, told, gdb, result, stepped, ?_, fires⟩
    rw [Ipod4gGdb.step, stepped]
    exact reported

/-- In every session whose requests are plain, watchpoints are kept as they are set. -/
theorem watchpoints_kept (sys : Ipod4g β ρ) (cores : CpuId → Cpu)
    (requests : List (GdbRequest ρ))
    (plain : BeforeEach step Plain { gdb := { sys, cores } } requests) :
    BeforeEach step Kept { gdb := { sys, cores } } requests := by
  have start : Consistent ({ gdb := { sys, cores } } : GdbSession β ρ) := by
    refine ⟨fun addr kind => ?_, fun _ _ isSet => (nomatch isSet), fun _ => rfl⟩
    exact iff_of_false nofun fun ⟨_, isSet, _⟩ => nomatch isSet
  exact plain.mono_of_invariant (fun _ _ _ consistent plain next => consistent.step plain next)
    (fun _ _ consistent plain => consistent.kept plain) start

/-- A core in system mode, some way into its code. -/
def someCore : Cpu where
  reg := fun r => if r = cpsr then 0x1f else 0x100
  mode_valid := by decide

def attached : GdbSession Mem Stub := { gdb := { sys := Ipod4g.poweredUp, cores := fun _ => someCore } }

theorem watched_write_kept :
    BeforeEach step Kept attached
      [.addHwWatchpoint 0x40000000 .write, .step (Ipod4g.guestWrites 0x40000000 1) fun _ => someCore,
        .removeHwWatchpoint 0x40000000 .write] := by
  refine watchpoints_kept Ipod4g.poweredUp (fun _ => someCore) _ ⟨⟨nofun, nofun⟩, fun s next => ?_⟩
  cases next
  refine ⟨⟨_, _, rfl, fun call _ => ?_⟩, fun s next => ?_⟩
  · change someCore.instructionSize ≤ someCore.get .pc
    decide
  · cases next
    exact ⟨.inl rfl, fun _ _ => trivial⟩

/-- The watchpoint for reads answers to a removal of one for writes that was never added. -/
theorem other_kind_removed :
    ¬ BeforeEach step Kept attached
      [.addHwWatchpoint 0x40000000 .read, .removeHwWatchpoint 0x40000000 .write] := by
  rintro ⟨_, later⟩
  have removed := (later _ rfl).1
  cases removed

section machine

end machine

end GdbSession

end Clicky
