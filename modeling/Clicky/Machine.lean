import Mathlib.Data.List.Forall2
import Clicky.Armv4t.UserMode
import Clicky.WakeUp

/-! The machine with its two cores: what they do to the bus in a step comes from their registers, and
is no longer an input. -/
namespace Clicky
open Armv4t CpuM Runs Outcome

namespace Armv4t

def MemOp.access : MemOp → GuestAccess
  | .r8 addr => .r8 addr
  | .r16 addr => .r16 addr
  | .r32 addr => .r32 addr
  | .w8 addr val => .w8 addr val
  | .w16 addr val => .w16 addr val
  | .w32 addr val => .w32 addr val
  | .x16 addr => .x16 addr
  | .x32 addr => .x32 addr

/-- The program counter, found by way of the current mode. -/
def modePc : CpuM U32 := do fileGet (← mode).regBank .pc

/-- The exceptions that a core takes at the end of a step, and whether it had them enabled. -/
def takeInterrupts (status : IntStatus) : CpuM IrqEnable := do
  let irq ← irqEnable
  when (status.irq && irq) (exception .interrupt)
  let fiq ← fiqEnable
  when (status.fiq && fiq) (exception .fastInterrupt)
  return { irq, fiq }

/-- A part of the interpreter that has no memory to ask. -/
def CpuM.alone {α : Type} (prog : CpuM α) (s : RegFile) : Outcome Empty Unit (α × RegFile) :=
  (prog s).run (fun _ _ => .panic "no memory") ()

end Armv4t

namespace MemoryAdapter

variable {M : Type} [Memory M]

/-- The calls of a core. -/
def answer (op : MemOp) (s : MemoryAdapter M) : Outcome Empty (MemoryAdapter M) op.Answer :=
  match op with
  | .r8 addr => read addr .read .u8 (Memory.r8 s.mem addr) s
  | .r16 addr => read addr .read .u16 (Memory.r16 s.mem addr) s
  | .r32 addr => read addr .read .u32 (Memory.r32 s.mem addr) s
  | .w8 addr val => write addr (.u8 val) (Memory.w8 s.mem addr val) s
  | .w16 addr val => write addr (.u16 val) (Memory.w16 s.mem addr val) s
  | .w32 addr val => write addr (.u32 val) (Memory.w32 s.mem addr val) s
  | .x16 addr => read addr .execute .u16 (Memory.x16 s.mem addr) s
  | .x32 addr => read addr .execute .u32 (Memory.x32 s.mem addr) s

theorem perform_access (s : MemoryAdapter M) (op : MemOp) :
    s.perform op.access = (answer op s).map fun _ => () := by
  have unit (o : Outcome Empty (MemoryAdapter M) Unit) : o = o.map fun _ => () := by
    rcases o with ⟨s, never | _⟩ | m <;> rfl
  cases op with
  | w8 | w16 | w32 => exact unit _
  | r8 | r16 | r32 | x16 | x32 => rfl

theorem performAll_access (s : MemoryAdapter M) (ops : List MemOp) :
    s.performAll (ops.map MemOp.access) = Dialogue.answerAll answer ops s := by
  induction ops generalizing s with
  | nil => rfl
  | cons op ops ih =>
    rw [List.map_cons, performAll, perform_access, bind_map, Dialogue.answerAll]
    simp only [ih]

end MemoryAdapter

structure Machine (β ρ : Type) where
  sys : Ipod4g β (Platform ρ)
  cores : CpuId → RegFile

/-- What is left to the surroundings. -/
structure MachineInput (ρ : Type) where
  probe : U32 → String := fun _ => ""
  tasks : Platform ρ → Platform ρ := id

namespace Machine

variable {β ρ : Type} [BlockDev β] [OtherDevices ρ]

def putCore (m : Machine β ρ) (id : CpuId) (core : RegFile) : Machine β ρ :=
  { m with cores := Function.update m.cores id core }

def eachCore {α : Type} (cpu cop : α) : CpuId → α
  | .cpu => cpu
  | .cop => cop

/-- The step of a core, after a look at its program counter. -/
def stepCore : CpuM Bool := do
  let _ ← modePc
  Armv4t.step

def runCore (m : Machine β ρ) (input : MachineInput ρ) (id : CpuId) :
    Outcome FatalMemException (Machine β ρ) Unit :=
  if m.sys.devices.rest.cpucon.isCpuRunning id then
    let mem : MemoryAdapter (Ipod4gBus β (Platform ρ)) := { mem := m.sys.devices.setCpuid id }
    match (stepCore (m.cores id)).run MemoryAdapter.answer mem with
    | .panic message => .panic message
    | .raise _ never => never.elim
    | .ok mem (_, core) =>
      let m := { m with sys := { m.sys with devices := mem.mem } }.putCore id core
      match mem.exception with
      | none => .ok m ()
      | some (access, e) =>
        match modePc.alone core with
        | .panic message => .panic message
        | .raise _ never => never.elim
        | .ok _ (pc, _) =>
          let inDevice := id.display ++ ", " ++ input.probe access.offset
          match e.resolve { pc, access, inDevice } with
          | .ok () => .ok m ()
          | .error fatal => .raise m fatal
  else .ok m ()

def runCores (m : Machine β ρ) (input : MachineInput ρ) :
    Outcome FatalMemException (Machine β ρ) Bool :=
  if m.sys.frozen then .ok m false
  else (m.runCore input .cpu).bind fun m _ =>
    (m.runCore input .cop).map fun _ => !m.sys.skipIrqCheck

def deliver (m : Machine β ρ) (id : CpuId) (status : IntStatus) :
    Outcome FatalMemException (Machine β ρ) Unit :=
  match (takeInterrupts status).alone (m.cores id) with
  | .panic message => .panic message
  | .raise _ never => never.elim
  | .ok _ (enabled, core) =>
    let rest := m.sys.devices.rest.deliver id status enabled
    .ok ({ m with sys := { m.sys with devices.rest := rest } }.putCore id core) ()

def service (m : Machine β ρ) : Outcome FatalMemException (Machine β ρ) Unit :=
  let eidecon := m.sys.devices.eidecon.updateIrqLatch
  let (rest, cpuStatus, copStatus) :=
    m.sys.devices.rest.update.interruptStatus eidecon.ideIrq.asserted
  let m := { m with sys := { m.sys with devices := { m.sys.devices with eidecon, rest } } }
  (m.deliver .cpu cpuStatus).bind fun m _ => m.deliver .cop copStatus

def runTasks (m : Machine β ρ) (input : MachineInput ρ) : Machine β ρ :=
  { m with sys := { m.sys with devices.rest := input.tasks m.sys.devices.rest } }

def step (m : Machine β ρ) (input : MachineInput ρ) : Outcome FatalMemException (Machine β ρ) Bool :=
  (m.runCores input).bind fun m on =>
    if on then
      let m := m.runTasks input
      (m.sys.devices.ideDma.zoom fun devices => { m with sys := { m.sys with devices } }).bind
        fun m _ => m.service.map fun _ => true
    else .ok m true

def stepState (m : Machine β ρ) (input : MachineInput ρ) : Option (Machine β ρ) := (m.step input).state?

/-! ### What the cores are an input of -/

section runCore

variable {m m' : Machine β ρ} {input : MachineInput ρ} {id : CpuId} {r : Except FatalMemException Unit}

/-- What a core does to the bus: no instruction fetch as such, and words at multiples of 4. -/
def ByData : GuestAccess → Prop
  | .r32 addr | .w32 addr _ => addr &&& 3 = 0
  | .x16 _ | .x32 _ => False
  | .r8 _ | .w8 _ _ | .r16 _ | .w16 _ _ => True

theorem byData_access {pc : U32} {op : MemOp} (bus : op.IsBusAccess pc) : ByData op.access := by
  cases op with
  | x16 | x32 => exact bus
  | r32 | w32 => exact bus
  | r8 | w8 | r16 | w16 => trivial

/-- The accesses of a core in a step. -/
def accesses (m : Machine β ρ) (id : CpuId) : List MemOp :=
  (stepCore (m.cores id)).asked MemoryAdapter.answer { mem := m.sys.devices.setCpuid id }

theorem byData_accesses (m : Machine β ρ) (id : CpuId) :
    ∀ a ∈ (m.accesses id).map MemOp.access, ByData a := by
  have all : (stepCore (m.cores id)).All (MemOp.IsBusAccess ((m.cores id).index .pc)) (fun _ => True)
      fun _ => True := by
    rw [stepCore, bind_run, modePc, bind_run, CpuM.mode]
    cases (m.cores id).mode with
    | error message => trivial
    | ok mode =>
      exact (all_step closed_true trivial (fun _ _ _ => trivial) fun _ _ _ _ => trivial).mono
        (fun _ h => h) (fun _ h => h) fun _ _ => trivial
  intro a made
  obtain ⟨op, asked, rfl⟩ := List.mem_map.mp made
  exact byData_access (all.asked _ op asked)

theorem runCore_refines (ran : m.runCore input id = .done m' r) :
    ∃ pc, ∀ guest : StepInput (Platform ρ), guest.accesses id = (m.accesses id).map MemOp.access →
      guest.pc id = pc → guest.probe = input.probe → m.sys.runCore guest id = .done m'.sys r := by
  unfold runCore at ran
  split at ran
  case isFalse stopped =>
    cases ran
    refine ⟨0, fun guest _ _ _ => ?_⟩
    exact if_neg stopped
  case isTrue running =>
    have running' : Peripherals.isCpuRunning m.sys.devices.rest id = true := running
    dsimp only at ran
    split at ran
    case h_1 => cases ran
    case h_2 never _ => exact never.elim
    case h_3 mem ok core stepped =>
      have performed := Dialogue.answerAll_asked stepped
      rw [← MemoryAdapter.performAll_access] at performed
      split at ran
      case h_1 quiet =>
        cases ran
        refine ⟨0, fun guest same _ _ => ?_⟩
        rw [Ipod4g.runCore, if_pos running', same]
        dsimp only [accesses]
        rw [performed]
        simp only [quiet]
        rfl
      case h_2 access e raised =>
        split at ran
        case h_1 => cases ran
        case h_2 never _ => exact never.elim
        case h_3 pc _ at_pc =>
          refine ⟨pc, fun guest same counter probe => ?_⟩
          rw [Ipod4g.runCore, if_pos running', same]
          dsimp only [accesses]
          rw [performed]
          simp only [raised, counter, probe]
          generalize e.resolve { pc, access, inDevice := id.display ++ ", " ++ input.probe access.offset } =
            resolved at ran ⊢
          cases resolved <;> cases ran <;> rfl

end runCore

section step

variable {m m' : Machine β ρ} {input : MachineInput ρ} {α : Type} {r : Except FatalMemException α}

theorem runCores_refines {r : Except FatalMemException Bool} (ran : m.runCores input = .done m' r) :
    ∃ (accesses : CpuId → List GuestAccess) (pc : CpuId → U32), (∀ id, ∀ a ∈ accesses id, ByData a) ∧
      ∀ guest : StepInput (Platform ρ), guest.accesses = accesses → guest.pc = pc →
        guest.probe = input.probe → m.sys.runCores guest = .done m'.sys r := by
  unfold runCores at ran
  split at ran
  case isTrue frozen =>
    cases ran
    refine ⟨fun _ => [], fun _ => 0, by simp, fun guest _ _ _ => ?_⟩
    exact if_pos frozen
  case isFalse warm =>
    rcases bind_eq_done ran with ⟨fatal, cpu, rfl⟩ | ⟨m₁, _, cpu, later⟩
    · obtain ⟨pc, cpuRuns⟩ := runCore_refines cpu
      refine ⟨fun _ => (m.accesses .cpu).map MemOp.access, fun _ => pc, fun _ => m.byData_accesses .cpu,
        fun guest same counter probe => ?_⟩
      rw [Ipod4g.runCores, if_neg warm, cpuRuns guest (congrFun same .cpu) (congrFun counter .cpu) probe]
      rfl
    · cases cop : m₁.runCore input .cop with
      | panic message =>
        rw [cop] at later
        cases later
      | done m₂ r₂ =>
        obtain ⟨pc, cpuRuns⟩ := runCore_refines cpu
        obtain ⟨pc', copRuns⟩ := runCore_refines cop
        rw [cop] at later
        refine ⟨eachCore ((m.accesses .cpu).map MemOp.access) ((m₁.accesses .cop).map MemOp.access),
          eachCore pc pc', ?_, fun guest same counter probe => ?_⟩
        · rintro (_ | _)
          · exact m.byData_accesses .cpu
          · exact m₁.byData_accesses .cop
        · rw [Ipod4g.runCores, if_neg warm,
            cpuRuns guest (congrFun same .cpu) (congrFun counter .cpu) probe, bind_ok,
            copRuns guest (congrFun same .cop) (congrFun counter .cop) probe]
          cases r₂ <;> cases later <;> rfl

omit [BlockDev β] [OtherDevices ρ] in
theorem deliver_refines {id : CpuId} {status : IntStatus} {r : Except FatalMemException Unit}
    (ran : m.deliver id status = .done m' r) : r = .ok () ∧ ∃ enabled, m'.sys =
      { m.sys with devices.rest := m.sys.devices.rest.deliver id status enabled } := by
  unfold deliver at ran
  split at ran
  case h_1 => cases ran
  case h_2 never _ => exact never.elim
  case h_3 enabled core _ =>
    cases ran
    exact ⟨rfl, enabled, rfl⟩

omit [BlockDev β] in
theorem service_refines {r : Except FatalMemException Unit} (ran : m.service = .done m' r) :
    r = .ok () ∧ ∃ enabled, ∀ guest : StepInput (Platform ρ), guest.irqEnable = enabled →
      m.sys.service guest = m'.sys := by
  unfold service at ran
  rcases bind_eq_done ran with ⟨fatal, cpu, rfl⟩ | ⟨m₁, _, cpu, cop⟩
  · cases (deliver_refines cpu).1
  · obtain ⟨_, cpuEnabled, after⟩ := deliver_refines cpu
    obtain ⟨returned, copEnabled, last⟩ := deliver_refines cop
    refine ⟨returned, eachCore cpuEnabled copEnabled, fun guest enabled => ?_⟩
    rw [last, after, Ipod4g.service, enabled]
    rfl

/-- What comes after the tasks. -/
theorem finish_refines {r : Except FatalMemException Bool}
    (ran : (m.sys.devices.ideDma.zoom fun devices => { m with sys := { m.sys with devices } }).bind
      (fun m _ => m.service.map fun _ => true) = .done m' r) :
    ∃ enabled, ∀ guest : StepInput (Platform ρ), guest.irqEnable = enabled →
      ((m.sys.devices.ideDma.zoom fun devices => { m.sys with devices }).bind fun s _ =>
        .ok (s.service guest) true) = .done m'.sys r := by
  rcases bind_eq_done ran with ⟨fatal, zoomed, rfl⟩ | ⟨m₂, _, zoomed, served⟩
  · obtain ⟨devices, moved, rfl⟩ := zoom_eq_done.mp zoomed
    refine ⟨fun _ => ⟨false, false⟩, fun guest _ => ?_⟩
    rw [moved]
    rfl
  · obtain ⟨devices, moved, rfl⟩ := zoom_eq_done.mp zoomed
    obtain ⟨r', service⟩ : ∃ r', ({ m with sys := { m.sys with devices } } : Machine β ρ).service =
        .done m' r' := by
      refine state?_eq_some.mp ?_
      rw [← state?_map, served, state?_done]
    obtain ⟨rfl, enabled, serves⟩ := service_refines service
    rw [service] at served
    cases served
    refine ⟨enabled, fun guest same => ?_⟩
    rw [moved, ← serves guest same]
    rfl

/-- A step of the machine is a step of the system, with what the cores do for its input. -/
theorem step_refines (taken : m.stepState input = some m') :
    ∃ guest : StepInput (Platform ρ), guest.tasks = input.tasks ∧ guest.probe = input.probe ∧
      (∀ id, ∀ a ∈ guest.accesses id, ByData a) ∧ m.sys.stepState guest = some m'.sys := by
  obtain ⟨r, ran⟩ := state?_eq_some.mp taken
  unfold step at ran
  rcases bind_eq_done ran with ⟨fatal, cores, rfl⟩ | ⟨m₁, on, cores, later⟩
  · obtain ⟨accesses, pc, data, runs⟩ := runCores_refines cores
    refine ⟨{ accesses, pc, probe := input.probe, tasks := input.tasks }, rfl, rfl, data, ?_⟩
    rw [Ipod4g.stepState, Ipod4g.step, runs _ rfl rfl rfl]
    rfl
  · obtain ⟨accesses, pc, data, runs⟩ := runCores_refines cores
    cases on with
    | false =>
      cases later
      refine ⟨{ accesses, pc, probe := input.probe, tasks := input.tasks }, rfl, rfl, data, ?_⟩
      rw [Ipod4g.stepState, Ipod4g.step, runs _ rfl rfl rfl]
      rfl
    | true =>
      rw [if_pos rfl] at later
      obtain ⟨irqEnable, finishes⟩ := finish_refines later
      let guest : StepInput (Platform ρ) :=
        { accesses, pc, probe := input.probe, tasks := input.tasks, irqEnable }
      refine ⟨guest, rfl, rfl, data, ?_⟩
      rw [Ipod4g.stepState, Ipod4g.step, runs guest rfl rfl rfl, bind_ok, if_pos rfl]
      exact congrArg state? (finishes guest rfl)

/-- Every run of the machine is a run of the system: what is shown of those for all that cores could do
holds whatever program the cores execute. -/
theorem run_refines {inputs : List (MachineInput ρ)} (reached : run stepState m inputs = some m') :
    ∃ guests : List (StepInput (Platform ρ)),
      List.Forall₂ (fun guest input => guest.tasks = input.tasks ∧ guest.probe = input.probe ∧
        ∀ id, ∀ a ∈ guest.accesses id, ByData a) guests inputs ∧
      run Ipod4g.stepState m.sys guests = some m'.sys := by
  induction inputs generalizing m with
  | nil =>
    cases reached
    exact ⟨[], .nil, rfl⟩
  | cons input inputs ih =>
    obtain ⟨mid, first, last⟩ := Option.bind_eq_some_iff.mp reached
    obtain ⟨guest, tasks, probe, data, taken⟩ := step_refines first
    obtain ⟨guests, alike, ran⟩ := ih last
    refine ⟨guest :: guests, .cons ⟨tasks, probe, data⟩ alike, ?_⟩
    rw [run, taken]
    exact ran

end step

def userAt (pc : U32) : RegFile :=
  { atUser with reg := fun slot => if slot = 15 then pc else atUser.reg slot }

theorem mode?_userAt (pc : U32) : (userAt pc).mode? = some .user := by
  have status : (userAt pc).status = 0x10 := by
    simp [userAt, RegFile.status, atUser, show cpsr ≠ 15 by decide]
  rw [RegFile.mode?, status]
  rfl

/-- Both cores are at the register that tells them apart. -/
def atCpuid : Machine Mem Stub :=
  { sys := Ipod4g.platformUp, cores := fun _ => userAt 0x60000000 }

set_option maxRecDepth 20000 in
theorem runs_atCpuid : (run stepState atCpuid [{}]).isSome = true := rfl

theorem run_refines_cpuid : ∃ m' guest, run stepState atCpuid [{}] = some m' ∧
    (∀ id, ∀ a ∈ StepInput.accesses guest id, ByData a) ∧
    run Ipod4g.stepState atCpuid.sys [guest] = some m'.sys := by
  obtain ⟨m', reached⟩ := Option.isSome_iff_exists.mp runs_atCpuid
  obtain ⟨guests, alike, ran⟩ := run_refines reached
  obtain ⟨guest, _, ⟨_, _, data⟩, rest, rfl⟩ := List.forall₂_cons_right_iff.mp alike
  cases List.forall₂_nil_right_iff.mp rest
  exact ⟨m', guest, reached, data, ran⟩

/-! ### One core among the others -/

/-- The machine at a core's turn in a step. -/
inductive Turn (m : Machine β ρ) (input : MachineInput ρ) : CpuId → Machine β ρ → Prop where
  | cpu (warm : m.sys.frozen = false) : Turn m input .cpu m
  | cop {next : Machine β ρ} (warm : m.sys.frozen = false)
      (ran : m.runCore input .cpu = .ok next ()) : Turn m input .cop next

/-- The interrupt check of a step finds the machine in this state. -/
def ChecksIn (m : Machine β ρ) (input : MachineInput ρ) (check : Machine β ρ) : Prop :=
  ∃ m₁ devices, m.runCores input = .ok m₁ true ∧
    (m₁.runTasks input).sys.devices.ideDma = .ok devices () ∧
    check = { (m₁.runTasks input) with sys := { (m₁.runTasks input).sys with devices } }

def latched (m : Machine β ρ) : Machine β ρ :=
  let eidecon := m.sys.devices.eidecon.updateIrqLatch
  let rest := (m.sys.devices.rest.update.interruptStatus eidecon.ideIrq.asserted).1
  { m with sys := { m.sys with devices := { m.sys.devices with eidecon, rest } } }

def reported (m : Machine β ρ) : CpuId → IntStatus := m.sys.devices.rest.reported m.sys.ideIrq

/-- The machine as a core is told of its interrupts in a step, and what it is told. -/
inductive Told (m : Machine β ρ) (input : MachineInput ρ) :
    CpuId → IntStatus → Machine β ρ → Prop where
  | cpu {check : Machine β ρ} (checks : m.ChecksIn input check) :
    Told m input .cpu (check.reported .cpu) check.latched
  | cop {check next : Machine β ρ} (checks : m.ChecksIn input check)
      (told : check.latched.deliver .cpu (check.reported .cpu) = .ok next ()) :
    Told m input .cop (check.reported .cop) next

def raises (status : IntStatus) : Exception → Bool
  | .interrupt => status.irq
  | .fastInterrupt => status.fiq
  | _ => false

/-- A core enters the exception, and perhaps a fast interrupt right after an interrupt. -/
def Enters (exc : Exception) (s s' : RegFile) : Prop :=
  let entered := s.entered exc (exc.newLr s)
  s' = entered ∨
    exc = .interrupt ∧ s' = entered.entered .fastInterrupt (Exception.newLr .fastInterrupt entered)

/-- In the step, an exception takes the core out of a program that is confined until then: by the
instruction that it executes, or by an interrupt it is told of and does not mask. -/
inductive TrapsIn (s₀ : RegFile) (m : Machine β ρ) (input : MachineInput ρ) (id : CpuId) : Prop where
  | instruction {turn after : Machine β ρ} {r : Except FatalMemException Unit}
      (comes : m.Turn input id turn) (confined : Confined s₀ (turn.cores id))
      (ran : turn.runCore input id = .done after r) (trapped : Trapped s₀ (after.cores id))
  | interrupt {status : IntStatus} {turn after : Machine β ρ} {exc : Exception}
      (told : m.Told input id status turn) (confined : Confined s₀ (turn.cores id))
      (raised : raises status exc = true) (unmasked : exc.masked (turn.cores id).status = false)
      (ran : turn.deliver id status = .ok after ())
      (enters : Enters exc (turn.cores id) (after.cores id))

omit [BlockDev β] in
theorem service_eq (m : Machine β ρ) : m.service = (m.latched.deliver .cpu (m.reported .cpu)).bind
    fun next _ => next.deliver .cop (m.reported .cop) := by
  unfold service latched reported Platform.reported Ipod4g.ideIrq
  rfl

section registers

variable {s₀ s s' : RegFile}

theorem stepCore_confined {mem mem' : MemoryAdapter (Ipod4gBus β (Platform ρ))} {ok : Bool}
    (confined : Confined s₀ s)
    (stepped : (stepCore s).run MemoryAdapter.answer mem = .ok mem' (ok, s')) :
    Confined s₀ s' ∨ Trapped s₀ s' := by
  have plain : (Armv4t.step s).run MemoryAdapter.answer mem = .ok mem' (ok, s') := by
    rw [stepCore, bind_run, modePc, bind_run, CpuM.mode] at stepped
    cases here : s.mode with
    | error message =>
      rw [here] at stepped
      cases stepped
    | ok mode =>
      rw [here] at stepped
      exact stepped
  have taken : next MemoryAdapter.answer (s, mem) .step = some (s', mem') :=
    CpuM.on_eq_some.mpr ⟨ok, plain⟩
  exact next_confined confined taken

/-- An exception that a core is asked for is entered, or masked. -/
theorem when_exception {asked : Bool} {exc : Exception}
    (ran : (when (asked = true) (exception exc)).alone s = .ok () ((), s')) :
    s' = s ∨ asked = true ∧ exc.masked s.status = false ∧ s' = s.entered exc (exc.newLr s) := by
  unfold when at ran
  split at ran
  · rename_i asked
    by_cases overflows : exc.Overflows s
    · rw [CpuM.alone, exception_overflows overflows] at ran
      cases ran
    · rw [CpuM.alone, exception_done overflows] at ran
      cases masked : exc.masked s.status with
      | true =>
        rw [masked] at ran
        cases ran
        exact .inl rfl
      | false =>
        rw [masked] at ran
        cases ran
        exact .inr ⟨asked, rfl, rfl⟩
  · cases ran
    exact .inl rfl

theorem takeInterrupts_cases {status : IntStatus} {enabled : IrqEnable}
    (ran : (takeInterrupts status).alone s = .ok () (enabled, s')) :
    s' = s ∨ ∃ exc, raises status exc = true ∧ exc.masked s.status = false ∧ Enters exc s s' := by
  simp only [CpuM.alone, takeInterrupts, bind_run, Dialogue.run_bind] at ran
  obtain ⟨_, ⟨irq, s₁⟩, here, ran⟩ := bind_eq_ok.mp ran
  cases here
  obtain ⟨_, ⟨_, s₂⟩, first, ran⟩ := bind_eq_ok.mp ran
  obtain ⟨_, ⟨fiq, s₃⟩, there, ran⟩ := bind_eq_ok.mp ran
  cases there
  obtain ⟨_, ⟨_, s₄⟩, second, ran⟩ := bind_eq_ok.mp ran
  cases ran
  obtain rfl | ⟨asked, unmasked, rfl⟩ := when_exception first
  · obtain same | ⟨asked, unmasked, entered⟩ := when_exception second
    · exact .inl same
    · exact .inr ⟨.fastInterrupt, (Bool.and_eq_true _ _ ▸ asked).1, unmasked, .inl entered⟩
  · refine .inr ⟨.interrupt, (Bool.and_eq_true _ _ ▸ asked).1, unmasked, ?_⟩
    obtain same | ⟨_, _, entered⟩ := when_exception second
    · exact .inl same
    · exact .inr ⟨rfl, entered⟩

end registers

section cores

variable {s₀ : RegFile} {m m' : Machine β ρ} {input : MachineInput ρ} {id : CpuId}

theorem runCore_cores {r : Except FatalMemException Unit} (ran : m.runCore input id = .done m' r) :
    m'.cores = m.cores ∨ ∃ core ok, ∃ mem mem' : MemoryAdapter (Ipod4gBus β (Platform ρ)),
      (stepCore (m.cores id)).run MemoryAdapter.answer mem = .ok mem' (ok, core) ∧
        m'.cores = Function.update m.cores id core := by
  unfold runCore at ran
  split at ran
  case isFalse =>
    cases ran
    exact .inl rfl
  case isTrue =>
    dsimp only at ran
    split at ran
    case h_1 => cases ran
    case h_2 never _ => exact never.elim
    case h_3 mem ok core stepped =>
      refine .inr ⟨core, ok, _, mem, stepped, ?_⟩
      split at ran
      case h_1 =>
        cases ran
        rfl
      case h_2 =>
        split at ran
        case h_1 => cases ran
        case h_2 never _ => exact never.elim
        case h_3 => split at ran <;> cases ran <;> rfl

/-- The turn of a core is no affair of the registers of the other. -/
theorem runCore_other {r : Except FatalMemException Unit} (ran : m.runCore input id = .done m' r)
    (other : CpuId) (apart : other ≠ id) : m'.cores other = m.cores other := by
  obtain same | ⟨core, _, _, _, _, put⟩ := runCore_cores ran
  · rw [same]
  · rw [put, Function.update_of_ne apart]

theorem runCore_confined {r : Except FatalMemException Unit} (ran : m.runCore input id = .done m' r)
    (confined : Confined s₀ (m.cores id)) : Confined s₀ (m'.cores id) ∨ Trapped s₀ (m'.cores id) := by
  obtain same | ⟨core, _, _, _, stepped, put⟩ := runCore_cores ran
  · rw [same]
    exact .inl confined
  · rw [put, Function.update_self]
    exact stepCore_confined confined stepped

omit [BlockDev β] [OtherDevices ρ] in
theorem deliver_cores {status : IntStatus} {r : Except FatalMemException Unit}
    (ran : m.deliver id status = .done m' r) : r = .ok () ∧
      (∀ other, other ≠ id → m'.cores other = m.cores other) ∧
      (m'.cores id = m.cores id ∨ ∃ exc, raises status exc = true ∧
        exc.masked (m.cores id).status = false ∧ Enters exc (m.cores id) (m'.cores id)) := by
  unfold deliver at ran
  split at ran
  case h_1 => cases ran
  case h_2 never _ => exact never.elim
  case h_3 enabled core taken =>
    cases ran
    refine ⟨rfl, fun other apart => Function.update_of_ne apart _ _, ?_⟩
    simp only [putCore, Function.update_self]
    exact takeInterrupts_cases taken

theorem runCore_trapsIn {turn : Machine β ρ} {r : Except FatalMemException Unit}
    (comes : m.Turn input id turn) (confined : Confined s₀ (turn.cores id))
    (ran : turn.runCore input id = .done m' r) :
    Confined s₀ (m'.cores id) ∨ TrapsIn s₀ m input id :=
  (runCore_confined ran confined).imp_right fun trapped => .instruction comes confined ran trapped

theorem deliver_trapsIn {turn : Machine β ρ} {status : IntStatus}
    {r : Except FatalMemException Unit} (told : m.Told input id status turn)
    (confined : Confined s₀ (turn.cores id)) (ran : turn.deliver id status = .done m' r) :
    Confined s₀ (m'.cores id) ∨ TrapsIn s₀ m input id := by
  obtain ⟨rfl, _, same | ⟨exc, raised, unmasked, enters⟩⟩ := deliver_cores ran
  · exact .inl (same ▸ confined)
  · exact .inr (.interrupt told confined raised unmasked ran enters)

theorem runCores_trapsIn {r : Except FatalMemException Bool} (confined : Confined s₀ (m.cores id))
    (ran : m.runCores input = .done m' r) :
    Confined s₀ (m'.cores id) ∨ TrapsIn s₀ m input id := by
  unfold runCores at ran
  split at ran
  case isTrue =>
    cases ran
    exact .inl confined
  case isFalse running =>
    have warm : m.sys.frozen = false := Bool.eq_false_iff.mpr running
    rcases bind_eq_done ran with ⟨fatal, cpu, _⟩ | ⟨m₁, _, cpu, later⟩
    · cases id with
      | cpu => exact runCore_trapsIn (.cpu warm) confined cpu
      | cop =>
        rw [runCore_other cpu .cop nofun]
        exact .inl confined
    · obtain ⟨r', cop⟩ : ∃ r', m₁.runCore input .cop = .done m' r' := by
        refine state?_eq_some.mp ?_
        rw [← state?_map, later, state?_done]
      cases id with
      | cpu =>
        rw [runCore_other cop .cpu nofun]
        exact runCore_trapsIn (.cpu warm) confined cpu
      | cop =>
        rw [← runCore_other cpu .cop nofun] at confined
        exact runCore_trapsIn (.cop warm cpu) confined cop

theorem service_trapsIn {check : Machine β ρ} {r : Except FatalMemException Unit}
    (checks : m.ChecksIn input check) (confined : Confined s₀ (check.cores id))
    (ran : check.service = .done m' r) : Confined s₀ (m'.cores id) ∨ TrapsIn s₀ m input id := by
  rw [service_eq] at ran
  rcases bind_eq_done ran with ⟨fatal, cpu, _⟩ | ⟨next, _, cpu, cop⟩
  · cases (deliver_cores cpu).1
  · cases id with
    | cpu =>
      rw [(deliver_cores cop).2.1 .cpu nofun]
      exact deliver_trapsIn (.cpu checks) confined cpu
    | cop =>
      have told : Confined s₀ (next.cores .cop) := by
        rw [(deliver_cores cpu).2.1 .cop nofun]
        exact confined
      exact deliver_trapsIn (.cop checks cpu) told cop

theorem step_trapsIn (confined : Confined s₀ (m.cores id)) (taken : m.stepState input = some m') :
    Confined s₀ (m'.cores id) ∨ TrapsIn s₀ m input id := by
  obtain ⟨r, ran⟩ := state?_eq_some.mp taken
  unfold step at ran
  rcases bind_eq_done ran with ⟨fatal, cores, _⟩ | ⟨m₁, on, cores, later⟩
  · exact runCores_trapsIn confined cores
  · obtain inside | trapped := runCores_trapsIn confined cores
    · cases on with
      | false =>
        cases later
        exact .inl inside
      | true =>
        rw [if_pos rfl] at later
        rcases bind_eq_done later with ⟨fatal, zoomed, _⟩ | ⟨m₂, _, zoomed, served⟩
        · obtain ⟨devices, _, rfl⟩ := zoom_eq_done.mp zoomed
          exact .inl inside
        · obtain ⟨devices, moved, rfl⟩ := zoom_eq_done.mp zoomed
          obtain ⟨r', service⟩ : ∃ r', ({ (m₁.runTasks input) with
              sys := { (m₁.runTasks input).sys with devices } } : Machine β ρ).service =
              .done m' r' := by
            refine state?_eq_some.mp ?_
            rw [← state?_map, served, state?_done]
          exact service_trapsIn ⟨m₁, devices, cores, moved, rfl⟩ inside service
    · exact .inr trapped

/-- Whatever the other core, the devices and the DMA do in a run of the machine, a program in user mode
stays confined until a step of the run in which an exception takes its core out of it. -/
theorem cores_confined {inputs : List (MachineInput ρ)} (user : (m.cores id).mode? = some .user)
    (sync : (m.cores id).InSync) (reached : run stepState m inputs = some m') :
    Confined (m.cores id) (m'.cores id) ∨ ∃ before input after last next,
      inputs = before ++ input :: after ∧ run stepState m before = some last ∧
        Confined (m.cores id) (last.cores id) ∧ last.stepState input = some next ∧
        TrapsIn (m.cores id) last input id :=
  run_or_exit (I := fun last => Confined (m.cores id) (last.cores id))
    (X := fun last input _ => TrapsIn (m.cores id) last input id)
    (fun _ _ _ => step_trapsIn) (Confined.refl user sync) reached

end cores

/-- Both cores are at a software interrupt, which is all that there is in SDRAM. -/
def atSoftware : Machine Mem Stub :=
  let sys := Ipod4g.platformUp
  let sdram := { sys.devices.sdram with mem := fun _ => 0xef, initialized := fun _ => true }
  { sys := { sys with devices := { sys.devices with sdram } }, cores := fun _ => userAt 0x10000000 }

set_option maxRecDepth 20000 in
theorem runs_atSoftware : (run stepState atSoftware [{}]).map (fun m => (m.cores .cop).mode?) =
    some (some .supervisor) := rfl

theorem cores_confined_software : ∃ before input after last next,
    [{}] = before ++ input :: after ∧ run stepState atSoftware before = some last ∧
      Confined (userAt 0x10000000) (last.cores .cop) ∧ last.stepState input = some next ∧
      TrapsIn (userAt 0x10000000) last input .cop := by
  obtain ⟨m', reached, mode⟩ := Option.map_eq_some_iff.mp runs_atSoftware
  have user := mode?_userAt 0x10000000
  have stayed : ¬ Confined (atSoftware.cores .cop) (m'.cores .cop) := fun confined =>
    absurd (confined.mode.symm.trans mode) (by decide)
  exact (cores_confined user ⟨.user, user, rfl⟩ reached).resolve_left stayed

end Machine
end Clicky
