import Clicky.CpuWake
import Clicky.Platform
import Clicky.Routing

/-! The interrupt check at the end of a step, and the cores it finds asleep. -/
namespace Clicky
open Runs

/-- The core takes one of the interrupts that are reported to it. -/
def IntStatus.taken (status : IntStatus) (core : IrqEnable) : Bool :=
  status.irq && core.irq || status.fiq && core.fiq

def IntStatus.pending (status : IntStatus) : Bool := status.irq || status.fiq

namespace CpuCon

/-- The core is to sleep until an interrupt occurs. -/
def sleeps (s : CpuCon) (id : CpuId) : Bool := (s.ctl id).getBit Flags.PROC_SLEEP

theorem not_running_of_sleeps {s : CpuCon} {id : CpuId} (sleeps : s.sleeps id = true) :
    s.isCpuRunning id = false := by
  rw [← Bool.not_eq_true, isCpuRunning_eq]
  intro awake
  have bit : (flow (s.ctl id)).getLsbD 2 = s.sleeps id := by
    rw [flow, BitVec.getLsbD_getBits]
    rfl
  rw [awake, sleeps] at bit
  exact absurd bit (by decide)

theorem wakeOnInterrupt_awake {s : CpuCon} {id : CpuId} (awake : s.sleeps id = false) :
    s.wakeOnInterrupt id = s := if_neg (Bool.eq_false_iff.mp awake)

/-- The rule of `wake_on_interrupt`: a core that sleeps runs, and nothing else changes. -/
theorem isCpuRunning_woken (s : CpuCon) (id other : CpuId) :
    (s.wakeOnInterrupt id).isCpuRunning other =
      (s.isCpuRunning other || (decide (other = id) && s.sleeps other)) := by
  unfold wakeOnInterrupt
  by_cases own : other = id
  · subst own
    split
    · rename_i sleeps
      rw [show s.sleeps other = true from sleeps]
      simp [isCpuRunning, flow_clearFlow]
    · rename_i awake
      rw [show s.sleeps other = false from Bool.eq_false_iff.mpr awake]
      simp
  · split
    · simp [isCpuRunning, own]
    · simp [own]

theorem sleeps_woken (s : CpuCon) (id other : CpuId) :
    (s.wakeOnInterrupt id).sleeps other = (s.sleeps other && !decide (other = id)) := by
  by_cases own : other = id
  · subst own
    have awake : (s.wakeOnInterrupt other).sleeps other = false := by
      cases sleeps : s.sleeps other with
      | true =>
        have running := isCpuRunning_woken s other other
        rw [sleeps] at running
        refine Bool.eq_false_iff.mpr fun still => ?_
        rw [not_running_of_sleeps still] at running
        simp at running
      | false =>
        rw [wakeOnInterrupt_awake sleeps]
        exact sleeps
    simp [awake]
  · unfold wakeOnInterrupt
    split
    · simp [sleeps, own]
    · simp [own]

end CpuCon

namespace Platform

variable {ρ : Type} [OtherDevices ρ]

omit [OtherDevices ρ] in
/-- The second call finds the core awake. -/
theorem deliver_cpucon (s : Platform ρ) (id : CpuId) (status : IntStatus) (core : IrqEnable) :
    (s.deliver id status core).cpucon =
      if status.taken core then s.cpucon.wakeOnInterrupt id else s.cpucon := by
  have twice : (s.cpucon.wakeOnInterrupt id).wakeOnInterrupt id = s.cpucon.wakeOnInterrupt id :=
    CpuCon.wakeOnInterrupt_awake (by rw [CpuCon.sleeps_woken]; simp)
  unfold deliver IntStatus.taken
  cases status.irq && core.irq <;> cases status.fiq && core.fiq <;> simp [twice]

/-- What `interrupt_status` reports to a core at the end of a step. -/
def reported (s : Platform ρ) (ideIrq : Bool) : CpuId → IntStatus :=
  IntCon.statusOf (s.update.interruptStatus ideIrq).2

/-- Each core is woken up by its own interrupts only. -/
theorem isCpuRunning_service (s : Platform ρ) (ideIrq : Bool) (core : CpuId → IrqEnable)
    (id : CpuId) : (s.service ideIrq core).cpucon.isCpuRunning id =
      (s.cpucon.isCpuRunning id ||
        (s.cpucon.sleeps id && (s.reported ideIrq id).taken (core id))) := by
  have cpucon : (s.service ideIrq core).cpucon =
      let woken := if (s.reported ideIrq .cpu).taken (core .cpu)
        then s.cpucon.wakeOnInterrupt .cpu else s.cpucon
      if (s.reported ideIrq .cop).taken (core .cop) then woken.wakeOnInterrupt .cop else woken := by
    refine (deliver_cpucon ..).trans ?_
    rw [deliver_cpucon]
    rfl
  rw [cpucon]
  dsimp only
  cases id <;> cases (s.reported ideIrq .cpu).taken (core .cpu) <;>
    cases (s.reported ideIrq .cop).taken (core .cop) <;>
    simp [CpuCon.isCpuRunning_woken, CpuCon.sleeps_woken]

end Platform

namespace Ipod4g

variable {β ρ : Type} [BlockDev β] [OtherDevices ρ]

/-- The step up to the interrupt check, and whether it gets there. -/
def untilIrqCheck (s : Ipod4g β (Platform ρ)) (input : StepInput (Platform ρ)) :
    Outcome FatalMemException (Ipod4g β (Platform ρ)) Bool :=
  (s.runCores input).bind fun s on =>
    if on then
      let s := s.runTasks input
      (s.devices.ideDma.zoom fun devices => { s with devices }).map fun _ => true
    else .ok s false

def ideIrq (s : Ipod4g β (Platform ρ)) : Bool := s.devices.eidecon.updateIrqLatch.ideIrq.asserted

/-- The interrupt check finds the machine in the state `s'`. -/
def ChecksIn (s s' : Ipod4g β (Platform ρ)) (input : StepInput (Platform ρ)) : Prop :=
  s.untilIrqCheck input = .ok s' true

theorem stepState_of_checksIn {s s' : Ipod4g β (Platform ρ)} {input : StepInput (Platform ρ)}
    (checks : s.ChecksIn s' input) : s.stepState input = some (s'.service input) := by
  obtain ⟨s₁, on, cores, rest⟩ := Outcome.bind_eq_ok.mp checks
  cases on with
  | false => cases rest
  | true =>
    obtain ⟨s₂, _, moved, last⟩ := Outcome.bind_eq_ok.mp rest
    cases last
    rw [stepState, step, cores]
    change (((_ : Outcome FatalMemException (Ipod4g β (Platform ρ)) Unit).bind _).state?) = _
    rw [moved]
    rfl

/-- A core that sleeps as the interrupt check comes runs after the step if an interrupt is
reported to it. -/
def NotLeftAsleep (s : Ipod4g β (Platform ρ)) (input : StepInput (Platform ρ)) : Prop :=
  ∀ s' after, s.ChecksIn s' input → s.stepState input = some after →
    ∀ id, s'.devices.rest.cpucon.sleeps id → (s'.devices.rest.reported s'.ideIrq id).pending →
      after.devices.rest.cpucon.isCpuRunning id

/-- What is reported to a core that sleeps includes an interrupt its own mask lets through. -/
def UnmaskedAsleep (s : Ipod4g β (Platform ρ)) (input : StepInput (Platform ρ)) : Prop :=
  ∀ s', s.ChecksIn s' input →
    ∀ id, s'.devices.rest.cpucon.sleeps id → (s'.devices.rest.reported s'.ideIrq id).pending →
      (s'.devices.rest.reported s'.ideIrq id).taken (input.irqEnable id)

theorem notLeftAsleep_iff (s : Ipod4g β (Platform ρ)) (input : StepInput (Platform ρ)) :
    s.NotLeftAsleep input ↔ s.UnmaskedAsleep input := by
  have serviced (s' : Ipod4g β (Platform ρ)) (id : CpuId)
      (sleeps : s'.devices.rest.cpucon.sleeps id = true) :
      (s'.service input).devices.rest.cpucon.isCpuRunning id =
        (s'.devices.rest.reported s'.ideIrq id).taken (input.irqEnable id) := by
    refine (s'.devices.rest.isCpuRunning_service s'.ideIrq input.irqEnable id).trans ?_
    rw [CpuCon.not_running_of_sleeps sleeps, sleeps, Bool.false_or, Bool.true_and]
  constructor
  · intro woken s' checks id sleeps pending
    rw [← serviced s' id sleeps]
    exact woken s' _ checks (stepState_of_checksIn checks) id sleeps pending
  · intro unmasked s' after checks stepped id sleeps pending
    rw [stepState_of_checksIn checks] at stepped
    cases stepped
    rw [serviced s' id sleeps]
    exact unmasked s' checks id sleeps pending

/-- In a run no core is left asleep exactly when no interrupt check finds a core asleep that masks
all that is reported to it. -/
theorem sleepers_woken_iff (s : Ipod4g β (Platform ρ)) (inputs : List (StepInput (Platform ρ))) :
    EveryStep stepState NotLeftAsleep s inputs ↔ EveryStep stepState UnmaskedAsleep s inputs :=
  everyStep_iff (fun s input _ _ => s.notLeftAsleep_iff input) s inputs

def platformUp : Ipod4g Mem (Platform Stub) :=
  let bus : Ipod4gBus Mem (Platform Stub) := .new (Line.new .hi) (Line.new .hi) (.new {})
  { devices := bus.putIde (bus.eidecon.ide.attach .ide0 (Mem.new (zeroBytes 512))).1 }

/-- The mailbox interrupt is enabled for the CPU. Then it goes to sleep with interrupts masked,
and the COP writes to the mailbox. -/
def sleepsMasked : List (StepInput (Platform Stub)) :=
  [{ accesses := fun
      | .cpu => [.w32 0x60004024 0x10]
      | .cop => [] },
   { accesses := fun
      | .cpu => [.w32 0x60007000 0x80000000]
      | .cop => [.w32 0x60001004 0x1] }]

set_option maxRecDepth 20000 in
theorem masked_core_left_asleep : ¬ EveryStep stepState NotLeftAsleep platformUp sleepsMasked := by
  intro woken
  have second := (woken _ rfl).2 _ rfl
  have running := second.1 _ _ rfl rfl .cpu rfl rfl
  cases running

end Ipod4g
end Clicky
