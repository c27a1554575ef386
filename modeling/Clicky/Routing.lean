import Clicky.IntCon

/-! What the interrupt controller answers in any state it can get into. -/
namespace Clicky
open Runs

def IntConCpuRegs.stat (cpu : IntConCpuRegs) (fiq : Bool) : U32 :=
  if fiq then cpu.fiqStat else cpu.irqStat

def IntStatus.line (status : IntStatus) (fiq : Bool) : Bool :=
  if fiq then status.fiq else status.irq

namespace IntConCpuRegs

variable (cpu : IntConCpuRegs) (status : Bool)

@[simp] theorem update_enabled (i : Nat) : (cpu.update i status).enabled = cpu.enabled := rfl
@[simp] theorem update_priority (i : Nat) : (cpu.update i status).priority = cpu.priority := rfl

theorem update_stat (i : Fin 32) (j : Nat) (fiq : Bool) :
    ((cpu.update i status).stat fiq).getBit j =
      if i.val = j then cpu.enabled.getBit i && (cpu.priority.getBit i == fiq) && status
      else (cpu.stat fiq).getBit j := by
  have low : i.val < 32 := i.isLt
  cases fiq with
  | false => simp [update, stat, low]
  | true => simp [update, stat, low]

theorem status_line (fiq : Bool) : cpu.status.line fiq = true ↔
    ∃ i : Fin 32, cpu.enabled.getBit i = true ∧ (cpu.stat fiq).getBit i = true := by
  have word : cpu.status.line fiq = decide (cpu.enabled &&& cpu.stat fiq ≠ 0) := by
    cases fiq <;> rfl
  rw [word, decide_eq_true_iff]
  refine (BitVec.ne_zero_iff_getBit _).trans ?_
  constructor
  · rintro ⟨i, low, both⟩
    rw [BitVec.getBit_and, Bool.and_eq_true] at both
    exact ⟨⟨i, low⟩, both⟩
  · rintro ⟨i, enabled, stat⟩
    exact ⟨i, i.isLt, by rw [BitVec.getBit_and, enabled, stat]; rfl⟩

end IntConCpuRegs

namespace IntCon32

variable (lines : Nat → Line)

/-- The cached status words hold nothing for an index nobody registered. -/
def Clean (s : IntCon32) : Prop :=
  ∀ id fiq (i : Fin 32), (s.irqs i).receiver id = none → ((s.core id).stat fiq).getBit i = false

/-- What an update brings a status bit to. Nothing drives the bit of an unregistered index. -/
def settled (s : IntCon32) (id : CpuId) (fiq : Bool) (i : Fin 32) : Bool :=
  match (s.irqs i).receiver id with
  | none => ((s.core id).stat fiq).getBit i
  | some irq =>
    (s.core id).enabled.getBit i && ((s.core id).priority.getBit i == fiq) && irq.asserted lines

@[simp] theorem updateReg_irqs (s : IntCon32) (i : Fin 32) :
    (s.updateReg lines i).irqs = s.irqs := by
  unfold updateReg
  split <;> rfl

theorem updateReg_core (s : IntCon32) (i : Fin 32) (id : CpuId) :
    (s.updateReg lines i).core id = match (s.irqs i).receiver id with
      | none => s.core id
      | some irq => (s.core id).update i (irq.asserted lines) := by
  unfold updateReg
  cases s.irqs i <;> cases id <;> rfl

@[simp] theorem updateReg_enabled (s : IntCon32) (i : Fin 32) (id : CpuId) :
    ((s.updateReg lines i).core id).enabled = (s.core id).enabled := by
  rw [updateReg_core]
  split <;> rfl

@[simp] theorem updateReg_priority (s : IntCon32) (i : Fin 32) (id : CpuId) :
    ((s.updateReg lines i).core id).priority = (s.core id).priority := by
  rw [updateReg_core]
  split <;> rfl

theorem updateReg_stat (s : IntCon32) (i j : Fin 32) (id : CpuId) (fiq : Bool) :
    (((s.updateReg lines i).core id).stat fiq).getBit j =
      if i = j then s.settled lines id fiq j else ((s.core id).stat fiq).getBit j := by
  rw [updateReg_core]
  by_cases here : i = j
  · subst here
    rw [if_pos rfl, settled]
    cases (s.irqs i).receiver id with
    | none => rfl
    | some irq => simp [IntConCpuRegs.update_stat]
  · have apart : ¬ i.val = j.val := fun h => here (Fin.ext h)
    rw [if_neg here]
    cases (s.irqs i).receiver id with
    | none => rfl
    | some irq => simp [IntConCpuRegs.update_stat, apart]

theorem updateReg_settled (s : IntCon32) (i j : Fin 32) (id : CpuId) (fiq : Bool) :
    (s.updateReg lines i).settled lines id fiq j = s.settled lines id fiq j := by
  unfold settled
  simp only [updateReg_irqs, updateReg_enabled, updateReg_priority]
  cases known : (s.irqs j).receiver id with
  | some irq => rfl
  | none =>
    simp only [updateReg_stat, settled, known]
    split <;> rfl

theorem foldl_updateReg (idxs : List (Fin 32)) (s : IntCon32) (id : CpuId) :
    let s' := idxs.foldl (updateReg lines) s
    s'.irqs = s.irqs ∧ (s'.core id).enabled = (s.core id).enabled ∧
      ∀ fiq (j : Fin 32),
        (j ∈ idxs → ((s'.core id).stat fiq).getBit j = s.settled lines id fiq j) ∧
        (j ∉ idxs → ((s'.core id).stat fiq).getBit j = ((s.core id).stat fiq).getBit j) := by
  induction idxs generalizing s with
  | nil => exact ⟨rfl, rfl, fun fiq j => ⟨fun mem => (List.not_mem_nil mem).elim, fun _ => rfl⟩⟩
  | cons i rest ih =>
    obtain ⟨irqs, enabled, stats⟩ := ih (s.updateReg lines i)
    refine ⟨irqs.trans (s.updateReg_irqs lines i), enabled.trans (s.updateReg_enabled lines i id),
      fun fiq j => ⟨fun mem => ?_, fun out => ?_⟩⟩
    · by_cases later : j ∈ rest
      · rw [List.foldl_cons, (stats fiq j).1 later, updateReg_settled]
      · have here : i = j := ((List.mem_cons.mp mem).resolve_right later).symm
        rw [List.foldl_cons, (stats fiq j).2 later, updateReg_stat, if_pos here]
    · have later : j ∉ rest := fun h => out (List.mem_cons_of_mem i h)
      have apart : ¬ i = j := fun h => out (h ▸ List.mem_cons_self)
      rw [List.foldl_cons, (stats fiq j).2 later, updateReg_stat, if_neg apart]

variable {lines}

@[simp] theorem updateRegs_irqs (s : IntCon32) : (s.updateRegs lines).irqs = s.irqs :=
  (s.foldl_updateReg lines (List.finRange 32) .cpu).1

@[simp] theorem updateRegs_enabled (s : IntCon32) (id : CpuId) :
    ((s.updateRegs lines).core id).enabled = (s.core id).enabled :=
  (s.foldl_updateReg lines (List.finRange 32) id).2.1

theorem updateRegs_stat (s : IntCon32) (id : CpuId) (fiq : Bool) (i : Fin 32) :
    (((s.updateRegs lines).core id).stat fiq).getBit i = s.settled lines id fiq i := by
  have bits := (s.foldl_updateReg lines (List.finRange 32) id).2.2 fiq i
  exact bits.1 (List.mem_finRange i)

theorem updateRegs_clean {s : IntCon32} (clean : s.Clean) : (s.updateRegs lines).Clean := by
  intro id fiq i unknown
  rw [updateRegs_irqs] at unknown
  rw [updateRegs_stat, settled, unknown]
  exact clean id fiq i unknown

/-- An index asks a core for an interrupt of the given kind. -/
def Requests (s : IntCon32) (lines : Nat → Line) (id : CpuId) (fiq : Bool) (i : Fin 32) : Prop :=
  ∃ irq, (s.irqs i).receiver id = some irq ∧ irq.asserted lines = true ∧
    (s.core id).enabled.getBit i = true ∧ (s.core id).priority.getBit i = fiq

theorem interruptStatus_line {s : IntCon32} (clean : s.Clean) (id : CpuId) (fiq : Bool) :
    ((s.updateRegs lines).core id).status.line fiq = true ↔ ∃ i, s.Requests lines id fiq i := by
  rw [IntConCpuRegs.status_line]
  apply exists_congr
  intro i
  rw [updateRegs_enabled, updateRegs_stat, settled]
  cases known : (s.irqs i).receiver id with
  | none =>
    have stale := clean id fiq i known
    simp [Requests, known, stale]
  | some irq =>
    simp only [Requests, known, Option.some.injEq, exists_eq_left', Bool.and_eq_true, beq_iff_eq]
    constructor
    · rintro ⟨enabled, ⟨_, priority⟩, high⟩
      exact ⟨high, enabled, priority⟩
    · rintro ⟨high, enabled, priority⟩
      exact ⟨enabled, ⟨enabled, priority⟩, high⟩

theorem w32_keeps (s : IntCon32) (offset val : U32) :
    (s.w32 offset val).Ensures fun s' _ => s'.irqs = s.irqs ∧
      ∀ id fiq, (s'.core id).stat fiq = (s.core id).stat fiq := by
  unfold w32
  split <;> refine ⟨rfl, fun id fiq => ?_⟩ <;> cases id <;> rfl

theorem r32_keeps (s : IntCon32) (offset : U32) : (s.r32 offset).Ensures fun s' _ => s' = s := by
  unfold r32
  split <;> rfl

theorem clean_of_registers {s s' : IntCon32} (clean : s.Clean) (irqs : s'.irqs = s.irqs)
    (stats : ∀ id fiq, (s'.core id).stat fiq = (s.core id).stat fiq) : s'.Clean := by
  intro id fiq i unknown
  rw [irqs] at unknown
  rw [stats]
  exact clean id fiq i unknown

end IntCon32

namespace IntCon

def bank (s : IntCon) (i : Fin 64) : IntCon32 := if i.val < 32 then s.lo else s.hi
def slot (i : Fin 64) : Fin 32 := ⟨i.val % 32, Nat.mod_lt _ (by decide)⟩
def kindOf (s : IntCon) (i : Fin 64) : IrqKind := (s.bank i).irqs (slot i)

/-- What is done to the controller, by the code that wires the system up, by the guest and by
the polls of the main loop. -/
inductive Op where
  | register (idx : Nat) (irq : Reciever)
  | registerCoreSpecific (idx : Nat) (cpuIrq copIrq : Reciever)
  | r32 (offset : U32)
  | w32 (offset val : U32)
  | interruptStatus (lines : Nat → Line)

def step (s : IntCon) : Op → Option IntCon
  | .register idx irq => (s.register idx irq).state?
  | .registerCoreSpecific idx cpuIrq copIrq => (s.registerCoreSpecific idx cpuIrq copIrq).state?
  | .r32 offset => (s.r32 offset).state?
  | .w32 offset val => (s.w32 offset val).state?
  | .interruptStatus lines => some (s.interruptStatus lines).1

def Op.files : Op → Option (Nat × IrqKind)
  | .register idx irq => some (idx, .shared irq)
  | .registerCoreSpecific idx cpuIrq copIrq => some (idx, .coreSpecific cpuIrq copIrq)
  | _ => none

def registered (ops : List Op) (i : Fin 64) : IrqKind :=
  (latest (ops.filterMap Op.files) i.val).getD .unregistered

/-- The index asks the core for an interrupt of the given kind, and is let through. -/
def Requests (s : IntCon) (ops : List Op) (lines : Nat → Line) (id : CpuId) (fiq : Bool)
    (i : Fin 64) : Prop :=
  ∃ irq, (registered ops i).receiver id = some irq ∧ irq.asserted lines = true ∧
    ((s.bank i).core id).enabled.getBit (slot i) = true ∧
    ((s.bank i).core id).priority.getBit (slot i) = fiq ∧
    (32 ≤ i.val → (s.lo.core id).enabled.getBit 30 = true)

def statusOf (statuses : IntStatus × IntStatus) : CpuId → IntStatus
  | .cpu => statuses.1
  | .cop => statuses.2

def Clean (s : IntCon) : Prop :=
  ∀ id fiq (i : Fin 64), (s.kindOf i).receiver id = none →
    (((s.bank i).core id).stat fiq).getBit (slot i) = false

theorem clean_iff_banks (s : IntCon) : s.Clean ↔ s.lo.Clean ∧ s.hi.Clean := by
  constructor
  · intro clean
    constructor
    · intro id fiq i unknown
      have low : i.val < 32 := i.isLt
      have here := clean id fiq ⟨i.val, by omega⟩
      simp only [kindOf, bank, slot, low, if_true, Nat.mod_eq_of_lt low] at here
      exact here unknown
    · intro id fiq i unknown
      have high : ¬ i.val + 32 < 32 := by omega
      have same : (i.val + 32) % 32 = i.val := by omega
      have here := clean id fiq ⟨i.val + 32, by omega⟩
      simp only [kindOf, bank, slot, high, if_false, same] at here
      exact here unknown
  · rintro ⟨lo, hi⟩ id fiq i unknown
    unfold kindOf bank at unknown
    unfold bank
    split at unknown
    · rename_i low
      rw [if_pos low]
      exact lo id fiq (slot i) unknown
    · rename_i high
      rw [if_neg high]
      exact hi id fiq (slot i) unknown

theorem registerKind_cases {s s' : IntCon} {idx : Nat} {kind : IrqKind}
    (filed : (s.registerKind idx kind).state? = some s') (i : Fin 64) :
    (∀ id, (s'.bank i).core id = (s.bank i).core id) ∧
      s'.kindOf i = if idx = i.val then kind else s.kindOf i := by
  unfold registerKind IntCon32.register at filed
  split at filed
  · cases filed
  split at filed
  · cases filed
  split at filed
  · cases filed
    unfold kindOf bank slot putLo
    by_cases low : i.val < 32
    · have same : i.val % 32 = i.val := Nat.mod_eq_of_lt low
      exact ⟨fun id => by cases id <;> simp [low, IntCon32.core], by simp [low, same, eq_comm]⟩
    · have apart : ¬ idx = i.val := by omega
      exact ⟨fun id => by simp [low], by simp [low, apart]⟩
  · have inside : idx - 32 < 32 := by omega
    rw [if_pos inside] at filed
    cases filed
    unfold kindOf bank slot putHi
    by_cases low : i.val < 32
    · have apart : ¬ idx = i.val := by omega
      exact ⟨fun id => by simp [low], by simp [low, apart]⟩
    · have same : (i.val % 32 = idx - 32) = (idx = i.val) := by
        apply propext
        omega
      exact ⟨fun id => by cases id <;> simp [low, IntCon32.core], by simp [low, same]⟩

theorem registerKind_keeps {s s' : IntCon} {idx : Nat} {kind : IrqKind} (clean : s.Clean)
    (known : ∀ id, kind.receiver id ≠ none)
    (filed : (s.registerKind idx kind).state? = some s') : s'.Clean := by
  intro id fiq i unknown
  obtain ⟨cores, kinds⟩ := registerKind_cases filed i
  rw [kinds] at unknown
  rw [cores]
  split at unknown
  · exact absurd unknown (known id)
  · exact clean id fiq i unknown

theorem r32_keeps (s : IntCon) (offset : U32) : (s.r32 offset).Ensures fun s' _ => s' = s := by
  unfold r32
  split
  · rw [Outcome.ensures_zoom]
    exact (s.lo.r32_keeps offset).mono fun lo _ same => by rw [same]; rfl
  · split
    · rw [Outcome.ensures_zoom]
      exact (s.hi.r32_keeps _).mono fun hi _ same => by rw [same]; rfl
    · rfl

theorem w32_keeps {s : IntCon} (clean : s.Clean) (offset val : U32) :
    (s.w32 offset val).Ensures fun s' _ => s'.Clean ∧ ∀ i, s'.kindOf i = s.kindOf i := by
  obtain ⟨lo_clean, hi_clean⟩ := s.clean_iff_banks.mp clean
  unfold w32
  split
  · rw [Outcome.ensures_zoom]
    refine (s.lo.w32_keeps offset val).mono fun lo _ ⟨irqs, stats⟩ => ?_
    refine ⟨(clean_iff_banks _).mpr ⟨IntCon32.clean_of_registers lo_clean irqs stats, hi_clean⟩, ?_⟩
    intro i
    unfold kindOf bank putLo
    split
    · exact congrFun irqs _
    · rfl
  · split
    · rw [Outcome.ensures_zoom]
      refine (s.hi.w32_keeps _ val).mono fun hi _ ⟨irqs, stats⟩ => ?_
      refine ⟨(clean_iff_banks _).mpr ⟨lo_clean, IntCon32.clean_of_registers hi_clean irqs stats⟩, ?_⟩
      intro i
      unfold kindOf bank putHi
      split
      · rfl
      · exact congrFun irqs _
    · exact ⟨clean, fun _ => rfl⟩

theorem interruptStatus_keeps {s : IntCon} (clean : s.Clean) (lines : Nat → Line) :
    (s.interruptStatus lines).1.Clean ∧
      ∀ i, (s.interruptStatus lines).1.kindOf i = s.kindOf i := by
  obtain ⟨lo_clean, hi_clean⟩ := s.clean_iff_banks.mp clean
  constructor
  · exact (clean_iff_banks _).mpr
      ⟨IntCon32.updateRegs_clean lo_clean, IntCon32.updateRegs_clean hi_clean⟩
  · intro i
    unfold kindOf bank
    split
    · exact congrFun s.lo.updateRegs_irqs _
    · exact congrFun s.hi.updateRegs_irqs _

theorem step_keeps {s s' : IntCon} {op : Op} (clean : s.Clean) (done : s.step op = some s') :
    s'.Clean ∧ ∀ i : Fin 64, s'.kindOf i = match op.files with
      | some (idx, kind) => if idx = i.val then kind else s.kindOf i
      | none => s.kindOf i := by
  cases op with
  | register idx irq =>
    exact ⟨registerKind_keeps clean (fun id => by cases id <;> simp [IrqKind.receiver]) done,
      fun i => (registerKind_cases done i).2⟩
  | registerCoreSpecific idx cpuIrq copIrq =>
    exact ⟨registerKind_keeps clean (fun id => by cases id <;> simp [IrqKind.receiver]) done,
      fun i => (registerKind_cases done i).2⟩
  | r32 offset =>
    obtain ⟨_, same⟩ := (s.r32_keeps offset).state? done
    subst same
    exact ⟨clean, fun _ => rfl⟩
  | w32 offset val =>
    obtain ⟨_, kept⟩ := (w32_keeps clean offset val).state? done
    exact kept
  | interruptStatus lines =>
    cases done
    exact interruptStatus_keeps clean lines

theorem run_keeps {s s' : IntCon} {ops : List Op} (clean : s.Clean)
    (reached : run step s ops = some s') :
    s'.Clean ∧ ∀ i : Fin 64, s'.kindOf i =
      (latest (ops.filterMap Op.files) i.val).getD (s.kindOf i) := by
  induction ops generalizing s with
  | nil =>
    cases reached
    exact ⟨clean, fun _ => rfl⟩
  | cons op rest ih =>
    obtain ⟨mid, first, last⟩ := Option.bind_eq_some_iff.mp reached
    obtain ⟨mid_clean, mid_kinds⟩ := step_keeps clean first
    obtain ⟨after, kinds⟩ := ih mid_clean last
    refine ⟨after, fun i => ?_⟩
    rw [kinds i, mid_kinds i]
    cases files : op.files with
    | none => simp [files]
    | some f =>
      obtain ⟨idx, kind⟩ := f
      simp only [List.filterMap_cons, files, latest_cons]
      cases latest (rest.filterMap Op.files) i.val with
      | some later => rfl
      | none =>
        simp only [Option.getD_none, Option.none_or]
        split <;> rfl

theorem interruptStatus_line (s : IntCon) (lines : Nat → Line) (id : CpuId) (fiq : Bool) :
    (statusOf (s.interruptStatus lines).2 id).line fiq =
      (((s.lo.updateRegs lines).core id).status.line fiq ||
        (((s.hi.updateRegs lines).core id).status.line fiq &&
          ((s.lo.updateRegs lines).core id).enabled.getBit 30)) := by
  cases id <;> cases fiq <;> rfl

theorem initial_clean : Clean {} := by
  intro id fiq i _
  unfold bank
  split <;> cases id <;> cases fiq <;> simp [IntCon32.core, IntConCpuRegs.stat]

theorem interruptStatus_line_iff {ops : List Op} {s : IntCon}
    (reached : run step {} ops = some s) (lines : Nat → Line) (id : CpuId) (fiq : Bool) :
    (statusOf (s.interruptStatus lines).2 id).line fiq = true ↔
      ∃ i, s.Requests ops lines id fiq i := by
  obtain ⟨clean, kinds⟩ := run_keeps initial_clean reached
  obtain ⟨lo_clean, hi_clean⟩ := s.clean_iff_banks.mp clean
  have filed : ∀ i, registered ops i = s.kindOf i := by
    intro i
    rw [kinds i, registered]
    unfold kindOf bank
    split <;> rfl
  rw [interruptStatus_line, Bool.or_eq_true, Bool.and_eq_true, IntCon32.updateRegs_enabled,
    IntCon32.interruptStatus_line lo_clean, IntCon32.interruptStatus_line hi_clean]
  constructor
  · rintro (⟨i, irq, known, high, enabled, priority⟩ |
      ⟨⟨i, irq, known, high, enabled, priority⟩, hien⟩)
    · have low : i.val < 32 := i.isLt
      have above : ¬ 32 ≤ i.val := by omega
      refine ⟨⟨i.val, by omega⟩, irq, ?_⟩
      simp only [filed, kindOf, bank, slot, low, if_true, Nat.mod_eq_of_lt low]
      exact ⟨known, high, enabled, priority, fun h => absurd h above⟩
    · have far : ¬ i.val + 32 < 32 := by omega
      have same : (i.val + 32) % 32 = i.val := by omega
      refine ⟨⟨i.val + 32, by omega⟩, irq, ?_⟩
      simp only [filed, kindOf, bank, slot, far, if_false, same]
      exact ⟨known, high, enabled, priority, fun _ => hien⟩
  · rintro ⟨i, irq, known, high, enabled, priority, hien⟩
    rw [filed, kindOf] at known
    unfold bank at known enabled priority
    by_cases low : i.val < 32
    · rw [if_pos low] at known enabled priority
      exact .inl ⟨slot i, irq, known, high, enabled, priority⟩
    · rw [if_neg low] at known enabled priority
      exact .inr ⟨⟨slot i, irq, known, high, enabled, priority⟩, hien (by omega)⟩

/-- Whatever was registered, written, read and polled before, and whatever the lines do now,
each core gets the interrupts its own registers let through. -/
theorem interrupt_status_routes (ops : List Op) (s : IntCon)
    (reached : run step {} ops = some s) (lines : Nat → Line) (id : CpuId) :
    ((statusOf (s.interruptStatus lines).2 id).irq = true ↔
        ∃ i, s.Requests ops lines id false i) ∧
      ((statusOf (s.interruptStatus lines).2 id).fiq = true ↔
        ∃ i, s.Requests ops lines id true i) :=
  ⟨interruptStatus_line_iff reached lines id false, interruptStatus_line_iff reached lines id true⟩

theorem hi_fiq_routes :
    let ops : List Op := [.registerCoreSpecific 40 ⟨0⟩ ⟨1⟩, .w32 0x34 0x40000000,
      .w32 0x134 0x100, .w32 0x13c 0x100, .interruptStatus fun _ => Line.new .hi]
    let lines := fun _ => (Line.new .hi).assert
    ∃ s, run step {} ops = some s ∧
      ((statusOf (s.interruptStatus lines).2 .cop).irq = true ↔
          ∃ i, s.Requests ops lines .cop false i) ∧
        ((statusOf (s.interruptStatus lines).2 .cop).fiq = true ↔
          ∃ i, s.Requests ops lines .cop true i) :=
  ⟨_, rfl, interrupt_status_routes _ _ rfl _ _⟩

end IntCon
end Clicky
