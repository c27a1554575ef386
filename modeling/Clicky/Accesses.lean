import Clicky.System

/-! The accesses of the cores in a step, where each of them goes, and what it leaves alone. -/
namespace Clicky
open Runs Outcome

namespace Ipod4gBus

variable {β ρ α : Type} [Peripherals ρ]

def physOf (s : Ipod4gBus β ρ) : GuestAccess → Access (Ipod4gBus β ρ) U32
  | .r8 addr | .r16 addr | .r32 addr => .done s (s.readPhys addr)
  | .w8 addr _ | .w16 addr _ | .w32 addr _ => .done s (s.writePhys addr)
  | .x16 addr | .x32 addr => s.execPhys addr

/-- The access goes to the EIDE controller. -/
def TouchesIde (s : Ipod4gBus β ρ) (a : GuestAccess) : Prop :=
  ∃ s' phys, s.physOf a = .ok s' phys ∧ Region.ofPhys phys = .eidecon

theorem physOf_eidecon (s : Ipod4gBus β ρ) (a : GuestAccess) :
    (s.physOf a).Leaves fun s' => s'.eidecon = s.eidecon := by
  cases a with
  | r8 addr | r16 addr | r32 addr | w8 addr | w16 addr | w32 addr => exact (leaves_done ..).mpr rfl
  | x16 addr | x32 addr =>
    change (s.execPhys addr).Leaves _
    unfold execPhys
    split
    · rw [leaves_zoom]
      exact fun _ _ => rfl
    · dsimp only
      split <;> simp

variable [BlockDev β]

theorem routeTo_eidecon {s : Ipod4gBus β ρ} {a : GuestAccess} (elsewhere : ¬ s.TouchesIde a)
    (op : ∀ (M : Type) [Memory M], M → U32 → Access M α) :
    (routeTo (s.physOf a) op).Leaves fun s' => s'.eidecon = s.eidecon := by
  refine (s.physOf_eidecon a).bind (fun _ h => h) ?_
  intro s' phys reached kept s'' done
  have away : Region.ofPhys phys ≠ .eidecon := fun there => elsewhere ⟨s', phys, reached, there⟩
  cases routed : s'.route phys op with
  | done t r =>
    rw [routed] at done
    cases done
    exact (route_eidecon s' phys op away routed).trans kept
  | panic m =>
    rw [routed] at done
    cases done

end Ipod4gBus

namespace MemoryAdapter

variable {M : Type} {w : Nat} {P : M → Prop}

@[simp] theorem read_leaves (addr : U32) (kind : MemAccessKind)
    (toMemaccess : BitVec w → MemAccessVal) (o : Access M (BitVec w)) (s : MemoryAdapter M) :
    (read addr kind toMemaccess o s).Leaves (fun s' => P s'.mem) ↔ o.Leaves P := by
  rcases o with ⟨m, e | a⟩ | m <;> simp [read]

@[simp] theorem write_leaves (addr : U32) (val : MemAccessVal) (o : Access M Unit)
    (s : MemoryAdapter M) : (write addr val o s).Leaves (fun s' => P s'.mem) ↔ o.Leaves P := by
  rcases o with ⟨m, e | a⟩ | m <;> simp [write]

theorem write_returns (addr : U32) (val : MemAccessVal) (o : Access M Unit)
    (s : MemoryAdapter M) : (write addr val o s).Returns ↔ o.state?.isSome = true := by
  rcases o with ⟨m, e | a⟩ | m
  · exact iff_of_true (returns_ok ..) rfl
  · exact iff_of_true (returns_ok ..) rfl
  · exact iff_of_false (returns_panic _) (by simp [state?])

def accessStep [Memory M] (s : MemoryAdapter M) (a : GuestAccess) : Option (MemoryAdapter M) :=
  (s.perform a).state?

theorem performAll_run [Memory M] (s : MemoryAdapter M) (as : List GuestAccess) :
    (s.performAll as).state? = run accessStep s as := by
  induction as generalizing s with
  | nil => rfl
  | cons a as ih =>
    rw [performAll, run, accessStep]
    rcases s.perform a with ⟨s', e | u⟩ | m
    · exact e.elim
    · exact ih s'
    · rfl

end MemoryAdapter

namespace MemoryAdapter

variable {β ρ : Type} [BlockDev β] [Peripherals ρ]

theorem perform_eidecon {s : MemoryAdapter (Ipod4gBus β ρ)} {a : GuestAccess}
    (elsewhere : ¬ s.mem.TouchesIde a) :
    (s.perform a).Leaves fun s' => s'.mem.eidecon = s.mem.eidecon := by
  let Kept (m : Ipod4gBus β ρ) : Prop := m.eidecon = s.mem.eidecon
  cases a with
  | r8 addr | r16 addr | r32 addr | x16 addr | x32 addr =>
    unfold perform
    rw [leaves_map]
    exact (read_leaves (P := Kept) ..).mpr (Ipod4gBus.routeTo_eidecon elsewhere _)
  | w8 addr val | w16 addr val | w32 addr val =>
    unfold perform
    exact (write_leaves (P := Kept) ..).mpr (Ipod4gBus.routeTo_eidecon elsewhere _)

theorem performAll_eidecon {s : MemoryAdapter (Ipod4gBus β ρ)} {as : List GuestAccess}
    (elsewhere : BeforeEach accessStep (fun s a => ¬ s.mem.TouchesIde a) s as) :
    (s.performAll as).Leaves fun s' => s'.mem.eidecon = s.mem.eidecon := by
  intro s' done
  rw [performAll_run] at done
  refine run_of_everyStep (I := fun m => m.mem.eidecon = s.mem.eidecon) ?_ rfl
    elsewhere.everyStep done
  intro m a m' kept away next
  exact (perform_eidecon away m' next).trans kept

end MemoryAdapter

namespace Ipod4g

variable {β ρ : Type} [BlockDev β] [Peripherals ρ]

/-- The accesses of one core in a step, each with the bus it is made on, satisfy `Q`. -/
def CoreAccesses (Q : Ipod4gBus β ρ → GuestAccess → Prop) (s : Ipod4g β ρ) (input : StepInput ρ)
    (id : CpuId) : Prop :=
  Peripherals.isCpuRunning s.devices.rest id = true →
    BeforeEach MemoryAdapter.accessStep (fun m a => Q m.mem a) { mem := s.devices.setCpuid id }
      (input.accesses id)

def EachAccess (Q : Ipod4gBus β ρ → GuestAccess → Prop) (s : Ipod4g β ρ)
    (input : StepInput ρ) : Prop :=
  s.frozen = false → s.CoreAccesses Q input .cpu ∧
    ∀ s', s.runCore input .cpu = .ok s' () → s'.CoreAccesses Q input .cop

theorem runCore_eidecon {s : Ipod4g β ρ} {input : StepInput ρ} {id : CpuId}
    (elsewhere : s.CoreAccesses (fun m a => ¬ m.TouchesIde a) input id) :
    (s.runCore input id).Leaves fun s' => s'.devices.eidecon = s.devices.eidecon := by
  unfold runCore
  split
  · rename_i running
    have kept := MemoryAdapter.performAll_eidecon (elsewhere running)
    dsimp only
    split
    · exact leaves_panic _ _
    · rename_i mem r done
      rw [done, leaves_done] at kept
      split
      · exact (leaves_done ..).mpr kept
      · split <;> exact (leaves_done ..).mpr kept
  · exact (leaves_done ..).mpr rfl

theorem runCores_eidecon {s : Ipod4g β ρ} {input : StepInput ρ}
    (elsewhere : s.EachAccess (fun m a => ¬ m.TouchesIde a) input) :
    (s.runCores input).Leaves fun s' => s'.devices.eidecon = s.devices.eidecon := by
  unfold runCores
  split
  · exact (leaves_done ..).mpr rfl
  · rename_i awake
    obtain ⟨cpu, cop⟩ := elsewhere (Bool.eq_false_iff.mpr awake)
    refine (runCore_eidecon cpu).bind (fun _ h => h) fun s' _ done kept => ?_
    rw [leaves_map]
    exact (runCore_eidecon (cop s' done)).mono fun _ h => h.trans kept

end Ipod4g

end Clicky
