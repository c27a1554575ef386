import Clicky.System

/-! Fatal exceptions in a step: which of them the adapter still has when the core is done. -/
namespace Clicky

namespace MemoryAdapter

variable {M : Type} [Memory M]

/-- What the bus itself does on an access of a core. -/
def busAccess (mem : M) : GuestAccess → Access M Unit
  | .r8 addr => (Memory.r8 mem addr).map fun _ => ()
  | .r16 addr => (Memory.r16 mem addr).map fun _ => ()
  | .r32 addr => (Memory.r32 mem addr).map fun _ => ()
  | .w8 addr val => Memory.w8 mem addr val
  | .w16 addr val => Memory.w16 mem addr val
  | .w32 addr val => Memory.w32 mem addr val
  | .x16 addr => (Memory.x16 mem addr).map fun _ => ()
  | .x32 addr => (Memory.x32 mem addr).map fun _ => ()

/-- All exceptions of a sequence of accesses, in order. There are none to speak of if one of the
accesses panics. -/
def raisedBy (mem : M) : List GuestAccess → Option (List MemException)
  | [] => some []
  | a :: as =>
    match busAccess mem a with
    | .ok mem _ => raisedBy mem as
    | .raise mem e => (raisedBy mem as).map (e :: ·)
    | .panic _ => none

/-- The access as the adapter notes it down beside the exception. -/
def noted (e : MemException) : GuestAccess → MemAccess
  | .r8 addr => { kind := .read, offset := addr, val := .u8 (e.stub.setWidth 8) }
  | .r16 addr => { kind := .read, offset := addr, val := .u16 (e.stub.setWidth 16) }
  | .r32 addr => { kind := .read, offset := addr, val := .u32 (e.stub.setWidth 32) }
  | .w8 addr val => { kind := .write, offset := addr, val := .u8 val }
  | .w16 addr val => { kind := .write, offset := addr, val := .u16 val }
  | .w32 addr val => { kind := .write, offset := addr, val := .u32 val }
  | .x16 addr => { kind := .execute, offset := addr, val := .u16 (e.stub.setWidth 16) }
  | .x32 addr => { kind := .execute, offset := addr, val := .u32 (e.stub.setWidth 32) }

/-- An exception of the bus takes the place of the one before. -/
theorem perform_eq (s : MemoryAdapter M) (a : GuestAccess) :
    s.perform a = match busAccess s.mem a with
      | .ok mem _ => .ok { s with mem } ()
      | .raise mem e => .ok { mem, exception := some (noted e a, e) } ()
      | .panic m => .panic m := by
  cases a <;> simp only [perform, busAccess]
  case r8 addr => rcases Memory.r8 s.mem addr with ⟨mem, e | val⟩ | m <;> rfl
  case r16 addr => rcases Memory.r16 s.mem addr with ⟨mem, e | val⟩ | m <;> rfl
  case r32 addr => rcases Memory.r32 s.mem addr with ⟨mem, e | val⟩ | m <;> rfl
  case w8 addr val => rcases Memory.w8 s.mem addr val with ⟨mem, e | done⟩ | m <;> rfl
  case w16 addr val => rcases Memory.w16 s.mem addr val with ⟨mem, e | done⟩ | m <;> rfl
  case w32 addr val => rcases Memory.w32 s.mem addr val with ⟨mem, e | done⟩ | m <;> rfl
  case x16 addr => rcases Memory.x16 s.mem addr with ⟨mem, e | val⟩ | m <;> rfl
  case x32 addr => rcases Memory.x32 s.mem addr with ⟨mem, e | val⟩ | m <;> rfl

variable {s : MemoryAdapter M}

/-- After a sequence of accesses the adapter has the last exception, and no other. -/
theorem performAll_exception {as : List GuestAccess} {es : List MemException}
    (raised : raisedBy s.mem as = some es) :
    ∃ s', s.performAll as = .ok s' () ∧
      s'.exception.map Prod.snd = es.getLast?.or (s.exception.map Prod.snd) := by
  induction as generalizing s es with
  | nil =>
    cases raised
    exact ⟨s, rfl, rfl⟩
  | cons a as ih =>
    rw [raisedBy] at raised
    split at raised
    · rename_i done
      rw [performAll, perform_eq, done]
      exact ih raised
    · rename_i mem e done
      obtain ⟨rest, later, rfl⟩ := Option.map_eq_some_iff.mp raised
      obtain ⟨s', ran, last⟩ := ih (s := { mem, exception := some (noted e a, e) }) later
      rw [performAll, perform_eq, done]
      refine ⟨s', ran, ?_⟩
      rw [last, List.getLast?_cons]
      cases rest.getLast? <;> rfl
    · cases raised

theorem performAll_panic {as : List GuestAccess} (failed : raisedBy s.mem as = none) :
    ∃ m, s.performAll as = .panic m := by
  induction as generalizing s with
  | nil => cases failed
  | cons a as ih =>
    rw [raisedBy] at failed
    split at failed
    · rename_i done
      rw [performAll, perform_eq, done]
      exact ih failed
    · rename_i mem e done
      rw [performAll, perform_eq, done]
      exact ih (Option.map_eq_none_iff.mp failed)
    · rename_i m done
      exact ⟨m, by rw [performAll, perform_eq, done]; rfl⟩

end MemoryAdapter

def AnyFatal (es : List MemException) : Prop := ∃ e ∈ es, e.harmless = false
def LastFatal (es : List MemException) : Prop := ∃ e, es.getLast? = some e ∧ e.harmless = false

variable {β ρ : Type} [BlockDev β] [Peripherals ρ]

namespace Ipod4gBus

theorem moveHalfword_calm (s : Ipod4gBus β ρ) (kind : MemAccessKind) (addr : U32) :
    (s.moveHalfword kind addr).Calm := by
  cases kind with
  | read => exact (Outcome.calm_orPanic _ _).bind fun _ _ => Outcome.calm_orPanic _ _
  | write => exact (Outcome.calm_orPanic _ _).bind fun _ _ => Outcome.calm_orPanic _ _
  | execute => exact Outcome.calm_panic _

theorem ideDma_calm (s : Ipod4gBus β ρ) : s.ideDma.Calm := by
  obtain ⟨_, done⟩ | ⟨_, _, done⟩ | ⟨_, _, ⟨_, done⟩ | ⟨_, m, done⟩⟩ := s.ideDma_cases
  · exact done ▸ Outcome.calm_ok _ _
  · exact done ▸ Outcome.calm_ok _ _
  · exact done ▸ s.asked.moveHalfword_calm _ _
  · exact done ▸ Outcome.calm_panic _

end Ipod4gBus

namespace Ipod4g

/-- The exceptions that the accesses of one core raise in its share of a step. -/
def coreRaises (s : Ipod4g β ρ) (input : StepInput ρ) (id : CpuId) : Option (List MemException) :=
  if Peripherals.isCpuRunning s.devices.rest id then
    MemoryAdapter.raisedBy (s.devices.setCpuid id) (input.accesses id)
  else some []

/-- The exceptions a core raises in a step. The second core only has its turn if the first one
did not end the step. -/
def StepRaises (s : Ipod4g β ρ) (input : StepInput ρ) (id : CpuId) (es : List MemException) : Prop :=
  s.frozen = false ∧ match id with
    | .cpu => s.coreRaises input .cpu = some es
    | .cop => ∃ s₁, s.runCore input .cpu = .ok s₁ () ∧ s₁.coreRaises input .cop = some es

def Reports (s : Ipod4g β ρ) (input : StepInput ρ) : Prop :=
  ∃ s' fatal, s.step input = .raise s' fatal

theorem runCore_of_raises {s : Ipod4g β ρ} {input : StepInput ρ} {id : CpuId}
    {es : List MemException} (raises : s.coreRaises input id = some es) :
    (LastFatal es ∧ ∃ s' fatal, s.runCore input id = .raise s' fatal) ∨
      (¬ LastFatal es ∧ ∃ s', s.runCore input id = .ok s' ()) := by
  unfold coreRaises at raises
  unfold runCore
  by_cases running : Peripherals.isCpuRunning s.devices.rest id = true
  · rw [if_pos running] at raises ⊢
    obtain ⟨mem, ran, last⟩ := MemoryAdapter.performAll_exception
      (s := { mem := s.devices.setCpuid id }) raises
    simp only [ran]
    simp only [Option.map_none, Option.or_none] at last
    cases kept : mem.exception with
    | none =>
      rw [kept] at last
      refine .inr ⟨?_, _, rfl⟩
      rintro ⟨e, same, _⟩
      rw [same] at last
      cases last
    | some noted =>
      obtain ⟨access, e⟩ := noted
      rw [kept] at last
      dsimp only
      split
      · rename_i passed
        refine .inr ⟨?_, _, rfl⟩
        rintro ⟨e', same, fatal⟩
        rw [same] at last
        cases last
        rw [(e.resolve_ok_iff _).mp passed] at fatal
        cases fatal
      · rename_i fatal stopped
        refine .inl ⟨⟨e, last.symm, ?_⟩, _, fatal, rfl⟩
        rw [← Bool.not_eq_true]
        intro harmless
        rw [(e.resolve_ok_iff _).mpr harmless] at stopped
        cases stopped
  · rw [if_neg running] at raises ⊢
    cases raises
    refine .inr ⟨?_, s, rfl⟩
    rintro ⟨e, impossible, _⟩
    cases impossible

theorem runCore_of_panics {s : Ipod4g β ρ} {input : StepInput ρ} {id : CpuId}
    (panics : s.coreRaises input id = none) : ∃ m, s.runCore input id = .panic m := by
  unfold coreRaises at panics
  unfold runCore
  by_cases running : Peripherals.isCpuRunning s.devices.rest id = true
  · rw [if_pos running] at panics ⊢
    obtain ⟨m, failed⟩ := MemoryAdapter.performAll_panic
      (s := { mem := s.devices.setCpuid id }) panics
    exact ⟨m, by simp only [failed]⟩
  · rw [if_neg running] at panics
    cases panics

theorem runCore_reports_iff {s : Ipod4g β ρ} {input : StepInput ρ} {id : CpuId} :
    (∃ s' fatal, s.runCore input id = .raise s' fatal) ↔
      ∃ es, s.coreRaises input id = some es ∧ LastFatal es := by
  constructor
  · rintro ⟨s', fatal, stopped⟩
    cases raises : s.coreRaises input id with
    | none =>
      obtain ⟨m, failed⟩ := runCore_of_panics raises
      rw [failed] at stopped
      cases stopped
    | some es =>
      obtain ⟨last, _⟩ | ⟨_, s₁, done⟩ := runCore_of_raises raises
      · exact ⟨es, rfl, last⟩
      · rw [done] at stopped
        cases stopped
  · rintro ⟨es, raises, last⟩
    obtain ⟨_, stopped⟩ | ⟨passed, _⟩ := runCore_of_raises raises
    · exact stopped
    · exact absurd last passed

/-- Nothing after the cores reports. -/
theorem reports_iff_runCores (s : Ipod4g β ρ) (input : StepInput ρ) :
    s.Reports input ↔ ∃ s' fatal, s.runCores input = .raise s' fatal := by
  constructor
  · rintro ⟨s', fatal, stopped⟩
    obtain cores | ⟨s₁, on, _, rest⟩ := Outcome.bind_eq_raise.mp stopped
    · exact ⟨s', fatal, cores⟩
    · split at rest
      · have calm := ((s₁.runTasks input).devices.ideDma_calm.zoom fun devices =>
          { s₁.runTasks input with devices }).bind fun s _ => Outcome.calm_ok (s.service input) true
        exact absurd rest (calm s' fatal)
      · cases rest
  · rintro ⟨s', fatal, cores⟩
    exact ⟨s', fatal, Outcome.bind_eq_raise.mpr (.inl cores)⟩

/-- A step reports exactly the exceptions that were the last ones of their core. -/
theorem reports_iff (s : Ipod4g β ρ) (input : StepInput ρ) :
    s.Reports input ↔ ∃ id es, s.StepRaises input id es ∧ LastFatal es := by
  rw [reports_iff_runCores]
  unfold runCores
  cases frozen : s.frozen with
  | true =>
    constructor
    · rintro ⟨_, _, impossible⟩
      cases impossible
    · rintro ⟨_, _, ⟨awake, _⟩, _⟩
      rw [frozen] at awake
      cases awake
  | false =>
    rw [if_neg Bool.false_ne_true]
    constructor
    · rintro ⟨s', fatal, stopped⟩
      obtain first | ⟨s₁, _, first, second⟩ := Outcome.bind_eq_raise.mp stopped
      · obtain ⟨es, raises, last⟩ := runCore_reports_iff.mp ⟨s', fatal, first⟩
        exact ⟨.cpu, es, ⟨frozen, raises⟩, last⟩
      · obtain second | ⟨_, _, _, impossible⟩ := Outcome.bind_eq_raise.mp second
        · obtain ⟨es, raises, last⟩ := runCore_reports_iff.mp ⟨s', fatal, second⟩
          exact ⟨.cop, es, ⟨frozen, s₁, first, raises⟩, last⟩
        · cases impossible
    · rintro ⟨id, es, ⟨_, raises⟩, last⟩
      cases id with
      | cpu =>
        obtain ⟨s', fatal, stopped⟩ := runCore_reports_iff.mpr ⟨es, raises, last⟩
        exact ⟨s', fatal, Outcome.bind_eq_raise.mpr (.inl stopped)⟩
      | cop =>
        obtain ⟨s₁, first, raises⟩ := raises
        obtain ⟨s', fatal, stopped⟩ := runCore_reports_iff.mpr ⟨es, raises, last⟩
        refine ⟨s', fatal, Outcome.bind_eq_raise.mpr (.inr ⟨s₁, (), first, ?_⟩)⟩
        exact Outcome.bind_eq_raise.mpr (.inl stopped)

/-- Every fatal exception of a step is reported exactly when, if there is one, the last
exception of one of the cores is fatal. -/
theorem fatal_reported_iff (s : Ipod4g β ρ) (input : StepInput ρ) :
    ((∃ id es, s.StepRaises input id es ∧ AnyFatal es) → s.Reports input) ↔
      ((∃ id es, s.StepRaises input id es ∧ AnyFatal es) →
        ∃ id es, s.StepRaises input id es ∧ LastFatal es) := by
  rw [reports_iff]

/-- A store of two registers across the end of the cache status words. -/
def storesAcross : StepInput Stub :=
  { accesses := fun id => if id = .cpu then [.w32 0xf0003ffc 0, .w32 0xf0004000 0] else [] }

def fresh : Ipod4g Mem Stub := { devices := .new (Line.new .hi) (Line.new .hi) {} }

set_option maxRecDepth 20000 in
/-- The first word goes where nothing is implemented. The second one is a stubbed write, which
hides it. -/
theorem stub_hides_fatal :
    ¬ ((∃ id es, fresh.StepRaises storesAcross id es ∧ AnyFatal es) →
      fresh.Reports storesAcross) := by
  intro reported
  obtain ⟨_, _, stopped⟩ := reported
    ⟨.cpu, [.unimplemented, .stubWrite .error], ⟨rfl, rfl⟩, .unimplemented, by decide, rfl⟩
  cases stopped

end Ipod4g
end Clicky
