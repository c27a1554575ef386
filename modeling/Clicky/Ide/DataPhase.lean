import Clicky.Ide.Effect
import Clicky.Lib.Runs

/-! The counters of a transfer under any sequence of register accesses, whatever the medium
does. -/
namespace Clicky
open Outcome Runs

def NotPast {α : Type} (r : Except MemException α) : Prop :=
  ∀ e, r = .error e → e ≠ IdeDrive.pastRead ∧ e ≠ IdeDrive.pastWrite

theorem Passes.notPast {α : Type} {r : Except MemException α} (passes : Passes r) : NotPast r := by
  intro e same
  have harmless := passes e same
  refine ⟨fun wrong => ?_, fun wrong => ?_⟩
  · rw [wrong] at harmless
    cases harmless
  · rw [wrong] at harmless
    cases harmless

theorem Fails.notPast {α : Type} {r : Except MemException α} (fails : Fails r) : NotPast r := by
  obtain ⟨e, rfl, _, apart⟩ := fails
  intro e' same
  cases same
  exact apart

theorem Effect.notPast {β α : Type} {drops : Bool} {u u' : IdeUnit β} {r : Except MemException α}
    (effect : Effect drops u u' r) : NotPast r := by
  cases effect with
  | opened _ _ _ _ _ passes => exact passes.notPast
  | advanced _ _ _ _ passes => exact passes.notPast
  | closed _ _ _ _ passes => exact passes.notPast
  | kept _ _ _ _ passes => exact passes.notPast
  | dropped _ _ _ _ passes => exact passes.notPast
  | failed _ fails => exact fails.notPast

theorem Effect.counted {β α : Type} {drops : Bool} {u u' : IdeUnit β} {r : Except MemException α}
    (effect : Effect drops u u' r) (counted : u.Counted) : u'.Counted := by
  cases effect with
  | opened _ _ counted' _ _ _ => exact counted'
  | advanced _ _ counted' _ _ => exact counted'
  | closed _ state _ _ _ =>
    intro mid
    rcases mid with h | h <;> simp [state] at h
  | kept _ phase _ _ _ => exact phase.counted counted
  | dropped _ phase _ _ _ => exact phase.counted counted
  | failed phase _ =>
    rcases phase with same | out
    · exact same.counted counted
    · exact fun mid => absurd mid out

/-- What an access that passes keeps, unless it drops the data request. -/
def Stable {β : Type} (J : IdeUnit β → Prop) : Prop :=
  ∀ {α : Type} {u u' : IdeUnit β} {r : Except MemException α},
    J u → Effect false u u' r → Passes r → J u'

theorem stable_true {β : Type} : Stable fun _ : IdeUnit β => True := fun _ _ _ => trivial

namespace IdeDrive

variable {β : Type} {d : IdeDrive β} {J : IdeUnit β → Prop}

/-- The counters stay right, the buffer is not overrun, and what is stable stays. -/
def Intact {α : Type} (J : IdeUnit β → Prop) (d : IdeDrive β) (r : Except MemException α) : Prop :=
  d.Counted ∧ NotPast r ∧ (Passes r → J d.toIdeUnit)

theorem intact_of_effect {α : Type} {o : Access (IdeDrive β) α} (stable : Stable J)
    (counted : d.Counted) (holds : J d.toIdeUnit)
    (effect : o.Ensures fun d' r => Effect false d.toIdeUnit d'.toIdeUnit r) :
    o.Ensures (Intact J) :=
  effect.mono fun _ _ h => ⟨h.counted counted, h.notPast, fun passes => stable holds h passes⟩

theorem Intact.of_error {α γ : Type} {e : MemException}
    (h : Intact J d (.error e : Except MemException α)) :
    Intact J d (.error e : Except MemException γ) := by
  refine ⟨h.1, fun e' same => h.2.1 e' (by cases same; rfl), fun passes => h.2.2 ?_⟩
  exact fun e' same => passes e' (by cases same; rfl)

variable [BlockDev β]

theorem dataRead16_intact (stable : Stable J) (counted : d.Counted) (holds : J d.toIdeUnit) :
    d.dataRead16.Ensures (Intact J) := by
  unfold dataRead16
  rw [ensures_bind]
  refine (intact_of_effect stable counted holds (dataRead8_effect counted)).mono
    fun d₁ r₁ first => ?_
  cases r₁ with
  | error e => exact first.of_error
  | ok val =>
    have holds₁ := first.2.2 (passes_ok val)
    simp only
    split
    · exact ⟨first.1, (passes_ok _).notPast, fun _ => holds₁⟩
    · rw [ensures_bind]
      refine (intact_of_effect stable first.1 holds₁ (dataRead8_effect first.1)).mono
        fun d₂ r₂ second => ?_
      cases r₂ with
      | error e => exact second.of_error
      | ok hiVal => exact ⟨second.1, (passes_ok _).notPast, fun _ => second.2.2 (passes_ok hiVal)⟩

theorem dataWrite16_intact (stable : Stable J) (counted : d.Counted) (holds : J d.toIdeUnit)
    (val : U16) : (d.dataWrite16 val).Ensures (Intact J) := by
  unfold dataWrite16
  split
  · unfold truncToU8
    split
    · rename_i e wide
      split at wide
      · cases wide
        exact ⟨counted, (fails_contractViolation _).notPast, fun _ => holds⟩
      · cases wide
    · exact intact_of_effect stable counted holds (dataWrite8_effect counted _)
  · rw [ensures_bind]
    refine (intact_of_effect stable counted holds (dataWrite8_effect counted _)).mono
      fun d₁ r₁ first => ?_
    cases r₁ with
    | error e => exact first
    | ok _ =>
      exact intact_of_effect stable first.1 (first.2.2 (passes_ok _)) (dataWrite8_effect first.1 _)

end IdeDrive

inductive IdeAccess where
  | read8 (reg : IdeReg)
  | read16 (reg : IdeReg)
  | write8 (reg : IdeReg) (val : U8)
  | write16 (reg : IdeReg) (val : U16)
  deriving DecidableEq, Repr

namespace IdeController

variable {β : Type}

def Units (I : IdeUnit β → Prop) (s : IdeController β) : Prop :=
  ∀ idx u, s.unit? idx = some u → I u

theorem unit?_setUnit (s : IdeController β) (i j : IdeIdx) (u : Option (IdeUnit β)) :
    (s.setUnit i u).unit? j = if i = j then u else s.unit? j := by
  cases i <;> cases j <;> rfl

@[simp] theorem select_unit? (s : IdeController β) (reg : IdeReg) (val : U8) (idx : IdeIdx) :
    (s.select reg val).unit? idx = s.unit? idx := by
  cases reg <;> cases idx <;> rfl

theorem setUnit_units {I : IdeUnit β → Prop} {s : IdeController β} (units : s.Units I) (idx : IdeIdx)
    {u : Option (IdeUnit β)} (put : ∀ u', u = some u' → I u') : (s.setUnit idx u).Units I := by
  intro j u' here
  rw [unit?_setUnit] at here
  split at here
  · exact put u' here
  · exact units j u' here

theorem putSelected_units {I : IdeUnit β → Prop} {s : IdeController β} (units : s.Units I)
    {d : IdeDrive β} (put : I d.toIdeUnit) : (s.putSelected d).Units I :=
  setUnit_units (s := { s with commonIrqLine := d.irq, dmarq := d.dmarq }) units s.selectedDevice
    fun _ same => Option.some.inj same ▸ put

theorem attach_units {I : IdeUnit β → Prop} {s : IdeController β} (units : s.Units I) (idx : IdeIdx)
    {b : β} (fresh : I { blockdev := b }) : (s.attach idx b).1.Units I := by
  have detached : (s.detach idx).1.Units I := setUnit_units units idx fun _ wrong => nomatch wrong
  exact setUnit_units detached idx fun _ same => Option.some.inj same ▸ fresh

theorem onSelected_units {α : Type} {I : IdeUnit β → Prop} {P : Except MemException α → Prop}
    {s : IdeController β} {f : IdeDrive β → Access (IdeDrive β) α} (units : s.Units I)
    (keeps : ∀ d : IdeDrive β, I d.toIdeUnit → (f d).Ensures fun d' r => I d'.toIdeUnit ∧ P r)
    (absent : ∀ idx, P (.error (noDrive idx))) :
    (s.onSelected f).Ensures fun s' r => s'.Units I ∧ P r := by
  unfold onSelected
  split
  · exact ⟨units, absent _⟩
  · rename_i u here
    rw [ensures_zoom]
    exact (keeps (s.lend u) (units _ u here)).mono fun d' r h => ⟨putSelected_units units h.1, h.2⟩

/-- The drives after power-up: blocks devices attached one after the other. -/
def powerUp (irq dmarq : Line) (disks : List (IdeIdx × β)) : IdeController β :=
  disks.foldl (fun s disk => (s.attach disk.1 disk.2).1) (new irq dmarq)

theorem powerUp_units {I : IdeUnit β → Prop} (irq dmarq : Line) (disks : List (IdeIdx × β))
    (fresh : ∀ b, I { blockdev := b }) : (powerUp irq dmarq disks).Units I := by
  have attached : ∀ s : IdeController β, s.Units I →
      (disks.foldl (fun s disk => (s.attach disk.1 disk.2).1) s).Units I := by
    induction disks with
    | nil => exact fun s units => units
    | cons disk rest ih =>
      intro s units
      exact ih _ (attach_units units disk.1 (fresh disk.2))
  apply attached
  intro idx u wrong
  cases idx <;> cases wrong

variable [BlockDev β]

def access (s : IdeController β) : IdeAccess → Access (IdeController β) (Option U16)
  | .read8 reg => (s.read8 reg).map fun v => some (v.setWidth 16)
  | .read16 reg => (s.read16 reg).map some
  | .write8 reg val => (s.write8 reg val).map fun _ => none
  | .write16 reg val => (s.write16 reg val).map fun _ => none

def accessStep (s : IdeController β) (a : IdeAccess) : Option (IdeController β) :=
  (s.access a).state?

theorem noDrive_notPast {α : Type} (idx : IdeIdx) :
    NotPast (.error (noDrive idx) : Except MemException α) :=
  (passes_error rfl).notPast

theorem read8_intact {s : IdeController β} (units : s.Units IdeUnit.Counted) (reg : IdeReg) :
    (s.read8 reg).Ensures fun s' r => s'.Units IdeUnit.Counted ∧ NotPast r :=
  onSelected_units units
    (fun _ counted => (IdeDrive.read8_effect counted reg).mono fun _ _ h =>
      ⟨h.counted counted, h.notPast⟩) noDrive_notPast

theorem write8_intact {s : IdeController β} (units : s.Units IdeUnit.Counted) (reg : IdeReg)
    (val : U8) : (s.write8 reg val).Ensures fun s' r => s'.Units IdeUnit.Counted ∧ NotPast r := by
  have selected : (s.select reg val).Units IdeUnit.Counted := by
    intro idx u here
    rw [select_unit?] at here
    exact units idx u here
  exact onSelected_units selected
    (fun _ counted => (IdeDrive.write8_effect counted val reg).mono fun _ _ h =>
      ⟨h.counted counted, h.notPast⟩) noDrive_notPast

theorem notPast_map {α γ : Type} {r : Except MemException α} (notPast : NotPast r) (f : α → γ) :
    NotPast (r.map f) := by
  intro e same
  cases r with
  | ok a => cases same
  | error e' => exact notPast e (by cases same; rfl)

theorem access_intact {s : IdeController β} (units : s.Units IdeUnit.Counted) (a : IdeAccess) :
    (s.access a).Ensures fun s' r => s'.Units IdeUnit.Counted ∧ NotPast r := by
  have mapped : ∀ {α γ : Type} {o : Access (IdeController β) α} (f : α → γ),
      (o.Ensures fun s' r => s'.Units IdeUnit.Counted ∧ NotPast r) →
      (o.map f).Ensures fun s' r => s'.Units IdeUnit.Counted ∧ NotPast r := by
    intro α γ o f h
    rw [ensures_map]
    exact h.mono fun _ _ h => ⟨h.1, notPast_map h.2 f⟩
  cases a with
  | read8 reg => exact mapped _ (read8_intact units reg)
  | write8 reg val => exact mapped _ (write8_intact units reg val)
  | read16 reg =>
    apply mapped
    unfold read16
    split
    · exact onSelected_units units (fun _ counted =>
        (IdeDrive.dataRead16_intact stable_true counted trivial).mono fun _ _ h => ⟨h.1, h.2.1⟩)
        noDrive_notPast
    · exact mapped _ (read8_intact units reg)
  | write16 reg val =>
    apply mapped
    unfold write16
    split
    · exact onSelected_units units (fun _ counted =>
        (IdeDrive.dataWrite16_intact stable_true counted trivial val).mono fun _ _ h =>
          ⟨h.1, h.2.1⟩) noDrive_notPast
    · exact write8_intact units reg _

/-- No sequence of accesses panics. Wherever it leads, a drive in its data phase has a sector to
go and room in the buffer, and no access reports the end of the buffer. -/
theorem data_phase_counted (irq dmarq : Line) (disks : List (IdeIdx × β)) (as : List IdeAccess) :
    ∃ s, run accessStep (powerUp irq dmarq disks) as = some s ∧ s.Units IdeUnit.Counted ∧
      ∀ a, (s.access a).Ensures fun _ r => NotPast r := by
  have progress : ∀ (s : IdeController β) a, s.Units IdeUnit.Counted →
      ∃ s', s.accessStep a = some s' ∧ s'.Units IdeUnit.Counted := by
    intro s a units
    obtain ⟨s', r, done, kept, _⟩ := (access_intact units a).exists_done
    exact ⟨s', by rw [accessStep, done]; rfl, kept⟩
  have fresh : (powerUp irq dmarq disks).Units IdeUnit.Counted := by
    apply powerUp_units
    intro b mid
    rcases mid with h | h <;> cases h
  obtain ⟨s, reached, counted⟩ := run_total progress fresh as
  exact ⟨s, reached, counted, fun a => (access_intact counted a).mono fun _ _ h => h.2⟩

end IdeController
end Clicky
