import Clicky.Ide.DataPhase

/-! The status register and the state of a drive, over the runs a guest survives. -/
namespace Clicky
open Outcome Runs

/-- BSY is clear, and DRQ announces exactly the data phase. -/
def IdeUnit.Truthful {β : Type} (u : IdeUnit β) : Prop := u.busy = false ∧ (u.drq = true ↔ u.Mid)

theorem Effect.truthful_iff {β α : Type} {drops : Bool} {u u' : IdeUnit β}
    {r : Except MemException α} (truthful : u.Truthful) (effect : Effect drops u u' r)
    (passes : Passes r) : u'.Truthful ↔ ¬ (drops = true ∧ u.Mid) := by
  obtain ⟨idle, announced⟩ := truthful
  cases effect with
  | opened stays mid _ busy drq _ =>
    simp only [stays, Bool.false_eq_true, false_and, not_false_eq_true, iff_true]
    exact ⟨busy, fun _ => mid, fun _ => drq⟩
  | advanced stays state _ status _ =>
    simp only [stays, Bool.false_eq_true, false_and, not_false_eq_true, iff_true]
    refine ⟨?_, ?_⟩
    · rw [IdeUnit.busy, status]
      exact idle
    · rw [IdeUnit.drq, IdeUnit.Mid, status, state]
      exact announced
  | closed stays state busy drq _ =>
    simp only [stays, Bool.false_eq_true, false_and, not_false_eq_true, iff_true]
    refine ⟨busy, ?_⟩
    simp [drq, IdeUnit.Mid, state]
  | kept stays phase busy drq _ =>
    simp only [stays, Bool.false_eq_true, false_and, not_false_eq_true, iff_true]
    refine ⟨busy, ?_⟩
    rw [drq, phase.mid_iff]
    exact announced
  | dropped takes phase busy drq _ =>
    constructor
    · rintro truthful' ⟨_, mid⟩
      have set := truthful'.2.mpr (phase.mid_iff.mpr mid)
      rw [drq] at set
      cases set
    · intro quiet
      refine ⟨busy, ?_⟩
      rw [drq, phase.mid_iff]
      constructor
      · intro wrong
        cases wrong
      · exact fun mid => absurd ⟨takes, mid⟩ quiet
  | failed _ fails =>
    obtain ⟨e, rfl, fatal, _⟩ := fails
    rw [passes e rfl] at fatal
    cases fatal

theorem stable_truthful {β : Type} : Stable (IdeUnit.Truthful (β := β)) := by
  intro α u u' r truthful effect passes
  exact (effect.truthful_iff truthful passes).mpr fun wrong => nomatch wrong.1

namespace IdeController

variable {β : Type}

def SelectedMid (s : IdeController β) : Prop := ∃ u, s.unit? s.selectedDevice = some u ∧ u.Mid

/-- One of the five commands that drop a data request, in the middle of a transfer. -/
def DropsTransfer (s : IdeController β) : IdeAccess → Prop
  | .write8 reg val => reg.isCommand = true ∧ dropsRequest val = true ∧ s.SelectedMid
  | .write16 reg val => reg.isCommand = true ∧ dropsRequest (val.setWidth 8) = true ∧ s.SelectedMid
  | _ => False

theorem putSelected_units_iff {I : IdeUnit β → Prop} {s : IdeController β} (units : s.Units I)
    (d : IdeDrive β) : (s.putSelected d).Units I ↔ I d.toIdeUnit := by
  constructor
  · intro after
    apply after s.selectedDevice
    rw [putSelected, unit?_setUnit, if_pos rfl]
  · exact fun put => putSelected_units units put

theorem onSelected_units_iff {α : Type} {I : IdeUnit β → Prop} {C : Prop} {s : IdeController β}
    {f : IdeDrive β → Access (IdeDrive β) α} (units : s.Units I)
    (keeps : ∀ u, s.unit? s.selectedDevice = some u →
      (f (s.lend u)).Ensures fun d' r => Passes r → (I d'.toIdeUnit ↔ C))
    (absent : s.unit? s.selectedDevice = none → C) :
    (s.onSelected f).Ensures fun s' r => Passes r → (s'.Units I ↔ C) := by
  unfold onSelected
  split
  · rename_i here
    exact fun _ => ⟨fun _ => absent here, fun _ => units⟩
  · rename_i u here
    rw [ensures_zoom]
    exact (keeps u here).mono fun d' r h passes => (putSelected_units_iff units d').trans (h passes)

theorem passes_of_map {α γ : Type} {r : Except MemException α} {f : α → γ}
    (passes : Passes (r.map f)) : Passes r := by
  intro e same
  apply passes
  rw [same]
  rfl

variable [BlockDev β]

theorem read8_truthful {s : IdeController β} (counted : s.Units IdeUnit.Counted)
    (truthful : s.Units IdeUnit.Truthful) (reg : IdeReg) :
    (s.read8 reg).Ensures fun s' r => Passes r → (s'.Units IdeUnit.Truthful ↔ True) := by
  apply onSelected_units_iff truthful
  · intro u here
    refine (IdeDrive.read8_effect (d := s.lend u) (counted _ u here) reg).mono
      fun d' r effect passes => ?_
    simp only [iff_true]
    exact stable_truthful (truthful _ u here) effect passes
  · exact fun _ => trivial

theorem write8_truthful_iff {s : IdeController β} (counted : s.Units IdeUnit.Counted)
    (truthful : s.Units IdeUnit.Truthful) (reg : IdeReg) (val : U8) :
    (s.write8 reg val).Ensures fun s' r => Passes r → (s'.Units IdeUnit.Truthful ↔
      ¬ (reg.isCommand = true ∧ dropsRequest val = true ∧ s.SelectedMid)) := by
  have selected : (s.select reg val).Units IdeUnit.Truthful := by
    intro idx u here
    rw [select_unit?] at here
    exact truthful idx u here
  have stays : reg.isCommand = true → s.select reg val = s := by
    cases reg <;> simp [IdeReg.isCommand, select]
  apply onSelected_units_iff selected
  · intro u here
    have here' := here
    rw [select_unit?] at here'
    have fine := truthful _ u here'
    refine (IdeDrive.write8_effect (d := (s.select reg val).lend u) (counted _ u here') val reg).mono
      fun d' r effect passes => ?_
    rw [effect.truthful_iff fine passes]
    have idle : ((s.select reg val).lend u).busy = false := fine.1
    simp only [idle, Bool.not_false, Bool.and_true, Bool.and_eq_true, and_assoc]
    apply not_congr
    apply and_congr_right
    intro command
    apply and_congr_right
    intro _
    rw [stays command] at here
    constructor
    · exact fun mid => ⟨u, here, mid⟩
    · rintro ⟨u', there, mid⟩
      rw [here] at there
      cases there
      exact mid
  · rintro absent ⟨command, _, u, here, _⟩
    rw [stays command, here] at absent
    cases absent

theorem access_truthful_iff {s : IdeController β} (counted : s.Units IdeUnit.Counted)
    (truthful : s.Units IdeUnit.Truthful) (a : IdeAccess) :
    (s.access a).Ensures fun s' r => Passes r →
      (s'.Units IdeUnit.Truthful ↔ ¬ s.DropsTransfer a) := by
  have mapped : ∀ {α γ : Type} {C : Prop} {o : Access (IdeController β) α} (f : α → γ),
      (o.Ensures fun s' r => Passes r → (s'.Units IdeUnit.Truthful ↔ C)) →
      (o.map f).Ensures fun s' r => Passes r → (s'.Units IdeUnit.Truthful ↔ C) := by
    intro α γ C o f h
    rw [ensures_map]
    exact h.mono fun _ _ h passes => h (passes_of_map passes)
  have data : ∀ {α : Type} {f : IdeDrive β → Access (IdeDrive β) α},
      (∀ d : IdeDrive β, d.Counted → d.Truthful → (f d).Ensures
        (IdeDrive.Intact IdeUnit.Truthful)) →
      (s.onSelected f).Ensures fun s' r => Passes r → (s'.Units IdeUnit.Truthful ↔ True) := by
    intro α f keeps
    apply onSelected_units_iff truthful
    · intro u here
      refine (keeps (s.lend u) (counted _ u here) (truthful _ u here)).mono fun d' r h passes => ?_
      simp only [iff_true]
      exact h.2.2 passes
    · exact fun _ => trivial
  cases a with
  | read8 reg =>
    simp only [DropsTransfer, not_false_eq_true]
    exact mapped _ (read8_truthful counted truthful reg)
  | write8 reg val => exact mapped _ (write8_truthful_iff counted truthful reg val)
  | read16 reg =>
    simp only [DropsTransfer, not_false_eq_true]
    apply mapped
    unfold read16
    split
    · exact data fun d => IdeDrive.dataRead16_intact stable_truthful
    · exact mapped _ (read8_truthful counted truthful reg)
  | write16 reg val =>
    apply mapped
    unfold write16
    split
    · simp only [DropsTransfer, IdeReg.isCommand, Bool.false_eq_true, false_and, not_false_eq_true]
      exact data fun d counted holds => IdeDrive.dataWrite16_intact stable_truthful counted holds val
    · exact write8_truthful_iff counted truthful reg _

/-- A run of the guest ends with the first fatal exception. -/
def guestStep (s : IdeController β) (a : IdeAccess) : Option (IdeController β) :=
  match s.access a with
  | .ok s _ => some s
  | .raise s e => if e.harmless then some s else none
  | .panic _ => none

theorem guestStep_ensures {s s' : IdeController β} {a : IdeAccess} (taken : s.guestStep a = some s')
    {Q : IdeController β → Except MemException (Option U16) → Prop} (h : (s.access a).Ensures Q) :
    ∃ r, Passes r ∧ Q s' r := by
  unfold guestStep at taken
  split at taken
  · rename_i s₁ v done
    cases taken
    rw [done] at h
    exact ⟨.ok v, passes_ok v, h⟩
  · rename_i s₁ e done
    split at taken
    · rename_i harmless
      cases taken
      rw [done] at h
      exact ⟨.error e, passes_error harmless, h⟩
    · cases taken
  · cases taken

/-- As long as no access is fatal, BSY is clear and DRQ is set exactly in the data phase, of
every drive and at all times, exactly when no command drops a data request in mid-transfer. -/
theorem status_truthful_iff (irq dmarq : Line) (disks : List (IdeIdx × β)) (as : List IdeAccess) :
    Always guestStep (Units IdeUnit.Truthful) (powerUp irq dmarq disks) as ↔
      EveryStep guestStep (fun s a => ¬ s.DropsTransfer a) (powerUp irq dmarq disks) as := by
  apply always_iff_everyStep (I := Units IdeUnit.Counted)
  · intro s a s' counted taken
    obtain ⟨r, _, after, _⟩ := guestStep_ensures taken (access_intact counted a)
    exact after
  · intro s a s' counted truthful taken
    obtain ⟨r, passes, exact'⟩ := guestStep_ensures taken (access_truthful_iff counted truthful a)
    exact exact' passes
  · apply powerUp_units
    intro b mid
    rcases mid with h | h <;> cases h
  · apply powerUp_units
    intro b
    have quiet : ({ blockdev := b } : IdeUnit β).drq = false := by simp [IdeUnit.drq]
    refine ⟨by simp [IdeUnit.busy], ?_⟩
    constructor
    · intro wrong
      rw [quiet] at wrong
      cases wrong
    · intro mid
      rcases mid with h | h <;> cases h

/-- FLUSH CACHE right after IDENTIFY DEVICE: DRQ is down, and data reads are still accepted. -/
theorem flush_in_identify_drops_drq :
    ¬ Always guestStep (Units IdeUnit.Truthful)
      (powerUp (Line.new .hi) (Line.new .hi) [(.ide0, Mem.new [])])
      [.write8 .command 0xec, .write8 .command 0xe7] := by
  rintro ⟨_, later⟩
  obtain ⟨_, last⟩ := later _ rfl
  have truthful := last _ rfl
  have wrong := (truthful .ide0 _ rfl).2.mpr (.inl rfl)
  exact absurd wrong (by decide)

end IdeController
end Clicky
