import Clicky.Eapp.Cpu
import Clicky.Lib.Encoding

/-! The register file of the interpreter. A write to the status register moves the bank along with
the mode; a write through the current bank does not. -/
namespace Clicky

def Mode.bits : Mode → BitVec 5
  | .user => 0x10
  | .fiq => 0x11
  | .irq => 0x12
  | .supervisor => 0x13
  | .abort => 0x17
  | .undefined => 0x1b
  | .system => 0x1f

namespace Armv4t

-- So that banks and slots are written as numbers.
scoped instance neZeroBanks : NeZero 6 := ⟨by decide⟩
scoped instance neZeroSlots : NeZero 37 := ⟨by decide⟩

/-- The registers an access may name: r0 to r15, then the two status registers. -/
abbrev Register := Fin 18

namespace Register

def sp : Register := 13
def lr : Register := 14
def pc : Register := 15
def cpsr : Register := 16
def spsr : Register := 17

/-- The register that a field of an instruction names. -/
def ofBits (field : BitVec 4) : Register := field.toFin.castLE (by decide)

theorem ofBits_lt (field : BitVec 4) : (ofBits field).val < 16 := field.toFin.isLt

end Register

/-- Where a bank keeps its registers. The user bank has no saved status of its own. -/
def regMap (bank : Fin 6) (r : Register) : Fin 37 :=
  let row : Vector (Fin 37) 18 :=
    match bank with
    | 0 => #v[0, 1, 2, 3, 4, 5, 6, 7, 8, 9, 10, 11, 12, 13, 14, 15, 16, 16]
    | 1 => #v[0, 1, 2, 3, 4, 5, 6, 7, 17, 18, 19, 20, 21, 22, 23, 15, 16, 24]
    | 2 => #v[0, 1, 2, 3, 4, 5, 6, 7, 8, 9, 10, 11, 12, 25, 26, 15, 16, 27]
    | 3 => #v[0, 1, 2, 3, 4, 5, 6, 7, 8, 9, 10, 11, 12, 28, 29, 15, 16, 30]
    | 4 => #v[0, 1, 2, 3, 4, 5, 6, 7, 8, 9, 10, 11, 12, 31, 32, 15, 16, 33]
    | 5 => #v[0, 1, 2, 3, 4, 5, 6, 7, 8, 9, 10, 11, 12, 34, 35, 15, 16, 36]
  row.get r

section regMap

variable {bank : Fin 6} {r r' : Register}

@[simp] theorem regMap_cpsr (bank : Fin 6) : regMap bank .cpsr = cpsr := by
  revert bank
  decide

@[simp] theorem regMap_pc (bank : Fin 6) : regMap bank .pc = 15 := by
  revert bank
  decide

@[simp] theorem regMap_user_spsr : regMap 0 .spsr = cpsr := rfl

theorem regMap_ne_cpsr (general : r.val < 16) : regMap bank r ≠ cpsr := by
  revert bank r
  decide

theorem regMap_spsr_ne_cpsr (banked : bank ≠ 0) : regMap bank .spsr ≠ cpsr := by
  revert bank
  decide

theorem regMap_inj (general : r.val < 16) (same : regMap bank r = regMap bank r') : r = r' := by
  revert bank r r'
  decide

end regMap

inductive Exception where
  | reset | undefined | software | preAbort | dataAbort | interrupt | fastInterrupt
  deriving DecidableEq, Repr

namespace Exception

def modeOnEntry : Exception → Mode
  | .reset => .supervisor
  | .undefined => .undefined
  | .software => .supervisor
  | .preAbort => .abort
  | .dataAbort => .abort
  | .interrupt => .irq
  | .fastInterrupt => .fiq

/-- The entry of the vector table. -/
def address : Exception → U32
  | .reset => 0x00
  | .undefined => 0x04
  | .software => 0x08
  | .preAbort => 0x0c
  | .dataAbort => 0x10
  | .interrupt => 0x18
  | .fastInterrupt => 0x1c

def fiqDisable : Exception → Bool
  | .fastInterrupt | .reset => true
  | _ => false

end Exception

structure RegFile where
  reg : Fin 37 → U32
  bank : Fin 6

namespace RegFile

def newEmpty : RegFile := { reg := fun _ => 0, bank := 0 }

/-- The place of the one current status register. -/
abbrev status (s : RegFile) : U32 := s.reg cpsr

/-- The mode that the status register names, if it names one. -/
def mode? (s : RegFile) : Option Mode := Mode.fromBits (modeBits s.status)

def invalidMode (s : RegFile) : String :=
  "CPSR contained invalid mode bits: 0x" ++ hexDigits (s.status.extractLsb' 24 8) ++
    hexDigits (s.status.extractLsb' 16 8) ++ hexDigits (s.status.extractLsb' 8 8) ++
    hexDigits (s.status.extractLsb' 0 8)

def mode (s : RegFile) : Except String Mode :=
  match s.mode? with
  | some mode => .ok mode
  | none => .error s.invalidMode

def updateBank (s : RegFile) : Except String RegFile := do
  let mode ← s.mode
  return { s with bank := mode.regBank }

/-- What `set` writes to the status register: mode bits that name no mode are left as they are. -/
def checkedStatus (s : RegFile) (val : U32) : U32 :=
  if (Mode.fromBits (modeBits val)).isNone then (val &&& ~~~0x1f) ||| (s.status &&& 0x1f) else val

def store (s : RegFile) (slot : Fin 37) (val : U32) : RegFile :=
  { s with reg := Function.update s.reg slot val }

def set (s : RegFile) (bank : Fin 6) (r : Register) (val : U32) : Except String RegFile :=
  if r = Register.cpsr then
    (s.store (regMap bank r) (s.checkedStatus val)).updateBank
  else .ok (s.store (regMap bank r) val)

def get (s : RegFile) (bank : Fin 6) (r : Register) : U32 := s.reg (regMap bank r)

/-- A register as the current bank shows it. -/
def index (s : RegFile) (r : Register) : U32 := s.reg (regMap s.bank r)

def setIndex (s : RegFile) (r : Register) (val : U32) : RegFile := s.store (regMap s.bank r) val

@[simp] theorem store_bank (s : RegFile) (slot : Fin 37) (val : U32) :
    (s.store slot val).bank = s.bank := rfl

@[simp] theorem store_reg_self (s : RegFile) (slot : Fin 37) (val : U32) :
    (s.store slot val).reg slot = val := Function.update_self (β := fun _ => U32) slot val s.reg

theorem store_reg_of_ne (s : RegFile) {slot slot' : Fin 37} (apart : slot' ≠ slot) (val : U32) :
    (s.store slot val).reg slot' = s.reg slot' :=
  Function.update_of_ne (β := fun _ => U32) apart val s.reg

@[simp] theorem setIndex_bank (s : RegFile) (r : Register) (val : U32) :
    (s.setIndex r val).bank = s.bank := rfl

@[simp] theorem index_setIndex_self (s : RegFile) (r : Register) (val : U32) :
    (s.setIndex r val).index r = val := by simp [index, setIndex]

theorem index_setIndex_of_ne (s : RegFile) {r r' : Register} (general : r.val < 16) (apart : r ≠ r')
    (val : U32) : (s.setIndex r val).index r' = s.index r' :=
  store_reg_of_ne s (fun same => apart (regMap_inj general same.symm)) val

@[simp] theorem index_cpsr (s : RegFile) : s.index .cpsr = s.status := by simp [index]

@[simp] theorem get_cpsr (s : RegFile) (bank : Fin 6) : s.get bank .cpsr = s.status := by simp [get]

@[simp] theorem setIndex_cpsr (s : RegFile) (val : U32) : s.setIndex .cpsr val = s.store cpsr val := by
  simp [setIndex]

theorem status_setIndex (s : RegFile) {r : Register} (general : r.val < 16) (val : U32) :
    (s.setIndex r val).status = s.status := store_reg_of_ne s (regMap_ne_cpsr general).symm val

theorem set_of_ne (s : RegFile) (bank : Fin 6) {r : Register} (other : r ≠ .cpsr) (val : U32) :
    s.set bank r val = .ok (s.store (regMap bank r) val) := if_neg other

/-- The current bank is the one of the mode that the status register names. -/
def InSync (s : RegFile) : Prop := ∃ mode, s.mode? = some mode ∧ s.bank = mode.regBank

theorem mode?_congr {s s' : RegFile} (same : modeBits s.status = modeBits s'.status) :
    s.mode? = s'.mode? := by simp [mode?, same]

theorem InSync.of_modeBits {s s' : RegFile} (sync : s.InSync) (bank : s'.bank = s.bank)
    (bits : modeBits s'.status = modeBits s.status) : s'.InSync := by
  obtain ⟨mode, named, placed⟩ := sync
  exact ⟨mode, (mode?_congr bits).trans named, bank.trans placed⟩

theorem mode_eq_ok {s : RegFile} {mode : Mode} : s.mode = .ok mode ↔ s.mode? = some mode := by
  unfold RegFile.mode
  cases s.mode? <;> simp

theorem mode_eq_error {s : RegFile} {message : String} :
    s.mode = .error message ↔ s.mode? = none ∧ message = s.invalidMode := by
  unfold RegFile.mode
  cases s.mode? <;> simp [eq_comm]

/-- A checked write never puts mode bits there that name no mode. -/
theorem modeBits_checkedStatus (s : RegFile) (val : U32) (named : s.mode?.isSome) :
    (Mode.fromBits (modeBits (s.checkedStatus val))).isSome := by
  unfold checkedStatus
  split
  · have kept : modeBits ((val &&& ~~~0x1f) ||| (s.status &&& 0x1f)) = modeBits s.status := by
      exact BitVec.merge_and val s.status 0x1f
    rw [kept]
    exact named
  · rename_i valid
    exact Option.ne_none_iff_isSome.mp (by simpa using valid)

/-- Writing the status register puts the bank in sync, or panics where no mode was named before. -/
theorem set_cpsr (s : RegFile) (bank : Fin 6) (val : U32) :
    s.set bank .cpsr val = (s.store cpsr (s.checkedStatus val)).updateBank := by
  simp [set]

theorem set_cpsr_of_named (s : RegFile) (bank : Fin 6) {val : U32} {mode : Mode}
    (named : Mode.fromBits (modeBits val) = some mode) :
    s.set bank .cpsr val = .ok { s.store cpsr val with bank := mode.regBank } := by
  have kept : s.checkedStatus val = val := by simp [checkedStatus, named]
  have ok : (s.store cpsr val).mode = .ok mode := by
    rw [mode_eq_ok, mode?, status, store_reg_self, named]
  rw [set_cpsr, kept, updateBank, ok]
  rfl

theorem InSync.set_cpsr {s : RegFile} (sync : s.InSync) (bank : Fin 6) (val : U32) :
    ∃ s', s.set bank .cpsr val = .ok s' ∧ s'.InSync ∧ s'.reg = (s.store cpsr (s.checkedStatus val)).reg := by
  obtain ⟨mode, named, _⟩ := sync
  have valid := s.modeBits_checkedStatus val (by simp [named])
  obtain ⟨new, names⟩ := Option.isSome_iff_exists.mp valid
  have ok : (s.store cpsr (s.checkedStatus val)).mode = .ok new := by
    rw [mode_eq_ok, mode?, status, store_reg_self, names]
  refine ⟨{ (s.store cpsr (s.checkedStatus val)) with bank := new.regBank }, ?_, ?_, rfl⟩
  · rw [RegFile.set_cpsr, updateBank, ok]
    rfl
  · exact ⟨new, mode_eq_ok.mp ok, rfl⟩

end RegFile
end Armv4t
end Clicky
