import Clicky.I2c
import Clicky.Lib.Runs

/-! Transactions with the power supply controller, against the registers they are meant for. -/
namespace Clicky
open Runs

/-- How a register answers an access. -/
inductive Answer where
  | taken | stubbed | refused
  deriving DecidableEq, Repr

namespace Answer

def of {α : Type} : Except MemException α → Answer
  | .ok _ => .taken
  | .error e => if e.harmless then .stubbed else .refused

/-- Whether the exception is let pass, if there is one. -/
def passes : Answer → Option Bool
  | .taken => none
  | .stubbed => some true
  | .refused => some false

end Answer

namespace Pcf5060x.Reg

def onRead : Reg → Answer
  | .ID | .INT1 | .INT2 | .INT3 | .OOCC1 | .OOCC2 | .MBCC2 | .ADCS1 | .ADCS2 | .ADCS3 => .stubbed
  | .INT1M | .INT2M | .INT3M | .RTCSC | .RTCMN | .RTCHR | .RTCWD | .RTCDT | .RTCMT | .RTCYR
  | .RTCSCA | .RTCMNA | .RTCHRA | .RTCWDA | .RTCDTA | .RTCMTA | .RTCYRA
  | .DCDC1 | .DCDC2 | .DCDC3 | .DCDC4 | .D1REGC1 | .D2REGC1 | .D3REGC1 | .LPREGC1
  | .ADCC2 | .BVMC | .GPOC1 => .taken
  | _ => .refused

def onWrite : Reg → Answer
  | .OOCC1 | .OOCC2 | .MBCC2
  | .RTCSC | .RTCMN | .RTCHR | .RTCWD | .RTCDT | .RTCMT | .RTCYR => .stubbed
  | .INT1M | .INT2M | .INT3M
  | .RTCSCA | .RTCMNA | .RTCHRA | .RTCWDA | .RTCDTA | .RTCMTA | .RTCYRA
  | .DCDC1 | .DCDC2 | .DCDC3 | .DCDC4 | .D1REGC1 | .D2REGC1 | .D3REGC1 | .LPREGC1
  | .ADCC2 | .BVMC | .GPOC1 => .taken
  | _ => .refused

end Pcf5060x.Reg

/-- There is no register past the last one. -/
def answer (op : I2COp) (n : Nat) : Answer :=
  match Pcf5060x.Reg.all[n]? with
  | none => .refused
  | some reg => match op with
    | .read => reg.onRead
    | .write => reg.onWrite

namespace Pcf5060xImpl

def readAt (s : Pcf5060xImpl) (now : LocalTime) (n : Nat) : Access Pcf5060xImpl U8 :=
  match Pcf5060x.Reg.all[n]? with
  | none => .raise s Pcf5060x.invalidRegister
  | some reg => s.read now reg

def writeAt (s : Pcf5060xImpl) (n : Nat) (data : U8) : Access Pcf5060xImpl Unit :=
  match Pcf5060x.Reg.all[n]? with
  | none => .raise s Pcf5060x.invalidRegister
  | some reg => s.write reg data

theorem readAt_answers (s : Pcf5060xImpl) (now : LocalTime) (n : Nat) :
    ∃ s' r, s.readAt now n = .done s' r ∧ Answer.of r = answer .read n := by
  unfold readAt answer
  cases Pcf5060x.Reg.all[n]? with
  | none => exact ⟨s, _, rfl, rfl⟩
  | some reg => cases reg <;> exact ⟨s, _, rfl, rfl⟩

theorem writeAt_answers (s : Pcf5060xImpl) (n : Nat) (data : U8) :
    ∃ s' r, s.writeAt n data = .done s' r ∧ Answer.of r = answer .write n := by
  unfold writeAt answer
  cases Pcf5060x.Reg.all[n]? with
  | none => exact ⟨s, _, rfl, rfl⟩
  | some reg => cases reg <;> exact ⟨_, _, rfl, rfl⟩

end Pcf5060xImpl

/-- The registers behind the chip's interface, the bytes of the controller, and the exceptions so
far. -/
structure Moved where
  inner : Pcf5060xImpl
  data : I2CData
  raised : List MemException := []

namespace Moved

/-- One byte, between its place in the controller and a register. -/
def one (op : I2COp) (now : DataNo → LocalTime) (m : Moved) (target : DataNo × Nat) : Moved :=
  let (i, n) := target
  match op with
  | .read => match m.inner.readAt (now i) n with
    | .ok inner val => { m with inner, data := m.data.store i val }
    | .raise inner e =>
      { inner, data := m.data.store i e.passedThrough, raised := m.raised ++ [e] }
    | .panic _ => m
  | .write => match m.inner.writeAt n (m.data i) with
    | .ok inner _ => { m with inner }
    | .raise inner e => { m with inner, raised := m.raised ++ [e] }
    | .panic _ => m

def all (op : I2COp) (now : DataNo → LocalTime) (m : Moved) (targets : List (DataNo × Nat)) : Moved :=
  targets.foldl (one op now) m

/-- What is made of the exceptions: the last one counts. -/
def result (m : Moved) : Except MemException Unit := (m.raised.getLast?.map .error).getD (.ok ())

def passes (m : Moved) : List Bool := m.raised.map MemException.harmless

theorem passes_one (op : I2COp) (now : DataNo → LocalTime) (m : Moved) (target : DataNo × Nat) :
    (m.one op now target).passes = m.passes ++ (answer op target.2).passes.toList := by
  obtain ⟨i, n⟩ := target
  cases op with
  | read =>
    obtain ⟨inner, r, done, same⟩ := m.inner.readAt_answers (now i) n
    simp only [one, done, ← same]
    cases r with
    | ok val => simp [passes, Answer.of, Answer.passes]
    | error e => cases h : e.harmless <;> simp [passes, Answer.of, Answer.passes, h]
  | write =>
    obtain ⟨inner, r, done, same⟩ := m.inner.writeAt_answers n (m.data i)
    simp only [one, done, ← same]
    cases r with
    | ok val => simp [passes, Answer.of, Answer.passes]
    | error e => cases h : e.harmless <;> simp [passes, Answer.of, Answer.passes, h]

theorem passes_all (op : I2COp) (now : DataNo → LocalTime) (m : Moved)
    (targets : List (DataNo × Nat)) :
    (m.all op now targets).passes =
      m.passes ++ targets.filterMap fun target => (answer op target.2).passes := by
  induction targets generalizing m with
  | nil => rw [List.filterMap_nil, List.append_nil]; rfl
  | cons target targets ih =>
    rw [all, List.foldl_cons]
    refine (ih _).trans ?_
    rw [passes_one, List.append_assoc, List.filterMap_cons]
    cases (answer op target.2).passes with
    | none => rfl
    | some b => rfl

end Moved

namespace Pcf5060x

theorem next_eq (s : Pcf5060x) {reg_ : U8} (inside : reg_ ≠ 0xff) {α : Type}
    (op : Pcf5060xImpl → Reg → Access Pcf5060xImpl α) :
    s.next reg_ op = (match Reg.all[reg_.toNat]? with
      | none => Outcome.raise s.inner invalidRegister
      | some reg => op s.inner reg).zoom fun inner =>
        { s with register := some (reg_ + 1), inner } := by
  rw [next, if_neg inside, Reg.tryFrom]
  cases Reg.all[reg_.toNat]? with
  | none => rfl
  | some reg => rfl

theorem read_eq {s : Pcf5060x} {r : U8} (selected : s.register = some r) (inside : r ≠ 0xff)
    (now : LocalTime) : s.read now = (s.inner.readAt now r.toNat).zoom fun inner =>
      { lastOpWasWrite := false, register := some (r + 1), inner } := by
  unfold read
  simp only [selected]
  exact next_eq _ inside _

theorem write_eq {s : Pcf5060x} {r : U8} (selected : s.register = some r)
    (writing : s.lastOpWasWrite = true) (inside : r ≠ 0xff) (data : U8) :
    s.write data = (s.inner.writeAt r.toNat data).zoom fun inner =>
      { lastOpWasWrite := true, register := some (r + 1), inner } := by
  unfold write
  simp only [writing, Bool.not_true, Bool.false_eq_true, if_false, selected]
  exact next_eq _ inside _

theorem read_end {s : Pcf5060x} (selected : s.register = some 0xff) (now : LocalTime) :
    s.read now = .panic overflow := by
  unfold read
  simp only [selected]
  rfl

theorem write_end {s : Pcf5060x} (selected : s.register = some 0xff)
    (writing : s.lastOpWasWrite = true) (data : U8) : s.write data = .panic overflow := by
  unfold write
  simp only [writing, Bool.not_true, Bool.false_eq_true, if_false, selected]
  rfl

end Pcf5060x

/-- The byte loop, with the pointer at `r`, against the bytes moved so far. -/
structure Follows (op : I2COp) (r : U8) (m : Moved) (loop : ByteLoop Pcf5060x) : Prop where
  register : loop.device.register = some r
  inner : loop.device.inner = m.inner
  data : loop.data = m.data
  err : loop.err = m.result
  writing : loop.device.lastOpWasWrite = decide (op = .write)

theorem Moved.result_concat (m : Moved) (e : MemException) :
    { m with raised := m.raised ++ [e] }.result = .error e := by
  rw [result, List.getLast?_concat]
  rfl

theorem Moved.result_ok {m : Moved} (clean : m.result = .ok ()) : m.passes.getLast? = none := by
  unfold Moved.result at clean
  unfold Moved.passes
  rw [List.getLast?_map]
  cases last : m.raised.getLast? with
  | none => rfl
  | some e =>
    rw [last] at clean
    cases clean

theorem Moved.result_error {m : Moved} {e : MemException} (raised : m.result = .error e) :
    m.passes.getLast? = some e.harmless := by
  unfold Moved.result at raised
  unfold Moved.passes
  rw [List.getLast?_map]
  cases last : m.raised.getLast? with
  | none =>
    rw [last] at raised
    cases raised
  | some e' =>
    rw [last] at raised
    cases raised
    rfl

namespace Follows

variable {op : I2COp} (now : DataNo → LocalTime) {r : U8} {m : Moved} {loop : ByteLoop Pcf5060x}

theorem transfer_step (follows : Follows op r m loop) (inside : r ≠ 0xff) (i : DataNo) :
    ∃ loop', I2CCon.transfer op now loop i = .ok loop' () ∧
      Follows op (r + 1) (m.one op now (i, r.toNat)) loop' := by
  cases op with
  | read =>
    obtain ⟨inner, result, done, _⟩ := m.inner.readAt_answers (now i) r.toNat
    have read : I2CDevice.read loop.device (now i) = _ :=
      Pcf5060x.read_eq follows.register inside (now i)
    rw [follows.inner, done, Outcome.zoom_done] at read
    simp only [I2CCon.transfer, Moved.one, read, done, follows.data]
    cases result with
    | ok val => exact ⟨_, rfl, rfl, rfl, rfl, follows.err, rfl⟩
    | error e => exact ⟨_, rfl, rfl, rfl, rfl, (m.result_concat e).symm, rfl⟩
  | write =>
    obtain ⟨inner, result, done, _⟩ := m.inner.writeAt_answers r.toNat (m.data i)
    have write : I2CDevice.write loop.device (m.data i) = _ :=
      Pcf5060x.write_eq follows.register follows.writing inside (m.data i)
    rw [follows.inner, done, Outcome.zoom_done] at write
    simp only [I2CCon.transfer, Moved.one, follows.data, write, done]
    cases result with
    | ok val => exact ⟨_, rfl, rfl, rfl, rfl, follows.err, rfl⟩
    | error e => exact ⟨_, rfl, rfl, rfl, rfl, (m.result_concat e).symm, rfl⟩

theorem transfer_end (follows : Follows op 0xff m loop) (i : DataNo) :
    I2CCon.transfer op now loop i = .panic overflow := by
  cases op with
  | read =>
    have read : I2CDevice.read loop.device (now i) = _ :=
      Pcf5060x.read_end follows.register (now i)
    simp only [I2CCon.transfer, read]
  | write =>
    have write : I2CDevice.write loop.device (loop.data i) = _ :=
      Pcf5060x.write_end follows.register follows.writing (loop.data i)
    simp only [I2CCon.transfer, write]

theorem toNat_succ {r : U8} (inside : r ≠ 0xff) : (r + 1).toNat = r.toNat + 1 := by
  have := r.isLt
  have : r.toNat ≠ 255 := fun same => inside (BitVec.eq_of_toNat_eq same)
  rw [BitVec.toNat_add, show (1 : U8).toNat = 1 from rfl, Nat.mod_eq_of_lt (by omega)]

/-- A loop that the pointer survives moves every byte. -/
theorem forEach_step (follows : Follows op r m loop) (is : List DataNo)
    (inside : r.toNat + is.length ≤ 255) :
    ∃ loop' r', Outcome.forEach (I2CCon.transfer op now) loop is = .ok loop' () ∧
      r'.toNat = r.toNat + is.length ∧
      Follows op r' (m.all op now (is.zip (List.range' r.toNat is.length))) loop' := by
  induction is generalizing r m loop with
  | nil => exact ⟨loop, r, rfl, rfl, follows⟩
  | cons i is ih =>
    rw [List.length_cons] at inside
    have here : r ≠ 0xff := by
      rintro rfl
      rw [show (0xff : U8).toNat = 255 from rfl] at inside
      omega
    have after := toNat_succ here
    obtain ⟨mid, moved, next⟩ := follows.transfer_step now here i
    obtain ⟨loop', r', done, pointer, last⟩ := ih next (by omega)
    refine ⟨loop', r', ?_, by rw [pointer, after, List.length_cons]; omega, ?_⟩
    · rw [Outcome.forEach, moved]
      exact done
    · rw [after] at last
      rw [List.length_cons, List.range'_succ]
      exact last

theorem forEach_end (follows : Follows op r m loop) (is : List DataNo)
    (past : 255 < r.toNat + is.length) :
    Outcome.forEach (I2CCon.transfer op now) loop is = .panic overflow := by
  induction is generalizing r m loop with
  | nil =>
    have := r.isLt
    rw [List.length_nil] at past
    omega
  | cons i is ih =>
    rw [Outcome.forEach]
    by_cases here : r = 0xff
    · subst here
      rw [follows.transfer_end now i]
      rfl
    · have after := toNat_succ here
      obtain ⟨mid, moved, next⟩ := follows.transfer_step now here i
      rw [moved]
      rw [List.length_cons] at past
      exact ih next (by omega)

end Follows

/-- The register a transaction begins with. It is the first byte of a write. -/
def Pcf5060x.pointer (s : Pcf5060x) (data : I2CData) : I2COp → Option U8
  | .read => s.register
  | .write => some (data .data0)

namespace I2CCon

/-- The bytes of a transaction that are meant for a register. -/
def moving (txn : I2CTransaction) : List DataNo :=
  match txn.op with
  | .read => bytes txn
  | .write => (bytes txn).tail

/-- The bytes go to one register after the other. -/
def targets (txn : I2CTransaction) (first : U8) : List (DataNo × Nat) :=
  (moving txn).zip (List.range' first.toNat (moving txn).length)

def moves (s : I2CCon Pcf5060x) (now : DataNo → LocalTime) (txn : I2CTransaction) (d : Pcf5060x)
    (first : U8) : Moved :=
  Moved.all txn.op now { inner := d.inner, data := s.data } (targets txn first)

variable {s : I2CCon Pcf5060x} (now : DataNo → LocalTime) {txn : I2CTransaction} {d : Pcf5060x}

theorem bytes_eq (txn : I2CTransaction) : bytes txn = .data0 :: (bytes txn).tail := rfl

/-- After the first byte of a write the pointer is set. -/
theorem write_first (idle : d.lastOpWasWrite = false) (data : I2CData) :
    transfer .write now { device := d, data } .data0 =
      .ok { device := { lastOpWasWrite := true, register := some (data .data0), inner := d.inner }, data }
        () := by
  obtain ⟨lastOpWasWrite, register, inner⟩ := d
  cases idle
  rfl

theorem loop_moves (idle : d.lastOpWasWrite = false) {first : U8}
    (pointer : d.pointer s.data txn.op = some first)
    (inside : first.toNat + (moving txn).length ≤ 255) :
    ∃ loop r, Outcome.forEach (transfer txn.op now) { device := d, data := s.data } (bytes txn) =
        .ok loop () ∧ r.toNat = first.toNat + (moving txn).length ∧
      Follows txn.op r (s.moves now txn d first) loop := by
  obtain ⟨op, addr, len⟩ := txn
  cases op with
  | read => exact Follows.forEach_step now ⟨pointer, rfl, rfl, rfl, idle⟩ _ inside
  | write =>
    cases pointer
    rw [bytes_eq, Outcome.forEach, write_first now idle]
    exact Follows.forEach_step now ⟨rfl, rfl, rfl, rfl, rfl⟩ _ inside

theorem loop_ends (idle : d.lastOpWasWrite = false) {first : U8}
    (pointer : d.pointer s.data txn.op = some first)
    (past : 255 < first.toNat + (moving txn).length) :
    Outcome.forEach (transfer txn.op now) { device := d, data := s.data } (bytes txn) =
      .panic overflow := by
  obtain ⟨op, addr, len⟩ := txn
  cases op with
  | read =>
    exact Follows.forEach_end (m := { inner := d.inner, data := s.data }) now
      ⟨pointer, rfl, rfl, rfl, idle⟩ _ past
  | write =>
    cases pointer
    rw [bytes_eq, Outcome.forEach, write_first now idle]
    exact Follows.forEach_end (m := { inner := d.inner, data := s.data }) now
      ⟨rfl, rfl, rfl, rfl, rfl⟩ _ past

/-- Without a pointer there is nothing to read, and every byte says so. -/
theorem loop_unselected (loop : ByteLoop Pcf5060x) (none : loop.device.register = none)
    (is : List DataNo) :
    ∃ loop', Outcome.forEach (transfer .read now) loop is = .ok loop' () ∧
      loop'.device.register = Option.none ∧
      (is ≠ [] → loop'.device.lastOpWasWrite = false ∧
        loop'.err = .error (.fatal "no register specified for read")) := by
  induction is generalizing loop with
  | nil => exact ⟨loop, rfl, none, fun impossible => absurd rfl impossible⟩
  | cons i is ih =>
    obtain ⟨⟨lastOpWasWrite, register, inner⟩, data, err⟩ := loop
    cases none
    obtain ⟨loop', done, unselected, last⟩ :=
      ih ⟨⟨false, .none, inner⟩, data.store i 0x00, .error (.fatal "no register specified for read")⟩
        rfl
    refine ⟨loop', done, unselected, fun _ => ?_⟩
    cases is with
    | nil =>
      cases done
      exact ⟨rfl, rfl⟩
    | cons j is => exact last (List.cons_ne_nil j is)

/-- The controller with the chip back at its address, after a transaction. -/
def after (s : I2CCon Pcf5060x) (txn : I2CTransaction) (loop : ByteLoop Pcf5060x) :
    I2CCon Pcf5060x :=
  s.putBack txn.addr { loop with device := { loop.device with lastOpWasWrite := false } }

theorem doTxn_eq (here : s.devices txn.addr = some d) {loop : ByteLoop Pcf5060x}
    (done : Outcome.forEach (transfer txn.op now) { device := d, data := s.data } (bytes txn) =
      .ok loop ()) (writing : loop.device.lastOpWasWrite = decide (txn.op = .write)) :
    s.doTxn now txn = .done (s.after txn loop) loop.err := by
  simp only [doTxn, here, done]
  obtain ⟨op, addr, len⟩ := txn
  obtain ⟨⟨lastOpWasWrite, register, inner⟩, data, err⟩ := loop
  cases op with
  | read =>
    cases writing
    rfl
  | write => rfl

theorem toVal_isSome (data : I2CData) {len : U8} (short : len.toNat < 4) :
    ∃ val, data.toVal len = some val := by
  have cases : len = 0 ∨ len = 1 ∨ len = 2 ∨ len = 3 := by
    obtain h | h | h | h : len.toNat = 0 ∨ len.toNat = 1 ∨ len.toNat = 2 ∨ len.toNat = 3 := by omega
    · exact .inl (BitVec.eq_of_toNat_eq h)
    · exact .inr (.inl (BitVec.eq_of_toNat_eq h))
    · exact .inr (.inr (.inl (BitVec.eq_of_toNat_eq h)))
    · exact .inr (.inr (.inr (BitVec.eq_of_toNat_eq h)))
  rcases cases with rfl | rfl | rfl | rfl <;> exact ⟨_, rfl⟩

/-- The context does not change what becomes of an exception. -/
theorem wrap_raises (short : txn.len.toNat < 4)
    (probes : ∀ d, s.devices txn.addr = some d → d.register ≠ some 0) (e : MemException) :
    ∃ x, s.wrap txn e = .raise s x ∧ x.harmless = e.harmless := by
  obtain ⟨val, whole⟩ := toVal_isSome s.data short
  simp only [wrap, whole]
  unfold inDevice
  cases here : s.devices txn.addr with
  | none => exact ⟨_, rfl, rfl⟩
  | some d =>
    obtain ⟨name, probed⟩ : ∃ name, I2CDevice.probe d = .ok d name := by
      change ∃ name, d.probe = .ok d name
      unfold Pcf5060x.probe
      cases selected : d.register with
      | none => exact ⟨_, rfl⟩
      | some reg =>
        have nonzero : reg ≠ 0 := by
          rintro rfl
          exact probes d here selected
        exact ⟨_, if_neg nonzero⟩
    simp only [probed]
    exact ⟨_, rfl, rfl⟩

/-- The only chip that a transaction touches is left between transactions. -/
def Settles (s s' : I2CCon Pcf5060x) : Prop :=
  ∀ addr d, s'.devices addr = some d → s.devices addr = some d ∨ d.lastOpWasWrite = false

theorem settles_after (loop : ByteLoop Pcf5060x) : Settles s (s.after txn loop) := by
  intro addr d here
  change (if addr = txn.addr then some _ else s.devices addr) = some d at here
  split at here
  · cases here
    exact .inr rfl
  · exact .inl here

theorem devices_after (loop : ByteLoop Pcf5060x) : (s.after txn loop).devices txn.addr =
    some { loop.device with lastOpWasWrite := false } := if_pos rfl

/-- A transaction with a pointer, as long as that does not run past the last number there is. -/
theorem send_moves (here : s.devices txn.addr = some d) (idle : d.lastOpWasWrite = false)
    (short : txn.len.toNat < 4) {first : U8} (pointer : d.pointer s.data txn.op = some first)
    (inside : first.toNat + (moving txn).length ≤ 255) :
    ∃ s' x, s.send now txn = .raise s' x ∧ Settles s s' ∧
      s'.data = (s.moves now txn d first).data ∧
      (∃ d', s'.devices txn.addr = some d' ∧ d'.inner = (s.moves now txn d first).inner) ∧
      x.harmless = ((s.moves now txn d first).passes.getLast?).getD true := by
  obtain ⟨loop, r, done, pointed, follows⟩ := loop_moves now idle pointer inside
  have txnDone := doTxn_eq now here done follows.writing
  unfold send
  rw [txnDone, follows.err]
  cases result : (s.moves now txn d first).result with
  | ok _ =>
    refine ⟨_, _, rfl, settles_after loop, follows.data, ⟨_, devices_after loop, follows.inner⟩, ?_⟩
    rw [Moved.result_ok result]
    rfl
  | error e =>
    have some_moved : moving txn ≠ [] := by
      intro none
      rw [moves, targets, none] at result
      cases result
    obtain ⟨x, wrapped, same⟩ := wrap_raises (s := s.after txn loop) short (fun d' at_addr => by
      rw [devices_after] at at_addr
      cases at_addr
      change loop.device.register ≠ some 0
      rw [follows.register]
      intro zero
      have := List.length_pos_iff.mpr some_moved
      rw [Option.some.inj zero, show (0 : U8).toNat = 0 from rfl] at pointed
      omega) e
    refine ⟨_, x, wrapped, settles_after loop, follows.data, ⟨_, devices_after loop, follows.inner⟩,
      ?_⟩
    rw [same, Moved.result_error result]
    rfl

theorem send_ends (here : s.devices txn.addr = some d) (idle : d.lastOpWasWrite = false)
    {first : U8} (pointer : d.pointer s.data txn.op = some first)
    (past : 255 < first.toNat + (moving txn).length) :
    s.send now txn = .panic overflow := by
  have loop := loop_ends now idle pointer past
  have txnDone : s.doTxn now txn = .panic overflow := by
    simp only [doTxn, here, loop]
  simp only [send, txnDone]

theorem send_unselected (here : s.devices txn.addr = some d) (short : txn.len.toNat < 4)
    (unselected : d.pointer s.data txn.op = none) :
    ∃ s' x, s.send now txn = .raise s' x ∧ Settles s s' ∧ x.harmless = false := by
  obtain ⟨op, addr, len⟩ := txn
  cases op with
  | write => cases unselected
  | read =>
    obtain ⟨loop, done, register, last⟩ :=
      loop_unselected now { device := d, data := s.data } unselected (bytes ⟨.read, addr, len⟩)
    obtain ⟨writing, err⟩ := last (by rw [bytes_eq]; exact List.cons_ne_nil _ _)
    have txnDone := doTxn_eq now here done writing
    obtain ⟨x, wrapped, same⟩ := wrap_raises (s := s.after ⟨.read, addr, len⟩ loop) short
      (fun d' at_addr => by
        rw [devices_after] at at_addr
        cases at_addr
        change loop.device.register ≠ some 0
        rw [register]
        exact nofun) (.fatal "no register specified for read")
    refine ⟨s.after ⟨.read, addr, len⟩ loop, x, ?_, settles_after loop, same⟩
    simp only [send, txnDone, err]
    exact wrapped

/-- Nobody answers, and no bytes are moved. -/
theorem send_unmapped (here : s.devices txn.addr = none) (short : txn.len.toNat < 4) :
    ∃ x, s.send now txn = .raise s x := by
  have probes : ∀ d, s.devices txn.addr = some d → d.register ≠ some 0 := by
    intro d mapped
    rw [here] at mapped
    cases mapped
  have nobody : ∃ e, s.doTxn now txn = .raise s e := by
    unfold doTxn
    rw [here]
    cases txn.op with
    | read | write => exact ⟨_, rfl⟩
  obtain ⟨e, unanswered⟩ := nobody
  obtain ⟨x, wrapped, _⟩ := wrap_raises short probes e
  exact ⟨x, by rw [send, unanswered]; exact wrapped⟩

/-- The transaction that a write to a register of the controller sends. -/
def sends (s : I2CCon Pcf5060x) (offset val : U32) : Option I2CTransaction :=
  match truncToByte val with
  | .error _ => none
  | .ok val =>
    if offset = 0x00 ∧ val.getBit 7 = true then
      { s.txn with len := some (val.getBits 1 2), op := some (.fromBit (val.getBit 5)) }.takeTxn.toOption
    else none

theorem takeTxn_len {cfg : I2CTransactionCfg} (taken : cfg.takeTxn = .ok txn) :
    cfg.len = some txn.len := by
  unfold I2CTransactionCfg.takeTxn at taken
  split at taken
  · cases taken
  · split at taken
    · rename_i found
      cases taken
      exact found
    · cases taken
    · cases taken
    · cases taken

theorem len_lt (val : U8) : (val.getBits 1 2).toNat < 4 := by
  rw [BitVec.getBits, BitVec.toNat_and]
  exact Nat.lt_of_le_of_lt Nat.and_le_right (by decide)

theorem w32_cases (s : I2CCon Pcf5060x) (now : DataNo → LocalTime) (offset val : U32) :
    (∃ txn, s.sends offset val = some txn ∧ txn.len.toNat < 4 ∧
      s.w32 now offset val = send { s with txn := {} } now txn) ∨
    (s.sends offset val = none ∧ ∃ s' r, s.w32 now offset val = .done s' r ∧
      s'.devices = s.devices) := by
  unfold sends w32
  cases truncToByte val with
  | error e => exact .inr ⟨rfl, s, _, rfl, rfl⟩
  | ok val =>
    by_cases toControl : offset = 0x00
    · subst toControl
      change (∃ txn : I2CTransaction, (if 0x00 = 0x00 ∧ val.getBit 7 = true then _ else none) = some txn ∧
        txn.len.toNat < 4 ∧ s.control now val = _) ∨
        ((if 0x00 = 0x00 ∧ val.getBit 7 = true then _ else none) = none ∧
          ∃ s' r, s.control now val = .done s' r ∧ s'.devices = s.devices)
      unfold control
      cases sending : val.getBit 7 with
      | false => exact .inr ⟨if_neg (by simp), _, _, rfl, rfl⟩
      | true =>
        rw [if_pos ⟨rfl, rfl⟩]
        cases taken : I2CTransactionCfg.takeTxn { s.txn with
            len := some (val.getBits 1 2), op := some (.fromBit (val.getBit 5)) } with
        | error e =>
          simp only [taken]
          exact .inr ⟨rfl, _, _, rfl, rfl⟩
        | ok txn =>
          simp only [taken]
          refine .inl ⟨txn, rfl, ?_, rfl⟩
          rw [← Option.some.inj (takeTxn_len taken)]
          exact len_lt val
    · refine .inr ⟨if_neg fun both => toControl both.1, ?_⟩
      dsimp only
      split
      · exact absurd rfl toControl
      all_goals exact ⟨_, _, rfl, rfl⟩

/-- What is promised of a transaction with the chip `d`. -/
structure Delivers (s : I2CCon Pcf5060x) (now : DataNo → LocalTime) (txn : I2CTransaction)
    (d : Pcf5060x) (s' : I2CCon Pcf5060x) (r : Except MemException Unit) : Prop where
  moved : ∀ first, d.pointer s.data txn.op = some first →
    s'.data = (s.moves now txn d first).data ∧
      ∃ d', s'.devices txn.addr = some d' ∧ d'.inner = (s.moves now txn d first).inner
  fatal : ∀ first, d.pointer s.data txn.op = some first →
    (∃ e ∈ (s.moves now txn d first).raised, e.harmless = false) →
      ∃ e, r = .error e ∧ e.harmless = false
  unselected : d.pointer s.data txn.op = none → ∃ e, r = .error e ∧ e.harmless = false

inductive Event where
  | read (offset : U32)
  | write (now : DataNo → LocalTime) (offset val : U32)

def step (s : I2CCon Pcf5060x) : Event → Option (I2CCon Pcf5060x)
  | .read offset => (s.r32 offset).state?
  | .write now offset val => (s.w32 now offset val).state?

/-- An access does not panic, and the transaction it sends, if it does, is delivered. -/
def Sound (s : I2CCon Pcf5060x) : Event → Prop
  | .read offset => (s.r32 offset).Ends
  | .write now offset val => (s.w32 now offset val).Ends ∧
    ∀ txn d s' r, s.sends offset val = some txn → s.devices txn.addr = some d →
      s.w32 now offset val = .done s' r → s.Delivers now txn d s' r

/-- Of the registers of a transaction that raise an exception, whether it is let pass. -/
def passing (txn : I2CTransaction) (first : U8) : List Bool :=
  (targets txn first).filterMap fun target => (answer txn.op target.2).passes

/-- The registers of a transaction stay below the last number there is, and if one of them refuses
the access, so does the last one that raises an exception. -/
def WellPlaced (s : I2CCon Pcf5060x) : Event → Prop
  | .read _ => True
  | .write _ offset val => ∀ txn d first, s.sends offset val = some txn →
    s.devices txn.addr = some d → d.pointer s.data txn.op = some first →
      (∀ target ∈ targets txn first, target.2 < 0xff) ∧
        (false ∈ passing txn first → (passing txn first).getLast? = some false)

/-- Between transactions no chip is in the middle of a write. -/
def Settled (s : I2CCon Pcf5060x) : Prop :=
  ∀ addr d, s.devices addr = some d → d.lastOpWasWrite = false

theorem targets_below_iff (txn : I2CTransaction) (first : U8) :
    (∀ target ∈ targets txn first, target.2 < 0xff) ↔
      first.toNat + (moving txn).length ≤ 255 := by
  have numbers : (targets txn first).map Prod.snd = List.range' first.toNat (moving txn).length :=
    List.map_snd_zip (Nat.le_of_eq List.length_range')
  have all : (∀ target ∈ targets txn first, target.2 < 0xff) ↔
      ∀ n ∈ List.range' first.toNat (moving txn).length, n < 0xff := by
    rw [← numbers, List.forall_mem_map]
  rw [all]
  have := first.isLt
  constructor
  · intro below
    by_contra past
    have last := below (first.toNat + (moving txn).length - 1)
      (List.mem_range'_1.mpr ⟨by omega, by omega⟩)
    omega
  · intro inside n member
    have := List.mem_range'_1.mp member
    omega

theorem passes_moves (s : I2CCon Pcf5060x) (now : DataNo → LocalTime) (txn : I2CTransaction)
    (d : Pcf5060x) (first : U8) : (s.moves now txn d first).passes = passing txn first := by
  rw [moves, Moved.passes_all]
  rfl

theorem fatal_iff {m : Moved} : (∃ e ∈ m.raised, e.harmless = false) ↔ false ∈ m.passes := by
  rw [Moved.passes, List.mem_map]

theorem r32_ends (s : I2CCon Pcf5060x) (offset : U32) :
    ∃ s' r, s.r32 offset = .done s' r ∧ s'.devices = s.devices := by
  unfold r32
  split
  all_goals exact ⟨_, _, rfl, rfl⟩

theorem Settled.of_settles {s s' : I2CCon Pcf5060x} (settled : s.Settled)
    (settles : Settles s s') : s'.Settled := by
  intro addr d here
  rcases settles addr d here with before | idle
  · exact settled addr d before
  · exact idle

theorem Settled.of_same {s s' : I2CCon Pcf5060x} (settled : s.Settled)
    (same : s'.devices = s.devices) : s'.Settled := by
  intro addr d here
  rw [same] at here
  exact settled addr d here

/-- A transaction leaves the chips settled, if it does not panic. -/
theorem send_settled {s s' : I2CCon Pcf5060x} (settled : s.Settled) {txn : I2CTransaction}
    (short : txn.len.toNat < 4) (sent : (s.send now txn).state? = some s') : s'.Settled := by
  cases here : s.devices txn.addr with
  | none =>
    obtain ⟨x, raised⟩ := send_unmapped now here short
    rw [raised] at sent
    cases sent
    exact settled
  | some d =>
    have idle := settled txn.addr d here
    cases pointer : d.pointer s.data txn.op with
    | none =>
      obtain ⟨s₁, x, raised, settles, _⟩ := send_unselected now here short pointer
      rw [raised] at sent
      cases sent
      exact settled.of_settles settles
    | some first =>
      rcases Nat.lt_or_ge 255 (first.toNat + (moving txn).length) with past | inside
      · rw [send_ends now here idle pointer past] at sent
        cases sent
      · obtain ⟨s₁, x, raised, settles, _⟩ := send_moves now here idle short pointer inside
        rw [raised] at sent
        cases sent
        exact settled.of_settles settles

theorem settled_step {s s' : I2CCon Pcf5060x} {e : Event} (settled : s.Settled)
    (stepped : s.step e = some s') : s'.Settled := by
  cases e with
  | read offset =>
    obtain ⟨s₁, r, done, same⟩ := s.r32_ends offset
    rw [step, done] at stepped
    cases stepped
    exact settled.of_same same
  | write now offset val =>
    rw [step] at stepped
    obtain ⟨txn, _, short, sent⟩ | ⟨_, s₁, r, done, same⟩ := s.w32_cases now offset val
    · rw [sent] at stepped
      exact send_settled (s := { s with txn := {} }) now settled short stepped
    · rw [done] at stepped
      cases stepped
      exact settled.of_same same

theorem wellPlaced_of_sound {s : I2CCon Pcf5060x} (settled : s.Settled) {e : Event}
    (sound : s.Sound e) : s.WellPlaced e := by
  cases e with
  | read offset => trivial
  | write now offset val =>
    intro txn d first sending here pointer
    obtain ⟨txn', again, short, sent⟩ | ⟨idle, _⟩ := s.w32_cases now offset val
    · cases sending.symm.trans again
      obtain ⟨ends, delivers⟩ := sound
      have quiet := settled txn.addr d here
      rcases Nat.lt_or_ge 255 (first.toNat + (moving txn).length) with past | inside
      · rw [sent, send_ends (s := { s with txn := {} }) now here quiet pointer past] at ends
        exact absurd ends (Outcome.ends_panic overflow)
      · obtain ⟨s', x, raised, _, _, _, last⟩ :=
          send_moves (s := { s with txn := {} }) now here quiet short pointer inside
        refine ⟨(targets_below_iff txn first).mpr inside, fun refused => ?_⟩
        change x.harmless = ((s.moves now txn d first).passes.getLast?).getD true at last
        rw [passes_moves] at last
        obtain ⟨e, same, fatal⟩ :=
          (delivers txn d s' (.error x) sending here (sent.trans raised)).fatal first pointer
            (fatal_iff.mpr (by rw [passes_moves]; exact refused))
        cases same
        rw [fatal] at last
        cases passed : (passing txn first).getLast? with
        | none =>
          rw [passed] at last
          cases last
        | some b =>
          rw [passed] at last
          exact congrArg some last.symm
    · rw [idle] at sending
      cases sending

/-- A write that sends a transaction to a chip is sound if it is delivered. -/
theorem sound_of_delivers {s s₁ : I2CCon Pcf5060x} {now : DataNo → LocalTime} {offset val : U32}
    {txn : I2CTransaction} {d : Pcf5060x} {r : Except MemException Unit}
    (sending : s.sends offset val = some txn) (here : s.devices txn.addr = some d)
    (sent : s.w32 now offset val = .done s₁ r) (delivers : s.Delivers now txn d s₁ r) :
    s.Sound (.write now offset val) := by
  refine ⟨⟨s₁, r, sent⟩, fun txn' d' s' r' again mapped done => ?_⟩
  cases sending.symm.trans again
  cases here.symm.trans mapped
  cases sent.symm.trans done
  exact delivers

theorem sound_of_wellPlaced {s : I2CCon Pcf5060x} (settled : s.Settled) {e : Event}
    (placed : s.WellPlaced e) : s.Sound e := by
  cases e with
  | read offset =>
    obtain ⟨s', r, done, _⟩ := s.r32_ends offset
    exact ⟨s', r, done⟩
  | write now offset val =>
    obtain ⟨txn, sending, short, sent⟩ | ⟨idle, s', r, done, _⟩ := s.w32_cases now offset val
    · cases here : s.devices txn.addr with
      | none =>
        obtain ⟨x, raised⟩ := send_unmapped (s := { s with txn := {} }) now here short
        refine ⟨⟨_, _, sent.trans raised⟩, fun txn' d s' r again mapped => ?_⟩
        cases sending.symm.trans again
        rw [here] at mapped
        cases mapped
      | some d =>
        have quiet := settled txn.addr d here
        cases pointer : d.pointer s.data txn.op with
        | none =>
          obtain ⟨s₁, x, raised, _, fatal⟩ :=
            send_unselected (s := { s with txn := {} }) now here short pointer
          refine sound_of_delivers sending here (sent.trans raised)
            ⟨fun first found => ?_, fun first found => ?_, fun _ => ⟨x, rfl, fatal⟩⟩
          all_goals
            rw [pointer] at found
            cases found
        | some first =>
          obtain ⟨below, last⟩ := placed txn d first sending here pointer
          obtain ⟨s₁, x, raised, _, data, inner, harmless⟩ :=
            send_moves (s := { s with txn := {} }) now here quiet short pointer
              ((targets_below_iff txn first).mp below)
          apply sound_of_delivers sending here (sent.trans raised)
          constructor
          · intro first' found
            cases pointer.symm.trans found
            exact ⟨data, inner⟩
          · intro first' found refused
            cases pointer.symm.trans found
            refine ⟨x, rfl, ?_⟩
            change x.harmless = ((s.moves now txn d first).passes.getLast?).getD true at harmless
            rw [fatal_iff, passes_moves] at refused
            rw [harmless, passes_moves, last refused]
            rfl
          · intro none
            rw [pointer] at none
            cases none
    · refine ⟨⟨s', r, done⟩, fun txn d s' r sending => ?_⟩
      rw [idle] at sending
      cases sending

/-- No access of a run panics, and all its transactions are delivered, exactly when the registers of
each of them stay below 0xff and no stubbed one comes after one that refuses the access. -/
theorem transactions_delivered_iff (s : I2CCon Pcf5060x) (settled : s.Settled)
    (es : List Event) : BeforeEach step Sound s es ↔ BeforeEach step WellPlaced s es :=
  beforeEach_iff (fun _ _ _ before stepped => settled_step before stepped)
    (fun _ _ before => ⟨wellPlaced_of_sound before, sound_of_wellPlaced before⟩) es settled

/-- The chip is the only device there is. -/
def powerUp : I2CCon Pcf5060x := { devices := fun addr => if addr = 0x08 then some {} else none }

theorem settled_powerUp : powerUp.Settled := by
  intro addr d here
  change (if addr = 0x08 then some {} else none) = some d at here
  split at here
  · cases here
    rfl
  · cases here

def newYear : DataNo → LocalTime := fun _ => ⟨0, 0, 0, 0, 1, 1, 0⟩

/-- The pointer is set to `reg`, and two bytes are read from there. -/
def twoFrom (reg : U8) : List Event :=
  [.write newYear 0x0c (reg.setWidth 32), .write newYear 0x04 0x10, .write newYear 0x00 0x80,
    .write newYear 0x04 0x11, .write newYear 0x00 0xa2]

theorem masks_delivered : BeforeEach step Sound powerUp (twoFrom 0x05) ↔
    BeforeEach step WellPlaced powerUp (twoFrom 0x05) :=
  transactions_delivered_iff powerUp settled_powerUp (twoFrom 0x05)

set_option maxRecDepth 20000 in
/-- OOCS is not implemented, and INT1 is a stub. -/
theorem stub_hides_refusal : ¬ BeforeEach step Sound powerUp (twoFrom 0x01) := by
  rintro ⟨_, h⟩
  obtain ⟨_, h⟩ := h _ rfl
  obtain ⟨_, h⟩ := h _ rfl
  obtain ⟨_, h⟩ := h _ rfl
  obtain ⟨⟨_, delivers⟩, _⟩ := h _ rfl
  obtain ⟨e, same, fatal⟩ := (delivers ⟨.read, 0x08, 1⟩ _ _ _ rfl rfl rfl).fatal 0x01 rfl
    ⟨.unimplemented, by decide, rfl⟩
  cases same
  cases fatal

/-- The pointer does not get past 0xff. -/
theorem pointer_overflows : ¬ BeforeEach step Sound powerUp (twoFrom 0xff) := by
  rintro ⟨_, h⟩
  obtain ⟨_, h⟩ := h _ rfl
  obtain ⟨_, h⟩ := h _ rfl
  obtain ⟨_, h⟩ := h _ rfl
  obtain ⟨⟨ends, _⟩, _⟩ := h _ rfl
  exact absurd ends (Outcome.ends_panic overflow)

end I2CCon
end Clicky
