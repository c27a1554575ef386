import Clicky.Lib.Runs
import Clicky.Ram

/-! The RAM that warns against the plain one: the same accesses give the same values, and the
warnings are about what was never written. -/
namespace Clicky
open Runs

inductive RamOp where
  | r8 (offset : U32)
  | r16 (offset : U32)
  | r32 (offset : U32)
  | w8 (offset : U32) (val : U8)
  | w16 (offset : U32) (val : U16)
  | w32 (offset val : U32)
  | bulkWrite (offset : U32) (data : List U8)
  deriving DecidableEq, Repr

namespace RamOp

def offset : RamOp → U32
  | .r8 offset | .r16 offset | .r32 offset => offset
  | .w8 offset _ | .w16 offset _ | .w32 offset _ | .bulkWrite offset _ => offset

/-- How many bytes a read is of. -/
def bytesRead : RamOp → Nat
  | .r8 _ => 1
  | .r16 _ => 2
  | .r32 _ => 4
  | _ => 0

def stored : RamOp → List U8
  | .w8 _ val => [val]
  | .w16 _ val => val.toLeBytes 2
  | .w32 _ val => val.toLeBytes 4
  | .bulkWrite _ data => data
  | _ => []

def InBounds (size : Nat) (op : RamOp) : Prop :=
  op.offset.toNat + (op.bytesRead + op.stored.length) ≤ size

instance (size : Nat) (op : RamOp) : Decidable (op.InBounds size) :=
  inferInstanceAs (Decidable (_ ≤ _))

def Writes (op : RamOp) (addr : Nat) : Prop :=
  op.offset.toNat ≤ addr ∧ addr < op.offset.toNat + op.stored.length

/-- One of the operations has written the byte. -/
def Covered (ops : List RamOp) (addr : Nat) : Prop := ∃ op ∈ ops, op.Writes addr

/-- What a read needs to have been written. For a word the byte it is aligned to will do. -/
def Initialized (ops : List RamOp) (op : RamOp) : Prop :=
  (∀ i < op.bytesRead, Covered ops (op.offset.toNat + i)) ∨
    op.bytesRead = 4 ∧ Covered ops (op.offset &&& ~~~(0x3 : U32)).toNat

def onAsan (op : RamOp) (a : AsanRam) : Access AsanRam (Option U32) :=
  match op with
  | .r8 offset => (a.r8 offset).map fun val => some (val.setWidth 32)
  | .r16 offset => (a.r16 offset).map fun val => some (val.setWidth 32)
  | .r32 offset => (a.r32 offset).map fun val => some (val.setWidth 32)
  | .w8 offset val => (a.w8 offset val).map fun _ => none
  | .w16 offset val => (a.w16 offset val).map fun _ => none
  | .w32 offset val => (a.w32 offset val).map fun _ => none
  | .bulkWrite offset data => (a.bulkWrite offset data).map fun _ => none

def onRam {size : Nat} (op : RamOp) (s : Ram size) : Access (Ram size) (Option U32) :=
  match op with
  | .r8 offset => (s.r8 offset).map fun val => some (val.setWidth 32)
  | .r16 offset => (s.r16 offset).map fun val => some (val.setWidth 32)
  | .r32 offset => (s.r32 offset).map fun val => some (val.setWidth 32)
  | .w8 offset val => (s.w8 offset val).map fun _ => none
  | .w16 offset val => (s.w16 offset val).map fun _ => none
  | .w32 offset val => (s.w32 offset val).map fun _ => none
  | .bulkWrite offset data => (s.bulkWrite offset data).map fun _ => none

/-- The value of a read, be it the one that comes with the warning. -/
def returned : Except MemException (Option U32) → Option U32
  | .ok val => val
  | .error (.contractViolation _ _ stubVal) => stubVal
  | .error _ => none

end RamOp

theorem leU16_eq (b0 b1 : U8) : BitVec.ofLeBytes 16 [b0, b1] = leU16 b0 b1 := by
  simp [BitVec.ofLeBytes, leU16]

theorem leU32_eq (b0 b1 b2 b3 : U8) : BitVec.ofLeBytes 32 [b0, b1, b2, b3] = leU32 b0 b1 b2 b3 := by
  apply BitVec.eq_of_getLsbD_eq
  intro i low
  have past (b : U8) {j : Nat} (high : 8 ≤ j) : b.getLsbD j = false := BitVec.getLsbD_of_ge b j high
  simp only [BitVec.ofLeBytes, leU32, leU16, BitVec.getLsbD_or, BitVec.getLsbD_shiftLeft,
    BitVec.getLsbD_setWidth, low, decide_true, Bool.true_and]
  -- one case for each byte the bit may be in
  rcases Nat.lt_or_ge i 8 with byte0 | byte0
  · simp [byte0, show i < 16 by omega]
  rcases Nat.lt_or_ge i 16 with byte1 | byte1
  · simp [byte1, past b0 byte0, show ¬ i < 8 by omega, show i - 8 < 8 by omega,
      show i - 8 < 32 by omega, show i - 8 < 16 by omega]
  rcases Nat.lt_or_ge i 24 with byte2 | byte2
  · simp [past b0 byte0, past b1 (show 8 ≤ i - 8 by omega), show ¬ i < 8 by omega,
      show ¬ i < 16 by omega, show ¬ i - 8 < 8 by omega, show i - 8 < 32 by omega,
      show i - 16 < 8 by omega, show i - 16 < 16 by omega, show i - 16 < 32 by omega, Nat.sub_sub]
  · simp [past b0 byte0, past b1 (show 8 ≤ i - 8 by omega), past b2 (show 8 ≤ i - 16 by omega),
      show ¬ i < 8 by omega, show ¬ i < 16 by omega, show ¬ i - 8 < 8 by omega,
      show i - 8 < 32 by omega, show ¬ i - 16 < 8 by omega, show i - 16 < 16 by omega,
      show i - 16 < 32 by omega, Nat.sub_sub]
    grind

theorem leBytes_half (val : U16) : leBytes 2 (val.setWidth 32) = val.toLeBytes 2 := by
  have high : ((val.setWidth 32) >>> 8 : U32).setWidth 8 = ((val >>> 8).setWidth 8 : U8) := by
    apply BitVec.eq_of_getLsbD_eq
    intro i low
    simp only [BitVec.getLsbD_setWidth, BitVec.getLsbD_ushiftRight, low, decide_true,
      Bool.true_and, show 8 + i < 32 by omega]
  simpa [leBytes, BitVec.toLeBytes, List.range_succ] using high

theorem leBytes_word (val : U32) : leBytes 4 val = val.toLeBytes 4 := by
  simp [leBytes, BitVec.toLeBytes, List.range_succ]

theorem toLeBytes_byte (val : U8) : val.toLeBytes 1 = [val] := by
  simp [BitVec.toLeBytes]

theorem ofLeBytes_byte (b : U8) : BitVec.ofLeBytes 8 [b] = b := by
  simp [BitVec.ofLeBytes]

namespace AsanRam

/-- A read within bounds. The data is left alone, and the value comes with or without a warning. -/
theorem read_inside (a : AsanRam) {w offset size : Nat} (inside : offset + size ≤ a.size)
    (val : BitVec w) (excused : Bool) :
    ∃ a' r, a.read offset size val excused = .done a' r ∧ a'.size = a.size ∧ a'.mem = a.mem ∧
      a'.onlyWarnOnce = a.onlyWarnOnce ∧ (a.onlyWarnOnce = false → a' = a) ∧
      RamOp.returned (r.map fun val => some (val.setWidth 32)) = some (val.setWidth 32) ∧
      ((∃ val, r = .ok val) ↔
        (∀ i < size, a.initialized (offset + i) = true) ∨ excused = true) := by
  have all : (a.window offset size).all id = true ↔
      ∀ i < size, a.initialized (offset + i) = true := by
    simp only [window, List.all_map, List.all_eq_true, List.mem_range'_1, Function.comp, id]
    constructor
    · exact fun every i short => every (offset + i) ⟨by omega, by omega⟩
    · intro every addr within
      have := every (addr - offset) (by omega)
      rwa [Nat.add_sub_cancel' within.1] at this
  rw [← all, ← Bool.or_eq_true]
  unfold read
  rw [if_neg (Nat.not_lt.mpr inside)]
  split
  · rename_i clean
    exact ⟨a, .ok val, rfl, rfl, rfl, rfl, fun _ => rfl, rfl, fun _ => clean, fun _ => ⟨val, rfl⟩⟩
  · rename_i unclean
    refine ⟨_, .error _, rfl, ?_, ?_, ?_, ?_, rfl, ?_, fun clean => absurd clean unclean⟩
    · split <;> rfl
    · split <;> rfl
    · split <;> rfl
    · intro again
      rw [again]
      rfl
    · rintro ⟨_, impossible⟩
      cases impossible

theorem write_inside (a : AsanRam) {offset : Nat} {data : List U8}
    (inside : offset + data.length ≤ a.size) :
    a.write offset data = .ok { a.markInitialized offset data.length with
      mem := fun addr => if offset ≤ addr ∧ addr < offset + data.length then
        data.getD (addr - offset) 0 else a.mem addr } () :=
  if_neg (Nat.not_lt.mpr inside)

end AsanRam

/-- The two memories after the same operations. -/
structure Tracks {size : Nat} (onlyWarnOnce : Bool) (ops : List RamOp) (a : AsanRam)
    (s : Ram size) : Prop where
  length : a.size = size
  flag : a.onlyWarnOnce = onlyWarnOnce
  mem : ∀ addr < size, s.mem[addr]? = some (a.mem addr)
  initialized : onlyWarnOnce = false → ∀ addr, a.initialized addr = true ↔ RamOp.Covered ops addr

/-- What the two memories make of one operation, after the ones `before` it. -/
structure Agrees {size : Nat} (onlyWarnOnce : Bool) (before : List RamOp) (op : RamOp)
    (a a' : AsanRam) (r : Except MemException (Option U32)) (s s' : Ram size)
    (val : Option U32) : Prop where
  value : RamOp.returned r = val
  keeps : op.stored = [] → a'.mem = a.mem ∧ s'.mem = s.mem
  warns : onlyWarnOnce = false → ((∃ val, r = .ok val) ↔ op.Initialized before)

theorem covered_concat (ops : List RamOp) (op : RamOp) (addr : Nat) :
    RamOp.Covered (ops ++ [op]) addr ↔ RamOp.Covered ops addr ∨ op.Writes addr := by
  simp [RamOp.Covered, or_and_right, exists_or]

theorem not_writes {op : RamOp} (reads : op.stored = []) (addr : Nat) : ¬ op.Writes addr := by
  rintro ⟨low, high⟩
  rw [reads, List.length_nil] at high
  omega

namespace Tracks

variable {size : Nat} {onlyWarnOnce : Bool} {ops : List RamOp} {a : AsanRam} {s : Ram size}

theorem slice (tracks : Tracks onlyWarnOnce ops a s) {offset len : Nat}
    (inside : offset + len ≤ size) :
    s.mem.slice offset len = (List.range' offset len).map a.mem := by
  apply List.ext_getElem?
  intro i
  rw [List.getElem?_slice, List.getElem?_map]
  by_cases short : i < len
  · rw [if_pos short, tracks.mem _ (by omega), List.getElem?_range' short, Nat.one_mul]
    rfl
  · rw [if_neg short, List.getElem?_eq_none (by rw [List.length_range']; omega)]
    rfl

/-- After a read nothing has changed but the warnings still to come. -/
theorem read {a' : AsanRam} {op : RamOp} (tracks : Tracks onlyWarnOnce ops a s)
    (reads : op.stored = []) (length : a'.size = a.size) (mem : a'.mem = a.mem)
    (flag : a'.onlyWarnOnce = a.onlyWarnOnce) (same : a.onlyWarnOnce = false → a' = a) :
    Tracks onlyWarnOnce (ops ++ [op]) a' s := by
  refine ⟨length.trans tracks.length, flag.trans tracks.flag, ?_, fun again addr => ?_⟩
  · rw [mem]
    exact tracks.mem
  · rw [covered_concat, same (tracks.flag.trans again), tracks.initialized again]
    exact (or_iff_left (not_writes reads addr)).symm

theorem initialized_iff (tracks : Tracks onlyWarnOnce ops a s) (again : onlyWarnOnce = false)
    (offset len : Nat) : (∀ i < len, a.initialized (offset + i) = true) ↔
      ∀ i < len, RamOp.Covered ops (offset + i) :=
  forall₂_congr fun i _ => tracks.initialized again (offset + i)

theorem read_agrees (tracks : Tracks onlyWarnOnce ops a s) {op : RamOp} {w : Width}
    {val : BitVec w.bits} {excused : Bool} (reads : op.stored = []) (bytes : op.bytesRead = w.bytes)
    (inside : op.offset.toNat + w.bytes ≤ size)
    (asan : op.onAsan a = (a.read op.offset.toNat w.bytes val excused).map fun val =>
      some (val.setWidth 32))
    (ram : op.onRam s = (s.read w op.offset).map fun val => some (val.setWidth 32))
    (same : BitVec.ofLeBytes w.bits ((List.range' op.offset.toNat w.bytes).map a.mem) = val)
    (word : onlyWarnOnce = false → (excused = true ↔
      op.bytesRead = 4 ∧ RamOp.Covered ops (op.offset &&& ~~~(0x3 : U32)).toNat)) :
    ∃ a' r s' val, op.onAsan a = .done a' r ∧ op.onRam s = .ok s' val ∧
      Agrees onlyWarnOnce ops op a a' r s s' val ∧ Tracks onlyWarnOnce (ops ++ [op]) a' s' := by
  obtain ⟨a', r, done, length, mem, flag, unchanged, value, clean⟩ :=
    a.read_inside (by rw [tracks.length]; exact inside) val excused
  rw [done, Outcome.map_done] at asan
  rw [s.read_inside inside, Outcome.map_ok, tracks.slice inside, same] at ram
  refine ⟨a', _, s, _, asan, ram, ⟨value, fun _ => ⟨mem, rfl⟩, fun again => ?_⟩,
    tracks.read reads length mem flag unchanged⟩
  have mapped : (∃ v, r.map (fun val => some (val.setWidth 32)) = .ok v) ↔ ∃ val, r = .ok val := by
    cases r with
    | ok val => exact ⟨fun _ => ⟨val, rfl⟩, fun _ => ⟨_, rfl⟩⟩
    | error e => exact ⟨nofun, nofun⟩
  rw [mapped, clean, tracks.initialized_iff again, word again, RamOp.Initialized, bytes]

/-- Both memories hold the bytes that were written. -/
theorem write_agrees (tracks : Tracks onlyWarnOnce ops a s) {op : RamOp}
    (writes : op.bytesRead = 0) (inside : op.offset.toNat + op.stored.length ≤ size)
    (asan : op.onAsan a = (a.write op.offset.toNat op.stored).map fun _ => none)
    (ram : op.onRam s = (s.bulkWrite op.offset op.stored).map fun _ => none) :
    ∃ a' r s' val, op.onAsan a = .done a' r ∧ op.onRam s = .ok s' val ∧
      Agrees onlyWarnOnce ops op a a' r s s' val ∧ Tracks onlyWarnOnce (ops ++ [op]) a' s' := by
  rw [a.write_inside (by rw [tracks.length]; exact inside), Outcome.map_ok] at asan
  have wrote : s.bulkWrite op.offset op.stored =
      .ok ⟨s.mem.overwrite op.offset.toNat op.stored, s.size_overwrite _ _⟩ () :=
    if_neg (Nat.not_lt.mpr inside)
  rw [wrote, Outcome.map_ok] at ram
  refine ⟨_, _, _, _, asan, ram, ⟨rfl, fun none => ?_, fun _ => ?_⟩, tracks.length, tracks.flag, ?_,
    fun again addr => ?_⟩
  · refine ⟨funext fun addr => ?_, ?_⟩
    · have outside : ¬ (op.offset.toNat ≤ addr ∧ addr < op.offset.toNat + op.stored.length) :=
        not_writes none addr
      exact if_neg outside
    · change s.mem.overwrite op.offset.toNat op.stored = s.mem
      rw [none, List.overwrite_nil]
  · refine ⟨fun _ => .inl fun i short => ?_, fun _ => ⟨_, rfl⟩⟩
    rw [writes] at short
    exact absurd short (Nat.not_lt_zero i)
  · intro addr low
    change (s.mem.overwrite op.offset.toNat op.stored)[addr]? = some (if _ then _ else _)
    rw [List.getElem?_overwrite]
    by_cases within : op.offset.toNat ≤ addr ∧ addr < op.offset.toNat + op.stored.length
    · rw [if_pos ⟨within.1, within.2, by rw [s.size_mem]; exact low⟩, if_pos within,
        List.getD_eq_getElem?_getD, List.getElem?_eq_getElem (by omega)]
      rfl
    · rw [if_neg (fun all => within ⟨all.1, all.2.1⟩), if_neg within]
      exact tracks.mem addr low
  · rw [covered_concat, ← tracks.initialized again]
    change ((decide (op.offset.toNat ≤ addr) && decide (addr < op.offset.toNat + op.stored.length)) ||
      a.initialized addr) = true ↔ _
    rw [Bool.or_eq_true, Bool.and_eq_true, decide_eq_true_eq, decide_eq_true_eq, or_comm]
    rfl

theorem agrees (tracks : Tracks onlyWarnOnce ops a s) (op : RamOp) (inside : op.InBounds size) :
    ∃ a' r s' val, op.onAsan a = .done a' r ∧ op.onRam s = .ok s' val ∧
      Agrees onlyWarnOnce ops op a a' r s s' val ∧ Tracks onlyWarnOnce (ops ++ [op]) a' s' := by
  unfold RamOp.InBounds at inside
  cases op with
  | r8 offset =>
    exact tracks.read_agrees (w := .byte) rfl rfl inside rfl rfl (ofLeBytes_byte _)
      fun _ => ⟨nofun, fun word => nomatch word.1⟩
  | r16 offset =>
    exact tracks.read_agrees (w := .half) rfl rfl inside rfl rfl (leU16_eq _ _)
      fun _ => ⟨nofun, fun word => nomatch word.1⟩
  | r32 offset =>
    exact tracks.read_agrees (w := .word) rfl rfl inside rfl rfl (leU32_eq _ _ _ _)
      fun again => (tracks.initialized again _).trans ⟨fun covered => ⟨rfl, covered⟩, And.right⟩
  | w8 offset val =>
    refine tracks.write_agrees rfl (by simpa [RamOp.bytesRead] using inside) rfl ?_
    change (s.bulkWrite offset (val.toLeBytes 1)).map _ = _
    rw [toLeBytes_byte]
    rfl
  | w16 offset val =>
    refine tracks.write_agrees rfl (by simpa [RamOp.bytesRead] using inside) ?_ rfl
    change (a.write offset.toNat (leBytes 2 (val.setWidth 32))).map _ = _
    rw [leBytes_half]
    rfl
  | w32 offset val =>
    refine tracks.write_agrees rfl (by simpa [RamOp.bytesRead] using inside) ?_ rfl
    change (a.write offset.toNat (leBytes 4 val)).map _ = _
    rw [leBytes_word]
    rfl
  | bulkWrite offset data =>
    exact tracks.write_agrees rfl (by simpa [RamOp.bytesRead] using inside) rfl rfl

end Tracks

/-- With the contents of a plain RAM, and nothing written yet. -/
def AsanRam.holding {size : Nat} (contents : Ram size) (onlyWarnOnce : Bool) : AsanRam :=
  { AsanRam.new size onlyWarnOnce with mem := fun addr => contents.mem.getD addr 0 }

/-- The operation on both memories. -/
def RamOp.onBoth {size : Nat} (both : AsanRam × Ram size) (op : RamOp) :
    Option (AsanRam × Ram size) :=
  (op.onAsan both.1).state?.bind fun a => (op.onRam both.2).state?.map fun s => (a, s)

theorem tracks_of_run {size : Nat} (contents : Ram size) (onlyWarnOnce : Bool) (ops : List RamOp)
    (inside : ∀ op ∈ ops, op.InBounds size) :
    ∃ a s, run RamOp.onBoth (AsanRam.holding contents onlyWarnOnce, contents) ops =
      some (a, s) ∧ Tracks onlyWarnOnce ops a s := by
  induction ops using List.reverseRecOn with
  | nil =>
    refine ⟨_, _, rfl, rfl, rfl, fun addr low => ?_, fun _ addr => ?_⟩
    · change contents.mem[addr]? = some (contents.mem.getD addr 0)
      rw [List.getD_eq_getElem?_getD, List.getElem?_eq_getElem (by rw [contents.size_mem]; exact low)]
      rfl
    · exact ⟨nofun, fun covered => nomatch covered⟩
  | append_singleton ops op ih =>
    obtain ⟨a, s, reached, tracks⟩ := ih fun op member => inside op (List.mem_append_left _ member)
    obtain ⟨a', r, s', val, asan, ram, _, after⟩ :=
      tracks.agrees op (inside op (List.mem_append_right _ List.mem_cons_self))
    refine ⟨a', s', ?_, after⟩
    rw [run_concat, reached]
    change (op.onAsan a).state?.bind _ = _
    rw [asan, Outcome.state?_done, Option.bind_some, ram]
    rfl

/-- Whatever has been done before, an operation within bounds comes to the same on both memories,
and a read warns exactly about what was not written. -/
theorem asanRam_refines_ram {size : Nat} (contents : Ram size) (onlyWarnOnce : Bool)
    (before : List RamOp) (op : RamOp) (inside : ∀ op' ∈ before ++ [op], op'.InBounds size) :
    ∃ a s, run RamOp.onBoth (AsanRam.holding contents onlyWarnOnce, contents) before =
      some (a, s) ∧ ∃ a' r s' val, op.onAsan a = .done a' r ∧ op.onRam s = .ok s' val ∧
        Agrees onlyWarnOnce before op a a' r s s' val := by
  obtain ⟨a, s, reached, tracks⟩ := tracks_of_run contents onlyWarnOnce before
    fun op' member => inside op' (List.mem_append_left _ member)
  obtain ⟨a', r, s', val, asan, ram, agrees, _⟩ :=
    tracks.agrees op (inside op (List.mem_append_right _ List.mem_cons_self))
  exact ⟨a, s, reached, a', r, s', val, asan, ram, agrees⟩

/-- A byte is stored, and the word around it is read. -/
theorem word_after_byte : ∃ a s,
    run RamOp.onBoth (AsanRam.holding (Ram.new 4) false, Ram.new 4) [.w8 0 7] = some (a, s) ∧
      ∃ a' r s' val, RamOp.onAsan (.r32 0) a = .done a' r ∧ RamOp.onRam (.r32 0) s = .ok s' val ∧
        Agrees false [.w8 0 7] (.r32 0) a a' r s s' val := by
  apply asanRam_refines_ram
  intro op member
  rcases List.mem_cons.mp member with rfl | member
  · decide
  · cases List.mem_singleton.mp member
    decide

end Clicky
