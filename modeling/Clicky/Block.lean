import Clicky.Lib.Extent
import Clicky.Memory

/-! Block devices, with the read and write loops of the async I/O extension traits. -/
namespace Clicky

/-- An `io::Error`, by what it displays. -/
structure IoError where
  message : String
  deriving DecidableEq, Repr

def IoError.unexpectedEof : IoError := ⟨"unexpected end of file"⟩
def IoError.writeZero : IoError := ⟨"write zero"⟩

/-- `impl From<std::io::Error> for MemException`. -/
def MemException.ofIo (e : IoError) : MemException := .fatal ("I/O Error: " ++ e.message)

/-- `seek` is to a position from the start, the only kind the devices use. A device may fail
whenever it wants, and may move fewer bytes than it was asked for. -/
class BlockDev (β : Type) where
  len : β → Nat
  seek : β → Nat → β × Except IoError Nat
  read : β → Nat → β × Except IoError (List U8)
  write : β → List U8 → β × Except IoError Nat
  read_fits : ∀ b n bytes, (read b n).2 = .ok bytes → bytes.length ≤ n
  write_fits : ∀ b bytes n, (write b bytes).2 = .ok n → n ≤ bytes.length

namespace BlockDev

variable {β : Type} [BlockDev β]

/-- The loop of `read_exact`: the bytes that arrived, and how it ended. Every round but the
last brings a byte, so `fuel` is enough when it is the number of bytes asked for. -/
def readLoop : Nat → β → Nat → β × List U8 × Except IoError Unit
  | _, b, 0 => (b, [], .ok ())
  | 0, b, _ + 1 => (b, [], .error .unexpectedEof)
  | fuel + 1, b, n + 1 =>
    match read b (n + 1) with
    | (b, .error e) => (b, [], .error e)
    | (b, .ok []) => (b, [], .error .unexpectedEof)
    | (b, .ok (byte :: more)) =>
      let rest := readLoop fuel b (n - more.length)
      (rest.1, byte :: more ++ rest.2.1, rest.2.2)

def readExact (b : β) (n : Nat) : β × List U8 × Except IoError Unit := readLoop n b n

def writeLoop : Nat → β → List U8 → β × Except IoError Unit
  | _, b, [] => (b, .ok ())
  | 0, b, _ :: _ => (b, .error .writeZero)
  | fuel + 1, b, byte :: bytes =>
    match write b (byte :: bytes) with
    | (b, .error e) => (b, .error e)
    | (b, .ok 0) => (b, .error .writeZero)
    | (b, .ok (n + 1)) => writeLoop fuel b (bytes.drop n)

def writeAll (b : β) (bytes : List U8) : β × Except IoError Unit :=
  writeLoop bytes.length b bytes

end BlockDev

/-- The memory-backed block device: a cursor over a buffer of fixed size. -/
structure Mem where
  len : Nat
  data : List U8
  pos : Nat
  sized : len = data.length

namespace Mem

def new (data : List U8) : Mem := { len := data.length, data, pos := 0, sized := rfl }

def seek (m : Mem) (pos : Nat) : Mem × Except IoError Nat := ({ m with pos }, .ok pos)

def read (m : Mem) (n : Nat) : Mem × Except IoError (List U8) :=
  let bytes := m.data.slice (min m.pos m.data.length) n
  ({ m with pos := m.pos + bytes.length }, .ok bytes)

def write (m : Mem) (bytes : List U8) : Mem × Except IoError Nat :=
  let start := min m.pos m.data.length
  let amt := min bytes.length (m.data.length - start)
  ({ m with
      data := m.data.overwrite start bytes
      pos := m.pos + amt
      sized := m.sized.trans (List.length_overwrite ..).symm }, .ok amt)

instance : BlockDev Mem where
  len := Mem.len
  seek := Mem.seek
  read := Mem.read
  write := Mem.write
  read_fits := by
    intro b n bytes done
    cases done
    simp only [List.slice, List.length_take]
    exact Nat.min_le_left ..
  write_fits := by
    intro b bytes n done
    cases done
    exact Nat.min_le_left ..

theorem readExact_eq {m : Mem} {n : Nat} (inside : m.pos + n ≤ m.data.length) :
    BlockDev.readExact m n = ({ m with pos := m.pos + n }, m.data.slice m.pos n, .ok ()) := by
  have start : min m.pos m.data.length = m.pos := by omega
  have all : (m.data.slice m.pos n).length = n := List.length_slice inside
  cases n with
  | zero => simp [BlockDev.readExact, BlockDev.readLoop]
  | succ n =>
    have once : BlockDev.read m (n + 1) =
        ({ m with pos := m.pos + (n + 1) }, .ok (m.data.slice m.pos (n + 1))) := by
      simp only [BlockDev.read, Mem.read, start, all]
    unfold BlockDev.readExact BlockDev.readLoop
    rw [once]
    cases bytes : m.data.slice m.pos (n + 1) with
    | nil => simp [bytes] at all
    | cons byte more =>
      have rest : n - more.length = 0 := by
        rw [bytes, List.length_cons] at all
        omega
      cases n <;> simp [rest, BlockDev.readLoop]

theorem writeAll_eq {m : Mem} {bytes : List U8} (inside : m.pos + bytes.length ≤ m.data.length) :
    ∃ m', BlockDev.writeAll m bytes = (m', .ok ()) ∧
      m'.data = m.data.overwrite m.pos bytes ∧ m'.pos = m.pos + bytes.length := by
  have start : min m.pos m.data.length = m.pos := by omega
  have amt : min bytes.length (m.data.length - m.pos) = bytes.length := by omega
  cases bytes with
  | nil => exact ⟨m, rfl, by simp, rfl⟩
  | cons byte more =>
    have once : BlockDev.write m (byte :: more) = (Mem.write m (byte :: more)) := rfl
    refine ⟨(Mem.write m (byte :: more)).1, ?_, ?_, ?_⟩
    · unfold BlockDev.writeAll BlockDev.writeLoop
      simp only [List.length_cons, once, Mem.write, start]
      simp only [List.length_cons] at amt
      simp only [amt]
      cases more <;> simp [BlockDev.writeLoop]
    · simp only [Mem.write, start]
    · simp only [Mem.write, start, amt]

end Mem
end Clicky
