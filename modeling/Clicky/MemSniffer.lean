import Clicky.Accesses
import Clicky.FatalAccess
import Clicky.Ram

/-! A memory that is watched: the accesses to some addresses are told to a listener. -/
namespace Clicky
open Runs Outcome

/-- `log` is what `on_access` has been called with. -/
structure MemSniffer (M : Type) where
  mem : M
  addrs : List U32
  log : List MemAccess := []

namespace MemSniffer

variable {M α : Type}

def onAccess (s : MemSniffer M) (access : MemAccess) : MemSniffer M :=
  { s with log := s.log ++ [access] }

/-- An exception of the inner memory is passed on at once. -/
def sniff (s : MemSniffer M) (addr : U32) (toMemaccess : α → MemAccess) (o : Access M α) :
    Access (MemSniffer M) α :=
  (o.zoom fun mem => { s with mem }).bind fun s ret =>
    .ok (if addr ∈ s.addrs then s.onAccess (toMemaccess ret) else s) ret

instance [Memory M] : Memory (MemSniffer M) where
  r8 s addr := s.sniff addr (fun ret => ⟨.read, addr, .u8 ret⟩) (Memory.r8 s.mem addr)
  r16 s addr := s.sniff addr (fun ret => ⟨.read, addr, .u16 ret⟩) (Memory.r16 s.mem addr)
  r32 s addr := s.sniff addr (fun ret => ⟨.read, addr, .u32 ret⟩) (Memory.r32 s.mem addr)
  w8 s addr val := s.sniff addr (fun _ => ⟨.write, addr, .u8 val⟩) (Memory.w8 s.mem addr val)
  w16 s addr val := s.sniff addr (fun _ => ⟨.write, addr, .u16 val⟩) (Memory.w16 s.mem addr val)
  w32 s addr val := s.sniff addr (fun _ => ⟨.write, addr, .u32 val⟩) (Memory.w32 s.mem addr val)
  x16 s addr := s.sniff addr (fun ret => ⟨.execute, addr, .u16 ret⟩) (Memory.x16 s.mem addr)
  x32 s addr := s.sniff addr (fun ret => ⟨.execute, addr, .u32 ret⟩) (Memory.x32 s.mem addr)

end MemSniffer

namespace GuestAccess

variable {M : Type} [Memory M]

def addr : GuestAccess → U32
  | .r8 addr | .r16 addr | .r32 addr | .x16 addr | .x32 addr => addr
  | .w8 addr _ | .w16 addr _ | .w32 addr _ => addr

def kind : GuestAccess → MemAccessKind
  | .r8 _ | .r16 _ | .r32 _ => .read
  | .w8 _ _ | .w16 _ _ | .w32 _ _ => .write
  | .x16 _ | .x32 _ => .execute

/-- What the memory answers, with the value that is read or written. -/
def answer (m : M) : GuestAccess → Access M MemAccess
  | .r8 addr => (Memory.r8 m addr).map fun ret => ⟨.read, addr, .u8 ret⟩
  | .r16 addr => (Memory.r16 m addr).map fun ret => ⟨.read, addr, .u16 ret⟩
  | .r32 addr => (Memory.r32 m addr).map fun ret => ⟨.read, addr, .u32 ret⟩
  | .w8 addr val => (Memory.w8 m addr val).map fun _ => ⟨.write, addr, .u8 val⟩
  | .w16 addr val => (Memory.w16 m addr val).map fun _ => ⟨.write, addr, .u16 val⟩
  | .w32 addr val => (Memory.w32 m addr val).map fun _ => ⟨.write, addr, .u32 val⟩
  | .x16 addr => (Memory.x16 m addr).map fun ret => ⟨.execute, addr, .u16 ret⟩
  | .x32 addr => (Memory.x32 m addr).map fun ret => ⟨.execute, addr, .u32 ret⟩

end GuestAccess

/-- The access has happened all the same: a read has its value, a write is done. -/
def MemException.completes (kind : MemAccessKind) : MemException → Bool
  | .stubRead _ _ => kind != .write
  | .stubWrite _ => kind == .write
  | .contractViolation _ _ stubVal => stubVal.isSome
  | _ => false

namespace MemSniffer

variable {M : Type} [Memory M]

/-- What the listener is told of an access. -/
def told (addrs : List U32) (s : MemoryAdapter M) (a : GuestAccess) : List MemAccess :=
  if a.addr ∈ addrs then
    match a.answer s.mem with
    | .ok _ access => [access]
    | _ => []
  else []

/-- The access, if it is to a watched address and takes effect for the core. -/
def effective (addrs : List U32) (s : MemoryAdapter M) (a : GuestAccess) : List MemAccess :=
  if a.addr ∈ addrs then
    match a.answer s.mem with
    | .ok _ access => [access]
    | .raise _ e => if e.completes a.kind then [MemoryAdapter.noted e a] else []
    | .panic _ => []
  else []

/-- The access is to a watched address and answered with an exception that completes it. -/
def Missed (addrs : List U32) (s : MemoryAdapter M) (a : GuestAccess) : Prop :=
  a.addr ∈ addrs ∧ ∃ mem e, a.answer s.mem = .raise mem e ∧ e.completes a.kind = true

end MemSniffer

namespace MemoryAdapter

variable {M : Type} {w : Nat}

/-- What an answer leaves: the last exception is kept, with the access as the core sees it. -/
def settle (s : MemoryAdapter M) (stashed : MemException → MemAccess) (o : Access M MemAccess) :
    Outcome Empty (MemoryAdapter M) Unit :=
  match o with
  | .ok mem _ => .ok { s with mem } ()
  | .raise mem e => .ok { mem, exception := some (stashed e, e) } ()
  | .panic m => .panic m

theorem read_settle (addr : U32) (kind : MemAccessKind) (toMemaccess : BitVec w → MemAccessVal)
    (o : Access M (BitVec w)) (s : MemoryAdapter M) :
    (read addr kind toMemaccess o s).map (fun _ => ()) =
      s.settle (fun e => ⟨kind, addr, toMemaccess (e.stub.setWidth w)⟩)
        (o.map fun ret => ⟨kind, addr, toMemaccess ret⟩) := by
  rcases o with ⟨mem, e | ret⟩ | m <;> rfl

theorem write_settle (addr : U32) (val : MemAccessVal) (o : Access M Unit) (s : MemoryAdapter M) :
    write addr val o s =
      s.settle (fun _ => ⟨.write, addr, val⟩) (o.map fun _ => ⟨.write, addr, val⟩) := by
  rcases o with ⟨mem, e | _⟩ | m <;> rfl

variable [Memory M]

theorem perform_settle (s : MemoryAdapter M) (a : GuestAccess) :
    s.perform a = s.settle (fun e => noted e a) (a.answer s.mem) := by
  cases a with
  | r8 addr | r16 addr | r32 addr | x16 addr | x32 addr => exact read_settle ..
  | w8 addr val | w16 addr val | w32 addr val => exact write_settle ..

end MemoryAdapter

namespace MemSniffer

variable {M : Type} [Memory M]

omit [Memory M] in
theorem sniff_map {α : Type} (s : MemSniffer M) (addr : U32) (toMemaccess : α → MemAccess)
    (o : Access M α) : (s.sniff addr toMemaccess o).map toMemaccess =
      s.sniff addr id (o.map toMemaccess) := by
  rcases o with ⟨mem, e | ret⟩ | m <;> rfl

/-- The watched memory answers as the inner one does. -/
theorem answer_eq (s : MemSniffer M) (a : GuestAccess) :
    a.answer s = s.sniff a.addr id (a.answer s.mem) := by
  cases a <;> exact sniff_map ..

/-- A core on the watched memory, given one on the memory alone. -/
def watched (addrs : List U32) (log : List MemAccess) (s : MemoryAdapter M) :
    MemoryAdapter (MemSniffer M) :=
  { mem := { mem := s.mem, addrs, log }, exception := s.exception }

theorem perform_watched (addrs : List U32) (log : List MemAccess) (s : MemoryAdapter M)
    (a : GuestAccess) : (watched addrs log s).perform a =
      (s.perform a).zoom (watched addrs (log ++ told addrs s a)) := by
  rw [MemoryAdapter.perform_settle, MemoryAdapter.perform_settle, answer_eq, told]
  unfold watched sniff
  dsimp only
  rcases a.answer s.mem with ⟨mem, e | access⟩ | m
  · split <;> simp [MemoryAdapter.settle]
  · by_cases inside : a.addr ∈ addrs <;> simp [MemoryAdapter.settle, onAccess, inside]
  · rfl

/-- Watching changes nothing for the cores, and the listener is told as the accesses go. -/
theorem performAll_watched (addrs : List U32) (log : List MemAccess) (s : MemoryAdapter M)
    (as : List GuestAccess) : (watched addrs log s).performAll as =
      (s.performAll as).zoom
        (watched addrs (log ++ collect MemoryAdapter.accessStep (told addrs) s as)) := by
  induction as generalizing s log with
  | nil => simp [MemoryAdapter.performAll, collect]
  | cons a as ih =>
    rw [MemoryAdapter.performAll, MemoryAdapter.performAll, perform_watched, collect,
      MemoryAdapter.accessStep]
    rcases s.perform a with ⟨s', e | u⟩ | m
    · exact e.elim
    · simp only [zoom_done, bind_ok, ih, List.append_assoc, state?_done, Option.elim]
    · rfl

theorem length_told_le (addrs : List U32) (s : MemoryAdapter M) (a : GuestAccess) :
    (told addrs s a).length ≤ (effective addrs s a).length := by
  unfold told effective
  split
  · rcases a.answer s.mem with ⟨mem, e | access⟩ | m
    · exact Nat.zero_le _
    · exact Nat.le_refl _
    · exact Nat.le_refl _
  · exact Nat.le_refl _

theorem told_eq_iff (addrs : List U32) (s : MemoryAdapter M) (a : GuestAccess) :
    told addrs s a = effective addrs s a ↔ ¬ Missed addrs s a := by
  unfold told effective Missed
  by_cases inside : a.addr ∈ addrs
  · rw [if_pos inside, if_pos inside]
    rcases a.answer s.mem with ⟨mem, e | access⟩ | m
    · cases completes : e.completes a.kind <;> simp [inside, completes]
    · simp
    · simp
  · simp [inside]

/-- The listener is told of exactly the watched accesses that take effect, in order, if and only
if none of them is answered with an exception that completes it. -/
theorem log_eq_effective_iff (addrs : List U32) (mem : M) (as : List GuestAccess)
    (s : MemoryAdapter (MemSniffer M))
    (returned : MemoryAdapter.performAll { mem := { mem, addrs } } as = .ok s ()) :
    s.mem.log = collect MemoryAdapter.accessStep (effective addrs) { mem } as ↔
      BeforeEach MemoryAdapter.accessStep (fun s a => ¬ Missed addrs s a) { mem } as := by
  have start : watched addrs [] { mem } = { mem := { mem, addrs } } := rfl
  rw [← start, performAll_watched] at returned
  obtain ⟨s', _, rfl⟩ := zoom_eq_done.mp returned
  have log : (watched addrs ([] ++ collect MemoryAdapter.accessStep (told addrs) { mem } as) s').mem.log =
      collect MemoryAdapter.accessStep (told addrs) { mem } as := rfl
  rw [log, collect_eq_iff (length_told_le addrs)]
  exact beforeEach_iff (I := fun _ => True) (fun _ _ _ _ _ => trivial)
    (fun s a _ => told_eq_iff addrs s a) as trivial

theorem plain_read_told :
    ∃ s : MemoryAdapter (MemSniffer (Ram 4)),
      MemoryAdapter.performAll { mem := { mem := Ram.new 4, addrs := [0] } } [.r8 0] = .ok s () ∧
        (s.mem.log = collect MemoryAdapter.accessStep (effective [0]) { mem := Ram.new 4 } [.r8 0] ↔
          BeforeEach MemoryAdapter.accessStep (fun s a => ¬ Missed [0] s a) { mem := Ram.new 4 }
            [.r8 0]) :=
  ⟨_, rfl, log_eq_effective_iff [0] (Ram.new 4) [.r8 0] _ rfl⟩

/-- The first read of a byte that was never written warns, gives the byte and is not told of. -/
theorem uninitialized_read_untold :
    ∃ s : MemoryAdapter (MemSniffer AsanRam),
      MemoryAdapter.performAll { mem := { mem := AsanRam.new 4 true, addrs := [0] } } [.r8 0] =
          .ok s () ∧
        s.mem.log ≠ collect MemoryAdapter.accessStep (effective [0]) { mem := AsanRam.new 4 true }
          [.r8 0] :=
  ⟨_, rfl, by decide⟩

end MemSniffer

end Clicky
