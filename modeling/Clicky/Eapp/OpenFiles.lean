import Clicky.Eapp.FileRuns

/-! The open files of a game over whole runs: a handle goes on to mean the file it was given for, and what
is read through it is that file. -/
namespace Clicky
open Runs Routine FileM

variable {imageSize : Nat}

/-! ### The table of open files -/

/-- One more file is open, under the next handle. -/
structure Opened (hostPath : PathString) (s s' : EappState (FileImports imageSize)) : Prop where
  files : s'.rest.asyncOpenFiles =
    Function.update s.rest.asyncOpenFiles s.rest.nextAsyncFileHandle (some hostPath)
  next : s'.rest.nextAsyncFileHandle =
    if s.rest.nextAsyncFileHandle + 1 = 0 then 1 else s.rest.nextAsyncFileHandle + 1

/-- At most one more file is open. -/
def OpensOne (s s' : EappState (FileImports imageSize)) : Prop :=
  TableKept s s' ∨ ∃ hostPath, Opened hostPath s s'

theorem Opened.around {s₁ s₂ s₃ s₄ : EappState (FileImports imageSize)} {hostPath : PathString}
    (before : TableKept s₁ s₂) (opened : Opened hostPath s₂ s₃) (after : TableKept s₃ s₄) :
    Opened hostPath s₁ s₄ := by
  constructor
  · rw [after.files, opened.files, before.files, before.next]
  · rw [after.next, opened.next, before.next]

theorem OpensOne.around {s₁ s₂ s₃ s₄ : EappState (FileImports imageSize)} (before : TableKept s₁ s₂)
    (opens : OpensOne s₂ s₃) (after : TableKept s₃ s₄) : OpensOne s₁ s₄ := by
  obtain kept | ⟨hostPath, opened⟩ := opens
  · exact .inl (IsTrans.trans s₁ s₃ s₄ (IsTrans.trans s₁ s₂ s₃ before kept) after)
  · exact .inr ⟨hostPath, opened.around before after⟩

/-- The handles in use are those from 1 to the last one given, and at most `n` were given. -/
structure Handles (n : Nat) (s : EappState (FileImports imageSize)) : Prop where
  first : 0 < s.rest.nextAsyncFileHandle.toNat
  last : s.rest.nextAsyncFileHandle.toNat ≤ n + 1
  used : ∀ handle hostPath, s.rest.asyncOpenFiles handle = some hostPath →
    0 < handle.toNat ∧ handle.toNat < s.rest.nextAsyncFileHandle.toNat

/-- What is open stays open under its handle. -/
def StaysOpen (s s' : EappState (FileImports imageSize)) : Prop :=
  ∀ handle hostPath, s.rest.asyncOpenFiles handle = some hostPath →
    s'.rest.asyncOpenFiles handle = some hostPath

theorem Handles.unused {n : Nat} {s : EappState (FileImports imageSize)} (handles : Handles n s) :
    s.rest.asyncOpenFiles s.rest.nextAsyncFileHandle = none := by
  cases found : s.rest.asyncOpenFiles s.rest.nextAsyncFileHandle with
  | none => rfl
  | some hostPath => exact absurd (handles.used _ _ found).2 (Nat.lt_irrefl _)

theorem Handles.kept {n : Nat} {s s' : EappState (FileImports imageSize)} (handles : Handles n s)
    (kept : TableKept s s') : Handles n s' := by
  obtain ⟨first, last, used⟩ := handles
  rw [← kept.next] at first last used
  rw [← kept.files] at used
  exact ⟨first, last, used⟩

theorem Handles.opened {n : Nat} {s s' : EappState (FileImports imageSize)} {hostPath : PathString}
    (handles : Handles n s) (opened : Opened hostPath s s') (few : n + 1 < 2 ^ 32 - 1) :
    Handles (n + 1) s' := by
  have last := handles.last
  have succ : (s.rest.nextAsyncFileHandle + 1).toNat = s.rest.nextAsyncFileHandle.toNat + 1 := by
    rw [BitVec.toNat_add]
    exact Nat.mod_eq_of_lt (by change s.rest.nextAsyncFileHandle.toNat + 1 < 2 ^ 32; omega)
  have next : s'.rest.nextAsyncFileHandle = s.rest.nextAsyncFileHandle + 1 := by
    rw [opened.next, if_neg]
    intro wrapped
    rw [wrapped] at succ
    exact absurd succ (Nat.succ_ne_zero _).symm
  rw [← next] at succ
  refine ⟨by omega, by omega, fun handle path found => ?_⟩
  rw [opened.files, Function.update_apply] at found
  split at found
  · rename_i new
    have first := handles.first
    rw [new]
    omega
  · have old := handles.used handle path found
    omega

theorem Handles.stays {n : Nat} {s s' : EappState (FileImports imageSize)} (handles : Handles n s)
    (opens : OpensOne s s') : StaysOpen s s' := by
  intro handle hostPath found
  obtain kept | ⟨_, opened⟩ := opens
  · rw [kept.files]
    exact found
  · rw [opened.files, Function.update_of_ne]
    · exact found
    · rintro rfl
      simp [handles.unused] at found

namespace FileM

/-! ### Which imports open a file -/

theorem admits_table : Admits (@TableKept imageSize) :=
  ⟨fun _ _ quiet => quiet.toTableKept, fun _ _ => respects_modify fun _ => ⟨rfl, rfl⟩⟩

theorem opened_openFile {hostPath : PathString} {s s' : EappState (FileImports imageSize)} {handle : U32}
    (ran : openFile hostPath s = .ok s' handle) :
    handle = s.rest.nextAsyncFileHandle ∧ Opened hostPath s s' := by
  cases ran
  exact ⟨rfl, rfl, rfl⟩

theorem one_openFile (hostPath : PathString) :
    (openFile hostPath : FileM imageSize U32).Respects OpensOne :=
  respects_of_ok fun _ _ _ ran => .inr ⟨hostPath, (opened_openFile ran).2⟩

section imports

variable (env : FileEnv)

theorem one_openPath (path : PathString) (out : U32) :
    (openPath env path out : FileM imageSize U32).Respects OpensOne := by
  refine (admits_table.of_quiet (quiet_resolve env path)).comp (Q := OpensOne) (fun resolved => ?_)
    fun s mid s' kept opens => opens.around kept (Std.Refl.refl s')
  cases resolved with
  | none => exact (Respects.pure (R := TableKept) 8).mono fun _ _ => .inl
  | some hostPath =>
    refine (one_openFile hostPath).comp (Q := TableKept) (fun handle => ?_) fun s mid s' opens kept =>
      opens.around (Std.Refl.refl s) kept
    refine Respects.bind ?_ fun _ => .pure 0
    exact respects_when fun _ => (admits_table.of_quiet (quiet_writeGuestU32 _ _)).bind fun _ => .pure ()

/-- Files are opened by number 12 alone. -/
theorem table_handleAsyncFileIoImport {ordinal : U32} (other : ordinal ≠ 12) (args : GuestArgs) :
    (handleAsyncFileIoImport env ordinal args : FileM imageSize U32).Respects TableKept := by
  refine admits_table.handleAsyncFileIoImport env ordinal args (fun same => absurd same other) ?_
  intro _ path req
  exact admits_table.requestFile env (fun _ => respects_modify fun _ => ⟨rfl, rfl⟩) path req

theorem table_handleFilesystemImport {ordinal : U32} (other : ordinal ≠ 0) (args : GuestArgs) :
    (handleFilesystemImport env ordinal args : FileM imageSize U32).Respects TableKept :=
  admits_table.handleFilesystemImport env ordinal args fun same => absurd same other

theorem handleAsyncFileIoImport_open (args : GuestArgs) :
    (handleAsyncFileIoImport env 12 args : FileM imageSize U32) = findPath args >>= fun found =>
      match found with
      | none => pure 0
      | some path => fillFramebuffer hleInfoFramebuffer >>= fun _ => openPath env path args.r2 := rfl

/-- What comes before the opening of a file. -/
theorem OpensOne.prepare {α β : Type} {part : FileM imageSize α} {next : α → FileM imageSize β}
    (quiet : part.Respects Quiet) (opens : ∀ a, (next a).Respects OpensOne) :
    (part >>= next).Respects OpensOne :=
  quiet.comp opens fun _ _ s' kept opens => opens.around kept.toTableKept (Std.Refl.refl s')

theorem one_handleAsyncFileIoImport (ordinal : U32) (args : GuestArgs) :
    (handleAsyncFileIoImport env ordinal args : FileM imageSize U32).Respects OpensOne := by
  by_cases opens : ordinal = 12
  · rw [opens, handleAsyncFileIoImport_open]
    refine OpensOne.prepare (quiet_findPath args) fun found => ?_
    cases found with
    | none => exact (Respects.pure (R := TableKept) 0).mono fun _ _ => .inl
    | some path => exact OpensOne.prepare (quiet_fillFramebuffer _) fun _ => one_openPath env path _
  · exact (table_handleAsyncFileIoImport env opens args).mono fun _ _ => .inl

theorem one_handleFilesystemImport (ordinal : U32) (args : GuestArgs) :
    (handleFilesystemImport env ordinal args : FileM imageSize U32).Respects OpensOne := by
  have same {β : Type} {b : β} : (pure b : FileM imageSize β).Respects OpensOne :=
    (Respects.pure (R := TableKept) b).mono fun _ _ => .inl
  refine OpensOne.prepare (quiet_find _) fun found => Respects.ite (fun _ => ?_) fun _ => same
  cases found with
  | none => exact same
  | some path =>
    refine OpensOne.prepare (quiet_resolve env path) fun resolved => ?_
    cases resolved with
    | none => exact same
    | some hostPath =>
      refine OpensOne.prepare (respects_look _) fun there => ?_
      refine Respects.comp (Q := TableKept) (Respects.ite (fun _ => ?_) fun _ => same) (fun _ => .pure 1) ?_
      · exact (one_openFile hostPath).comp (Q := TableKept) (fun _ => .pure ()) fun s mid s' opens kept =>
          opens.around (Std.Refl.refl s) kept
      · exact fun s mid s' opens kept => opens.around (Std.Refl.refl s) kept

end imports

end FileM

/-! ### Handles over runs -/

def FileEvent.opens : FileEvent imageSize → Bool
  | .asyncFileIo ordinal _ => ordinal == 12
  | .filesystem ordinal _ => ordinal == 0
  | _ => false

namespace Play

/-- How many events open a file. -/
def opens (es : List (FileEvent imageSize)) : Nat := es.countP FileEvent.opens

theorem table_fileStep {env : FileEnv} {p p' : Play (FileImports imageSize)} {e : FileEvent imageSize}
    (stepped : p.fileStep env e = some p') : OpensOne p.eapp.state p'.eapp.state ∧
      (e.opens = false → TableKept p.eapp.state p'.eapp.state) := by
  cases e with
  | returned task cpu nextAlloc =>
    have rest := (dispatches_returned stepped).1.rest
    have kept : TableKept p.eapp.state p'.eapp.state := ⟨by rw [rest], by rw [rest]⟩
    exact ⟨.inl kept, fun _ => kept⟩
  | asyncFileIo ordinal args =>
    obtain ⟨s, ret, ran, rfl⟩ := imports_eq_some.mp stepped
    refine ⟨(one_handleAsyncFileIoImport env ordinal args).of_ok ran, fun other => ?_⟩
    exact (table_handleAsyncFileIoImport env (by simpa [FileEvent.opens] using other) args).of_ok ran
  | filesystem ordinal args =>
    obtain ⟨s, ret, ran, rfl⟩ := imports_eq_some.mp stepped
    refine ⟨(one_handleFilesystemImport env ordinal args).of_ok ran, fun other => ?_⟩
    exact (table_handleFilesystemImport env (by simpa [FileEvent.opens] using other) args).of_ok ran
  | others bus fs =>
    cases stepped
    exact ⟨.inl ⟨rfl, rfl⟩, fun _ => ⟨rfl, rfl⟩⟩

theorem handles_start (entryAddr auxAddr : U32) (vortex : Bool) (bus : EappBus imageSize)
    (fs : FileSystem) (renderState : List U32) :
    Handles 0 (start entryAddr auxAddr vortex (FileImports.new bus fs renderState)).eapp.state :=
  ⟨Nat.one_pos, Nat.le_refl 1, fun _ _ found => nomatch found⟩

/-- A step that opens a file uses up one handle. -/
theorem handles_fileStep {env : FileEnv} {p p' : Play (FileImports imageSize)} {e : FileEvent imageSize}
    {n : Nat} (handles : Handles n p.eapp.state) (few : n + (if e.opens then 1 else 0) < 2 ^ 32 - 1)
    (stepped : p.fileStep env e = some p') :
    Handles (n + if e.opens then 1 else 0) p'.eapp.state := by
  obtain ⟨opens, kept⟩ := table_fileStep stepped
  cases kind : e.opens with
  | false => simpa using handles.kept (kept kind)
  | true =>
    simp only [kind, if_true] at few ⊢
    obtain kept | ⟨_, opened⟩ := opens
    · have same := handles.kept kept
      exact ⟨same.first, same.last.trans (by omega), same.used⟩
    · exact handles.opened opened few

theorem handles_run {env : FileEnv} {p p' : Play (FileImports imageSize)} {es : List (FileEvent imageSize)}
    {n : Nat} (handles : Handles n p.eapp.state) (few : n + opens es < 2 ^ 32 - 1)
    (ran : run (fileStep env) p es = some p') :
    Handles (n + opens es) p'.eapp.state ∧ StaysOpen p.eapp.state p'.eapp.state := by
  induction es generalizing p n with
  | nil =>
    cases ran
    exact ⟨handles, fun _ _ found => found⟩
  | cons e es ih =>
    obtain ⟨mid, stepped, rest⟩ := Option.bind_eq_some_iff.mp ran
    have counted : n + opens (e :: es) = n + (if e.opens then 1 else 0) + opens es := by
      simp only [opens, List.countP_cons]
      omega
    rw [counted] at few ⊢
    obtain ⟨handles', later⟩ := ih (handles_fileStep handles (by omega) stepped) few rest
    exact ⟨handles', fun handle path found =>
      later handle path (handles.stays (table_fileStep stepped).1 handle path found)⟩

end Play

/-! ### What is read -/

namespace EappBus

/-- The bytes are in a region from an address on, and all else in the regions is as it was. -/
structure Stored (b b' : EappBus imageSize) (r : RamRegion) (addr : U32) (bytes : List U8) : Prop where
  here : b'.bytes r = (b.bytes r).overwrite (addr.toNat - r.base) bytes
  elsewhere : ∀ r', r' ≠ r → b'.bytes r' = b.bytes r'

theorem Stored.append {b b₁ b₂ : EappBus imageSize} {r : RamRegion} {addr : U32} {val : U8} {vals : List U8}
    (first : b.Stored b₁ r addr [val]) (rest : b₁.Stored b₂ r (addr + 1) vals) (above : r.base ≤ addr.toNat)
    (succ : (addr + 1).toNat = addr.toNat + 1) : b.Stored b₂ r addr (val :: vals) := by
  constructor
  · have later := List.overwrite_overwrite (b.bytes r) [val] vals (addr.toNat - r.base)
    rw [rest.here, first.here, succ, Nat.succ_sub above]
    exact later
  · intro r' other
    rw [rest.elsewhere r' other, first.elsewhere r' other]

theorem write_region {b : EappBus imageSize} {r : RamRegion} {width : Width} {addr : U32}
    (val : BitVec width.bits) (inside : b.Inside r addr width.bytes)
    (counts : r = .framebuf → ¬ b.Overrun width (addr - hwStubBase - 0x20000)) :
    ∃ b', b.write width addr val = .ok b' () ∧ b.Stored b' r addr (val.toLeBytes width.bytes) := by
  obtain ⟨log, stored⟩ := b.write_eq_store width addr val
  obtain ⟨b', done, here, elsewhere⟩ := store_region (b := { b with watchLog := log }) val inside counts
  simp only [bytes_watchLog] at here elsewhere
  exact ⟨b', stored.trans done, here, elsewhere⟩

/-- A word for which there is room is written, if the write comes to an end. -/
theorem writeGuestU32_region {b b' : EappBus imageSize} {r : RamRegion} {addr val : U32} {written : Bool}
    (ran : b.writeGuestU32 addr val = .ok b' written) (inside : b.Inside r addr 4) :
    b.Stored b' r addr (val.toLeBytes 4) := by
  rw [writeGuestU32, w32] at ran
  by_cases beyond : b.Overruns (.write .word addr val)
  · obtain ⟨log, stored⟩ := b.write_eq_store .word addr val
    rw [stored, store_overruns (b := { b with watchLog := log }) beyond] at ran
    cases ran
  · have whole : b.Inside r addr Width.word.bytes := inside
    obtain ⟨_, done, stored⟩ := write_region val whole fun same counts => beyond ⟨same ▸ whole, counts⟩
    rw [done] at ran
    cases ran
    exact stored

/-- Bytes for which there is room are all written. -/
theorem writeGuestBytes_region {b : EappBus imageSize} {r : RamRegion} {addr : U32} {bytes : List U8}
    (inside : b.Inside r addr bytes.length) (below : addr.toNat + bytes.length ≤ 2 ^ 32) :
    ∃ b', b.writeGuestBytes addr bytes = .ok b' true ∧ b.Stored b' r addr bytes := by
  induction bytes generalizing b addr with
  | nil => exact ⟨b, rfl, (List.overwrite_nil ..).symm, fun _ _ => rfl⟩
  | cons val vals ih =>
    rw [List.length_cons] at inside below
    have one : b.Inside r addr Width.byte.bytes :=
      ⟨inside.1, Nat.le_trans (Nat.add_le_add_left (Nat.le_add_left 1 _) _) inside.2⟩
    obtain ⟨b₁, done, first⟩ := write_region val one fun _ beyond => nomatch beyond.1
    rw [writeGuestBytes, w8, done]
    cases vals with
    | nil => exact ⟨b₁, rfl, first⟩
    | cons next vals =>
      rw [List.length_cons] at inside below ih
      have succ : (addr + 1).toNat = addr.toNat + 1 := by
        rw [BitVec.toNat_add]
        exact Nat.mod_eq_of_lt (by change addr.toNat + 1 < 2 ^ 32; omega)
      have above := inside.1
      have room := inside.2
      have rest : b₁.Inside r (addr + 1) (vals.length + 1) := by
        refine ⟨by omega, ?_⟩
        change (addr + 1).toNat + (vals.length + 1) ≤ r.base + b.regionLen r
        omega
      obtain ⟨b₂, written, later⟩ := ih rest (by omega)
      exact ⟨b₂, written, first.append later above succ⟩

end EappBus

namespace FileM

variable {α : Type}

theorem find_eq_ok {x : EappBus imageSize → Attempt String α} {s s' : EappState (FileImports imageSize)}
    {found : Option α} : find x s = .ok s' found ↔ s' = s ∧ (x s.rest.bus).run = .ok found := by
  unfold find
  cases (x s.rest.bus).run <;> simp [eq_comm]

theorem findPath_same {args : GuestArgs} {s s' : EappState (FileImports imageSize)}
    {found : Option PathString} (ran : findPath args s = .ok s' found) : s' = s := by
  obtain ⟨mid, first, looked, rest⟩ := bind_eq_ok.mp ran
  obtain ⟨rfl, _⟩ := find_eq_ok.mp looked
  cases first with
  | none => exact (find_eq_ok.mp rest).1
  | some path =>
    cases rest
    rfl

section ordinals

variable (env : FileEnv)

/-- A file that is opened has the next handle, which the game is told. -/
theorem openPath_ok {path : PathString} {out : U32} {s s' : EappState (FileImports imageSize)}
    (ran : openPath env path out s = .ok s' 0) : ∃ hostPath fs,
      env.bundle.resolveOrCreateHostPath env.host s.rest.fs path = some (hostPath, fs) ∧
      Opened hostPath s s' ∧ ∀ r, s.rest.bus.Inside r out 4 →
        s.rest.bus.Stored s'.rest.bus r out (s.rest.nextAsyncFileHandle.toLeBytes 4) := by
  obtain ⟨mid, resolved, found, ran⟩ := bind_eq_ok.mp ran
  unfold resolveOrCreateHostPath at found
  split at found
  · rename_i hostPath fs created
    cases found
    refine ⟨hostPath, fs, created, ?_⟩
    have named : TableKept s { s with rest := { s.rest with fs } } := ⟨rfl, rfl⟩
    obtain ⟨mid, handle, entered, ran⟩ := bind_eq_ok.mp ran
    obtain ⟨rfl, opened⟩ := opened_openFile entered
    obtain ⟨last, _, told, ran⟩ := bind_eq_ok.mp ran
    cases ran
    have quiet : Quiet mid s' := Respects.of_ok (respects_when fun _ =>
      (quiet_writeGuestU32 _ _).bind fun _ => .pure ()) told
    refine ⟨opened.around named quiet.toTableKept, fun r inside => ?_⟩
    have nonnull : out ≠ 0 := by
      rintro rfl
      exact absurd (Nat.le_zero.mp inside.1) (by cases r <;> decide)
    cases entered
    rw [when, if_pos nonnull] at told
    obtain ⟨_, written, stored, told⟩ := bind_eq_ok.mp told
    cases told
    obtain ⟨bus, ended, rfl⟩ := Outcome.zoom_eq_done.mp stored
    exact EappBus.writeGuestU32_region ended inside
  · cases found
    cases ran

theorem take_min_append (bytes : List U8) (len : Nat) :
    bytes.take (min bytes.length len) ++ List.replicate (len - min bytes.length len) 0 =
      bytes.take len ++ List.replicate (len - bytes.length) 0 := by
  obtain short | long := Nat.le_total bytes.length len
  · simp [short, List.take_of_length_le]
  · simp [long]

/-- What is read is the file, with zeros after its end. -/
theorem readOpenFile_ok {handle buffer len : U32} {hostPath : PathString} {r : RamRegion}
    {s : EappState (FileImports imageSize)} (known : s.rest.asyncOpenFiles handle = some hostPath)
    (valid : handle ≠ 0xffffffff) (inside : s.rest.bus.Inside r buffer len.toNat)
    (below : buffer.toNat + len.toNat ≤ 2 ^ 32) {file : List U8}
    (holds : (env.read s.rest.fs hostPath).getD [] = file) : ∃ bus,
      readOpenFile env handle buffer len s = .ok { s with rest := { s.rest with bus } }
        (BitVec.ofNat 32 (min file.length len.toNat)) ∧
      s.rest.bus.Stored bus r buffer
        (file.take len.toNat ++ List.replicate (len.toNat - file.length) 0) := by
  have nonnull : buffer ≠ 0 := by
    rintro rfl
    exact absurd (Nat.le_zero.mp inside.1) (by cases r <;> decide)
  have size : (file.take len.toNat ++ List.replicate (len.toNat - file.length) (0 : U8)).length =
      len.toNat := by
    simp only [List.length_append, List.length_take, List.length_replicate]
    omega
  rw [← size] at inside below
  obtain ⟨bus, written, stored⟩ := EappBus.writeGuestBytes_region inside below
  refine ⟨bus, ?_, stored⟩
  have refused : ¬ (handle = 0xffffffff ∨ buffer = 0) := fun either => either.elim valid nonnull
  rw [readOpenFile, if_neg refused, bind_run, look_run, Outcome.bind, known]
  simp only [bind_run, look_run, Outcome.bind, holds, take_min_append, writeGuestBytes, onBus,
    Routine.focus, written, Outcome.zoom]
  rfl

end ordinals

end FileM

namespace Play

/-- Through the handle that it was given, a file is read at any later time, whatever other files the game
opens and whatever else it does meanwhile. The table has room for all handles but two. -/
theorem opened_reads (env : FileEnv) (entryAddr auxAddr : U32) (vortex : Bool) (bus : EappBus imageSize)
    (fs : FileSystem) (renderState : List U32) {es es' : List (FileEvent imageSize)}
    {p p' : Play (FileImports imageSize)} {s : EappState (FileImports imageSize)} {args : GuestArgs}
    {path : PathString} {buffer len r3 : U32} {r : RamRegion}
    (reached : run (fileStep env) (start entryAddr auxAddr vortex (FileImports.new bus fs renderState)) es =
      some p)
    (named : findPath args p.eapp.state = .ok p.eapp.state (some path))
    (opened : handleAsyncFileIoImport env 12 args p.eapp.state = .ok s 0)
    (later : run (fileStep env) (p.afterImport s) es' = some p')
    (few : opens es + 1 + opens es' < 2 ^ 32 - 1)
    (inside : p'.eapp.state.rest.bus.Inside r buffer len.toNat)
    (below : buffer.toNat + len.toNat ≤ 2 ^ 32) :
    (∀ r', p.eapp.state.rest.bus.Inside r' args.r2 4 → p.eapp.state.rest.bus.Stored s.rest.bus r' args.r2
      (p.eapp.state.rest.nextAsyncFileHandle.toLeBytes 4)) ∧
    ∃ hostPath created, env.bundle.resolveOrCreateHostPath env.host p.eapp.state.rest.fs path =
        some (hostPath, created) ∧
      ∀ file, (env.read p'.eapp.state.rest.fs hostPath).getD [] = file → ∃ bus,
        handleAsyncFileIoImport env 14
            { r0 := p.eapp.state.rest.nextAsyncFileHandle, r1 := buffer, r2 := len, r3 } p'.eapp.state =
          .ok { p'.eapp.state with rest := { p'.eapp.state.rest with bus } }
            (BitVec.ofNat 32 (min file.length len.toNat)) ∧
        p'.eapp.state.rest.bus.Stored bus r buffer
          (file.take len.toNat ++ List.replicate (len.toNat - file.length) 0) := by
  have initial := handles_start entryAddr auxAddr vortex bus fs renderState
  obtain ⟨handles, _⟩ := handles_run initial (by omega) reached
  rw [handleAsyncFileIoImport_open] at opened
  obtain ⟨mid, found, looked, opened⟩ := bind_eq_ok.mp opened
  rw [named] at looked
  cases looked
  obtain ⟨shown, _, filled, opened⟩ := bind_eq_ok.mp opened
  cases filled
  obtain ⟨hostPath, created, resolved, entered, told⟩ := openPath_ok env opened
  refine ⟨told, hostPath, created, resolved, fun file holds => ?_⟩
  have after : Opened hostPath p.eapp.state s := ⟨entered.files, entered.next⟩
  have known : s.rest.asyncOpenFiles p.eapp.state.rest.nextAsyncFileHandle = some hostPath := by
    rw [after.files, Function.update_self]
  obtain ⟨_, stays⟩ := handles_run (p := p.afterImport s) (handles.opened after (by omega)) (by omega) later
  refine readOpenFile_ok env (stays _ _ known) (fun top => ?_) inside below holds
  have last := handles.last
  rw [top] at last
  change 2 ^ 32 - 1 ≤ 0 + opens es + 1 at last
  omega

def opensManifest : GuestArgs := { requestArgs with r2 := 0 }

/-- The file is opened three times. Through the second handle come its bytes, with zeros, in place of its
name. -/
theorem opened_reads_one : ∃ p s p' bus,
    run (fileStep requestEnv) requestPlay [.asyncFileIo 12 opensManifest] = some p ∧
    handleAsyncFileIoImport requestEnv 12 opensManifest p.eapp.state = .ok s 0 ∧
    run (fileStep requestEnv) (p.afterImport s) [.asyncFileIo 12 opensManifest] = some p' ∧
    handleAsyncFileIoImport requestEnv 14 { r0 := 2, r1 := 0x18000000, r2 := 5, r3 := 0 }
        p'.eapp.state =
      .ok { p'.eapp.state with rest := { p'.eapp.state.rest with bus } } 3 ∧
    (bus.bytes .image).slice 0 6 = [1, 2, 3, 0, 0, 0x65] := by
  obtain ⟨p, s, p', reached, named, opened, later, second, there⟩ : ∃ p s p',
      run (fileStep requestEnv) requestPlay [.asyncFileIo 12 opensManifest] = some p ∧
      findPath opensManifest p.eapp.state = .ok p.eapp.state (some "Manifest.plist".toList) ∧
      handleAsyncFileIoImport requestEnv 12 opensManifest p.eapp.state = .ok s 0 ∧
      run (fileStep requestEnv) (p.afterImport s) [.asyncFileIo 12 opensManifest] = some p' ∧
      p.eapp.state.rest.nextAsyncFileHandle = 2 ∧
      p'.eapp.state.rest.bus.bytes .image = requestImage.mem :=
    ⟨_, _, _, rfl, rfl, rfl, rfl, rfl, rfl⟩
  have inside : p'.eapp.state.rest.bus.Inside .image 0x18000000 (5 : U32).toNat :=
    ⟨by decide, show 0x18000005 ≤ 0x18000050 by decide⟩
  obtain ⟨_, hostPath, created, resolved, reads⟩ := opened_reads requestEnv 0 0 false (.start requestImage)
    Bundle.hostFiles [] reached named opened later (by decide) inside (by decide)
  obtain ⟨bus, ran, stored⟩ := reads [1, 2, 3] rfl
  rw [second] at ran
  refine ⟨p, s, p', bus, reached, opened, later, ran, ?_⟩
  rw [stored.here, there]
  decide +kernel

end Play
end Clicky
