import Clicky.Eapp.FileReplies

/-! Where the file imports write in the memory of a game: only to what the game has named, its buffers and
the words of its objects that are kept for answers. -/
namespace Clicky
open Routine FileM

variable {imageSize : Nat}

namespace EappBus
open Outcome

/-- One of the `len` addresses from `addr` on. They wrap around. -/
def Covers (addr : U32) (len : Nat) (a : U32) : Prop := ∃ i < len, a = addr + BitVec.ofNat 32 i

/-- No byte in the regions has changed but at addresses with `F`. -/
def ChangesOnly (F : U32 → Prop) (b b' : EappBus imageSize) : Prop :=
  ∀ r i, (b'.bytes r)[i]? = (b.bytes r)[i]? ∨ F (BitVec.ofNat 32 (r.base + i))

variable {F : U32 → Prop} {b b' : EappBus imageSize}

instance : IsPreorder (EappBus imageSize) (ChangesOnly F) where
  refl _ _ _ := .inl rfl
  trans _ _ _ first second r i := (second r i).elim (fun same => (first r i).imp_left same.trans) .inr

theorem Covers.mono {addr a : U32} {len len' : Nat} (covers : Covers addr len a) (longer : len ≤ len') :
    Covers addr len' a := by
  obtain ⟨i, inside, same⟩ := covers
  exact ⟨i, by omega, same⟩

/-- The part of a range from one of its addresses on. -/
theorem Covers.shift {addr a : U32} {k len : Nat} (covers : Covers (addr + BitVec.ofNat 32 k) len a) :
    Covers addr (k + len) a := by
  obtain ⟨i, inside, rfl⟩ := covers
  exact ⟨k + i, by omega, by rw [BitVec.ofNat_add, BitVec.add_assoc]⟩

theorem changes_of_bytes (same : ∀ r, b'.bytes r = b.bytes r) : ChangesOnly F b b' :=
  fun r i => .inl (by rw [same])

theorem Stored.changes {r : RamRegion} {addr : U32} {bytes : List U8} (stored : b.Stored b' r addr bytes)
    (above : r.base ≤ addr.toNat) (covered : ∀ a, Covers addr bytes.length a → F a) :
    ChangesOnly F b b' := by
  intro r' i
  by_cases other : r' = r
  · subst other
    rw [stored.here, List.getElem?_overwrite]
    split
    · rename_i inside
      obtain ⟨k, rfl⟩ := Nat.exists_eq_add_of_le inside.1
      refine .inr (covered _ ⟨k, by omega, BitVec.eq_of_toNat_eq ?_⟩)
      simp only [BitVec.toNat_ofNat, BitVec.toNat_add]
      omega
    · exact .inl rfl
  · exact .inl (by rw [stored.elsewhere r' other])

theorem ram_write_done {size : Nat} {s s' : Ram size} {width : Width} {offset : U32}
    {val : BitVec width.bits} {res : Except MemException Unit}
    (done : s.write width offset val = .done s' res) :
    s'.mem = s.mem.overwrite offset.toNat (val.toLeBytes width.bytes) := by
  unfold Ram.write Ram.bulkWrite at done
  split at done <;> cases done
  rfl

theorem framebufWritten_done {width : Width} {fbOff : U32} {res : Except MemException Unit}
    (done : b.framebufWritten width fbOff = .done b' res) (r : RamRegion) : b'.bytes r = b.bytes r := by
  by_cases beyond : b.Overrun width fbOff
  · rw [framebufWritten_overrun beyond] at done
    cases done
  · obtain ⟨_, booked, same⟩ := framebufWritten_fits beyond
    rw [booked] at done
    cases done
    exact same r

/-- A store that comes to an end has written its bytes in a region, or nothing. -/
theorem store_done {width : Width} {offset : U32} {val : BitVec width.bits} {res : Except MemException Unit}
    (done : b.store width offset val = .done b' res) : (∀ r, b'.bytes r = b.bytes r) ∨
      ∃ r, r.base ≤ offset.toNat ∧ b.Stored b' r offset (val.toLeBytes width.bytes) := by
  unfold store at done
  split at done
  · rename_i window
    have above := ((b.image_window offset).mp window).1
    obtain ⟨image, written, rfl⟩ := zoom_eq_done.mp done
    refine .inr ⟨.image, above, ?_, fun r other => ?_⟩
    · rw [bytes_putImage, if_pos rfl, ram_write_done written, image_offset above]
      rfl
    · rw [bytes_putImage, if_neg other]
  · split at done
    · rename_i _ window
      have above := ((workRam_window offset).mp window).1
      obtain ⟨workRam, written, rfl⟩ := zoom_eq_done.mp done
      refine .inr ⟨.workRam, above, ?_, fun r other => ?_⟩
      · rw [bytes_putWorkRam, if_pos rfl, ram_write_done written, workRam_offset above]
        rfl
      · rw [bytes_putWorkRam, if_neg other]
    · split at done
      · rename_i _ _ window
        dsimp only at done
        split at done
        · cases done
          exact .inl fun _ => rfl
        · rename_i beyond
          have above := Nat.not_lt.mp ((registers_iff ((hwStub_window offset).mp window).1).not.mp beyond)
          split at done
          · obtain ⟨_, refused, _⟩ | ⟨mid, _, put, booked⟩ := bind_eq_done done
            · obtain ⟨_, written, _⟩ := zoom_eq_done.mp refused
              unfold Ram.bulkWrite at written
              split at written <;> cases written
            · obtain ⟨framebuf, written, rfl⟩ := zoom_eq_done.mp put
              refine .inr ⟨.framebuf, above, ?_, fun r other => ?_⟩
              · rw [framebufWritten_done booked, bytes_putFramebuf, if_pos rfl, ram_write_done written,
                  framebuf_offset above]
                rfl
              · rw [framebufWritten_done booked, bytes_putFramebuf, if_neg other]
          · cases done
            exact .inl fun _ => rfl
      · cases done
        exact .inl fun _ => rfl

theorem changes_write {width : Width} {addr : U32} {val : BitVec width.bits} {res : Except MemException Unit}
    (done : b.write width addr val = .done b' res) (covered : ∀ a, Covers addr width.bytes a → F a) :
    ChangesOnly F b b' := by
  obtain ⟨log, stored⟩ := b.write_eq_store width addr val
  rw [stored] at done
  have logged : ChangesOnly F b { b with watchLog := log } :=
    changes_of_bytes fun r => bytes_watchLog b log r
  refine IsTrans.trans _ _ _ logged ?_
  obtain same | ⟨r, above, there⟩ := store_done done
  · exact changes_of_bytes same
  · exact there.changes above (by simpa using covered)

theorem changes_succeeds {width : Width} {addr : U32} {val : BitVec width.bits}
    (covered : ∀ a, Covers addr width.bytes a → F a) :
    ((b.write width addr val).succeeds : Outcome Empty (EappBus imageSize) Bool).Leaves
      (ChangesOnly F b) := by
  rw [leaves_succeeds]
  intro b' after
  obtain ⟨res, done⟩ := state?_eq_some.mp after
  exact changes_write done covered

/-- Bytes are written one after the other, until one cannot be. -/
theorem changes_writeGuestBytes {addr : U32} {bytes : List U8}
    (covered : ∀ a, Covers addr bytes.length a → F a) :
    (b.writeGuestBytes addr bytes).Leaves (ChangesOnly F b) := by
  induction bytes generalizing b addr with
  | nil => exact (leaves_done ..).mpr (Std.Refl.refl b)
  | cons val vals ih =>
    have one : ∀ a, Covers addr Width.byte.bytes a → F a := fun a covers =>
      covered a (covers.mono (by simp [Width.bytes]))
    have later : ∀ a, Covers (addr + 1) vals.length a → F a := fun a covers =>
      covered a (by rw [List.length_cons, Nat.add_comm]; exact covers.shift)
    refine (changes_succeeds one).andThen fun mid written first => ?_
    cases written with
    | true => exact (ih later).mono fun b₂ rest => IsTrans.trans b mid b₂ first rest
    | false => exact (leaves_done ..).mpr first

end EappBus

/-- The memory of the game has changed at addresses with `F` alone. -/
def Writes (F : U32 → Prop) (s s' : EappState (FileImports imageSize)) : Prop :=
  s.rest.bus.ChangesOnly F s'.rest.bus

instance (F : U32 → Prop) : IsPreorder (EappState (FileImports imageSize)) (Writes F) where
  refl s := Std.Refl.refl (r := EappBus.ChangesOnly F) s.rest.bus
  trans s mid s' first second := IsTrans.trans s.rest.bus mid.rest.bus s'.rest.bus first second

theorem writes_of_bus {F : U32 → Prop} {s s' : EappState (FileImports imageSize)}
    (same : s'.rest.bus = s.rest.bus) : Writes F s s' := EappBus.changes_of_bytes fun _ => by rw [same]

theorem Logged.writes {F : U32 → Prop} {s s' : EappState (FileImports imageSize)} (logged : Logged s s') :
    Writes F s s' := by
  obtain ⟨_, rfl⟩ := logged
  exact writes_of_bus rfl

namespace FileM
open EappBus

variable {α : Type} {F : U32 → Prop}

theorem writes_onBus {part : Routine (EappBus imageSize) α} (respects : part.Respects (ChangesOnly F)) :
    (onBus part).Respects (Writes F) := by
  intro s
  rw [onBus, Routine.focus, Outcome.leaves_zoom]
  exact respects s.rest.bus

theorem writes_writeGuestU32 {addr : U32} (covered : ∀ a, Covers addr 4 a → F a) (val : U32) :
    (writeGuestU32 addr val : FileM imageSize Bool).Respects (Writes F) := by
  have whole : ∀ a, Covers addr Width.word.bytes a → F a := covered
  exact writes_onBus fun b => changes_succeeds (b := b) whole

theorem writes_writeGuestBytes {addr : U32} {bytes : List U8}
    (covered : ∀ a, Covers addr bytes.length a → F a) :
    (writeGuestBytes addr bytes : FileM imageSize Bool).Respects (Writes F) :=
  writes_onBus fun b => changes_writeGuestBytes (b := b) covered

theorem writes_word (addr : U32) : (word addr : FileM imageSize U32).Respects (Writes F) :=
  (logged_word addr).mono fun _ _ => Logged.writes

theorem writes_words (addrs : List U32) : (words addrs : FileM imageSize Unit).Respects (Writes F) :=
  (logged_words addrs).mono fun _ _ => Logged.writes

theorem writes_resolve (env : FileEnv) (path : PathString) :
    (resolveOrCreateHostPath env path : FileM imageSize _).Respects (Writes F) := by
  refine respects_of_ok fun s s' found ran => ?_
  cases found with
  | none => exact writes_of_bus (resolve_none env ran).bus
  | some hostPath => exact writes_of_bus (resolve_some env ran).1.bus

theorem writes_pushCall (call : PendingGuestCall) :
    (pushCall call : FileM imageSize Unit).Respects (Writes F) :=
  respects_modify fun _ => writes_of_bus rfl

theorem writes_fillFramebuffer (color : U32) :
    (fillFramebuffer color : FileM imageSize Unit).Respects (Writes F) :=
  respects_modify fun _ => writes_of_bus rfl

theorem writes_openFile (hostPath : PathString) :
    (openFile hostPath : FileM imageSize U32).Respects (Writes F) := by
  refine (respects_look _).bind fun handle => Respects.bind ?_ fun _ => .pure handle
  exact respects_modify fun _ => writes_of_bus rfl

theorem writes_findPath (args : GuestArgs) :
    (findPath args : FileM imageSize (Option PathString)).Respects (Writes F) :=
  respects_of_ok fun _ _ _ ran => writes_of_bus (by rw [findPath_same ran])

/-! ### Where each import writes -/

section ordinals

variable (env : FileEnv)

/-- The two words of an answer. -/
theorem writes_answer {addr : U32} (covered : ∀ a, Covers (addr + 0x20) 8 a → F a) (val val' : U32)
    {rest : FileM imageSize α} (respects : rest.Respects (Writes F)) :
    (do
      let _ ← writeGuestU32 (addr + 0x20) val
      let _ ← writeGuestU32 (addr + 0x24) val'
      rest).Respects (Writes F) := by
  refine (writes_writeGuestU32 (fun a covers => covered a (covers.mono (by omega))) _).bind fun _ => ?_
  refine (writes_writeGuestU32 (fun a covers => covered a ?_) _).bind fun _ => respects
  have next : addr + 0x24 = addr + 0x20 + BitVec.ofNat 32 4 := by
    rw [BitVec.add_assoc]
    rfl
  rw [next] at covers
  exact covers.shift

theorem writes_readOpenFile {handle buffer len : U32} (covered : ∀ a, Covers buffer len.toNat a → F a) :
    (readOpenFile env handle buffer len : FileM imageSize U32).Respects (Writes F) := by
  refine Respects.ite (fun _ => .pure 0) fun _ => (respects_look _).bind fun found => ?_
  cases found with
  | none => exact .pure 0
  | some hostPath =>
    refine (respects_look _).bind fun bytes => (writes_writeGuestBytes ?_).bind fun _ => .pure _
    intro a covers
    refine covered a (covers.mono ?_)
    simp only [List.length_append, List.length_take, List.length_replicate]
    omega

theorem writes_completeRequest {owner : U32} (covered : ∀ a, Covers (owner + 0x20) 8 a → F a) :
    (completeRequest env owner : FileM imageSize U32).Respects (Writes F) := by
  refine (writes_word _).bind fun req => (writes_words _).bind fun _ => ?_
  exact (respects_when fun _ => writes_answer covered _ _ (writes_pushCall _)).bind fun _ => .pure 1

theorem writes_completeControl {owner : U32} (covered : F (owner + 0x1c)) :
    (completeControl env owner : FileM imageSize U32).Respects (Writes F) := by
  refine (writes_word _).bind fun pc => (writes_word _).bind fun ctx => ?_
  refine (respects_when fun _ => (writes_writeGuestBytes ?_).bind fun _ => writes_pushCall _).bind
    fun _ => .pure 1
  rintro a ⟨i, inside, rfl⟩
  obtain rfl := Nat.lt_one_iff.mp inside
  simpa using covered

theorem writes_openPath {path : PathString} {out : U32} (covered : ∀ a, Covers out 4 a → F a) :
    (openPath env path out : FileM imageSize U32).Respects (Writes F) := by
  refine (writes_resolve env path).bind fun resolved => ?_
  cases resolved with
  | none => exact .pure 8
  | some hostPath =>
    refine (writes_openFile hostPath).bind fun handle => Respects.bind ?_ fun _ => .pure 0
    exact respects_when fun _ => (writes_writeGuestU32 covered _).bind fun _ => .pure ()

theorem writes_openStream {path : PathString} {owner : U32}
    (covered : ∀ a, Covers (owner + 0x20) 8 a → F a) :
    (openStream env path owner : FileM imageSize U32).Respects (Writes F) := by
  refine (writes_resolve env path).bind fun resolved => ?_
  cases resolved with
  | none => exact .pure 0
  | some hostPath =>
    refine (respects_look _).bind fun bytes => (respects_when fun _ => ?_).bind fun _ => .pure 1
    refine writes_answer covered _ _ ((writes_pushCall _).bind fun _ => ?_)
    exact respects_when fun _ => writes_words _

theorem writes_listFolders {path : PathString} {req : U32}
    (covered : ∀ a, Covers (req + 0x20) 8 a → F a) :
    (listFolders env path req : FileM imageSize U32).Respects (Writes F) := by
  refine Respects.ite (fun _ => .pure 0) fun _ => (writes_word _).bind fun pc => ?_
  refine (writes_word _).bind fun ctx => (writes_resolve env path).bind fun resolved => ?_
  cases resolved with
  | none => exact .pure 0
  | some hostPath =>
    refine (respects_look _).bind fun entries => writes_answer covered _ _ ?_
    exact (respects_when fun _ => writes_pushCall _).bind fun _ => .pure 1

/-- The completion words of a request are written only after its file. -/
theorem writes_deliverFile {hostPath : PathString} {req dest want : U32}
    {s s' : EappState (FileImports imageSize)} (ran : deliverFile env hostPath req dest want s = .ok s' ())
    (answer : ∀ a, Covers (req + 0x20) 8 a → F a)
    (buffer : ∀ file, env.read s.rest.fs hostPath = some file →
      ∀ a, Covers dest (delivers file want) a → F a) : Writes F s s' := by
  rw [deliverFile, look_bind_run] at ran
  cases holds : env.read s.rest.fs hostPath with
  | none =>
    rw [holds] at ran
    cases ran
    exact Std.Refl.refl (r := Writes F) s
  | some file =>
    rw [holds] at ran
    refine Respects.of_ok (Respects.bind ?_ fun delivered => respects_when fun _ => ?_) ran
    · refine Respects.ite (fun _ => writes_writeGuestBytes fun a covers => ?_) fun _ => .pure false
      rw [List.length_take] at covers
      exact buffer file holds a (covers.mono (Nat.min_le_left ..))
    · refine (respects_when fun _ => writes_answer answer _ _ (.pure ())).bind fun _ => ?_
      exact respects_when fun _ => (logged_dumpOwner req).mono fun _ _ => Logged.writes

end ordinals

end FileM

/-! ### All imports -/

section footprint
open EappBus

variable (env : FileEnv) (files : FileImports imageSize) (args : GuestArgs)

/-- The first argument is the path, or else the second one. -/
def Names (b : EappBus imageSize) (path : PathString) : Prop :=
  (b.tryReadCString args.r0 256).Gives path ∨
    (b.tryReadCString args.r0 256).run = .ok none ∧ (b.tryReadCString args.r1 256).Gives path

/-- Where an import may write, by its number: to the buffer of a read, to the words of an object that are
kept for the answer, to the place for a handle, and with a request to the buffer that it names, as many bytes
as its file has. -/
inductive Touches : U32 → U32 → Prop
  | read {a : U32} : Covers args.r1 args.r2.toNat a → Touches 14 a
  | request {a : U32} : Covers (args.r0 + 0x20) 8 a → Touches 1 a
  | control : Touches 2 (args.r0 + 0x1c)
  | handle {a : U32} : Covers args.r2 4 a → Touches 12 a
  | stream {a : U32} : Covers (args.r3 + 0x20) 8 a → Touches 0 a
  | folders {a : U32} : Covers (args.r3 + 0x20) 8 a → Touches 7 a
  | answer {a : U32} : Covers (args.r2 + 0x20) 8 a → Touches 3 a
  | file {path : PathString} {file : List U8} {dest want a : U32} : Names args files.bus path →
      Play.Wants env files path args.r2 file dest →
      (files.bus.readGuestU32OrZero (args.r2 + 0x18)).Gives want → Covers dest (delivers file want) a →
      Touches 3 a

end footprint

namespace FileM

variable (env : FileEnv)

theorem writes_requestFile {path : PathString} {req ret : U32} {F : U32 → Prop}
    {s s' : EappState (FileImports imageSize)} (ran : requestFile env path req s = .ok s' ret)
    (answer : ∀ a, EappBus.Covers (req + 0x20) 8 a → F a)
    (buffer : ∀ file dest want, Play.Wants env s.rest path req file dest →
      (s.rest.bus.readGuestU32OrZero (req + 0x18)).Gives want →
        ∀ a, EappBus.Covers dest (delivers file want) a → F a) : Writes F s s' := by
  obtain ⟨_, waits⟩ | ⟨_, ⟨request⟩⟩ := requestFile_spec env ran
  · exact writes_of_bus waits.bus
  · have delivered : Writes F request.opened request.delivered := by
      refine writes_deliverFile env request.delivery answer fun file holds => ?_
      have wants : Play.Wants env s.rest path req file request.dest :=
        ⟨⟨_, _, request.resolved, holds⟩, request.given⟩
      exact buffer file request.dest request.want wants request.wanted
    have before : Writes F s request.opened := writes_of_bus request.waits.bus
    have after : Writes F request.delivered s' := writes_of_bus request.bus
    exact IsTrans.trans _ _ _ (IsTrans.trans _ _ _ before delivered) after

theorem findPath_some {args : GuestArgs} {s s' : EappState (FileImports imageSize)} {path : PathString}
    (ran : findPath args s = .ok s' (some path)) : Names args s.rest.bus path := by
  obtain ⟨mid, first, looked, rest⟩ := bind_eq_ok.mp ran
  obtain ⟨rfl, there⟩ := find_eq_ok.mp looked
  cases first with
  | none => exact .inr ⟨there, (find_eq_ok.mp rest).2⟩
  | some path =>
    cases rest
    exact .inl there

theorem writes_request {args : GuestArgs} {ret : U32} {s s' : EappState (FileImports imageSize)}
    (ran : handleAsyncFileIoImport env 3 args s = .ok s' ret) : Writes (Touches env s.rest args 3) s s' := by
  rw [handleAsyncFileIoImport_request] at ran
  obtain ⟨mid, found, looked, ran⟩ := bind_eq_ok.mp ran
  cases findPath_same looked
  cases found with
  | none =>
    cases ran
    exact Std.Refl.refl (r := Writes _) s
  | some path =>
    have named := findPath_some looked
    obtain ⟨shown, _, filled, ran⟩ := bind_eq_ok.mp ran
    have before : Writes (Touches env s.rest args 3) s shown := by
      cases filled
      exact writes_of_bus rfl
    refine IsTrans.trans _ _ _ before (writes_requestFile env ran (fun a => .answer) ?_)
    cases filled
    exact fun file dest want wants wanted a covers => .file named ⟨wants.file, wants.dest⟩ wanted covers

/-- Whatever its arguments are, an import changes no byte of the memory but those that it may write. -/
theorem import_writes (ordinal : U32) (args : GuestArgs) (s : EappState (FileImports imageSize)) :
    (handleAsyncFileIoImport env ordinal args s).Leaves fun s' =>
      s.rest.bus.ChangesOnly (Touches env s.rest args ordinal) s'.rest.bus := by
  by_cases request : ordinal = 3
  · subst request
    exact leaves_of_ok fun s' ret => writes_request env
  · suffices respects : (handleAsyncFileIoImport env ordinal args).Respects
        (Writes (Touches env s.rest args ordinal)) from respects s
    refine Respects.ite (fun is => writes_readOpenFile env fun a covers => is ▸ .read covers) fun _ => ?_
    refine Respects.ite (fun _ => (respects_look _).bind fun _ => .pure _) fun _ => ?_
    refine Respects.ite (fun is => ?_) fun _ => ?_
    · exact writes_completeRequest env fun a covers => is ▸ .request covers
    refine Respects.ite (fun is => writes_completeControl env (is ▸ .control)) fun _ => ?_
    refine (writes_findPath args).bind fun found => ?_
    cases found with
    | none => exact .pure 0
    | some path =>
      refine (writes_fillFramebuffer _).bind fun _ => ?_
      refine Respects.ite (fun is => writes_openPath env fun a covers => is ▸ .handle covers) fun _ => ?_
      refine Respects.ite (fun is => writes_openStream env fun a covers => is ▸ .stream covers) fun _ => ?_
      refine Respects.ite (fun is => absurd is request) fun _ => ?_
      refine Respects.ite (fun is => ?_) fun _ => .pure 1
      exact writes_listFolders env fun a covers => is ▸ .folders covers

end FileM
end Clicky
