import Clicky.Ide.Effect

/-! Exactly when a drive takes part in moving a halfword: when the accesses of the data register
return a value, and when they fail or panic. -/
namespace Clicky
open Outcome

namespace IdeDrive

variable {β : Type} {d : IdeDrive β}

variable [BlockDev β]

def NextSector (d : IdeDrive β) : Prop := (BlockDev.readExact d.blockdev 512).2.2 = .ok ()

/-- One or two bytes can be read: they are in the buffer, or end the transfer, or the next
sector is there to be read. -/
structure Readable (d : IdeDrive β) (count : Nat) : Prop where
  ready : d.state = .readReady
  inside : d.iobuf.idx < 512
  room : d.iobuf.idx + count < 512 ∨ d.iobuf.idx + count = 512 ∧ d.remainingSectors = 1 ∨
    2 ≤ d.remainingSectors ∧ d.NextSector

theorem Readable.fewer (two : d.Readable 2) : d.Readable 1 := by
  refine ⟨two.ready, two.inside, ?_⟩
  rcases two.room with room | ⟨last, _⟩ | more
  · exact .inl (by omega)
  · exact .inl (by omega)
  · exact .inr (.inr more)

inductive ReadAfter (d d' : IdeDrive β) : Prop where
  | inside (room : d.iobuf.idx + 1 < 512) (same : d' = { d with iobuf.idx := d.iobuf.idx + 1 })
  | ended (last : d.iobuf.idx = 511) (left : d.remainingSectors = 1) (state : d'.state = .idle)
      (cfg : d'.cfg = d.cfg)
  | loaded (last : d.iobuf.idx = 511) (left : 2 ≤ d.remainingSectors) (next : d.NextSector)
      (state : d'.state = .readReady) (start : d'.iobuf.idx = 0) (cfg : d'.cfg = d.cfg)

theorem loadNext_cases (d : IdeDrive β) :
    (d.NextSector ∧ ∃ d', d.loadNext = .ok d' () ∧ d'.state = .readReady ∧ d'.iobuf.idx = 0 ∧
      d'.cfg = d.cfg) ∨
    (¬ d.NextSector ∧ ∃ d' e, d.loadNext = .raise d' e) := by
  unfold loadNext loadSector NextSector
  dsimp only
  rcases BlockDev.readExact d.blockdev 512 with ⟨b, bytes, e | _⟩
  · exact .inr ⟨by simp, _, _, rfl⟩
  · refine .inl ⟨rfl, _, rfl, ?_⟩
    simp only [pulseIrqUnlessDma_unit]
    exact ⟨trivial, rfl, trivial⟩

theorem dataRead8_cases (d : IdeDrive β) :
    (d.Readable 1 ∧ ∃ d' v, d.dataRead8 = .ok d' v ∧ d.ReadAfter d') ∨
    (¬ d.Readable 1 ∧ ¬ d.dataRead8.Returns) := by
  by_cases ready : d.state = .readReady
  · by_cases inside : d.iobuf.idx < 512
    · by_cases room : d.iobuf.idx + 1 < 512
      · obtain ⟨ret, _, read⟩ := dataRead8_inside ready room
        exact .inl ⟨⟨ready, inside, .inl room⟩, _, ret, read, .inside room rfl⟩
      · have last : d.iobuf.idx = 511 := by omega
        obtain ⟨ret, _, read⟩ := dataRead8_end ready last
        rw [read]
        split
        · refine .inr ⟨fun can => ?_, by simp⟩
          rcases can.room with here | ⟨_, one⟩ | ⟨two, _⟩ <;> omega
        · rename_i one
          exact .inl ⟨⟨ready, inside, .inr (.inl ⟨by omega, one⟩)⟩, _, ret, rfl,
            .ended last one rfl rfl⟩
        · rename_i left more
          have two : 2 ≤ d.remainingSectors := by omega
          rcases loadNext_cases { d with iobuf.idx := 512, remainingSectors := left + 1 } with
            ⟨next, d', loaded, state, start, cfg⟩ | ⟨stuck, d', e, failed⟩
          · refine .inl ⟨⟨ready, inside, .inr (.inr ⟨two, next⟩)⟩, d', ret, ?_,
              .loaded last two next state start cfg⟩
            rw [loaded]
            rfl
          · rw [failed]
            refine .inr ⟨fun can => ?_, returns_raise _ _⟩
            rcases can.room with here | ⟨_, one⟩ | ⟨_, next⟩
            · omega
            · omega
            · exact stuck next
    · exact .inr ⟨fun can => inside can.inside, dataRead8_past (Nat.le_of_not_lt inside)⟩
  · refine .inr ⟨fun can => ready can.ready, ?_⟩
    rw [dataRead8, if_pos ready]
    exact returns_raise _ _

def width (d : IdeDrive β) : Nat := if d.cfg.eightbit then 1 else 2

theorem ReadAfter.second_iff {d' : IdeDrive β} (one : d.Readable 1) (after : d.ReadAfter d') :
    d'.Readable 1 ↔ d.Readable 2 := by
  cases after with
  | inside room same =>
    subst same
    constructor
    · intro can
      exact ⟨one.ready, one.inside, can.room⟩
    · intro can
      exact ⟨one.ready, room, can.room⟩
  | ended last left state cfg =>
    constructor
    · intro can
      have wrong := can.ready
      rw [state] at wrong
      cases wrong
    · intro can
      rcases can.room with room | ⟨room, _⟩ | ⟨two, _⟩ <;> omega
  | loaded last left next state start cfg =>
    constructor
    · exact fun _ => ⟨one.ready, one.inside, .inr (.inr ⟨left, next⟩)⟩
    · exact fun _ => ⟨state, by omega, .inl (by omega)⟩

theorem ReadAfter.cfg {d' : IdeDrive β} (after : d.ReadAfter d') : d'.cfg = d.cfg := by
  cases after with
  | inside room same => rw [same]
  | ended last left state cfg => exact cfg
  | loaded last left next state start cfg => exact cfg

theorem dataRead8_ok_iff (d : IdeDrive β) : d.dataRead8.Returns ↔ d.Readable 1 := by
  rcases d.dataRead8_cases with ⟨can, d', v, read, _⟩ | ⟨cannot, refused⟩
  · exact ⟨fun _ => can, fun _ => ⟨d', v, read⟩⟩
  · exact iff_of_false refused cannot

theorem dataRead16_ok_iff (d : IdeDrive β) : d.dataRead16.Returns ↔ d.Readable d.width := by
  unfold dataRead16
  rcases d.dataRead8_cases with ⟨one, d', v, read, after⟩ | ⟨none, refused⟩
  · rw [read, bind_ok, after.cfg, width]
    by_cases eightbit : d.cfg.eightbit = true
    · simp [eightbit, one]
    · rw [if_neg eightbit, if_neg eightbit, ← after.second_iff one, ← dataRead8_ok_iff, returns_bind]
      exact and_iff_left fun _ _ _ => returns_ok ..
  · refine iff_of_false (fun both => ?_) fun can => ?_
    · exact refused (returns_bind.mp both).1
    · unfold width at can
      split at can
      · exact none can
      · exact none can.fewer

def Flushes (d : IdeDrive β) (data : List U8) : Prop :=
  (BlockDev.writeAll d.blockdev (d.iobuf.buf.overwrite d.iobuf.idx data)).2 = .ok ()

/-- One or two bytes can be written: they fit into the buffer, or the sector they fill can be
written, and then another one is expected for what is left of them. -/
structure Writable (d : IdeDrive β) (data : List U8) : Prop where
  ready : d.state = .writeReady
  inside : d.iobuf.idx < 512
  room : d.iobuf.idx + data.length < 512 ∨
    (d.iobuf.idx + data.length = 512 ∧ 1 ≤ d.remainingSectors ∨ 2 ≤ d.remainingSectors) ∧
      d.Flushes data

inductive WriteAfter (d : IdeDrive β) (val : U8) (d' : IdeDrive β) : Prop where
  | inside (room : d.iobuf.idx + 1 < 512) (rest : d' = { d with iobuf := d'.iobuf })
      (idx : d'.iobuf.idx = d.iobuf.idx + 1)
      (buf : d'.iobuf.buf = d.iobuf.buf.overwrite d.iobuf.idx [val])
  | ended (last : d.iobuf.idx = 511) (left : d.remainingSectors = 1) (state : d'.state = .idle)
  | flushed (last : d.iobuf.idx = 511) (left : 2 ≤ d.remainingSectors) (flush : d.Flushes [val])
      (state : d'.state = .writeReady) (start : d'.iobuf.idx = 0)

theorem storeSector_cases (d : IdeDrive β) :
    ((BlockDev.writeAll d.blockdev d.iobuf.buf).2 = .ok () ∧
      ∃ d', d.storeSector = .ok d' () ∧ d.MediaOnly d') ∨
    ((BlockDev.writeAll d.blockdev d.iobuf.buf).2 ≠ .ok () ∧ ∃ d' e, d.storeSector = .raise d' e) := by
  unfold storeSector
  rcases BlockDev.writeAll d.blockdev d.iobuf.buf with ⟨b, e | _⟩
  · exact .inr ⟨by simp, _, _, rfl⟩
  · exact .inl ⟨rfl, _, rfl, ⟨rfl, rfl, rfl, rfl, rfl, rfl, rfl⟩⟩

theorem dataWrite8_cases (d : IdeDrive β) (val : U8) :
    (d.Writable [val] ∧ ∃ d', d.dataWrite8 val = .ok d' () ∧ d.WriteAfter val d') ∨
    (¬ d.Writable [val] ∧ ¬ (d.dataWrite8 val).Returns) := by
  by_cases ready : d.state = .writeReady
  · by_cases inside : d.iobuf.idx < 512
    · by_cases room : d.iobuf.idx + 1 < 512
      · exact .inl ⟨⟨ready, inside, .inl room⟩, _, dataWrite8_inside ready room val,
          .inside room rfl rfl (IdeIoBuf.put_buf ..)⟩
      · have last : d.iobuf.idx = 511 := by omega
        rw [dataWrite8_end ready last]
        split
        · rename_i none
          refine .inr ⟨fun can => ?_, by simp⟩
          rcases can.room with here | ⟨⟨_, some⟩ | two, _⟩
          · exact room here
          · omega
          · omega
        · rename_i some
          have left : 1 ≤ d.remainingSectors := Nat.one_le_iff_ne_zero.mpr some
          have flushes : d.Flushes [val] ↔
              (BlockDev.writeAll d.blockdev (d.iobuf.put val).buf).2 = .ok () := by
            rw [Flushes, IdeIoBuf.put_buf]
          rcases storeSector_cases { d with
              iobuf := d.iobuf.put val
              reg.status := (d.reg.status.setBit Status.DRQ false).setBit Status.BSY true
              state := .writeAsyncFlush } with
            ⟨stored, d', done, media⟩ | ⟨stuck, d', e, failed⟩
          · rw [done, bind_ok]
            have flush := flushes.mpr stored
            refine .inl ⟨⟨ready, inside, .inr ⟨.inl ⟨by rw [last]; rfl, left⟩, flush⟩⟩, ?_⟩
            by_cases one : d.remainingSectors = 1
            · obtain ⟨irq, finished⟩ := finishSector_last (media.remainingSectors.trans one)
              exact ⟨_, finished, .ended last one rfl⟩
            · have two : 2 ≤ d.remainingSectors := by omega
              obtain ⟨irq, finished⟩ := finishSector_more (media.remainingSectors.symm ▸ two)
              exact ⟨_, finished, .flushed last two flush rfl rfl⟩
          · rw [failed, bind_raise]
            refine .inr ⟨fun can => ?_, by simp⟩
            rcases can.room with here | ⟨_, flush⟩
            · exact room here
            · exact stuck (flushes.mp flush)
    · refine .inr ⟨fun can => inside can.inside, ?_⟩
      rw [dataWrite8, if_neg (not_not_intro ready), IdeIoBuf.write8, if_neg inside]
      exact returns_raise _ _
  · refine .inr ⟨fun can => ready can.ready, ?_⟩
    rw [dataWrite8, if_pos ready]
    exact returns_raise _ _

def halfwordBytes (d : IdeDrive β) (val : U16) : List U8 :=
  if d.cfg.eightbit then [val.setWidth 8] else [val.setWidth 8, (val >>> 8).setWidth 8]

theorem flushes_last {lo hi : U8} (last : d.iobuf.idx = 511) :
    d.Flushes [lo, hi] ↔ d.Flushes [lo] := by
  have fits : d.iobuf.buf.overwrite d.iobuf.idx [lo, hi] =
      d.iobuf.buf.overwrite d.iobuf.idx [lo] := by
    rw [List.overwrite, List.overwrite, d.iobuf.sized, last]
    simp [d.iobuf.sized]
  rw [Flushes, fits, Flushes]

theorem Writable.fewer {lo hi : U8} (two : d.Writable [lo, hi]) : d.Writable [lo] := by
  refine ⟨two.ready, two.inside, ?_⟩
  by_cases room : d.iobuf.idx + 1 < 512
  · exact .inl room
  · have last : d.iobuf.idx = 511 := by
      have := two.inside
      omega
    rcases two.room with here | ⟨⟨here, _⟩ | more, flush⟩
    · change d.iobuf.idx + 2 < 512 at here
      omega
    · change d.iobuf.idx + 2 = 512 at here
      omega
    · exact .inr ⟨.inr more, (flushes_last last).mp flush⟩

theorem WriteAfter.second_iff {d' : IdeDrive β} {lo hi : U8} (one : d.Writable [lo])
    (after : d.WriteAfter lo d') : d'.Writable [hi] ↔ d.Writable [lo, hi] := by
  cases after with
  | inside room rest idx buf =>
    have state : d'.state = d.state := by rw [rest]
    have left : d'.remainingSectors = d.remainingSectors := by rw [rest]
    have flushes : d'.Flushes [hi] ↔ d.Flushes [lo, hi] := by
      have device : d'.blockdev = d.blockdev := by rw [rest]
      have both := List.overwrite_overwrite d.iobuf.buf [lo] [hi] d.iobuf.idx
      rw [Flushes, Flushes, device, buf, idx]
      rw [List.length_singleton] at both
      rw [both]
      rfl
    constructor
    · intro can
      have more := can.room
      rw [idx, left, flushes] at more
      exact ⟨one.ready, one.inside, more⟩
    · intro can
      refine ⟨state.trans one.ready, by omega, ?_⟩
      rw [idx, left, flushes]
      exact can.room
  | ended last left state =>
    constructor
    · intro can
      have wrong := can.ready
      rw [state] at wrong
      cases wrong
    · intro can
      rcases can.room with here | ⟨⟨here, _⟩ | more, _⟩
      · change d.iobuf.idx + 2 < 512 at here
        omega
      · change d.iobuf.idx + 2 = 512 at here
        omega
      · omega
  | flushed last left flush state start =>
    constructor
    · exact fun _ => ⟨one.ready, one.inside, .inr ⟨.inr left, (flushes_last last).mpr flush⟩⟩
    · refine fun _ => ⟨state, by omega, .inl ?_⟩
      rw [start]
      exact (by decide : 1 < 512)

theorem dataWrite8_ok_iff (d : IdeDrive β) (val : U8) :
    (d.dataWrite8 val).Returns ↔ d.Writable [val] := by
  rcases d.dataWrite8_cases val with ⟨can, d', written, _⟩ | ⟨cannot, refused⟩
  · exact ⟨fun _ => can, fun _ => ⟨d', (), written⟩⟩
  · exact iff_of_false refused cannot

theorem dataWrite16_ok_iff (d : IdeDrive β) (val : U16) :
    (d.dataWrite16 val).Returns ↔
      (d.cfg.eightbit = true → val ≤ 0xff) ∧ d.Writable (d.halfwordBytes val) := by
  unfold dataWrite16 halfwordBytes
  by_cases eightbit : d.cfg.eightbit = true
  · rw [if_pos eightbit, if_pos eightbit, truncToU8]
    by_cases wide : val > 0xff
    · rw [if_pos wide]
      refine iff_of_false (returns_raise _ _) fun can => ?_
      exact absurd (can.1 eightbit) (BitVec.not_le.mpr wide)
    · rw [if_neg wide]
      dsimp only
      rw [dataWrite8_ok_iff]
      exact ⟨fun can => ⟨fun _ => BitVec.not_lt.mp wide, can⟩, fun h => h.2⟩
  · rw [if_neg eightbit, if_neg eightbit]
    have bytes : ((d.dataWrite8 (val.setWidth 8)).bind fun d _ =>
          d.dataWrite8 ((val >>> 8).setWidth 8)).Returns ↔
        d.Writable [val.setWidth 8, (val >>> 8).setWidth 8] := by
      rcases d.dataWrite8_cases (val.setWidth 8) with ⟨one, d', first, after⟩ | ⟨none, refused⟩
      · rw [first, bind_ok, dataWrite8_ok_iff, after.second_iff one]
      · exact iff_of_false (fun both => refused (returns_bind.mp both).1) fun can => none can.fewer
    rw [bytes]
    exact ⟨fun can => ⟨fun wrong => absurd wrong eightbit, can⟩, fun h => h.2⟩

theorem storeSector_blockdev {d' : IdeDrive β} {r : Except MemException Unit}
    (stored : d.storeSector = .done d' r) : ∃ blockdev, d' = { d with blockdev } := by
  unfold storeSector at stored
  generalize BlockDev.writeAll d.blockdev d.iobuf.buf = store at stored
  obtain ⟨b, e | _⟩ := store
  · cases stored
    exact ⟨b, rfl⟩
  · cases stored
    exact ⟨b, rfl⟩

/-- The byte is in the buffer afterwards, also when its sector has gone to the disk. -/
theorem dataWrite8_stores {d' : IdeDrive β} {val : U8} (written : d.dataWrite8 val = .ok d' ()) :
    d.iobuf.idx < 512 ∧ d'.iobuf.buf = d.iobuf.buf.set d.iobuf.idx val ∧
      d'.iobuf.idx = (d.iobuf.idx + 1) % 512 ∧ d'.cfg = d.cfg := by
  have can := (d.dataWrite8_ok_iff val).mp ⟨d', (), written⟩
  refine ⟨can.inside, ?_⟩
  by_cases room : d.iobuf.idx + 1 < 512
  · rw [dataWrite8_inside can.ready room] at written
    cases written
    exact ⟨rfl, (Nat.mod_eq_of_lt room).symm, rfl⟩
  · have last : d.iobuf.idx = 511 := by
      have := can.inside
      omega
    rw [dataWrite8_end can.ready last] at written
    split at written
    · cases written
    · rename_i some
      obtain ⟨d₁, _, stored, finished⟩ := bind_eq_ok.mp written
      obtain ⟨b, rfl⟩ := storeSector_blockdev stored
      rw [last]
      by_cases one : d.remainingSectors = 1
      · obtain ⟨irq, done⟩ := finishSector_last (d := { d with
          iobuf := d.iobuf.put val
          reg.status := (d.reg.status.setBit Status.DRQ false).setBit Status.BSY true
          state := .writeAsyncFlush
          blockdev := b }) one
        rw [done] at finished
        cases finished
        exact ⟨congrArg (d.iobuf.buf.set · val) last, rfl, rfl⟩
      · obtain ⟨irq, done⟩ := finishSector_more (d := { d with
          iobuf := d.iobuf.put val
          reg.status := (d.reg.status.setBit Status.DRQ false).setBit Status.BSY true
          state := .writeAsyncFlush
          blockdev := b }) (show 2 ≤ d.remainingSectors by omega)
        rw [done] at finished
        cases finished
        exact ⟨congrArg (d.iobuf.buf.set · val) last, rfl, rfl⟩

theorem set_injective {bytes : List U8} {i : Nat} {a b : U8} (inside : i < bytes.length)
    (same : bytes.set i a = bytes.set i b) : a = b := by
  have at_i := congrArg (fun l => l[i]?) same
  simpa [inside] using at_i

/-- Two halfwords the drive takes leave it with different buffers. -/
theorem dataWrite16_injective {d₁ d₂ : IdeDrive β} {a b : U16}
    (first : d.dataWrite16 a = .ok d₁ ()) (second : d.dataWrite16 b = .ok d₂ ())
    (same : d₁.iobuf.buf = d₂.iobuf.buf) : a = b := by
  have sized := d.iobuf.sized
  unfold dataWrite16 at first second
  split at first
  · rename_i eightbit
    rw [if_pos eightbit] at second
    unfold truncToU8 at first second
    by_cases wide : a > 0xff
    · rw [if_pos wide] at first
      cases first
    · by_cases wide' : b > 0xff
      · rw [if_pos wide'] at second
        cases second
      · rw [if_neg wide] at first
        rw [if_neg wide'] at second
        obtain ⟨inside, one, -, -⟩ := dataWrite8_stores first
        obtain ⟨-, two, -, -⟩ := dataWrite8_stores second
        rw [one, two] at same
        have low := set_injective (by omega) same
        bv_omega
  · rename_i wide
    rw [if_neg wide] at second
    obtain ⟨dl₁, _, low₁, high₁⟩ := bind_eq_ok.mp first
    obtain ⟨dl₂, _, low₂, high₂⟩ := bind_eq_ok.mp second
    obtain ⟨inside, bufl₁, idx₁, -⟩ := dataWrite8_stores low₁
    obtain ⟨-, bufl₂, idx₂, -⟩ := dataWrite8_stores low₂
    obtain ⟨-, bufh₁, -, -⟩ := dataWrite8_stores high₁
    obtain ⟨-, bufh₂, -, -⟩ := dataWrite8_stores high₂
    rw [bufh₁, bufh₂, idx₁, idx₂, bufl₁, bufl₂] at same
    have apart : (d.iobuf.idx + 1) % 512 ≠ d.iobuf.idx := by omega
    rw [List.set_comm _ _ apart.symm, List.set_comm _ _ apart.symm] at same
    have low : a.setWidth 8 = b.setWidth 8 := by
      have at_low := congrArg (fun l => l[d.iobuf.idx]?) same
      simpa [sized, inside] using at_low
    rw [low] at same
    rw [List.set_comm _ _ apart, List.set_comm _ _ apart] at same
    have high : (a >>> 8).setWidth 8 = (b >>> 8).setWidth 8 :=
      set_injective (by rw [List.length_set, sized]; omega) same
    bv_omega

end IdeDrive
end Clicky
