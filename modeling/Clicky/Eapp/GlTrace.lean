import Clicky.Memory
import Clicky.Lib.Group

/-! The recorder of graphics calls. Calls of one frame are kept together, and a frame with the
signature of the one before is only counted. -/
namespace Clicky

abbrev U64 := BitVec 64

inductive GlValueClass where
  | mappedPointer | codePointer | scalar | float
  deriving DecidableEq, Repr

inductive GlMemoryRegion where
  | workRam | image | trampoline | unmapped
  deriving DecidableEq, Repr

def GlValueClass.toU8 : GlValueClass → U8
  | .mappedPointer => 0
  | .codePointer => 1
  | .scalar => 2
  | .float => 3

def GlMemoryRegion.toU8 : GlMemoryRegion → U8
  | .workRam => 0
  | .image => 1
  | .trampoline => 2
  | .unmapped => 3

structure GlFileBacking where
  path : String
  baseAddr : U32
  len : U32
  offset : U32
  deriving DecidableEq, Repr

structure GlMemorySnapshot where
  addr : U32
  requestedLen : U64
  len : U64
  truncated : Bool
  region : GlMemoryRegion
  fileBacking : Option GlFileBacking := none
  bytesHex : String
  deriving DecidableEq, Repr

/-- A float is kept as its bits. -/
structure GlRegisterSnapshot where
  name : String
  value : U32
  class_ : GlValueClass
  floatValue : Option U32 := none
  snapshot : Option GlMemorySnapshot := none
  deriving DecidableEq, Repr

structure GlStackWordSnapshot where
  offset : U64
  value : U32
  class_ : GlValueClass
  floatValue : Option U32 := none
  snapshot : Option GlMemorySnapshot := none
  deriving DecidableEq, Repr

structure GlImportRecord where
  seq : U64 := 0
  seqInFrame : U64 := 0
  frame : U64 := 0
  ordinal : U32
  pc : U32
  lr : U32
  sp : U32
  returnValue : U32
  stack : GlMemorySnapshot
  stackWords : List GlStackWordSnapshot := []
  registers : List GlRegisterSnapshot := []
  deriving DecidableEq, Repr

/-- A value given to the hasher. -/
inductive Hashed where
  | u8 (v : U8)
  | u32 (v : U32)
  | usize (v : U64)
  | str (v : String)
  deriving DecidableEq, Repr

def GlRegisterSnapshot.hashed (reg : GlRegisterSnapshot) : List Hashed :=
  [.str reg.name, .u32 reg.value, .u8 reg.class_.toU8] ++ (reg.floatValue.map Hashed.u32).toList

def GlStackWordSnapshot.hashed (word : GlStackWordSnapshot) : List Hashed :=
  [.usize word.offset, .u32 word.value, .u8 word.class_.toU8] ++
    (word.floatValue.map Hashed.u32).toList

def GlMemorySnapshot.hashed (stack : GlMemorySnapshot) : List Hashed :=
  [.u32 stack.addr, .usize stack.requestedLen, .usize stack.len, .u8 (if stack.truncated then 1 else 0),
    .u8 stack.region.toU8, .str stack.bytesHex]

def GlImportRecord.hashed (record : GlImportRecord) : List Hashed :=
  [.u32 record.ordinal, .u32 record.pc, .u32 record.lr, .u32 record.sp, .u32 record.returnValue] ++
    record.registers.flatMap GlRegisterSnapshot.hashed ++ record.stack.hashed ++
      record.stackWords.flatMap GlStackWordSnapshot.hashed

/-- The calls of a frame, shown for every frame of the same signature from the first to the
last. -/
structure GlFrameRecord (σ : Type) where
  firstFrame : U64
  lastFrame : U64
  repeatCount : U64
  signature : σ
  records : List GlImportRecord

structure GlTraceFixture (σ : Type) where
  title : String
  bundleDir : String
  executablePath : String
  fileVmaBase : U32
  workRamBase : U32
  workRamSize : U64
  stackSnapshotLen : U64
  pointerSnapshotLen : U64
  captureStartFrame : U64
  captureEndFrame : U64
  frames : List (GlFrameRecord σ)

structure GlTraceRecorder (σ : Type) where
  captureStartFrame : U64
  captureEndFrame : U64
  stackSnapshotLen : U64
  pointerSnapshotLen : U64
  nextSeq : U64 := 1
  currentFrame : Option U64 := none
  currentRecords : List GlImportRecord := []
  frames : List (GlFrameRecord σ) := []

def saturatingSucc (n : U64) : U64 := if n.toNat + 1 < 2 ^ 64 then n + 1 else BitVec.allOnes 64

namespace GlTraceRecorder

variable {σ : Type} [DecidableEq σ] (finish : List Hashed → σ)

omit [DecidableEq σ] in
def new (captureStartFrame captureEndFrame stackSnapshotLen pointerSnapshotLen : U64) :
    GlTraceRecorder σ :=
  { captureStartFrame, captureEndFrame, stackSnapshotLen, pointerSnapshotLen }

/-- `finish` is the hasher, from all it is given to the text of its result. -/
def frameSignature (records : List GlImportRecord) : σ :=
  finish (records.flatMap GlImportRecord.hashed)

def flushCurrentFrame (r : GlTraceRecorder σ) : GlTraceRecorder σ :=
  match r.currentFrame with
  | none => r
  | some frame =>
    if r.currentRecords.isEmpty then { r with currentFrame := none }
    else
      let signature := frameSignature finish r.currentRecords
      let fresh : GlFrameRecord σ :=
        { firstFrame := frame, lastFrame := frame, repeatCount := 1, signature,
          records := r.currentRecords }
      let frames :=
        match r.frames.getLast? with
        | some last =>
          if last.signature = signature then
            r.frames.dropLast ++
              [{ last with lastFrame := frame, repeatCount := saturatingSucc last.repeatCount }]
          else r.frames ++ [fresh]
        | none => r.frames ++ [fresh]
      { r with frames, currentRecords := [], currentFrame := none }

def captureRecord (r : GlTraceRecorder σ) (frame : U64) (record : GlImportRecord) :
    GlTraceRecorder σ :=
  let r :=
    match r.currentFrame with
    | some cur =>
      if cur ≠ frame then { flushCurrentFrame finish r with currentFrame := some frame } else r
    | none => { r with currentFrame := some frame }
  let record :=
    { record with seq := r.nextSeq, seqInFrame := BitVec.ofNat 64 r.currentRecords.length + 1 }
  { r with nextSeq := r.nextSeq + 1, currentRecords := r.currentRecords ++ [record] }

def finalize (r : GlTraceRecorder σ) : GlTraceFixture σ :=
  let r := flushCurrentFrame finish r
  { title := "", bundleDir := "", executablePath := "", fileVmaBase := 0, workRamBase := 0,
    workRamSize := 0, stackSnapshotLen := r.stackSnapshotLen,
    pointerSnapshotLen := r.pointerSnapshotLen, captureStartFrame := r.captureStartFrame,
    captureEndFrame := r.captureEndFrame, frames := r.frames }

end GlTraceRecorder

/-- A record without its places in the trace. -/
def GlImportRecord.content (record : GlImportRecord) : GlImportRecord :=
  { record with seq := 0, seqInFrame := 0, frame := 0 }

theorem GlImportRecord.hashed_content (record : GlImportRecord) :
    record.content.hashed = record.hashed := rfl

abbrev GlGroup := List GlImportRecord

def GlGroup.hashed (group : GlGroup) : List Hashed := group.flatMap GlImportRecord.hashed

def GlGroup.content (group : GlGroup) : GlGroup := List.map GlImportRecord.content group

theorem GlGroup.hashed_content (group : GlGroup) : group.content.hashed = group.hashed :=
  List.flatMap_map ..

/-- The frames of a trace: neighbouring calls with one frame number belong together. -/
def glGroups (captured : List (U64 × GlImportRecord)) : List GlGroup :=
  (captured.runsOf Prod.fst).map fun run => GlGroup.content (run.map Prod.snd)

namespace GlTraceFixture

variable {σ : Type}

def expand (fixture : GlTraceFixture σ) : List GlGroup :=
  fixture.frames.flatMap fun frame =>
    List.replicate frame.repeatCount.toNat (GlGroup.content frame.records)

def repeats (fixture : GlTraceFixture σ) : Nat :=
  (fixture.frames.map fun frame => frame.repeatCount.toNat).sum

structure Lossless (fixture : GlTraceFixture σ) (captured : List (U64 × GlImportRecord)) : Prop where
  expanded : fixture.expand = glGroups captured
  counted : fixture.repeats = (glGroups captured).length

theorem length_expand (fixture : GlTraceFixture σ) : fixture.expand.length = fixture.repeats := by
  unfold expand repeats
  induction fixture.frames with
  | nil => rfl
  | cons frame frames ih =>
    rw [List.flatMap_cons, List.length_append, List.length_replicate, ih, List.map_cons,
      List.sum_cons]

theorem lossless_iff (fixture : GlTraceFixture σ) (captured : List (U64 × GlImportRecord)) :
    fixture.Lossless captured ↔ fixture.expand = glGroups captured :=
  ⟨Lossless.expanded, fun same => ⟨same, fixture.length_expand ▸ congrArg List.length same⟩⟩

end GlTraceFixture

namespace GlTraceRecorder

variable {σ : Type} (finish : List Hashed → σ)

def countOf (n : Nat) : U64 := BitVec.ofNat 64 (min n (2 ^ 64 - 1))

theorem toNat_countOf (n : Nat) : (countOf n).toNat = min n (2 ^ 64 - 1) := by
  rw [countOf, BitVec.toNat_ofNat]
  exact Nat.mod_eq_of_lt (by omega)

theorem saturatingSucc_countOf (n : Nat) : saturatingSucc (countOf n) = countOf (n + 1) := by
  apply BitVec.eq_of_toNat_eq
  rw [toNat_countOf, saturatingSucc, toNat_countOf]
  have one : (1 : U64).toNat = 1 := rfl
  by_cases small : n < 2 ^ 64 - 1
  · rw [if_pos (by omega), BitVec.toNat_add, toNat_countOf, one]
    omega
  · rw [if_neg (by omega), BitVec.toNat_allOnes]
    omega

/-- What a frame record says of a run of groups that were taken for the same. -/
structure Stands (frame : GlFrameRecord σ) (run : List GlGroup) : Prop where
  signature : frame.signature = finish (GlGroup.hashed frame.records)
  count : frame.repeatCount = countOf run.length
  first : run.head? = some (GlGroup.content frame.records)

/-- The frames recorded once the groups `done` are complete. -/
def Recorded (frames : List (GlFrameRecord σ)) (done : List GlGroup) : Prop :=
  List.Forall₂ (Stands finish) frames (done.runsOf GlGroup.hashed)

variable {finish}

theorem Recorded.eq_nil {done : List GlGroup} (recorded : Recorded finish [] done) : done = [] := by
  rw [Recorded, List.forall₂_nil_left_iff] at recorded
  rw [← List.flatten_runsOf GlGroup.hashed done, recorded]
  rfl

/-- The last frame stands for the last run. -/
theorem Recorded.last {frames : List (GlFrameRecord σ)} {last : GlFrameRecord σ} {done : List GlGroup}
    (recorded : Recorded finish (frames ++ [last]) done) :
    ∃ runs run, done.runsOf GlGroup.hashed = runs ++ [run] ∧
      List.Forall₂ (Stands finish) frames runs ∧ Stands finish last run := by
  unfold Recorded at recorded
  rcases List.eq_nil_or_concat (done.runsOf GlGroup.hashed) with empty | ⟨runs, run, parts⟩
  · rw [empty, List.forall₂_nil_right_iff] at recorded
    exact absurd recorded (by simp)
  · rw [List.concat_eq_append] at parts
    rw [parts, List.forall₂_concat] at recorded
    exact ⟨runs, run, parts, recorded⟩

theorem Stands.hashed {frame : GlFrameRecord σ} {done run : List GlGroup} {runs : List (List GlGroup)}
    (stands : Stands finish frame run) (parts : done.runsOf GlGroup.hashed = runs ++ [run])
    {group : GlGroup} (inside : group ∈ run) : group.hashed = GlGroup.hashed frame.records := by
  have member : GlGroup.content frame.records ∈ run := List.mem_of_mem_head? stands.first
  exact (List.key_eq_of_mem_runsOf (parts ▸ List.mem_concat_self) inside member).trans
    (GlGroup.hashed_content frame.records)

variable [DecidableEq σ]

theorem recorded_flush (injective : Function.Injective finish) {r : GlTraceRecorder σ}
    {done : List GlGroup} {frame : U64} (current : r.currentFrame = some frame)
    (some_records : r.currentRecords ≠ []) (recorded : Recorded finish r.frames done) :
    Recorded finish (flushCurrentFrame finish r).frames
      (done ++ [GlGroup.content r.currentRecords]) := by
  have fresh : Stands finish
      { firstFrame := frame, lastFrame := frame, repeatCount := 1,
        signature := frameSignature finish r.currentRecords, records := r.currentRecords }
      [GlGroup.content r.currentRecords] :=
    { signature := rfl, count := rfl, first := rfl }
  have occupied : r.currentRecords.isEmpty = false := by simpa using some_records
  simp only [flushCurrentFrame, current, occupied, Bool.false_eq_true, if_false]
  rcases List.eq_nil_or_concat r.frames with none_yet | ⟨frames, last, parts⟩
  · rw [none_yet] at recorded ⊢
    rw [recorded.eq_nil]
    exact .cons fresh .nil
  · rw [List.concat_eq_append] at parts
    rw [parts] at recorded ⊢
    obtain ⟨runs, run, before, earlier, stands⟩ := recorded.last
    have same_iff : last.signature = frameSignature finish r.currentRecords ↔
        GlGroup.hashed last.records = GlGroup.hashed r.currentRecords := by
      rw [stands.signature]
      exact injective.eq_iff
    simp only [Recorded, List.getLast?_concat, List.dropLast_concat]
    by_cases same : last.signature = frameSignature finish r.currentRecords
    · have key := same_iff.mp same
      rw [if_pos same, List.runsOf_concat_same before fun group inside =>
        (stands.hashed before inside).trans (key.trans (GlGroup.hashed_content _).symm),
        List.forall₂_concat]
      refine ⟨earlier, stands.signature, ?_, ?_⟩
      · change saturatingSucc last.repeatCount = _
        rw [stands.count, saturatingSucc_countOf, List.length_append, List.length_singleton]
      · rw [List.head?_append, stands.first]
        rfl
    · have breaks : ∀ group, done.getLast? = some group →
          group.hashed ≠ GlGroup.hashed (GlGroup.content r.currentRecords) := by
        intro group ending key
        have inside : group ∈ run := List.mem_last_of_getLast? before ending
        exact same (same_iff.mpr ((stands.hashed before inside).symm.trans
          (key.trans (GlGroup.hashed_content _))))
      rw [if_neg same, List.runsOf_concat_new breaks, before, List.forall₂_concat,
        List.forall₂_concat]
      exact ⟨⟨earlier, stands⟩, fresh⟩

theorem content_concat (records : List GlImportRecord) (record : GlImportRecord) :
    GlGroup.content (records ++ [record]) = GlGroup.content records ++ [record.content] :=
  List.map_append

/-- What a call adds: the recorder was on its frame before, or has turned to it. -/
structure Captured (r r' : GlTraceRecorder σ) (frame : U64) (record : GlImportRecord) : Prop where
  currentFrame : r'.currentFrame = some frame
  frames : r'.frames = r.frames
  currentRecords : GlGroup.content r'.currentRecords =
    GlGroup.content r.currentRecords ++ [record.content]

theorem captureRecord_same {r : GlTraceRecorder σ} {frame : U64}
    (current : r.currentFrame = some frame) (record : GlImportRecord) :
    Captured r (captureRecord finish r frame record) frame record := by
  simp only [captureRecord, current, ne_eq, not_true_eq_false, if_false]
  exact ⟨rfl, rfl, content_concat _ _⟩

theorem captureRecord_other {r : GlTraceRecorder σ} {frame : U64}
    (other : r.currentFrame ≠ some frame) (record : GlImportRecord) :
    Captured (flushCurrentFrame finish r) (captureRecord finish r frame record) frame record := by
  cases current : r.currentFrame with
  | none =>
    have unchanged : flushCurrentFrame finish r = r := by simp only [flushCurrentFrame, current]
    rw [unchanged]
    simp only [captureRecord, current]
    exact ⟨rfl, rfl, content_concat _ _⟩
  | some cur =>
    have differs : cur ≠ frame := fun same => other (same ▸ current)
    simp only [captureRecord, current, if_pos differs]
    exact ⟨rfl, rfl, content_concat _ _⟩

theorem currentRecords_flush {r : GlTraceRecorder σ} {frame : U64}
    (current : r.currentFrame = some frame) : (flushCurrentFrame finish r).currentRecords = [] := by
  simp only [flushCurrentFrame, current]
  split
  · exact List.isEmpty_iff.mp ‹_›
  · rfl

/-- Where the recorder stands after some calls: the calls of all frames but the last are in the
frame records, the calls of the last are held. -/
structure Holding (finish : List Hashed → σ) (r : GlTraceRecorder σ)
    (before : List (List (U64 × GlImportRecord))) (run : List (U64 × GlImportRecord)) : Prop where
  nonempty : run ≠ []
  frame : ∀ call ∈ run, r.currentFrame = some call.1
  held : GlGroup.content r.currentRecords = GlGroup.content (run.map Prod.snd)
  recorded : Recorded finish r.frames
    (before.map fun run => GlGroup.content (run.map Prod.snd))

inductive Follows (finish : List Hashed → σ) (r : GlTraceRecorder σ)
    (captured : List (U64 × GlImportRecord)) : Prop where
  | start (no_call : captured = []) (idle : r.currentFrame = none) (no_records : r.currentRecords = [])
      (no_frames : r.frames = [])
  | within (before : List (List (U64 × GlImportRecord))) (run : List (U64 × GlImportRecord))
      (runs : captured.runsOf Prod.fst = before ++ [run]) (holding : Holding finish r before run)

omit [DecidableEq σ] in
theorem Holding.currentRecords_ne_nil {r : GlTraceRecorder σ}
    {before : List (List (U64 × GlImportRecord))} {run : List (U64 × GlImportRecord)}
    (holding : Holding finish r before run) : r.currentRecords ≠ [] := by
  intro empty
  have held := holding.held
  rw [empty] at held
  exact holding.nonempty (List.map_eq_nil_iff.mp (List.map_eq_nil_iff.mp held.symm))

theorem Holding.recorded_flush (injective : Function.Injective finish) {r : GlTraceRecorder σ}
    {before : List (List (U64 × GlImportRecord))} {run : List (U64 × GlImportRecord)}
    (holding : Holding finish r before run) : Recorded finish (flushCurrentFrame finish r).frames
      ((before ++ [run]).map fun run => GlGroup.content (run.map Prod.snd)) := by
  obtain ⟨call, inside⟩ := List.exists_mem_of_ne_nil run holding.nonempty
  have flushed := GlTraceRecorder.recorded_flush injective (holding.frame call inside)
    holding.currentRecords_ne_nil holding.recorded
  rw [List.map_append, List.map_singleton, ← holding.held]
  exact flushed

omit [DecidableEq σ] in
theorem Captured.holding_first {r r' : GlTraceRecorder σ} {call : U64 × GlImportRecord}
    {before : List (List (U64 × GlImportRecord))} (added : Captured r r' call.1 call.2)
    (no_records : r.currentRecords = [])
    (recorded : Recorded finish r.frames
      (before.map fun run => GlGroup.content (run.map Prod.snd))) :
    Holding finish r' before [call] where
  nonempty := List.cons_ne_nil call []
  frame := fun other inside => List.mem_singleton.mp inside ▸ added.currentFrame
  held := by
    rw [added.currentRecords, no_records]
    rfl
  recorded := added.frames ▸ recorded

omit [DecidableEq σ] in
theorem Captured.holding_next {r r' : GlTraceRecorder σ} {call : U64 × GlImportRecord}
    {before : List (List (U64 × GlImportRecord))} {run : List (U64 × GlImportRecord)}
    (added : Captured r r' call.1 call.2) (current : r.currentFrame = some call.1)
    (holding : Holding finish r before run) : Holding finish r' before (run ++ [call]) where
  nonempty := List.append_ne_nil_of_right_ne_nil run (List.cons_ne_nil call [])
  frame := by
    intro other inside
    rw [added.currentFrame, ← current]
    rcases List.mem_append.mp inside with earlier | last
    · exact holding.frame other earlier
    · rw [List.mem_singleton.mp last, current]
  held := by
    rw [added.currentRecords, holding.held, List.map_append]
    exact (content_concat _ _).symm
  recorded := added.frames ▸ holding.recorded

theorem follows_captureRecord (injective : Function.Injective finish) {r : GlTraceRecorder σ}
    {captured : List (U64 × GlImportRecord)} (follows : Follows finish r captured)
    (call : U64 × GlImportRecord) :
    Follows finish (captureRecord finish r call.1 call.2) (captured ++ [call]) := by
  cases follows with
  | start no_call idle no_records no_frames =>
    have other : r.currentFrame ≠ some call.1 := idle ▸ nofun
    have unchanged : flushCurrentFrame finish r = r := by simp only [flushCurrentFrame, idle]
    have added : Captured (flushCurrentFrame finish r) (captureRecord finish r call.1 call.2) call.1
        call.2 := captureRecord_other other call.2
    rw [unchanged] at added
    refine .within [] [call] (by rw [no_call]; rfl) (added.holding_first no_records ?_)
    rw [no_frames]
    exact .nil
  | within before run runs holding =>
    by_cases same : r.currentFrame = some call.1
    · refine .within before (run ++ [call]) (List.runsOf_concat_same runs fun other inside => ?_)
        ((captureRecord_same same call.2).holding_next same holding)
      exact Option.some.inj ((holding.frame other inside).symm.trans same)
    · obtain ⟨other, inside⟩ := List.exists_mem_of_ne_nil run holding.nonempty
      refine .within (before ++ [run]) [call] ?_ ((captureRecord_other same call.2).holding_first
        (currentRecords_flush (holding.frame other inside)) (holding.recorded_flush injective))
      rw [List.runsOf_concat_new, runs]
      intro last ending key
      exact same (key ▸ holding.frame last (List.mem_last_of_getLast? runs ending))

theorem follows_foldl (injective : Function.Injective finish) (start : GlTraceRecorder σ)
    (idle : start.currentFrame = none) (no_records : start.currentRecords = [])
    (no_frames : start.frames = []) (captured : List (U64 × GlImportRecord)) :
    Follows finish (captured.foldl (fun r call => captureRecord finish r call.1 call.2) start)
      captured := by
  induction captured using List.reverseRecOn with
  | nil => exact .start rfl idle no_records no_frames
  | append_singleton captured call ih =>
    rw [List.foldl_concat]
    exact follows_captureRecord injective ih call

theorem Follows.recorded (injective : Function.Injective finish) {r : GlTraceRecorder σ}
    {captured : List (U64 × GlImportRecord)} (follows : Follows finish r captured) :
    Recorded finish (finalize finish r).frames (glGroups captured) := by
  cases follows with
  | start no_call idle no_records no_frames =>
    have unchanged : flushCurrentFrame finish r = r := by simp only [flushCurrentFrame, idle]
    rw [finalize, unchanged, no_frames, no_call]
    exact .nil
  | within before run runs holding =>
    rw [glGroups, runs]
    exact holding.recorded_flush injective

omit [DecidableEq σ] in
theorem Recorded.expand {fixture : GlTraceFixture σ} {groups : List GlGroup}
    (recorded : Recorded finish fixture.frames groups) :
    fixture.expand = (groups.runsOf GlGroup.hashed).flatMap fun run =>
      List.replicate (min run.length (2 ^ 64 - 1)) (run.headD []) := by
  unfold Recorded at recorded
  unfold GlTraceFixture.expand
  generalize groups.runsOf GlGroup.hashed = runs at recorded ⊢
  generalize fixture.frames = frames at recorded ⊢
  induction recorded with
  | nil => rfl
  | cons stands _ ih =>
    rw [List.flatMap_cons, List.flatMap_cons, ih, stands.count, toNat_countOf,
      List.headD_eq_head?_getD, stands.first]
    rfl

theorem replicate_head_eq_iff {run : List GlGroup} (nonempty : run ≠ []) :
    List.replicate (min run.length (2 ^ 64 - 1)) (run.headD []) = run ↔
      run.length < 2 ^ 64 ∧ ∀ group ∈ run, ∀ other ∈ run, group = other := by
  rw [eq_comm, List.eq_replicate_iff]
  have head : run.headD [] ∈ run := by
    cases run with
    | nil => exact absurd rfl nonempty
    | cons group _ => exact List.mem_cons_self
  constructor
  · rintro ⟨length, all⟩
    exact ⟨by omega, fun group left other right => (all group left).trans (all other right).symm⟩
  · rintro ⟨length, all⟩
    exact ⟨by omega, fun group inside => all group inside _ head⟩

def trace (finish : List Hashed → σ) (start : GlTraceRecorder σ)
    (captured : List (U64 × GlImportRecord)) : GlTraceFixture σ :=
  finalize finish (captured.foldl (fun r call => captureRecord finish r call.1 call.2) start)

/-- Neighbouring frames that agree in all that is hashed agree in everything, and not more than a
counter can hold agree. -/
def Distinguished (captured : List (U64 × GlImportRecord)) : Prop :=
  ∀ run ∈ (glGroups captured).runsOf GlGroup.hashed,
    run.length < 2 ^ 64 ∧ ∀ group ∈ run, ∀ other ∈ run, group = other

/-- A trace is lossless up to repetition exactly when no two neighbouring frames differ only in
what the signature leaves out. -/
theorem trace_lossless_iff (injective : Function.Injective finish)
    (captureStartFrame captureEndFrame stackSnapshotLen pointerSnapshotLen : U64)
    (captured : List (U64 × GlImportRecord)) :
    (trace finish (new captureStartFrame captureEndFrame stackSnapshotLen pointerSnapshotLen)
      captured).Lossless captured ↔ Distinguished captured := by
  have follows := follows_foldl injective
    (new captureStartFrame captureEndFrame stackSnapshotLen pointerSnapshotLen) rfl rfl rfl captured
  rw [GlTraceFixture.lossless_iff, trace, (follows.recorded injective).expand]
  have whole : ((glGroups captured).runsOf GlGroup.hashed).flatMap id = glGroups captured := by
    rw [List.flatMap_id, List.flatten_runsOf]
  refine (iff_of_eq (congrArg _ whole.symm)).trans ((List.flatMap_eq_iff ?_).trans ?_)
  · intro run _
    rw [List.length_replicate]
    exact Nat.min_le_left _ _
  · exact forall₂_congr fun run member =>
      replicate_head_eq_iff (List.ne_nil_of_mem_runsOf member)

def snapshotOf (bytesHex : String) : GlMemorySnapshot :=
  { addr := 0x10001000, requestedLen := 1, len := 1, truncated := false, region := .workRam, bytesHex }

/-- A draw of the texture to which `r1` points, with the first of its bytes. -/
def drawOf (bytesHex : String) : GlImportRecord :=
  let texture : GlRegisterSnapshot :=
    { name := "r1", value := 0x10001000, class_ := .mappedPointer, snapshot := snapshotOf bytesHex }
  { ordinal := 87, pc := 0x1f000000, lr := 0x18000100, sp := 0x10001000, returnValue := 0,
    stack := snapshotOf "00", registers := [texture] }

theorem equal_frames_counted :
    (trace id (new 0 9 0 0) [(1, drawOf "00"), (2, drawOf "00")]).Lossless
      [(1, drawOf "00"), (2, drawOf "00")] :=
  (trace_lossless_iff Function.injective_id 0 9 0 0 _).mpr (by
    unfold Distinguished
    decide +kernel)

/-- The texture changes in place from one frame to the next, and the second frame is gone. -/
theorem changed_texture_dropped :
    ¬ (trace id (new 0 9 0 0) [(1, drawOf "00"), (2, drawOf "ff")]).Lossless
      [(1, drawOf "00"), (2, drawOf "ff")] := by
  rw [GlTraceFixture.lossless_iff]
  decide +kernel

end GlTraceRecorder

end Clicky
