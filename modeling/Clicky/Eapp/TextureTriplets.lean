import Clicky.Eapp.GlTrace
import Clicky.Lib.Scan

/-! The uploads of textures in a trace: three calls in a row, with ordinals 45, 4 and 99. -/
namespace Clicky

structure TextureUploadCandidate where
  ordinal45Seq : U64
  ordinal4Seq : U64
  ordinal99Seq : U64
  objectTag : U32
  descriptorPtr : U32
  descriptorSnapshot : Option GlMemorySnapshot
  prepWidth : U32
  prepHeight : U32
  target : U32
  level : U32
  internalFormat : U32
  width : U32
  height : U32
  border : U32
  sourceFormat : U32
  pixelType : U32
  sourcePtr : U32
  sourceSnapshot : Option GlMemorySnapshot
  sourceFile : Option GlFileBacking
  ret45 : U32
  ret4 : U32
  ret99 : U32
  deriving DecidableEq, Repr

namespace GlImportRecord

def register (record : GlImportRecord) (name : String) : Option GlRegisterSnapshot :=
  record.registers.find? fun reg => reg.name = name

def stackWord (record : GlImportRecord) (offset : U64) : Option GlStackWordSnapshot :=
  record.stackWords.find? fun word => word.offset = offset

end GlImportRecord

/-- `Ord::max`. -/
def maxU32 (a b : U32) : U32 := if a ≤ b then b else a

def decodeTextureTriplet (ord45 ord4 ord99 : GlImportRecord) : Option TextureUploadCandidate := do
  let r45_0 := (← ord45.register "r0").value
  let r45_1 ← ord45.register "r1"
  let r45_2 := (← ord45.register "r2").value
  let r45_3 := (← ord45.register "r3").value
  let r4_0 := (← ord4.register "r0").value
  let r99_0 := (← ord99.register "r0").value
  let r99_1 := (← ord99.register "r1").value
  let r99_2 := (← ord99.register "r2").value
  let r99_3 := (← ord99.register "r3").value
  let height := (← ord99.stackWord 0x00).value
  let border := (← ord99.stackWord 0x04).value
  let sourceFormat := (← ord99.stackWord 0x08).value
  let pixelType := (← ord99.stackWord 0x0c).value
  let source ← ord99.stackWord 0x10
  return {
    ordinal45Seq := ord45.seq
    ordinal4Seq := ord4.seq
    ordinal99Seq := ord99.seq
    objectTag := r45_0
    descriptorPtr := r45_1.value
    descriptorSnapshot := r45_1.snapshot
    prepWidth := r45_2
    prepHeight := r45_3
    target := maxU32 r4_0 r99_0
    level := r99_1
    internalFormat := r99_2
    width := r99_3
    height
    border
    sourceFormat
    pixelType
    sourcePtr := source.value
    sourceSnapshot := source.snapshot
    sourceFile := source.snapshot.bind (·.fileBacking)
    ret45 := ord45.returnValue
    ret4 := ord4.returnValue
    ret99 := ord99.returnValue }

/-- The loop over the records of a frame, from an index on. -/
def scanRecords : List GlImportRecord → List TextureUploadCandidate
  | a :: b :: c :: rest =>
    if a.ordinal = 45 ∧ b.ordinal = 4 ∧ c.ordinal = 99 then
      (decodeTextureTriplet a b c).toList ++ scanRecords rest
    else scanRecords (b :: c :: rest)
  | _ => []

def textureUploadCandidates {σ : Type} (fixture : GlTraceFixture σ) : List TextureUploadCandidate :=
  fixture.frames.flatMap fun frame => scanRecords frame.records

/-- The candidate is made from these calls. All registers and words of the stack that it needs are
recorded. -/
structure TakenFrom (a b c : GlImportRecord) (t : TextureUploadCandidate) : Prop where
  seqs : t.ordinal45Seq = a.seq ∧ t.ordinal4Seq = b.seq ∧ t.ordinal99Seq = c.seq
  returns : t.ret45 = a.returnValue ∧ t.ret4 = b.returnValue ∧ t.ret99 = c.returnValue
  objectTag : (a.register "r0").map (·.value) = some t.objectTag
  descriptor : (a.register "r1").map (fun r => (r.value, r.snapshot)) =
    some (t.descriptorPtr, t.descriptorSnapshot)
  prepWidth : (a.register "r2").map (·.value) = some t.prepWidth
  prepHeight : (a.register "r3").map (·.value) = some t.prepHeight
  target : ∃ r4 r99, b.register "r0" = some r4 ∧ c.register "r0" = some r99 ∧
    t.target = maxU32 r4.value r99.value
  level : (c.register "r1").map (·.value) = some t.level
  internalFormat : (c.register "r2").map (·.value) = some t.internalFormat
  width : (c.register "r3").map (·.value) = some t.width
  height : (c.stackWord 0x00).map (·.value) = some t.height
  border : (c.stackWord 0x04).map (·.value) = some t.border
  sourceFormat : (c.stackWord 0x08).map (·.value) = some t.sourceFormat
  pixelType : (c.stackWord 0x0c).map (·.value) = some t.pixelType
  source : (c.stackWord 0x10).map (fun w => (w.value, w.snapshot)) =
    some (t.sourcePtr, t.sourceSnapshot)
  sourceFile : t.sourceFile = t.sourceSnapshot.bind (·.fileBacking)

theorem TakenFrom.of_decoded {a b c : GlImportRecord} {t : TextureUploadCandidate}
    (decoded : decodeTextureTriplet a b c = some t) : TakenFrom a b c t := by
  unfold decodeTextureTriplet at decoded
  obtain ⟨r0, h0, decoded⟩ := Option.bind_eq_some_iff.mp decoded
  obtain ⟨r1, h1, decoded⟩ := Option.bind_eq_some_iff.mp decoded
  obtain ⟨r2, h2, decoded⟩ := Option.bind_eq_some_iff.mp decoded
  obtain ⟨r3, h3, decoded⟩ := Option.bind_eq_some_iff.mp decoded
  obtain ⟨s0, k0, decoded⟩ := Option.bind_eq_some_iff.mp decoded
  obtain ⟨u0, l0, decoded⟩ := Option.bind_eq_some_iff.mp decoded
  obtain ⟨u1, l1, decoded⟩ := Option.bind_eq_some_iff.mp decoded
  obtain ⟨u2, l2, decoded⟩ := Option.bind_eq_some_iff.mp decoded
  obtain ⟨u3, l3, decoded⟩ := Option.bind_eq_some_iff.mp decoded
  obtain ⟨w0, m0, decoded⟩ := Option.bind_eq_some_iff.mp decoded
  obtain ⟨w1, m1, decoded⟩ := Option.bind_eq_some_iff.mp decoded
  obtain ⟨w2, m2, decoded⟩ := Option.bind_eq_some_iff.mp decoded
  obtain ⟨w3, m3, decoded⟩ := Option.bind_eq_some_iff.mp decoded
  obtain ⟨w4, m4, decoded⟩ := Option.bind_eq_some_iff.mp decoded
  cases decoded
  exact
    { seqs := ⟨rfl, rfl, rfl⟩
      returns := ⟨rfl, rfl, rfl⟩
      objectTag := by rw [h0]; rfl
      descriptor := by rw [h1]; rfl
      prepWidth := by rw [h2]; rfl
      prepHeight := by rw [h3]; rfl
      target := ⟨s0, u0, k0, l0, rfl⟩
      level := by rw [l1]; rfl
      internalFormat := by rw [l2]; rfl
      width := by rw [l3]; rfl
      height := by rw [m0]; rfl
      border := by rw [m1]; rfl
      sourceFormat := by rw [m2]; rfl
      pixelType := by rw [m3]; rfl
      source := by rw [m4]; rfl
      sourceFile := rfl }

/-- What is recorded of the calls is all that decoding needs. -/
theorem TakenFrom.decoded {a b c : GlImportRecord} {t : TextureUploadCandidate}
    (taken : TakenFrom a b c t) : decodeTextureTriplet a b c = some t := by
  unfold decodeTextureTriplet
  obtain ⟨⟨s45, s4, s99⟩, ⟨ret45, ret4, ret99⟩, objectTag, descriptor, prepWidth, prepHeight,
    ⟨r4, r99, k0, l0, target⟩, level, internalFormat, width, height, border, sourceFormat, pixelType,
    source, sourceFile⟩ := taken
  obtain ⟨r0, h0, v0⟩ := Option.map_eq_some_iff.mp objectTag
  obtain ⟨r1, h1, v1⟩ := Option.map_eq_some_iff.mp descriptor
  obtain ⟨r2, h2, v2⟩ := Option.map_eq_some_iff.mp prepWidth
  obtain ⟨r3, h3, v3⟩ := Option.map_eq_some_iff.mp prepHeight
  obtain ⟨u1, l1, x1⟩ := Option.map_eq_some_iff.mp level
  obtain ⟨u2, l2, x2⟩ := Option.map_eq_some_iff.mp internalFormat
  obtain ⟨u3, l3, x3⟩ := Option.map_eq_some_iff.mp width
  obtain ⟨w0, m0, y0⟩ := Option.map_eq_some_iff.mp height
  obtain ⟨w1, m1, y1⟩ := Option.map_eq_some_iff.mp border
  obtain ⟨w2, m2, y2⟩ := Option.map_eq_some_iff.mp sourceFormat
  obtain ⟨w3, m3, y3⟩ := Option.map_eq_some_iff.mp pixelType
  obtain ⟨w4, m4, y4⟩ := Option.map_eq_some_iff.mp source
  obtain ⟨d1, d2⟩ := Prod.mk.inj v1
  obtain ⟨z1, z2⟩ := Prod.mk.inj y4
  rw [h0, h1, h2, h3, k0, l0, l1, l2, l3, m0, m1, m2, m3, m4]
  simp only [Option.bind_eq_bind, Option.bind_some, Option.pure_def, v0, d1, d2, v2, v3, x1, x2, x3, y0,
    y1, y2, y3, z1, z2, ← target, ← sourceFile, ← s45, ← s4, ← s99, ← ret45, ← ret4, ← ret99]

theorem decodeTextureTriplet_iff (a b c : GlImportRecord) (t : TextureUploadCandidate) :
    decodeTextureTriplet a b c = some t ↔ TakenFrom a b c t := ⟨.of_decoded, (·.decoded)⟩

/-- What three calls at the front come to. -/
def tripletInFront : List GlImportRecord → Option TextureUploadCandidate
  | a :: b :: c :: _ =>
    if a.ordinal = 45 ∧ b.ordinal = 4 ∧ c.ordinal = 99 then decodeTextureTriplet a b c else none
  | _ => none

theorem tripletInFront_of_ordinal {records : List GlImportRecord}
    (other : ∀ a ∈ records.head?, a.ordinal ≠ 45) : tripletInFront records = none := by
  match records with
  | [] | [_] | [_, _] => rfl
  | a :: b :: c :: rest => exact if_neg fun ordinals => other a rfl ordinals.1

/-- The loop misses nothing: where it goes on by three, no triple starts at the two records in
between, as neither has ordinal 45. -/
theorem scanRecords_eq (records : List GlImportRecord) :
    scanRecords records = records.findAll tripletInFront := by
  induction records using scanRecords.induct with
  | case1 a b c rest ordinals ih =>
    have within : ∀ j < 2, tripletInFront ((b :: c :: rest).drop j) = none := by
      intro j before
      apply tripletInFront_of_ordinal
      have places : j = 0 ∨ j = 1 := by omega
      rcases places with rfl | rfl
      · rintro _ ⟨⟩
        rw [ordinals.2.1]
        decide
      · rintro _ ⟨⟩
        rw [ordinals.2.2]
        decide
    rw [scanRecords, if_pos ordinals, List.findAll, List.findAll_skip within, ih]
    congr 2
    exact (if_pos ordinals).symm
  | case2 a b c rest others ih =>
    have nothing : tripletInFront (a :: b :: c :: rest) = none := if_neg others
    have onward : (a :: b :: c :: rest).findAll tripletInFront =
        (b :: c :: rest).findAll tripletInFront := by
      rw [List.findAll, nothing]
      rfl
    rw [scanRecords, if_neg others, ih, onward]
  | case3 records short =>
    rcases records with _ | ⟨a, _ | ⟨b, _ | ⟨c, rest⟩⟩⟩
    · rfl
    · rfl
    · rfl
    · exact absurd rfl (short a b c rest)

/-- A candidate that stands at a position of the records of a frame. -/
structure CandidateAt (records : List GlImportRecord) (i : Nat) (t : TextureUploadCandidate) :
    Prop where
  triple : ∃ a b c, records[i]? = some a ∧ records[i + 1]? = some b ∧ records[i + 2]? = some c ∧
    a.ordinal = 45 ∧ b.ordinal = 4 ∧ c.ordinal = 99 ∧ TakenFrom a b c t

theorem tripletInFront_iff (records : List GlImportRecord) (i : Nat) (t : TextureUploadCandidate) :
    tripletInFront (records.drop i) = some t ↔ CandidateAt records i t := by
  have ahead (k : Nat) : (records.drop i)[k]? = records[i + k]? := List.getElem?_drop
  constructor
  · intro found
    match front : records.drop i with
    | [] | [_] | [_, _] =>
      rw [front] at found
      cases found
    | a :: b :: c :: rest =>
      rw [front] at found ahead
      change (if _ then _ else _) = _ at found
      split at found
      · rename_i ordinals
        have taken := (decodeTextureTriplet_iff a b c t).mp found
        exact ⟨a, b, c, (ahead 0).symm, (ahead 1).symm, (ahead 2).symm, ordinals.1, ordinals.2.1,
          ordinals.2.2, taken⟩
      · cases found
  · rintro ⟨a, b, c, first, second, third, ord45, ord4, ord99, taken⟩
    rw [← Nat.add_zero i, ← ahead] at first
    rw [← ahead] at second third
    match front : records.drop i with
    | [] | [_] | [_, _] =>
      rw [front] at third
      cases third
    | x :: y :: z :: rest =>
      rw [front] at first second third
      cases first
      cases second
      cases third
      exact (if_pos ⟨ord45, ord4, ord99⟩).trans ((decodeTextureTriplet_iff a b c t).mpr taken)

/-- The candidates of a trace, frame by frame and position by position. -/
theorem candidates_exact {σ : Type} (fixture : GlTraceFixture σ) :
    ∃ candidateAt : List GlImportRecord → Nat → Option TextureUploadCandidate,
      (∀ records i t, candidateAt records i = some t ↔ CandidateAt records i t) ∧
      textureUploadCandidates fixture = fixture.frames.flatMap fun frame =>
        (List.range frame.records.length).filterMap (candidateAt frame.records) := by
  refine ⟨fun records i => tripletInFront (records.drop i), tripletInFront_iff, ?_⟩
  unfold textureUploadCandidates
  congr 1
  funext frame
  rw [scanRecords_eq, List.findAll_eq]

end Clicky
