import Clicky.Memory
import Clicky.Lib.Attempt
import Clicky.Lib.LittleEndian
import Clicky.Lib.Extent
import Clicky.Lib.Span
import Clicky.Lib.Utf8

/-! The words and the strings in a program for the render server. -/
namespace Clicky.Usse

structure UsseWord where
  offset : Nat
  raw : U32
  lo : U16
  hi : U16
  deriving DecidableEq, Repr

structure UsseString where
  offset : Nat
  value : String
  deriving DecidableEq, Repr

structure UsseProgram where
  baseAddr : U32
  byteLen : Nat
  codeStart : Nat
  codeEnd : Nat
  words : List UsseWord
  strings : List UsseString
  renderServerVersion : Option String
  deriving DecidableEq, Repr

def isPrintable (b : U8) : Bool := 0x20 ≤ b && b ≤ 0x7e

/-- The inner loop: where the run of printable bytes ends. -/
def runEnd (bytes : List U8) (i : Nat) : Nat :=
  if inside : i < bytes.length then
    if isPrintable bytes[i] then runEnd bytes (i + 1) else i
  else i
termination_by bytes.length - i

theorem runEnd_eq (bytes : List U8) (i : Nat) :
    runEnd bytes i = i + ((bytes.drop i).takeWhile isPrintable).length := by
  fun_induction runEnd bytes i with
  | case1 i inside printable ih =>
    rw [ih, List.drop_eq_getElem_cons inside, List.takeWhile_cons_of_pos printable, List.length_cons]
    omega
  | case2 i inside other =>
    rw [List.drop_eq_getElem_cons inside, List.takeWhile_cons_of_neg other]
    rfl
  | case3 i outside =>
    rw [List.drop_eq_nil_of_le (by omega)]
    rfl

theorem runEnd_le {bytes : List U8} {i : Nat} (inside : i ≤ bytes.length) :
    runEnd bytes i ≤ bytes.length := by
  have run := (List.takeWhile_prefix isPrintable (l := bytes.drop i)).length_le
  rw [List.length_drop] at run
  rw [runEnd_eq]
  omega

/-- The loop goes on. -/
theorem lt_runEnd {bytes : List U8} {i : Nat} (inside : i < bytes.length)
    (printable : isPrintable bytes[i] = true) : i < runEnd bytes i := by
  rw [runEnd_eq, List.drop_eq_getElem_cons inside, List.takeWhile_cons_of_pos printable,
    List.length_cons]
  omega

/-- `String::from_utf8_lossy` for bytes that are all printable: each one is a character. -/
def fromAscii (bytes : List U8) : String := String.ofList (bytes.map fun b => Char.ofNat b.toNat)

/-- The outer loop, from an index on. -/
def stringsFrom (bytes : List U8) (minLen i : Nat) : List UsseString :=
  if inside : i < bytes.length then
    if printable : isPrintable bytes[i] then
      let stop := runEnd bytes i
      let rest := stringsFrom bytes minLen stop
      if stop - i ≥ minLen then ⟨i, fromAscii (bytes.slice i (stop - i))⟩ :: rest else rest
    else stringsFrom bytes minLen (i + 1)
  else []
termination_by bytes.length - i
decreasing_by
  · have on := lt_runEnd inside printable
    omega
  · omega

def extractAsciiStrings (bytes : List U8) (minLen : Nat) : List UsseString :=
  stringsFrom bytes minLen 0

def indexOutOfRange : String := "index out of bounds"

def byteAt (bytes : List U8) (i : Nat) : Except String U8 :=
  match bytes[i]? with
  | some b => .ok b
  | none => .error indexOutOfRange

def wordsFrom (bytes : List U8) (codeEnd off : Nat) : Except String (List UsseWord) := do
  if off + 4 ≤ codeEnd then
    let b0 ← byteAt bytes off
    let b1 ← byteAt bytes (off + 1)
    let b2 ← byteAt bytes (off + 2)
    let b3 ← byteAt bytes (off + 3)
    let raw := BitVec.ofLeBytes 32 [b0, b1, b2, b3]
    let rest ← wordsFrom bytes codeEnd (off + 4)
    return { offset := off, raw, lo := raw.setWidth 16, hi := (raw >>> 16).setWidth 16 } :: rest
  else return []
termination_by codeEnd - off

def versionPrefix : String := "RenderServerVersion:"

/-- Whether the string starts with the prefix. -/
def isVersion (s : UsseString) : Bool := versionPrefix.toList.isPrefixOf s.value.toList

def parse (baseAddr : U32) (bytes : List U8) : Except String UsseProgram := do
  let codeStart := if bytes.length ≥ 0x200 then 0x200 else 0
  let strings := extractAsciiStrings bytes 8
  let version := (strings.find? isVersion).map (·.value)
  let found := version.bind fun _ => strings.find? isVersion
  let codeEnd := min ((found.map (·.offset)).getD bytes.length) bytes.length
  let words ← wordsFrom bytes codeEnd codeStart
  return {
    baseAddr
    byteLen := bytes.length
    codeStart
    codeEnd
    words
    strings
    renderServerVersion := version }

theorem length_slice_runEnd {bytes : List U8} {i : Nat} (inside : i < bytes.length)
    (printable : isPrintable bytes[i] = true) :
    (bytes.slice i (runEnd bytes i - i)).length = runEnd bytes i - i := by
  have after := lt_runEnd inside printable
  have fits := runEnd_le (Nat.le_of_lt inside)
  exact List.length_slice (by omega)

theorem spansFrom_runEnd {bytes : List U8} {i : Nat} (inside : i < bytes.length)
    (printable : isPrintable bytes[i] = true) :
    List.spansFrom isPrintable i (bytes.drop i) =
      (i, bytes.slice i (runEnd bytes i - i)) ::
        List.spansFrom isPrintable (runEnd bytes i) (bytes.drop (runEnd bytes i)) := by
  have run : (bytes.drop i).takeWhile isPrintable <+: bytes.drop i := List.takeWhile_prefix _
  have parts := List.takeWhile_append_dropWhile (p := isPrintable) (l := bytes.drop i)
  have stop := runEnd_eq bytes i
  have cut : bytes.slice i (runEnd bytes i - i) = (bytes.drop i).takeWhile isPrintable := by
    rw [List.slice, stop, Nat.add_sub_cancel_left, ← List.prefix_iff_eq_take.mp run]
  have rest : bytes.drop (runEnd bytes i) = (bytes.drop i).dropWhile isPrintable := by
    rw [stop, ← List.drop_drop]
    nth_rewrite 2 [← parts]
    rw [List.drop_left]
  rw [cut, rest, stop, List.drop_eq_getElem_cons inside]
  exact List.spansFrom_cons_pos printable i _

/-- The scan finds the maximal runs, and keeps the long ones. -/
theorem stringsFrom_eq (bytes : List U8) (minLen i : Nat) :
    stringsFrom bytes minLen i = ((List.spansFrom isPrintable i (bytes.drop i)).filter fun span =>
      minLen ≤ span.2.length).map fun span => ⟨span.1, fromAscii span.2⟩ := by
  fun_induction stringsFrom bytes minLen i with
  | case1 i inside printable stop rest long ih =>
    have whole := length_slice_runEnd inside printable
    rw [spansFrom_runEnd inside printable, List.filter_cons_of_pos
      (by rwa [whole, decide_eq_true_eq]), List.map_cons, ← ih]
  | case2 i inside printable stop rest short ih =>
    have whole := length_slice_runEnd inside printable
    rw [spansFrom_runEnd inside printable, List.filter_cons_of_neg
      (by rwa [whole, decide_eq_true_eq]), ← ih]
  | case3 i inside other ih =>
    rw [ih, List.drop_eq_getElem_cons inside, List.spansFrom_cons_neg other]
  | case4 i outside =>
    rw [List.drop_eq_nil_of_le (by omega), List.spansFrom_nil]
    rfl

theorem isPrintable_lt {b : U8} (printable : isPrintable b = true) : b.toNat < 128 := by
  simp only [isPrintable, Bool.and_eq_true, decide_eq_true_eq, BitVec.le_def] at printable
  have upper : b.toNat ≤ 0x7e := printable.2
  omega

theorem toNat_asciiChar {n : Nat} (ascii : n < 128) : (Char.ofNat n).toNat = n := by
  have valid : n.isValidChar := .inl (by omega)
  rw [Char.ofNat, dif_pos valid]
  rfl

/-- Printable bytes are the characters that they are decoded to. -/
theorem encode_fromAscii {run : List U8} (all : ∀ b ∈ run, isPrintable b = true) :
    Utf8.encode (fromAscii run).toList = run := by
  have chars : (fromAscii run).toList = run.map fun b => Char.ofNat b.toNat := String.toList_ofList
  have ascii : ∀ c ∈ run.map (fun b => Char.ofNat b.toNat), c.toNat < 128 := by
    intro c member
    obtain ⟨b, inside, rfl⟩ := List.mem_map.mp member
    have small := isPrintable_lt (all b inside)
    rw [toNat_asciiChar small]
    exact small
  rw [chars, Utf8.encode_ascii ascii, List.map_map]
  refine (List.map_congr_left fun b member => ?_).trans (List.map_id run)
  change BitVec.ofNat 8 (Char.ofNat b.toNat).toNat = b
  rw [toNat_asciiChar (isPrintable_lt (all b member)), BitVec.ofNat_toNat, BitVec.setWidth_eq]

/-- At this offset there is a maximal run of printable bytes that is long enough. -/
def StringAt (bytes : List U8) (offset : Nat) (run : List U8) : Prop :=
  List.IsSpan isPrintable bytes offset run ∧ 8 ≤ run.length

def VersionAt (bytes : List U8) (offset : Nat) : Prop :=
  ∃ run, StringAt bytes offset run ∧ Utf8.encode versionPrefix.toList <+: run

theorem decode_printable {run : List U8} (all : ∀ b ∈ run, isPrintable b = true) :
    Utf8.decode run = some (fromAscii run).toList := by
  have decoded := Utf8.decode_encode (fromAscii run).toList
  rwa [encode_fromAscii all] at decoded

theorem mem_extractAsciiStrings {bytes : List U8} {s : UsseString} :
    s ∈ extractAsciiStrings bytes 8 ↔ ∃ run, StringAt bytes s.offset run ∧ s.value = fromAscii run := by
  rw [extractAsciiStrings, stringsFrom_eq, List.mem_map, List.drop_zero]
  constructor
  · rintro ⟨⟨offset, run⟩, member, rfl⟩
    obtain ⟨found, long⟩ := List.mem_filter.mp member
    obtain ⟨j, rfl, span⟩ := List.mem_spansFrom.mp found
    rw [← Nat.zero_add j] at span
    exact ⟨run, ⟨span, of_decide_eq_true long⟩, rfl⟩
  · rintro ⟨run, ⟨span, long⟩, value⟩
    refine ⟨(s.offset, run), List.mem_filter.mpr ⟨?_, decide_eq_true long⟩, by rw [← value]⟩
    exact List.mem_spansFrom.mpr ⟨s.offset, (Nat.zero_add _).symm, span⟩

theorem pairwise_extractAsciiStrings (bytes : List U8) :
    (extractAsciiStrings bytes 8).Pairwise fun s t => s.offset < t.offset := by
  rw [extractAsciiStrings, stringsFrom_eq, List.pairwise_map]
  exact (List.pairwise_spansFrom 0 _).filter _

def wordAt (bytes : List U8) (off : Nat) : UsseWord :=
  let raw := BitVec.ofLeBytes 32 (bytes.slice off 4)
  { offset := off, raw, lo := raw.setWidth 16, hi := (raw >>> 16).setWidth 16 }

theorem byteAt_eq {bytes : List U8} {i : Nat} (inside : i < bytes.length) :
    byteAt bytes i = .ok bytes[i] := by
  rw [byteAt, List.getElem?_eq_getElem inside]

/-- The loop reads inside of the bytes, and stops with the last word that ends in time. -/
theorem wordsFrom_ok {bytes : List U8} {codeEnd : Nat} (inside : codeEnd ≤ bytes.length)
    (off : Nat) : ∃ words, wordsFrom bytes codeEnd off = .ok words ∧ ∀ k : Nat, words[k]? =
      if off + 4 * k + 4 ≤ codeEnd then some (wordAt bytes (off + 4 * k)) else none := by
  fun_induction wordsFrom bytes codeEnd off with
  | case1 off more ih =>
    obtain ⟨rest, ok, each⟩ := ih
    have cut := List.slice_four (Nat.le_trans more inside)
    refine ⟨wordAt bytes off :: rest, ?_, fun k => ?_⟩
    · rw [byteAt_eq (by omega), byteAt_eq (by omega), byteAt_eq (by omega), byteAt_eq (by omega), ok,
        wordAt, cut]
      rfl
    · cases k with
      | zero => rw [if_pos more]; rfl
      | succ k =>
        have place : off + 4 * (k + 1) = off + 4 + 4 * k := by omega
        rw [List.getElem?_cons_succ, each k, place]
  | case2 off done =>
    exact ⟨[], rfl, fun k => by rw [if_neg (by omega)]; rfl⟩

theorem isVersion_iff {s : UsseString} {run : List U8} (value : s.value = fromAscii run)
    (all : ∀ b ∈ run, isPrintable b = true) :
    isVersion s = true ↔ Utf8.encode versionPrefix.toList <+: run := by
  rw [isVersion, List.isPrefixOf_iff_prefix, value]
  constructor
  · rintro ⟨rest, parts⟩
    refine ⟨Utf8.encode rest, ?_⟩
    rw [← Utf8.encode_append, parts, encode_fromAscii all]
  · intro starts
    have chars := starts.map fun b => Char.ofNat b.toNat
    have version : (Utf8.encode versionPrefix.toList).map (fun b => Char.ofNat b.toNat) =
        versionPrefix.toList := by decide
    rwa [version, ← String.toList_ofList (l := run.map _)] at chars

theorem versionAt_iff {bytes : List U8} {offset : Nat} : VersionAt bytes offset ↔
    ∃ s ∈ extractAsciiStrings bytes 8, isVersion s = true ∧ s.offset = offset := by
  constructor
  · rintro ⟨run, found, starts⟩
    exact ⟨⟨offset, fromAscii run⟩, mem_extractAsciiStrings.mpr ⟨run, found, rfl⟩,
      (isVersion_iff rfl found.1.all).mpr starts, rfl⟩
  · rintro ⟨s, member, version, rfl⟩
    obtain ⟨run, found, value⟩ := mem_extractAsciiStrings.mp member
    exact ⟨run, found, (isVersion_iff value found.1.all).mp version⟩

/-- The string that is found is the first of its kind. -/
theorem find_isVersion {bytes : List U8} {s : UsseString}
    (search : (extractAsciiStrings bytes 8).find? isVersion = some s) :
    VersionAt bytes s.offset ∧ (∀ offset, VersionAt bytes offset → s.offset ≤ offset) ∧
      ∀ v, ⟨s.offset, v⟩ ∈ extractAsciiStrings bytes 8 ↔ s.value = v := by
  have ordered := pairwise_extractAsciiStrings bytes
  have member := List.mem_of_find?_eq_some search
  obtain ⟨version, before, after, parts, earlier⟩ := List.find?_eq_some_iff_append.mp search
  rw [parts, List.pairwise_append, List.pairwise_cons] at ordered
  obtain ⟨_, ⟨later, _⟩, sooner⟩ := ordered
  refine ⟨versionAt_iff.mpr ⟨s, member, version, rfl⟩, fun offset another => ?_, fun v => ?_⟩
  · obtain ⟨t, other, also, rfl⟩ := versionAt_iff.mp another
    rw [parts, List.mem_append, List.mem_cons] at other
    rcases other with early | rfl | late
    · have differs := earlier t early
      rw [also] at differs
      cases differs
    · exact Nat.le_refl _
    · exact Nat.le_of_lt (later t late)
  · constructor
    · intro other
      rw [parts, List.mem_append, List.mem_cons] at other
      rcases other with early | same | late
      · exact absurd (sooner _ early s List.mem_cons_self) (Nat.lt_irrefl _)
      · rw [← same]
      · exact absurd (later _ late) (Nat.lt_irrefl _)
    · rintro rfl
      exact member

/-- What the program says about the bytes. -/
structure Parsed (baseAddr : U32) (bytes : List U8) (p : UsseProgram) : Prop where
  baseAddr : p.baseAddr = baseAddr
  byteLen : p.byteLen = bytes.length
  strings : ∀ s, s ∈ p.strings ↔
    ∃ run, StringAt bytes s.offset run ∧ Utf8.decode run = some s.value.toList
  ordered : p.strings.Pairwise fun s t => s.offset < t.offset
  codeStart : p.codeStart = if bytes.length < 0x200 then 0 else 0x200
  codeEnd : VersionAt bytes p.codeEnd ∧ (∀ offset, VersionAt bytes offset → p.codeEnd ≤ offset) ∨
    (∀ offset, ¬ VersionAt bytes offset) ∧ p.codeEnd = bytes.length
  version : ∀ v, p.renderServerVersion = some v ↔ ⟨p.codeEnd, v⟩ ∈ p.strings
  words : ∀ k : Nat, p.words[k]? = if p.codeStart + 4 * k + 4 ≤ p.codeEnd then
    some (wordAt bytes (p.codeStart + 4 * k)) else none

theorem strings_exact (bytes : List U8) (s : UsseString) : s ∈ extractAsciiStrings bytes 8 ↔
    ∃ run, StringAt bytes s.offset run ∧ Utf8.decode run = some s.value.toList := by
  rw [mem_extractAsciiStrings]
  refine exists_congr fun run => and_congr_right fun found => ?_
  rw [decode_printable found.1.all, Option.some.injEq, String.toList_inj, eq_comm]

/-- The end of the code, for what the search for the version finds. -/
theorem parse_eq {baseAddr : U32} {bytes : List U8} {found : Option UsseString} {codeEnd : Nat}
    {words : List UsseWord} (search : (extractAsciiStrings bytes 8).find? isVersion = found)
    (stop : min ((found.map (·.offset)).getD bytes.length) bytes.length = codeEnd)
    (ok : wordsFrom bytes codeEnd (if bytes.length ≥ 0x200 then 0x200 else 0) = .ok words) :
    parse baseAddr bytes = .ok {
      baseAddr
      byteLen := bytes.length
      codeStart := if bytes.length ≥ 0x200 then 0x200 else 0
      codeEnd
      words
      strings := extractAsciiStrings bytes 8
      renderServerVersion := found.map (·.value) } := by
  have same : ((found.map (·.value)).bind fun _ => found) = found := by
    cases found with
    | none => rfl
    | some s => rfl
  rw [parse]
  simp only [search, same, stop, ok]
  rfl

theorem parse_sound (baseAddr : U32) (bytes : List U8) :
    ∃ p, parse baseAddr bytes = .ok p ∧ Parsed baseAddr bytes p := by
  have start : (if bytes.length ≥ 0x200 then 0x200 else 0) =
      if bytes.length < 0x200 then 0 else 0x200 := by
    split <;> split <;> omega
  cases search : (extractAsciiStrings bytes 8).find? isVersion with
  | none =>
    have nowhere (offset : Nat) : ¬ VersionAt bytes offset := by
      rw [versionAt_iff]
      rintro ⟨s, member, version, _⟩
      exact List.find?_eq_none.mp search s member version
    obtain ⟨words, ok, each⟩ := wordsFrom_ok (Nat.le_refl bytes.length)
      (if bytes.length ≥ 0x200 then 0x200 else 0)
    refine ⟨_, parse_eq search (Nat.min_self _) ok, rfl, rfl, strings_exact bytes,
      pairwise_extractAsciiStrings bytes, start, .inr ⟨nowhere, rfl⟩, fun v => ?_, each⟩
    -- A string is not at the end of the bytes.
    refine iff_of_false nofun fun member => ?_
    obtain ⟨run, found, _⟩ := mem_extractAsciiStrings.mp member
    exact absurd found.1.lt_length (Nat.lt_irrefl _)
  | some s =>
    obtain ⟨run, found, _⟩ := mem_extractAsciiStrings.mp (List.mem_of_find?_eq_some search)
    have inside := Nat.le_of_lt found.1.lt_length
    obtain ⟨words, ok, each⟩ := wordsFrom_ok inside (if bytes.length ≥ 0x200 then 0x200 else 0)
    obtain ⟨version, first, only⟩ := find_isVersion search
    refine ⟨_, parse_eq search (Nat.min_eq_left inside) ok, rfl, rfl, strings_exact bytes,
      pairwise_extractAsciiStrings bytes, start, .inl ⟨version, first⟩, fun v => ?_, each⟩
    exact Iff.trans (Option.some_inj) (only v).symm

end Clicky.Usse
