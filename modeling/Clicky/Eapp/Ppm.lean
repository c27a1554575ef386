import Clicky.Eapp.PpmHeader
import Clicky.Eapp.TextureUpload
import Clicky.Lib.Blocks

/-! Framebuffers as PPM files: what the reader makes of the files of the writer, and of others. -/
namespace Clicky.Ppm

def addOverflow : String := "attempt to add with overflow"
def indexOutOfRange : String := "index out of bounds"
def startOutOfRange : String := "range start index out of range for slice"

def mulUsize (a b : Nat) : Except String Nat :=
  if a * b < 2 ^ 64 then .ok (a * b) else .error multiplyOverflow

def addUsize (a b : Nat) : Except String Nat :=
  if a + b < 2 ^ 64 then .ok (a + b) else .error addOverflow

/-- `Vec::with_capacity`, for elements of a size. -/
def withCapacity (count size : Nat) : Except String Unit :=
  if count * size < 2 ^ 63 then .ok () else .error capacityOverflow

def magic : List U8 := [0x50, 0x36]

def pixelOf (px : List U8) : Rgba8 := ⟨px.getD 0 0, px.getD 1 0, px.getD 2 0, 255⟩

def readPixels (width height : Nat) (payload : List U8) : Except String (Option (List Rgba8)) := do
  let need ← mulUsize (← mulUsize width height) 3
  if payload.length < need then return none
  else
    withCapacity (← mulUsize width height) 4
    return some (((payload.take need).chunksExact 3).map pixelOf)

/-- The cursor skips a byte after the last field, also where there is none. -/
def readPpmP6 (bytes : List U8) : Except String (Option (List Rgba8)) :=
  if magic.isPrefixOf bytes then
    match readFields [] (bytes.drop 2) with
    | some ([width, height, _], _ :: payload) => readPixels width height payload
    | some ([_, _, _], []) => .error startOutOfRange
    | some _ => .error indexOutOfRange
    | none => .ok none
  else .ok none

def decimal (n : Nat) : List U8 := Utf8.encode (Nat.toDigits 10 n)

def ppmHeader (width height : Nat) : List U8 :=
  Utf8.encode "P6\n".toList ++ decimal width ++ Utf8.encode " ".toList ++ decimal height ++
    Utf8.encode "\n255\n".toList

def rgbBytes (px : Rgba8) : List U8 := [px.r, px.g, px.b]

@[simp] theorem length_rgbBytes (px : Rgba8) : (rgbBytes px).length = 3 := rfl

/-- What is written to the file. -/
def framebufferToPpm (fb : List Rgba8) (width height : Nat) : Except String (List U8) := do
  withCapacity (← addUsize (← mulUsize (← mulUsize width height) 3) 64) 1
  return ppmHeader width height ++ fb.flatMap rgbBytes

theorem digitChar_byte : ∀ d < 10, d.digitChar.toNat < 128 ∧
    isAsciiWhitespace (BitVec.ofNat 8 d.digitChar.toNat) = false ∧
    BitVec.ofNat 8 d.digitChar.toNat ≠ hash := by decide

theorem mem_decimal {n : Nat} {b : U8} (member : b ∈ decimal n) :
    isAsciiWhitespace b = false ∧ b ≠ hash := by
  have ascii : ∀ c ∈ Nat.toDigits 10 n, c.toNat < 128 := fun c inside => by
    obtain ⟨d, small, rfl⟩ := Numeral.mem_toDigits (by decide) inside
    exact (digitChar_byte d small).1
  rw [decimal, Utf8.encode_ascii ascii] at member
  obtain ⟨c, inside, rfl⟩ := List.mem_map.mp member
  obtain ⟨d, small, rfl⟩ := Numeral.mem_toDigits (by decide) inside
  exact (digitChar_byte d small).2

theorem parseU32_decimal (n : Nat) : parseU32 (decimal n) = if n < 2 ^ 32 then some n else none := by
  rw [parseU32, decimal, Utf8.decode_encode, Option.bind_some]
  exact Numeral.read_toDigits (by decide) (by decide) _ n

theorem decimal_ne_nil (n : Nat) : decimal n ≠ [] := by
  intro empty
  have value := Utf8.decode_encode (Nat.toDigits 10 n)
  rw [show Utf8.encode (Nat.toDigits 10 n) = Utf8.encode [] from empty, Utf8.decode_encode] at value
  exact Nat.toDigits_ne_nil (Option.some.inj value).symm

/-- A number that is written is read, if it fits. -/
theorem field_decimal {space : U8} {n m : Nat} {tail rest : List U8}
    (before : isAsciiWhitespace space = true) (after : ∀ b ∈ tail.head?, isAsciiWhitespace b = true) :
    Field (space :: (decimal n ++ tail)) rest m ↔ n < 2 ^ 32 ∧ m = n ∧ rest = tail := by
  have all (b : U8) (member : b ∈ decimal n) : (!isAsciiWhitespace b) = true := by
    rw [(mem_decimal member).1]
    rfl
  have ends (b : U8) (first : b ∈ tail.head?) : (!isAsciiWhitespace b) = false := by
    rw [after b first]
    rfl
  have start (b : U8) (first : b ∈ (decimal n ++ tail).head?) : b ∈ decimal n := by
    rw [List.head?_append_of_ne_nil _ (decimal_ne_nil n)] at first
    exact List.mem_of_mem_head? first
  rw [field_space before, field_word (fun b first => (mem_decimal (start b first)).1)
      fun comment => (mem_decimal (start hash comment)).2 rfl,
    List.IsSpan.takeWhile_eq all ends, List.IsSpan.dropWhile_eq all ends, parseU32_decimal]
  split
  · rename_i fits
    simp only [fits, true_and, Option.some.injEq, eq_comm]
  · rename_i large
    exact iff_of_false nofun fun found => large found.1

/-- The first of the numbers that are written is the first that is read. -/
theorem fields_decimal {space : U8} {n m : Nat} {ns : List Nat} {tail rest : List U8}
    (before : isAsciiWhitespace space = true) (after : ∀ b ∈ tail.head?, isAsciiWhitespace b = true) :
    Fields (m :: ns) (space :: (decimal n ++ tail)) rest ↔
      (n < 2 ^ 32 ∧ m = n) ∧ Fields ns tail rest := by
  constructor
  · intro fields
    cases fields with
    | cons field later =>
      obtain ⟨fits, rfl, rfl⟩ := (field_decimal before after).mp field
      exact ⟨⟨fits, rfl⟩, later⟩
  · rintro ⟨⟨fits, rfl⟩, later⟩
    exact .cons ((field_decimal before after).mpr ⟨fits, rfl, rfl⟩) later

theorem fields_nil_iff {ahead rest : List U8} : Fields [] ahead rest ↔ rest = ahead := by
  constructor
  · rintro ⟨⟩
    rfl
  · rintro rfl
    exact .nil

/-- The three fields of the writer. -/
theorem readFields_decimal {a b c : U8} (first : isAsciiWhitespace a = true)
    (second : isAsciiWhitespace b = true) (third : isAsciiWhitespace c = true) (x y z : Nat)
    {tail : List U8} (after : ∀ d ∈ tail.head?, isAsciiWhitespace d = true) :
    readFields [] (a :: (decimal x ++ b :: (decimal y ++ c :: (decimal z ++ tail)))) =
      if x < 2 ^ 32 ∧ y < 2 ^ 32 ∧ z < 2 ^ 32 then some ([x, y, z], tail) else none := by
  have ahead (d : U8) (space : isAsciiWhitespace d = true) (l : List U8) :
      ∀ e ∈ (d :: l).head?, isAsciiWhitespace e = true := by
    rintro e ⟨⟩
    exact space
  have fields (p q r : Nat) (rest : List U8) : Fields [p, q, r]
        (a :: (decimal x ++ b :: (decimal y ++ c :: (decimal z ++ tail)))) rest ↔
      (x < 2 ^ 32 ∧ p = x) ∧ (y < 2 ^ 32 ∧ q = y) ∧ (z < 2 ^ 32 ∧ r = z) ∧ rest = tail := by
    rw [fields_decimal first (ahead b second _), fields_decimal second (ahead c third _),
      fields_decimal third after, fields_nil_iff]
  split
  · rename_i fits
    exact readFields_nil_iff.mpr ⟨rfl, (fields x y z tail).mpr
      ⟨⟨fits.1, rfl⟩, ⟨fits.2.1, rfl⟩, ⟨fits.2.2, rfl⟩, rfl⟩⟩
  · rename_i large
    refine Option.eq_none_iff_forall_not_mem.mpr fun result read => large ?_
    obtain ⟨full, found⟩ := readFields_nil_iff.mp read
    obtain ⟨p, q, r, three⟩ := List.length_eq_three.mp full
    rw [three, fields] at found
    exact ⟨found.1.1, found.2.1.1, found.2.2.1.1⟩

theorem readPixels_eq (width height : Nat) (payload : List U8) : readPixels width height payload =
    if width * height * 3 < 2 ^ 64 then
      if payload.length < width * height * 3 then .ok none
      else if width * height * 4 < 2 ^ 63 then
        .ok (some (((payload.take (width * height * 3)).chunksExact 3).map pixelOf))
      else .error capacityOverflow
    else .error multiplyOverflow := by
  unfold readPixels mulUsize withCapacity
  by_cases fits : width * height * 3 < 2 ^ 64
  · have area : width * height < 2 ^ 64 := by omega
    rw [if_pos area, Except.ok_bind, if_pos fits, if_pos fits, Except.ok_bind]
    split
    · rfl
    · rw [Except.ok_bind]
      split <;> rfl
  · rw [if_neg fits]
    by_cases area : width * height < 2 ^ 64
    · rw [if_pos area, Except.ok_bind, if_neg fits]
      rfl
    · rw [if_neg area]
      rfl

/-- The numbers of a header, with what follows them. -/
structure Header (bytes : List U8) (width height maxval : Nat) (rest : List U8) : Prop where
  fields : ∃ ahead, bytes = magic ++ ahead ∧ Fields [width, height, maxval] ahead rest

/-- There is a byte after the last number, and the numbers of bytes can be counted. -/
structure Complete (width height : Nat) (rest : List U8) : Prop where
  separated : rest ≠ []
  countable : width * height * 3 < 2 ^ 64
  allocatable : width * height * 3 < rest.length → width * height * 4 < 2 ^ 63

/-- After the magic number, the fields are read. -/
theorem readPpmP6_magic (ahead : List U8) : readPpmP6 (magic ++ ahead) =
    match readFields [] ahead with
    | some ([width, height, _], _ :: payload) => readPixels width height payload
    | some ([_, _, _], []) => .error startOutOfRange
    | some _ => .error indexOutOfRange
    | none => .ok none := by
  have starts : magic.isPrefixOf (magic ++ ahead) = true :=
    List.isPrefixOf_iff_prefix.mpr (List.prefix_append _ _)
  have cut : (magic ++ ahead).drop 2 = ahead := rfl
  rw [readPpmP6, if_pos starts, cut]

theorem readPpmP6_header {bytes rest : List U8} {width height maxval : Nat}
    (header : Header bytes width height maxval rest) : readPpmP6 bytes =
      match rest with
      | [] => .error startOutOfRange
      | _ :: payload => readPixels width height payload := by
  obtain ⟨ahead, rfl, fields⟩ := header
  rw [readPpmP6_magic, readFields_nil_iff.mpr ⟨rfl, fields⟩]
  cases rest <;> rfl

theorem readPpmP6_none {bytes : List U8}
    (headless : ∀ width height maxval rest, ¬ Header bytes width height maxval rest) :
    readPpmP6 bytes = .ok none := by
  by_cases starts : magic.isPrefixOf bytes = true
  · obtain ⟨ahead, rfl⟩ := List.isPrefixOf_iff_prefix.mp starts
    rw [readPpmP6_magic]
    cases read : readFields [] ahead with
    | none => rfl
    | some found =>
      obtain ⟨full, fields⟩ := readFields_nil_iff.mp read
      obtain ⟨width, height, maxval, three⟩ := List.length_eq_three.mp full
      rw [three] at fields
      exact absurd ⟨⟨ahead, rfl, fields⟩⟩ (headless width height maxval found.2)
  · rw [readPpmP6, if_neg starts]

theorem readPixels_returns_iff (width height : Nat) (payload : List U8) :
    (∃ result, readPixels width height payload = .ok result) ↔ width * height * 3 < 2 ^ 64 ∧
      (width * height * 3 ≤ payload.length → width * height * 4 < 2 ^ 63) := by
  rw [readPixels_eq]
  by_cases fits : width * height * 3 < 2 ^ 64
  · rw [if_pos fits]
    by_cases short : payload.length < width * height * 3
    · rw [if_pos short]
      exact iff_of_true ⟨none, rfl⟩ ⟨fits, fun enough => absurd short (Nat.not_lt.mpr enough)⟩
    · rw [if_neg short]
      by_cases room : width * height * 4 < 2 ^ 63
      · rw [if_pos room]
        exact iff_of_true ⟨_, rfl⟩ ⟨fits, fun _ => room⟩
      · rw [if_neg room]
        exact iff_of_false nofun fun both => room (both.2 (Nat.le_of_not_lt short))
  · rw [if_neg fits]
    exact iff_of_false nofun fun both => fits both.1

theorem Header.returns_iff {bytes rest : List U8} {width height maxval : Nat}
    (header : Header bytes width height maxval rest) :
    (∃ result, readPpmP6 bytes = .ok result) ↔ Complete width height rest := by
  rw [readPpmP6_header header]
  cases rest with
  | nil => exact iff_of_false nofun fun complete => complete.separated rfl
  | cons b payload =>
    dsimp only
    rw [readPixels_returns_iff]
    constructor
    · rintro ⟨countable, allocatable⟩
      exact ⟨nofun, countable, fun enough => allocatable (Nat.le_of_lt_succ enough)⟩
    · rintro ⟨_, countable, allocatable⟩
      exact ⟨countable, fun enough => allocatable (Nat.lt_succ_of_le enough)⟩

/-- The reader ends, with pixels or without, on all bytes but those whose header is not complete. -/
theorem readPpmP6_returns_iff (bytes : List U8) : (∃ result, readPpmP6 bytes = .ok result) ↔
    ∀ width height maxval rest, Header bytes width height maxval rest → Complete width height rest := by
  constructor
  · exact fun returns _ _ _ _ header => header.returns_iff.mp returns
  · intro complete
    by_cases headless : ∀ width height maxval rest, ¬ Header bytes width height maxval rest
    · exact ⟨none, readPpmP6_none headless⟩
    · simp only [not_forall, not_not] at headless
      obtain ⟨width, height, maxval, rest, header⟩ := headless
      exact header.returns_iff.mpr (complete width height maxval rest header)

theorem framebufferToPpm_iff {fb : List Rgba8} {width height : Nat} {bytes : List U8} :
    framebufferToPpm fb width height = .ok bytes ↔ width * height * 3 + 64 < 2 ^ 63 ∧
      ppmHeader width height ++ fb.flatMap rgbBytes = bytes := by
  unfold framebufferToPpm mulUsize addUsize withCapacity
  by_cases area : width * height < 2 ^ 64
  · rw [if_pos area, Except.ok_bind]
    by_cases triple : width * height * 3 < 2 ^ 64
    · rw [if_pos triple, Except.ok_bind]
      by_cases more : width * height * 3 + 64 < 2 ^ 64
      · rw [if_pos more, Except.ok_bind, Nat.mul_one]
        by_cases room : width * height * 3 + 64 < 2 ^ 63
        · rw [if_pos room, Except.ok_bind]
          constructor
          · rintro ⟨⟩
            exact ⟨room, rfl⟩
          · rintro ⟨_, rfl⟩
            rfl
        · rw [if_neg room]
          exact iff_of_false nofun fun both => room both.1
      · rw [if_neg more]
        exact iff_of_false nofun fun both => more (Nat.lt_trans both.1 (by decide))
    · rw [if_neg triple]
      exact iff_of_false nofun fun both => by omega
  · rw [if_neg area]
    exact iff_of_false nofun fun both => by omega

def RoundTrips (fb : List Rgba8) (width height : Nat) : Prop :=
  ∃ bytes, framebufferToPpm fb width height = .ok bytes ∧
    readPpmP6 bytes = .ok (some (fb.map fun px => { px with a := 255 }))

theorem readPpmP6_written (width height : Nat) (pixels : List U8) :
    readPpmP6 (ppmHeader width height ++ pixels) =
      if width < 2 ^ 32 ∧ height < 2 ^ 32 then readPixels width height pixels else .ok none := by
  have parts : ppmHeader width height ++ pixels = magic ++ newline :: (decimal width ++
      (0x20 : U8) :: (decimal height ++ newline :: (decimal 255 ++ newline :: pixels))) := by
    have ends : Utf8.encode "\n255\n".toList = newline :: (decimal 255 ++ [newline]) := by decide
    have start : Utf8.encode "P6\n".toList = magic ++ [newline] := by decide
    have space : Utf8.encode " ".toList = [0x20] := by decide
    rw [ppmHeader, start, space, ends]
    simp
  rw [parts, readPpmP6_magic, readFields_decimal newline_space (by decide) newline_space width height
    255 (by rintro d ⟨⟩; exact newline_space)]
  by_cases fits : width < 2 ^ 32 ∧ height < 2 ^ 32
  · rw [if_pos fits, if_pos ⟨fits.1, fits.2, by decide⟩]
  · rw [if_neg fits, if_neg fun all => fits ⟨all.1, all.2.1⟩]

theorem length_pixels {width height : Nat} {fb : List Rgba8} (full : fb.length = width * height) :
    (fb.flatMap rgbBytes).length = width * height * 3 := by
  rw [List.length_flatMap_const fun px _ => length_rgbBytes px, full]

/-- All pixels come back from the payload, without their alpha. -/
theorem readPixels_written {width height : Nat} {fb : List Rgba8} (full : fb.length = width * height)
    (room : width * height * 4 < 2 ^ 63) :
    readPixels width height (fb.flatMap rgbBytes) =
      .ok (some (fb.map fun px => { px with a := 255 })) := by
  have size := length_pixels full
  rw [readPixels_eq, if_pos (by omega), if_neg (by omega), if_pos room, ← size, List.take_length,
    List.chunksExact_flatMap_const (by decide) fun px _ => length_rgbBytes px, List.map_map]
  rfl

theorem roundTrips_iff {width height : Nat} {fb : List Rgba8} (full : fb.length = width * height) :
    RoundTrips fb width height ↔
      width < 2 ^ 32 ∧ height < 2 ^ 32 ∧ width * height * 4 < 2 ^ 63 := by
  constructor
  · rintro ⟨bytes, written, read⟩
    obtain ⟨_, rfl⟩ := framebufferToPpm_iff.mp written
    rw [readPpmP6_written] at read
    split at read
    · rename_i fits
      have allocated := ((readPixels_returns_iff _ _ _).mp ⟨_, read⟩).2
      exact ⟨fits.1, fits.2, allocated (Nat.le_of_eq (length_pixels full).symm)⟩
    · cases read
  · rintro ⟨narrow, low, room⟩
    refine ⟨_, framebufferToPpm_iff.mpr ⟨by omega, rfl⟩, ?_⟩
    rw [readPpmP6_written, if_pos ⟨narrow, low⟩, readPixels_written full room]

/-- When a framebuffer comes back from its file, and on which bytes the reader ends. -/
theorem ppm_sound_iff {width height : Nat} {fb : List Rgba8} (full : fb.length = width * height)
    (bytes : List U8) :
    (RoundTrips fb width height ↔
      width < 2 ^ 32 ∧ height < 2 ^ 32 ∧ width * height * 4 < 2 ^ 63) ∧
    ((∃ result, readPpmP6 bytes = .ok result) ↔
      ∀ width height maxval rest, Header bytes width height maxval rest →
        Complete width height rest) :=
  ⟨roundTrips_iff full, readPpmP6_returns_iff bytes⟩

/-- The file of a white pixel, up to the last number of its header. -/
def truncated : List U8 := [0x50, 0x36, 0x0a, 0x31, 0x20, 0x31, 0x0a, 0x32, 0x35, 0x35]

theorem white_pixel_and_truncated :
    (RoundTrips [.white] 1 1 ↔ 1 < 2 ^ 32 ∧ 1 < 2 ^ 32 ∧ 1 * 1 * 4 < 2 ^ 63) ∧
    ((∃ result, readPpmP6 truncated = .ok result) ↔
      ∀ width height maxval rest, Header truncated width height maxval rest →
        Complete width height rest) :=
  ppm_sound_iff (by decide) truncated

theorem truncated_header_panics :
    ¬ ((∀ width height (fb : List Rgba8), fb.length = width * height → RoundTrips fb width height) ∧
      ∀ bytes, ∃ result, readPpmP6 bytes = .ok result) := by
  rintro ⟨_, total⟩
  obtain ⟨result, returned⟩ := total truncated
  have parts : truncated = magic ++ newline :: (decimal 1 ++
      (0x20 : U8) :: (decimal 1 ++ newline :: (decimal 255 ++ []))) := by decide
  rw [parts, readPpmP6_magic, readFields_decimal newline_space (by decide) newline_space 1 1 255
    fun _ none => by cases none] at returned
  cases returned

end Clicky.Ppm
