import Clicky.Memory
import Clicky.Lib.Numeral
import Clicky.Lib.Span
import Clicky.Lib.Utf8

/-! The fields at the start of a PPM file: how they are read, and what they can look like. -/
namespace Clicky.Ppm

def isAsciiWhitespace (b : U8) : Bool :=
  b == 0x20 || b == 0x09 || b == 0x0a || b == 0x0c || b == 0x0d

def hash : U8 := 0x23
def newline : U8 := 0x0a

def skipLine (text : List U8) : List U8 := text.dropWhile (· != newline)

/-- A comment has at least its mark. -/
theorem length_skipLine_lt {text : List U8} (comment : text.head? = some hash) :
    (skipLine text).length < text.length := by
  cases text with
  | nil => cases comment
  | cons b text =>
    cases comment
    have skips : skipLine (hash :: text) = text.dropWhile (· != newline) := rfl
    rw [skips]
    exact Nat.lt_succ_of_le (List.dropWhile_suffix _).length_le

/-- `from_utf8`, and `parse::<u32>`. -/
def parseU32 (token : List U8) : Option Nat := (Utf8.decode token).bind (Numeral.read 10 (2 ^ 32))

/-- The loop until there are three fields. The cursor is the list of the bytes ahead of it. -/
def readFields (fields : List Nat) (ahead : List U8) : Option (List Nat × List U8) :=
  if _more : fields.length < 3 then
    let start := ahead.dropWhile isAsciiWhitespace
    if _comment : start.head? = some hash then readFields fields (skipLine start)
    else
      match parseU32 (start.takeWhile (!isAsciiWhitespace ·)) with
      | some field => readFields (fields ++ [field]) (start.dropWhile (!isAsciiWhitespace ·))
      | none => none
  else some (fields, ahead)
termination_by (3 - fields.length, ahead.length)
decreasing_by
  · right
    have skipped : start.length ≤ ahead.length := (List.dropWhile_suffix _).length_le
    exact Nat.lt_of_lt_of_le (length_skipLine_lt _comment) skipped
  · left
    rw [List.length_append, List.length_singleton]
    omega

/-- What may stand in front of a field: whitespace, and comments that end with their line. -/
inductive Gap : List U8 → Prop where
  | nil : Gap []
  | space {b : U8} {gap : List U8} : isAsciiWhitespace b = true → Gap gap → Gap (b :: gap)
  | comment {text gap : List U8} : newline ∉ text → Gap (newline :: gap) →
    Gap (hash :: text ++ newline :: gap)

structure Word (token : List U8) : Prop where
  nonempty : token ≠ []
  all : ∀ b ∈ token, isAsciiWhitespace b = false
  notComment : token.head? ≠ some hash

/-- A field is a word that spells a number, up to the end or to whitespace. -/
inductive Field : List U8 → List U8 → Nat → Prop where
  | word {gap token rest : List U8} {n : Nat} : Gap gap → Word token →
    (∀ b ∈ rest.head?, isAsciiWhitespace b = true) → parseU32 token = some n →
    Field (gap ++ token ++ rest) rest n

inductive Fields : List Nat → List U8 → List U8 → Prop where
  | nil {ahead : List U8} : Fields [] ahead ahead
  | cons {ahead between rest : List U8} {n : Nat} {ns : List Nat} :
    Field ahead between n → Fields ns between rest → Fields (n :: ns) ahead rest

theorem hash_not_space : isAsciiWhitespace hash = false := by decide

theorem newline_space : isAsciiWhitespace newline = true := by decide

/-- What a word starts with. -/
theorem Word.first {token ahead rest : List U8} {b : U8} (word : Word token)
    (whole : b :: ahead = token ++ rest) : isAsciiWhitespace b = false ∧ b ≠ hash := by
  cases token with
  | nil => exact absurd rfl word.nonempty
  | cons c token =>
    cases whole
    exact ⟨word.all b List.mem_cons_self, fun same => word.notComment (congrArg some same)⟩

/-- A gap in front of a word may have more whitespace in front. -/
theorem field_space {b : U8} (space : isAsciiWhitespace b = true) {ahead rest : List U8} {n : Nat} :
    Field (b :: ahead) rest n ↔ Field ahead rest n := by
  constructor
  · intro field
    generalize whole : b :: ahead = text at field
    obtain ⟨between, word, ends, value⟩ := field
    cases between with
    | nil =>
      rw [(word.first whole).1] at space
      cases space
    | space _ gap =>
      cases whole
      exact .word gap word ends value
    | comment =>
      cases whole
      rw [hash_not_space] at space
      cases space
  · rintro ⟨gap, word, ends, value⟩
    exact .word (.space space gap) word ends value

theorem field_dropWhile {ahead rest : List U8} {n : Nat} :
    Field (ahead.dropWhile isAsciiWhitespace) rest n ↔ Field ahead rest n := by
  induction ahead with
  | nil => rfl
  | cons b ahead ih =>
    by_cases space : isAsciiWhitespace b = true
    · rw [List.dropWhile_cons_of_pos space, field_space space, ih]
    · rw [List.dropWhile_cons_of_neg space]

theorem skipLine_comment {text gap : List U8} (line : newline ∉ text) :
    skipLine (hash :: text ++ newline :: gap) = newline :: gap := by
  have inLine (b : U8) (member : b ∈ hash :: text) : (b != newline) = true := by
    rcases List.mem_cons.mp member with rfl | inside
    · rfl
    · exact bne_iff_ne.mpr fun same => line (same ▸ inside)
  refine List.IsSpan.dropWhile_eq inLine fun b first => ?_
  cases first
  rfl

theorem skipLine_starts {text rest : List U8} {b : U8} (skipped : skipLine text = b :: rest) :
    b = newline := by
  have first := List.head?_dropWhile_not (· != newline) text
  unfold skipLine at skipped
  rw [skipped] at first
  exact bne_eq_false_iff_eq.mp first

theorem not_field_nil {rest : List U8} {n : Nat} : ¬ Field [] rest n := by
  intro field
  generalize whole : ([] : List U8) = all at field
  obtain ⟨gap, word, ends, value⟩ := field
  rw [eq_comm, List.append_eq_nil_iff, List.append_eq_nil_iff] at whole
  exact word.nonempty whole.1.2

/-- A line that is skipped is a comment in the gap. -/
theorem comment_append (line gap token rest : List U8) :
    hash :: line ++ newline :: gap ++ token ++ rest =
      hash :: line ++ newline :: (gap ++ token ++ rest) := by simp

theorem field_comment {start rest : List U8} {n : Nat} (comment : start.head? = some hash) :
    Field (skipLine start) rest n ↔ Field start rest n := by
  cases start with
  | nil => cases comment
  | cons b text =>
    cases comment
    constructor
    · intro field
      have line : newline ∉ text.takeWhile (· != newline) := fun member => by
        have differs := List.mem_takeWhile_imp member
        exact absurd differs (by decide)
      have parts : hash :: text = hash :: text.takeWhile (· != newline) ++ skipLine (hash :: text) :=
        congrArg _ List.takeWhile_append_dropWhile.symm
      generalize whole : skipLine (hash :: text) = after at field parts
      cases after with
      | nil => exact absurd field not_field_nil
      | cons c after =>
        cases skipLine_starts whole
        generalize same : newline :: after = all at field
        obtain ⟨between, word, ends, value⟩ := field
        cases between with
        | nil =>
          have space := (word.first same).1
          rw [newline_space] at space
          cases space
        | space _ gap =>
          cases same
          rw [parts]
          have made := Field.word (.comment line (.space newline_space gap)) word ends value
          rwa [comment_append] at made
        | comment => cases same
    · intro field
      generalize whole : hash :: text = all at field
      obtain ⟨between, word, ends, value⟩ := field
      cases between with
      | nil => exact absurd rfl (word.first whole).2
      | space space _ =>
        cases whole
        rw [hash_not_space] at space
        cases space
      | @comment line gap fresh later =>
        rw [comment_append, skipLine_comment fresh]
        exact .word later word ends value

theorem parseU32_nil : parseU32 [] = none := by
  have empty : Utf8.decode [] = some [] := Utf8.decode_encode []
  rw [parseU32, empty]
  rfl

/-- Where a word starts, it is the field. -/
theorem field_word {start rest : List U8} {n : Nat}
    (begins : ∀ b ∈ start.head?, isAsciiWhitespace b = false) (notComment : start.head? ≠ some hash) :
    Field start rest n ↔ parseU32 (start.takeWhile (!isAsciiWhitespace ·)) = some n ∧
      start.dropWhile (!isAsciiWhitespace ·) = rest := by
  constructor
  · rintro ⟨between, word, ends, value⟩
    cases between with
    | nil =>
      have all (b : U8) (member : b ∈ _) := Bool.not_eq_true' _ ▸ word.all b member
      have stops (b : U8) (first : b ∈ rest.head?) : (!isAsciiWhitespace b) = false := by
        rw [ends b first]
        rfl
      rw [List.nil_append, List.IsSpan.takeWhile_eq all stops, List.IsSpan.dropWhile_eq all stops]
      exact ⟨value, rfl⟩
    | space space _ =>
      rw [begins _ rfl] at space
      cases space
    | comment => exact absurd rfl notComment
  · rintro ⟨value, rfl⟩
    have parts := List.takeWhile_append_dropWhile (p := (!isAsciiWhitespace ·)) (l := start)
    have word : Word (start.takeWhile (!isAsciiWhitespace ·)) := by
      refine ⟨fun empty => ?_, fun b member => ?_, fun first => notComment ?_⟩
      · rw [empty, parseU32_nil] at value
        cases value
      · exact Bool.not_eq_true' _ ▸ List.mem_takeWhile_imp (p := (!isAsciiWhitespace ·)) member
      · rw [List.head?_takeWhile] at first
        exact (Option.filter_eq_some_iff.mp first).1
    have ends (b : U8) (first : b ∈ (start.dropWhile (!isAsciiWhitespace ·)).head?) :
        isAsciiWhitespace b = true := by
      have outside := List.head?_dropWhile_not (!isAsciiWhitespace ·) start
      rw [Option.mem_def.mp first] at outside
      exact Bool.not_eq_false' _ ▸ outside
    have made := Field.word .nil word ends value
    rwa [List.nil_append, parts] at made

theorem field_iff_word {ahead rest : List U8} {n : Nat}
    (word : (ahead.dropWhile isAsciiWhitespace).head? ≠ some hash) : Field ahead rest n ↔
      parseU32 ((ahead.dropWhile isAsciiWhitespace).takeWhile (!isAsciiWhitespace ·)) = some n ∧
        (ahead.dropWhile isAsciiWhitespace).dropWhile (!isAsciiWhitespace ·) = rest := by
  refine field_dropWhile.symm.trans (field_word (fun b first => ?_) word)
  have outside := List.head?_dropWhile_not isAsciiWhitespace ahead
  rw [Option.mem_def.mp first] at outside
  exact outside

/-- What a loop that is to read `n` more fields comes to. -/
def Read (fields : List Nat) (ahead : List U8) (out : List Nat) (rest : List U8) : Prop :=
  ∃ ns, out = fields ++ ns ∧ out.length = 3 ∧ Fields ns ahead rest

theorem read_iff {fields out : List Nat} {ahead rest : List U8} (more : fields.length < 3) :
    Read fields ahead out rest ↔
      ∃ n between, Field ahead between n ∧ Read (fields ++ [n]) between out rest := by
  constructor
  · rintro ⟨ns, rfl, full, found⟩
    cases found with
    | nil =>
      rw [List.append_nil] at full
      omega
    | cons field later => exact ⟨_, _, field, _, by simp, full, later⟩
  · rintro ⟨n, between, field, ns, rfl, full, later⟩
    exact ⟨n :: ns, by simp, full, .cons field later⟩

/-- The loop reads fields, as long as there are some. -/
theorem readFields_iff {fields out : List Nat} {ahead rest : List U8} (few : fields.length ≤ 3) :
    readFields fields ahead = some (out, rest) ↔ Read fields ahead out rest := by
  fun_induction readFields fields ahead with
  | case1 fields ahead more start comment ih =>
    have same (n : Nat) (between : List U8) :
        Field (skipLine start) between n ↔ Field ahead between n :=
      (field_comment comment).trans field_dropWhile
    rw [ih few, read_iff more, read_iff more]
    simp only [same]
  | case2 fields ahead more start word field value ih =>
    rw [ih (by rw [List.length_append]; exact more), read_iff more]
    simp only [field_iff_word word]
    constructor
    · exact fun later => ⟨field, _, ⟨value, rfl⟩, later⟩
    · rintro ⟨n, _, ⟨value', rfl⟩, later⟩
      cases value.symm.trans value'
      exact later
  | case3 fields ahead more start word none =>
    rw [read_iff more]
    refine iff_of_false nofun ?_
    rintro ⟨n, between, field, _⟩
    have value := ((field_iff_word word).mp field).1
    rw [none] at value
    cases value
  | case4 fields ahead full =>
    have three : fields.length = 3 := by omega
    constructor
    · rintro ⟨⟩
      exact ⟨[], (List.append_nil _).symm, three, .nil⟩
    · rintro ⟨ns, rfl, full, found⟩
      rw [List.length_append, three, Nat.add_eq_left, List.length_eq_zero_iff] at full
      subst full
      cases found
      rw [List.append_nil]

theorem readFields_nil_iff {out : List Nat} {ahead rest : List U8} :
    readFields [] ahead = some (out, rest) ↔ out.length = 3 ∧ Fields out ahead rest := by
  rw [readFields_iff (List.length_nil ▸ Nat.zero_le 3)]
  constructor
  · rintro ⟨ns, rfl, full, found⟩
    exact ⟨full, found⟩
  · rintro ⟨full, found⟩
    exact ⟨out, rfl, full, found⟩

end Clicky.Ppm
