import Clicky.Lib.Numeral
import Mathlib.Algebra.Group.Nat.Defs
import Mathlib.Data.List.TakeWhile

/-! The descriptions of block devices on the command line, as lists of characters. -/

/-- The first piece of a split list goes up to the first separator. -/
theorem List.head?_splitOn (a : Char) (l : List Char) :
    (l.splitOn a).head? = some (l.takeWhile (· != a)) := by
  induction l with
  | nil => rfl
  | cons c l ih =>
    rw [List.splitOn_cons_eq_if_modifyHead]
    by_cases here : c = a
    · simp [here]
    · simp [here, List.head?_modifyHead, ih]

namespace Clicky

/-- What `human_size` turns a string down for. -/
inductive ParsingError where
  | missingMultiple
  | other
  deriving DecidableEq, Repr

/-- The sizes that `human_size` reads, in whole bytes. -/
structure HumanSize where
  bytes : List Char → Except ParsingError (BitVec 64)

/-- A size has a multiple, such as `MiB`. -/
structure HumanSize.Lawful (h : HumanSize) : Prop where
  missing : ∀ digits, digits ≠ [] → (∀ c ∈ digits, c.isDigit = true) →
    h.bytes digits = .error .missingMultiple

inductive BlockCfg where
  | null (len : BitVec 64)
  | raw (path : List Char)
  | mem (path : List Char) (truncate : Option (BitVec 64))
  deriving DecidableEq, Repr

def okOr {α : Type} (o : Option α) (message : String) : Except String α :=
  match o with
  | some a => .ok a
  | none => .error message

/-- What comes before the first separator, and what comes behind it. -/
def splitn2 (c : Char) (s : List Char) : List Char × Option (List Char) :=
  (s.takeWhile (· != c), (s.dropWhile (· != c)).tail?)

/-- The first two parts of an option. -/
def kindAndValue (arg : List Char) : List Char × Option (List Char) :=
  ((arg.splitOn '=').headD [], (arg.splitOn '=')[1]?)

def parseU64 (desc : List Char) : Option (BitVec 64) :=
  (Numeral.read 10 (2 ^ 64) desc).map (BitVec.ofNat 64)

/-- The decimal numeral of a number. -/
def decimal (n : BitVec 64) : List Char := Nat.toDigits 10 n.toNat

def parseCapacity (h : HumanSize) (desc : List Char) : Option (BitVec 64) :=
  match h.bytes desc with
  | .ok bytes => some bytes
  | .error .missingMultiple => parseU64 desc
  | .error _ => none

namespace BlockCfg

def fileArg (value : Option (List Char)) : Except String (List Char) :=
  okOr value "missing argument for `file`"

/-- An option of `null`, after the length that the ones before it gave. -/
def nullArg (h : HumanSize) (_ : Option (BitVec 64)) (arg : List Char) :
    Except String (Option (BitVec 64)) :=
  let (kind, value) := kindAndValue arg
  if kind = "len".toList then do
    let desc ← okOr value "missing argument for `len`"
    return some (← okOr (parseCapacity h desc) "could not parse `len`")
  else .error "unknown `null` option"

def rawArg (_ : Option (List Char)) (arg : List Char) : Except String (Option (List Char)) :=
  let (kind, value) := kindAndValue arg
  if kind = "file".toList then do return some (← fileArg value)
  else .error "unknown `len` option"

/-- An option of `mem`, after the file and the truncation so far. -/
def memArg (h : HumanSize) (soFar : Option (List Char) × Option (BitVec 64)) (arg : List Char) :
    Except String (Option (List Char) × Option (BitVec 64)) :=
  let (kind, value) := kindAndValue arg
  if kind = "file".toList then do return (some (← fileArg value), soFar.2)
  else if kind = "truncate".toList then do
    let desc ← okOr value "missing argument for `truncate`"
    return (soFar.1, some (← okOr (parseCapacity h desc) "could not parse `truncate`"))
  else .error "unknown `len` option"

def fromStr (h : HumanSize) (s : List Char) : Except String BlockCfg :=
  let (kind, rest) := splitn2 ':' s
  if kind = "null".toList then do
    let args ← okOr rest "missing required options"
    let len ← (args.splitOn ',').foldlM (nullArg h) none
    return .null (← okOr len "missing `len` parameter")
  else if kind = "raw".toList then do
    let args ← okOr rest "missing required options"
    let file ← (args.splitOn ',').foldlM rawArg none
    return .raw (← okOr file "missing `file` parameter")
  else if kind = "mem".toList then do
    let args ← okOr rest "missing required options"
    let (file, truncate) ← (args.splitOn ',').foldlM (memArg h) (none, none)
    return .mem (← okOr file "missing `file` parameter") truncate
  else .error "invalid block kind"

theorem kindAndValue_eq {kind : List Char} (plain : '=' ∉ kind) (value : List Char) :
    kindAndValue (kind ++ '=' :: value) = (kind, some (value.takeWhile (· != '='))) := by
  rw [kindAndValue, List.splitOn_append_cons_self_of_not_mem plain, List.getElem?_cons_succ,
    ← List.head?_eq_getElem?, List.head?_splitOn]
  rfl

theorem takeWhile_eq_iff (value : List Char) : value.takeWhile (· != '=') = value ↔ '=' ∉ value := by
  rw [List.takeWhile_eq_self_iff]
  constructor
  · intro all member
    exact absurd (all '=' member) (by decide)
  · intro absent c member
    rw [bne_iff_ne]
    rintro rfl
    exact absent member

/-- The arguments of a path without a comma, in front of other ones. -/
theorem splitOn_file {path : List Char} (noComma : ',' ∉ path) :
    ',' ∉ "file=".toList ++ path := by
  rw [List.mem_append, not_or]
  exact ⟨by decide, noComma⟩

theorem fileArg_eq (path : List Char) :
    kindAndValue ("file=".toList ++ path) = ("file".toList, some (path.takeWhile (· != '='))) :=
  kindAndValue_eq (by decide : '=' ∉ "file".toList) path

theorem fromStr_raw (h : HumanSize) {path : List Char} (noComma : ',' ∉ path) :
    fromStr h ("raw:file=".toList ++ path) = .ok (.raw (path.takeWhile (· != '='))) := by
  have args : (("file=".toList ++ path).splitOn ',').foldlM rawArg none =
      .ok (some (path.takeWhile (· != '='))) := by
    rw [List.splitOn_eq_singleton (splitOn_file noComma), List.foldlM_cons, rawArg, fileArg_eq]
    rfl
  change (do
    let file ← (("file=".toList ++ path).splitOn ',').foldlM rawArg none
    return BlockCfg.raw (← okOr file "missing `file` parameter")) = _
  rw [args]
  rfl

theorem fromStr_mem (h : HumanSize) {path : List Char} (noComma : ',' ∉ path) :
    fromStr h ("mem:file=".toList ++ path) = .ok (.mem (path.takeWhile (· != '=')) none) := by
  have args : (("file=".toList ++ path).splitOn ',').foldlM (memArg h) (none, none) =
      .ok (some (path.takeWhile (· != '=')), none) := by
    rw [List.splitOn_eq_singleton (splitOn_file noComma), List.foldlM_cons, memArg, fileArg_eq]
    rfl
  change (do
    let (file, truncate) ← (("file=".toList ++ path).splitOn ',').foldlM (memArg h) (none, none)
    return BlockCfg.mem (← okOr file "missing `file` parameter") truncate) = _
  rw [args]
  rfl

theorem not_mem_decimal {c : Char} (other : c.isDigit = false) (n : BitVec 64) : c ∉ decimal n := by
  intro member
  have digit := Nat.isDigit_of_mem_toDigits (by decide) (by decide) member
  rw [other] at digit
  cases digit

theorem parseU64_decimal (n : BitVec 64) : parseU64 (decimal n) = some n := by
  rw [parseU64, decimal, Numeral.read_toDigits (by decide) (by decide), if_pos n.isLt, Option.map_some,
    BitVec.ofNat_toNat, BitVec.setWidth_eq]

/-- A number without a multiple is read as a number of bytes. -/
theorem parseCapacity_decimal {h : HumanSize} (lawful : h.Lawful) (n : BitVec 64) :
    parseCapacity h (decimal n) = some n := by
  have missing := lawful.missing (decimal n) Nat.toDigits_ne_nil fun c member =>
    Nat.isDigit_of_mem_toDigits (by decide) (by decide) member
  rw [parseCapacity, missing]
  exact parseU64_decimal n

theorem truncateArg_eq (n : BitVec 64) :
    kindAndValue ("truncate=".toList ++ decimal n) = ("truncate".toList, some (decimal n)) := by
  have split := kindAndValue_eq (by decide : '=' ∉ "truncate".toList) (decimal n)
  rw [(takeWhile_eq_iff _).mpr (not_mem_decimal rfl n)] at split
  exact split

theorem fromStr_mem_truncate {h : HumanSize} (lawful : h.Lawful) {path : List Char}
    (noComma : ',' ∉ path) (n : BitVec 64) :
    fromStr h ("mem:file=".toList ++ path ++ ",truncate=".toList ++ decimal n) =
      .ok (.mem (path.takeWhile (· != '=')) (some n)) := by
  have pieces : ("file=".toList ++ path ++ ",truncate=".toList ++ decimal n).splitOn ',' =
      ["file=".toList ++ path, "truncate=".toList ++ decimal n] := by
    have last : ',' ∉ "truncate=".toList ++ decimal n := by
      rw [List.mem_append, not_or]
      exact ⟨by decide, not_mem_decimal rfl n⟩
    rw [List.append_assoc]
    change ("file=".toList ++ path ++ ',' :: ("truncate=".toList ++ decimal n)).splitOn ',' = _
    rw [List.splitOn_append_cons_self_of_not_mem (splitOn_file noComma),
      List.splitOn_eq_singleton last]
  have args : (("file=".toList ++ path ++ ",truncate=".toList ++ decimal n).splitOn ',').foldlM
      (memArg h) (none, none) = .ok (some (path.takeWhile (· != '=')), some n) := by
    have truncated (file : Option (List Char)) :
        memArg h (file, none) ("truncate=".toList ++ decimal n) = .ok (file, some n) := by
      rw [memArg, truncateArg_eq]
      change (do
        let desc ← okOr (some (decimal n)) _
        return (file, some (← okOr (parseCapacity h desc) _))) = _
      rw [okOr]
      change (do return (file, some (← okOr (parseCapacity h (decimal n)) _))) = _
      rw [parseCapacity_decimal lawful]
      rfl
    rw [pieces, List.foldlM_cons, memArg, fileArg_eq]
    change ["truncate=".toList ++ decimal n].foldlM (memArg h)
      (some (path.takeWhile (· != '=')), none) = _
    rw [List.foldlM_cons, truncated]
    rfl
  change (do
    let (file, truncate) ← (("file=".toList ++ path ++ ",truncate=".toList ++ decimal n).splitOn
      ',').foldlM (memArg h) (none, none)
    return BlockCfg.mem (← okOr file "missing `file` parameter") truncate) = _
  rw [args]
  rfl

/-- What is asked of a path: that the descriptions it is put into lead to it. -/
structure KeepsPath (h : HumanSize) (path : List Char) : Prop where
  raw : fromStr h ("raw:file=".toList ++ path) = .ok (.raw path)
  mem : fromStr h ("mem:file=".toList ++ path) = .ok (.mem path none)
  truncate : ∀ n, fromStr h ("mem:file=".toList ++ path ++ ",truncate=".toList ++ decimal n) =
    .ok (.mem path (some n))

/-- A path without a comma is kept up to its first equals sign. -/
theorem path_kept_iff {h : HumanSize} (lawful : h.Lawful) {path : List Char}
    (noComma : ',' ∉ path) : KeepsPath h path ↔ '=' ∉ path := by
  constructor
  · intro keeps
    have kept := keeps.raw
    rw [fromStr_raw h noComma, Except.ok.injEq, BlockCfg.raw.injEq] at kept
    exact (takeWhile_eq_iff path).mp kept
  · intro absent
    have whole := (takeWhile_eq_iff path).mpr absent
    constructor
    · rw [fromStr_raw h noComma, whole]
    · rw [fromStr_mem h noComma, whole]
    · intro n
      rw [fromStr_mem_truncate lawful noComma, whole]

/-- No string is a size. Each is turned down as one that has no multiple. -/
def noSizes : HumanSize := ⟨fun _ => .error .missingMultiple⟩

theorem colon_path_kept : KeepsPath noSizes "/images/ipod:nano.img".toList :=
  (path_kept_iff ⟨fun _ _ _ => rfl⟩ (by decide)).mpr (by decide)

theorem equals_sign_cut : ¬ KeepsPath noSizes "backup=old.img".toList := by
  intro keeps
  have kept := keeps.raw
  rw [fromStr_raw noSizes (by decide), Except.ok.injEq, BlockCfg.raw.injEq] at kept
  exact absurd kept (by decide)

end BlockCfg
end Clicky
