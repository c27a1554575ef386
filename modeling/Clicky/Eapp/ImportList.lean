import Clicky.Eapp.Image
import Mathlib.Logic.Relation

/-! The list of modules is a chain of records through the file. What is said of it here is said of
the bytes of the records; the walk along the list is measured against that. -/
namespace Clicky
namespace EappFile

def wordAt (image : List U8) (offset : Nat) : U32 := BitVec.ofLeBytes 32 (image.slice offset 4)

def offsetOf (a : U32) : Nat := a.toNat - 0x18000000

def nameAt (image : List U8) (a : U32) : Option String :=
  utf8? ((image.slice (offsetOf a) 0x20).takeWhile fun b => b != 0)

def countAt (image : List U8) (a : U32) : U32 := wordAt image (offsetOf a + 0x30)
def nextAt (image : List U8) (a : U32) : U32 := wordAt image (offsetOf a + 0x34)

structure HasHeader (image : List U8) : Prop where
  long : 0x28 ≤ image.length
  magic : image.take 4 = [0x65, 0x61, 0x70, 0x70]

structure HasRecord (image : List U8) (a : U32) : Prop where
  above : 0x18000000 ≤ a.toNat
  inside : offsetOf a + 0x38 ≤ image.length
  named : (nameAt image a).isSome

def IsLast (image : List U8) (a : U32) : Prop := nameAt image a = some importSentinelName

/-- The list goes on from `a` to `b`. -/
def Follows (image : List U8) (a b : U32) : Prop :=
  HasRecord image a ∧ ¬ IsLast image a ∧ b = nextAt image a

def Reaches (image : List U8) : U32 → U32 → Prop := Relation.ReflTransGen (Follows image)

/-- The list comes to a proper end: a null address, or the record with the sentinel's name. -/
def ListEnds (image : List U8) (a : U32) : Prop :=
  ∃ b, Reaches image a b ∧ (b = 0 ∨ HasRecord image b ∧ IsLast image b)

/-- The stubs and the literals of the record have 32 bit addresses. -/
def Fits (image : List U8) (a : U32) : Prop :=
  a.toNat + 0x38 + 4 * (countAt image a).toNat < 2 ^ 32

variable {image : List U8}

theorem readU32At_ok {offset : Nat} (inside : offset + 4 ≤ image.length) :
    readU32At image offset = .ok (wordAt image offset) := by
  rw [readU32At, getRange, if_pos inside]
  rfl

theorem readU32At_error {offset : Nat} (past : ¬ offset + 4 ≤ image.length) :
    ∃ e, readU32At image offset = .error e := by
  rw [readU32At, getRange, if_neg past]
  exact ⟨_, rfl⟩

theorem vmaToOffset_ok {a : U32} (above : 0x18000000 ≤ a.toNat) :
    ∃ offset, vmaToOffset a = .ok offset ∧ offset.toNat = offsetOf a := by
  have le : fileVmaBase ≤ a := BitVec.le_def.mpr above
  exact ⟨a - fileVmaBase, if_pos le, BitVec.toNat_sub_of_le le⟩

theorem vmaToOffset_error {a : U32} (below : ¬ 0x18000000 ≤ a.toNat) :
    ∃ e, vmaToOffset a = .error e :=
  ⟨_, if_neg fun le => below ((BitVec.le_def (x := fileVmaBase)).mp le)⟩

theorem parseEappHeader_ok (header : HasHeader image) :
    ∃ h, parseEappHeader image = .ok h ∧ h.importsAddr = wordAt image 0x10 := by
  have long := header.long
  have short : ¬ image.length < eappHeaderSize := Nat.not_lt.mpr long
  rw [parseEappHeader, if_neg short, if_neg (not_not.mpr header.magic),
    readU32At_ok (by omega), readU32At_ok (by omega), readU32At_ok (by omega),
    readU32At_ok (by omega), readU32At_ok (by omega), readU32At_ok (by omega),
    readU32At_ok (by omega)]
  exact ⟨_, rfl, rfl⟩

theorem parseEappHeader_error (missing : ¬ HasHeader image) :
    ∃ e, parseEappHeader image = .error e := by
  rw [parseEappHeader]
  split
  · exact ⟨_, rfl⟩
  · rename_i long
    rw [if_pos fun magic => missing ⟨Nat.not_lt.mp long, magic⟩]
    exact ⟨_, rfl⟩

theorem readName_eq (offset : Nat) (inside : offset + 0x20 ≤ image.length) :
    readName image offset = cString (image.slice offset 0x20) := by
  rw [readName, getRange, importNameLen, if_pos inside]

theorem readRecord_above {a : U32} (above : 0x18000000 ≤ a.toNat) :
    readRecord image a = do
      let name ← readName image (offsetOf a)
      let count ← readU32At image (offsetOf a + importCountOffset)
      let nextAddr ← readU32At image (offsetOf a + importNextOffset)
      return (name, count, nextAddr) := by
  obtain ⟨offset, mapped, same⟩ := vmaToOffset_ok above
  rw [readRecord, mapped, ← same]
  rfl

theorem readRecord_ok {a : U32} (record : HasRecord image a) :
    ∃ name, nameAt image a = some name ∧
      readRecord image a = .ok (name, countAt image a, nextAt image a) := by
  obtain ⟨name, named⟩ := Option.isSome_iff_exists.mp record.named
  have inside := record.inside
  have read : readName image (offsetOf a) = .ok name := by
    unfold nameAt at named
    rw [readName_eq _ (by omega), cString, named]
  have count : readU32At image (offsetOf a + importCountOffset) = .ok (countAt image a) :=
    readU32At_ok (by rw [importCountOffset]; omega)
  have next : readU32At image (offsetOf a + importNextOffset) = .ok (nextAt image a) :=
    readU32At_ok (by rw [importNextOffset]; omega)
  refine ⟨name, named, ?_⟩
  rw [readRecord_above record.above, read, count, next]
  rfl

theorem readRecord_error {a : U32} (missing : ¬ HasRecord image a) :
    ∃ e, readRecord image a = .error e := by
  by_cases above : 0x18000000 ≤ a.toNat
  · rw [readRecord_above above]
    cases read : readName image (offsetOf a) with
    | error e => exact ⟨e, rfl⟩
    | ok name =>
      cases count : readU32At image (offsetOf a + importCountOffset) with
      | error e => exact ⟨e, rfl⟩
      | ok n =>
        have short : ¬ offsetOf a + importNextOffset + 4 ≤ image.length := by
          intro inside
          rw [importNextOffset] at inside
          refine missing ⟨above, by omega, ?_⟩
          rw [readName_eq _ (by omega), cString] at read
          unfold nameAt
          split at read
          · rename_i named
            rw [named]
            rfl
          · cases read
        obtain ⟨e, next⟩ := readU32At_error short
        rw [next]
        exact ⟨e, rfl⟩
  · obtain ⟨e, mapped⟩ := vmaToOffset_error above
    rw [readRecord, mapped]
    exact ⟨e, rfl⟩

theorem addU32_ok {a b : U32} (small : a.toNat + b.toNat < 2 ^ 32) :
    ∃ c, addU32 a b = .ok c ∧ c.toNat = a.toNat + b.toNat := by
  refine ⟨a + b, if_neg (Nat.not_le.mpr small), ?_⟩
  rw [BitVec.toNat_add]
  exact Nat.mod_eq_of_lt small

theorem addU32_error {a b : U32} (large : ¬ a.toNat + b.toNat < 2 ^ 32) :
    addU32 a b = .error addOverflow :=
  if_pos (Nat.not_lt.mp large)

theorem mulU32_four {n : U32} (small : 4 * n.toNat < 2 ^ 32) :
    ∃ c, mulU32 n 4 = .ok c ∧ c.toNat = 4 * n.toNat := by
  have same : n.toNat * (4 : U32).toNat = 4 * n.toNat := Nat.mul_comm _ _
  refine ⟨n * 4, if_neg (by rw [same]; exact Nat.not_le.mpr small), ?_⟩
  rw [BitVec.toNat_mul, same]
  exact Nat.mod_eq_of_lt small

theorem mulU32_four_error {n : U32} (large : ¬ 4 * n.toNat < 2 ^ 32) :
    mulU32 n 4 = .error mulOverflow := by
  have same : n.toNat * (4 : U32).toNat = 4 * n.toNat := Nat.mul_comm _ _
  exact if_pos (by rw [same]; exact Nat.not_lt.mp large)

theorem tableAddrs_ok {a count : U32} (fits : a.toNat + 0x38 + 4 * count.toNat < 2 ^ 32) :
    ∃ stubs literals, tableAddrs a count = .ok (stubs, literals) ∧
      literals.toNat = a.toNat + 0x38 + 4 * count.toNat := by
  have offset : importStubsOffset.toNat = 0x38 := rfl
  obtain ⟨stubs, first, at_stubs⟩ := addU32_ok (a := a) (b := importStubsOffset) (by omega)
  obtain ⟨len, second, at_len⟩ := mulU32_four (n := count) (by omega)
  obtain ⟨literals, third, at_literals⟩ := addU32_ok (a := stubs) (b := len) (by omega)
  refine ⟨stubs, literals, ?_, by omega⟩
  simp only [tableAddrs, first, second, third, Bind.bind, Except.bind]
  rfl

theorem tableAddrs_error {a count : U32} (large : ¬ a.toNat + 0x38 + 4 * count.toNat < 2 ^ 32) :
    ∃ message, tableAddrs a count = .error message := by
  have offset : importStubsOffset.toNat = 0x38 := rfl
  simp only [tableAddrs, Bind.bind, Except.bind]
  by_cases first : a.toNat + importStubsOffset.toNat < 2 ^ 32
  · obtain ⟨stubs, sum, at_stubs⟩ := addU32_ok first
    by_cases second : 4 * count.toNat < 2 ^ 32
    · obtain ⟨len, product, at_len⟩ := mulU32_four second
      have third := addU32_error (a := stubs) (b := len) (by omega)
      exact ⟨addOverflow, by simp only [sum, product, third]⟩
    · exact ⟨mulOverflow, by simp only [sum, mulU32_four_error second]⟩
  · exact ⟨addOverflow, by simp only [addU32_error first]⟩

theorem HasRecord.nonzero {a : U32} (record : HasRecord image a) : a ≠ 0 := by
  rintro rfl
  exact absurd record.above (by decide)

theorem Reaches.stuck {a b : U32} (reach : Reaches image a b) (stuck : ∀ c, ¬ Follows image a c) :
    b = a := by
  rcases Relation.ReflTransGen.cases_head reach with same | ⟨c, follows, _⟩
  · exact same.symm
  · exact absurd follows (stuck c)

theorem Reaches.step {a b : U32} (reach : Reaches image a b) :
    b = a ∨ Reaches image (nextAt image a) b := by
  rcases Relation.ReflTransGen.cases_head reach with same | ⟨c, ⟨_, _, rfl⟩, rest⟩
  · exact .inl same.symm
  · exact .inr rest

/-- Every record that the list goes through fits. -/
def AllFit (image : List U8) (a : U32) : Prop :=
  ∀ b, Reaches image a b → HasRecord image b → Fits image b

def Listed (image : List U8) (a b : U32) : Prop :=
  Reaches image a b ∧ HasRecord image b ∧ ¬ IsLast image b

def Describes (image : List U8) (a : U32) (m : EappImportModule) : Prop :=
  m.count = countAt image a ∧ m.literalsAddr.toNat = a.toNat + 0x38 + 4 * (countAt image a).toNat

theorem allFit_next {a : U32} (follows : Follows image a (nextAt image a)) (fits : Fits image a) :
    AllFit image a ↔ AllFit image (nextAt image a) := by
  constructor
  · exact fun all b reach => all b (.head follows reach)
  · intro all b reach record
    rcases reach.step with rfl | rest
    · exact fits
    · exact all b rest record

theorem listEnds_next {a : U32} (follows : Follows image a (nextAt image a)) :
    ListEnds image a ↔ ListEnds image (nextAt image a) := by
  constructor
  · rintro ⟨b, reach, proper⟩
    rcases reach.step with rfl | rest
    · rcases proper with zero | ⟨_, last⟩
      · exact absurd zero follows.1.nonzero
      · exact absurd last follows.2.1
    · exact ⟨b, rest, proper⟩
  · rintro ⟨b, reach, proper⟩
    exact ⟨b, .head follows reach, proper⟩

theorem listed_next {a b : U32} (follows : Follows image a (nextAt image a)) :
    Listed image a b ↔ b = a ∨ Listed image (nextAt image a) b := by
  constructor
  · rintro ⟨reach, record, more⟩
    exact reach.step.imp_right fun rest => ⟨rest, record, more⟩
  · rintro (rfl | ⟨reach, record, more⟩)
    · exact ⟨.refl, follows.1, follows.2.1⟩
    · exact ⟨.head follows reach, record, more⟩

/-- The records behind the walk: each of them fits, and leads to another one or to `a`. -/
def Trail (image : List U8) (seen : List U32) (a : U32) : Prop :=
  ∀ b ∈ seen, HasRecord image b ∧ ¬ IsLast image b ∧ Fits image b ∧
    (nextAt image b ∈ seen ∨ nextAt image b = a)

theorem Trail.extend {seen : List U32} {a : U32} (trail : Trail image seen a)
    (record : HasRecord image a) (more : ¬ IsLast image a) (fits : Fits image a) :
    Trail image (a :: seen) (nextAt image a) := by
  intro b member
  rcases List.mem_cons.mp member with rfl | old
  · exact ⟨record, more, fits, .inr rfl⟩
  · obtain ⟨has, goes_on, fit, next⟩ := trail b old
    refine ⟨has, goes_on, fit, .inl ?_⟩
    rcases next with inside | rfl
    · exact .tail a inside
    · exact List.mem_cons_self

/-- Once the walk is back on its trail, the list never leaves it. -/
theorem Trail.closed {seen : List U32} {a b : U32} (trail : Trail image seen a) (back : a ∈ seen)
    (reach : Reaches image a b) : b ∈ seen := by
  induction reach with
  | refl => exact back
  | tail _ follows ih =>
    obtain ⟨_, _, rfl⟩ := follows
    rcases (trail _ ih).2.2.2 with inside | same
    · exact inside
    · exact same ▸ back

/-- What the result of the walk from `a` says of the list. -/
def Walked (image : List U8) (a : U32) : Outcome EappBuildError Unit (List EappImportModule) → Prop
  | .panic _ => ¬ AllFit image a
  | .raise _ _ => AllFit image a ∧ ¬ ListEnds image a
  | .ok _ modules => AllFit image a ∧ ListEnds image a ∧
      (∀ m ∈ modules, ∃ b, Listed image a b ∧ Describes image b m) ∧
      ∀ b, Listed image a b → ∃ m ∈ modules, Describes image b m

theorem walked_cons {a : U32} {m : EappImportModule}
    {rest : Outcome EappBuildError Unit (List EappImportModule)}
    (follows : Follows image a (nextAt image a)) (fits : Fits image a)
    (describes : Describes image a m) (walked : Walked image (nextAt image a) rest) :
    Walked image a (rest.map fun modules => m :: modules) := by
  rcases rest with ⟨_, e | modules⟩ | message
  · exact ⟨(allFit_next follows fits).mpr walked.1,
      fun ends => walked.2 ((listEnds_next follows).mp ends)⟩
  · obtain ⟨all, ends, described, complete⟩ := walked
    refine ⟨(allFit_next follows fits).mpr all, (listEnds_next follows).mpr ends, ?_, ?_⟩
    · intro n member
      rcases List.mem_cons.mp member with rfl | later
      · exact ⟨a, (listed_next follows).mpr (.inl rfl), describes⟩
      · obtain ⟨b, listed, fact⟩ := described n later
        exact ⟨b, (listed_next follows).mpr (.inr listed), fact⟩
    · intro b listed
      rcases (listed_next follows).mp listed with rfl | later
      · exact ⟨m, List.mem_cons_self, describes⟩
      · obtain ⟨n, member, fact⟩ := complete b later
        exact ⟨n, .tail m member, fact⟩
  · exact fun all => walked ((allFit_next follows fits).mp all)

theorem readRecord_eq_ok {a count next : U32} {name : String}
    (read : readRecord image a = .ok (name, count, next)) :
    HasRecord image a ∧ nameAt image a = some name ∧ count = countAt image a ∧
      next = nextAt image a := by
  by_cases record : HasRecord image a
  · obtain ⟨name', named, same⟩ := readRecord_ok record
    rw [same] at read
    cases read
    exact ⟨record, named, rfl, rfl⟩
  · obtain ⟨e, failed⟩ := readRecord_error record
    rw [failed] at read
    cases read

theorem tableAddrs_eq_ok {a count stubs literals : U32}
    (table : tableAddrs a count = .ok (stubs, literals)) :
    a.toNat + 0x38 + 4 * count.toNat < 2 ^ 32 ∧
      literals.toNat = a.toNat + 0x38 + 4 * count.toNat := by
  by_cases fits : a.toNat + 0x38 + 4 * count.toNat < 2 ^ 32
  · obtain ⟨stubs', literals', same, place⟩ := tableAddrs_ok fits
    rw [same] at table
    cases table
    exact ⟨fits, place⟩
  · obtain ⟨message, failed⟩ := tableAddrs_error fits
    rw [failed] at table
    cases table

/-- Where the list does not go on, all that is known of it is known of its one record. -/
theorem walked_stop {a : U32} (stuck : ∀ c, ¬ Follows image a c)
    (fits : HasRecord image a → Fits image a) :
    AllFit image a ∧ ∀ b, ¬ Listed image a b := by
  constructor
  · intro b reach record
    rw [reach.stuck stuck] at record ⊢
    exact fits record
  · rintro b ⟨reach, record, more⟩
    rw [reach.stuck stuck] at record more
    exact stuck _ ⟨record, more, rfl⟩

theorem walkModules_walked {seen : List U32} {a : U32} (trail : Trail image seen a) :
    Walked image a (walkModules image seen a) := by
  fun_induction walkModules image seen a with
  | case1 seen =>
    have stuck : ∀ c, ¬ Follows image 0 c := fun c follows => follows.1.nonzero rfl
    obtain ⟨all, nothing⟩ := walked_stop stuck fun record => absurd rfl record.nonzero
    exact ⟨all, ⟨0, .refl, .inl rfl⟩, fun _ no => absurd no List.not_mem_nil,
      fun b listed => absurd listed (nothing b)⟩
  | case2 seen a nonzero back =>
    have member : a ∈ seen := List.contains_iff_mem.mp back
    refine ⟨fun b reach _ => (trail b (trail.closed member reach)).2.2.1, ?_⟩
    rintro ⟨b, reach, proper⟩
    obtain ⟨record, more, _, _⟩ := trail b (trail.closed member reach)
    rcases proper with zero | ⟨_, last⟩
    · exact record.nonzero zero
    · exact more last
  | case3 seen a nonzero fresh e failed =>
    have missing : ¬ HasRecord image a := by
      intro record
      obtain ⟨_, _, read⟩ := readRecord_ok record
      rw [read] at failed
      cases failed
    have stuck : ∀ c, ¬ Follows image a c := fun c follows => missing follows.1
    refine ⟨(walked_stop stuck fun record => absurd record missing).1, ?_⟩
    rintro ⟨b, reach, proper⟩
    rw [reach.stuck stuck] at proper
    exact proper.elim nonzero fun last => missing last.1
  | case4 seen a nonzero fresh name count next read message failed =>
    obtain ⟨record, _, rfl, _⟩ := readRecord_eq_ok read
    intro all
    obtain ⟨_, _, table, _⟩ := tableAddrs_ok (all a .refl record)
    rw [table] at failed
    cases failed
  | case5 seen a nonzero fresh count next stubs literals table read =>
    obtain ⟨record, last, rfl, _⟩ := readRecord_eq_ok read
    have stuck : ∀ c, ¬ Follows image a c := fun c follows => follows.2.1 last
    obtain ⟨all, nothing⟩ := walked_stop stuck fun _ => (tableAddrs_eq_ok table).1
    exact ⟨all, ⟨a, .refl, .inr ⟨record, last⟩⟩, fun _ no => absurd no List.not_mem_nil,
      fun b listed => absurd listed (nothing b)⟩
  | case6 seen a nonzero fresh name count next read stubs literals table other ih =>
    obtain ⟨record, named, rfl, rfl⟩ := readRecord_eq_ok read
    have more : ¬ IsLast image a := fun last => other (Option.some.inj (named.symm.trans last))
    obtain ⟨fits, place⟩ := tableAddrs_eq_ok table
    exact walked_cons ⟨record, more, rfl⟩ fits ⟨rfl, place⟩ (ih (trail.extend record more fits))

end EappFile
end Clicky
