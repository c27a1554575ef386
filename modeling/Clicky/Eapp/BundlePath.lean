import Clicky.Lib.Path

/-! From the paths a game asks for to files of the host. Each path is tried in the bundle and in
its `Resources` folder; one that is not there is created in the folder for saves. -/
namespace Clicky
open PathString

/-- The file operations of the host that change something. They may be refused. -/
structure Host where
  createDirAll : FileSystem → PathString → Option FileSystem
  write : FileSystem → PathString → Option FileSystem

structure Bundle where
  /-- The working directory of the emulator. -/
  cwd : Place
  bundleDir : PathString

def trimStart (c : Char) (path : PathString) : PathString := path.dropWhile (· == c)

def normalized (path : PathString) : PathString := trimStart '\\' (trimStart '/' path)

def resources : PathString := "Resources".toList
def clickySaves : PathString := ".clicky-saves".toList

namespace Bundle

/-- The host paths tried for a path of the game, in this order. -/
def candidates (b : Bundle) (path : PathString) : List PathString :=
  ([path, normalized path].filter (· ≠ [])).flatMap fun candidate =>
    [b.bundleDir.join candidate, (b.bundleDir.join resources).join candidate]

def resolveBundlePath (b : Bundle) (fs : FileSystem) (path : PathString) : Option PathString :=
  (b.candidates path).find? (fs.exists? b.cwd)

def writable (b : Bundle) (path : PathString) : PathString :=
  (b.bundleDir.join clickySaves).join (normalized path)

/-- The folders above a file and the file itself, which is left alone if it is there. -/
def create (b : Bundle) (host : Host) (fs : FileSystem) (file : PathString) : Option FileSystem :=
  let made := match parent file with
    | some dir => host.createDirAll fs dir
    | none => some fs
  made.bind fun fs => if fs.exists? b.cwd file then some fs else host.write fs file

def resolveOrCreateHostPath (b : Bundle) (host : Host) (fs : FileSystem) (path : PathString) :
    Option (PathString × FileSystem) :=
  match b.resolveBundlePath fs path with
  | some found => some (found, fs)
  | none =>
    if normalized path = [] then none
    else (b.create host fs (b.writable path)).map fun fs => (b.writable path, fs)

/-- The host path leads to a place in the bundle directory. -/
def Inside (b : Bundle) (hostPath : PathString) : Prop :=
  locate b.cwd b.bundleDir <+: locate b.cwd hostPath

structure Confined (b : Bundle) (host : Host) (fs : FileSystem) (path : PathString) : Prop where
  opened : ∀ p, b.resolveBundlePath fs path = some p → b.Inside p
  created : ∀ p fs', b.resolveOrCreateHostPath host fs path = some (p, fs') → b.Inside p

/-- The folders of the bundle that a path is put behind. -/
inductive Folder where
  | bundle | resources | saves
  deriving DecidableEq, Repr

def Folder.names : Folder → Place
  | .bundle => []
  | .resources => [Clicky.resources]
  | .saves => [clickySaves]

def folder (b : Bundle) : Folder → PathString
  | .bundle => b.bundleDir
  | .resources => b.bundleDir.join resources
  | .saves => b.bundleDir.join clickySaves

def hostPath (b : Bundle) (attempt : Folder × PathString) : PathString :=
  (b.folder attempt.1).join attempt.2

def attempts (path : PathString) : List (Folder × PathString) :=
  ([path, normalized path].filter (· ≠ [])).flatMap fun candidate =>
    [(.bundle, candidate), (.resources, candidate)]

/-- The attempt leads into the bundle, by the strings alone. -/
def Keeps (b : Bundle) (attempt : Folder × PathString) : Prop :=
  ComesBack (locate b.cwd b.bundleDir) attempt.1.names.length attempt.2

/-- The earlier attempt is there wherever the other one is. -/
def Hides (b : Bundle) (earlier attempt : Folder × PathString) : Prop :=
  (FileSystem.least b.cwd (b.hostPath attempt)).exists? b.cwd (b.hostPath earlier) = true

/-- What is asked of the string. Each attempt comes back to the bundle or is hidden by one before it,
and the file among the saves comes back. -/
structure Harmless (b : Bundle) (path : PathString) : Prop where
  tried : ∀ before attempt after, attempts path = before ++ attempt :: after →
    b.Keeps attempt ∨ ∃ earlier ∈ before, b.Hides earlier attempt
  saved : normalized path ≠ [] → b.Keeps (.saves, normalized path)

theorem candidates_eq (b : Bundle) (path : PathString) :
    b.candidates path = (attempts path).map b.hostPath := by
  simp [candidates, attempts, hostPath, folder, List.map_flatMap]

theorem locate_folder (b : Bundle) (f : Folder) :
    locate b.cwd (b.folder f) = locate b.cwd b.bundleDir ++ f.names := by
  cases f with
  | bundle => exact (List.append_nil _).symm
  | resources =>
    have one : resources.steps = [resources] := by decide +kernel
    rw [folder, locate_join b.cwd b.bundleDir (by decide +kernel), one]
    rfl
  | saves =>
    have one : clickySaves.steps = [clickySaves] := by decide +kernel
    rw [folder, locate_join b.cwd b.bundleDir (by decide +kernel), one]
    rfl

theorem inside_hostPath_iff (b : Bundle) (attempt : Folder × PathString) :
    b.Inside (b.hostPath attempt) ↔ b.Keeps attempt :=
  prefix_locate_join_iff attempt.2 (b.locate_folder attempt.1)

theorem mem_attempts {path : PathString} {attempt : Folder × PathString}
    (tried : attempt ∈ attempts path) :
    attempt.2 ∈ [path, normalized path] ∧ attempt.2 ≠ [] := by
  obtain ⟨candidate, member, here⟩ := List.mem_flatMap.mp tried
  have same : attempt.2 = candidate := by
    simp only [List.mem_cons, List.not_mem_nil, or_false] at here
    obtain rfl | rfl := here <;> rfl
  rw [same]
  exact ⟨(List.mem_filter.mp member).1, of_decide_eq_true (List.mem_filter.mp member).2⟩

theorem resolveBundlePath_eq_some_iff {b : Bundle} {fs : FileSystem} {path p : PathString} :
    b.resolveBundlePath fs path = some p ↔ fs.exists? b.cwd p = true ∧
      ∃ before after, b.candidates path = before ++ p :: after ∧
        ∀ q ∈ before, fs.exists? b.cwd q = false := by
  rw [resolveBundlePath, List.find?_eq_some_iff_append]
  simp only [Bool.not_eq_true']

theorem resolveOrCreateHostPath_eq_some {b : Bundle} {host : Host} {fs fs' : FileSystem}
    {path p : PathString} (resolved : b.resolveOrCreateHostPath host fs path = some (p, fs')) :
    b.resolveBundlePath fs path = some p ∨ normalized path ≠ [] ∧ p = b.writable path := by
  unfold resolveOrCreateHostPath at resolved
  split at resolved
  · rename_i found
    cases resolved
    exact .inl found
  · split at resolved
    · cases resolved
    · rename_i named
      obtain ⟨_, _, same⟩ := Option.map_eq_some_iff.mp resolved
      cases same
      exact .inr ⟨named, rfl⟩

theorem Harmless.confined {b : Bundle} {path : PathString} (harmless : b.Harmless path)
    (host : Host) (fs : FileSystem) : b.Confined host fs path := by
  have opened : ∀ p, b.resolveBundlePath fs path = some p → b.Inside p := by
    intro p resolved
    obtain ⟨there, before, after, parts, passed⟩ := resolveBundlePath_eq_some_iff.mp resolved
    rw [candidates_eq] at parts
    obtain ⟨earlier, rest, split, rfl, mapped⟩ := List.map_eq_append_iff.mp parts
    obtain ⟨attempt, later, rfl, rfl, rfl⟩ := List.map_eq_cons_iff.mp mapped
    obtain keeps | ⟨other, member, hides⟩ := harmless.tried earlier attempt later split
    · exact (b.inside_hostPath_iff attempt).mpr keeps
    · have first := passed (b.hostPath other) (List.mem_map_of_mem member)
      rw [FileSystem.exists?_of_least hides there] at first
      cases first
  refine ⟨opened, fun p fs' resolved => ?_⟩
  obtain found | ⟨named, rfl⟩ := resolveOrCreateHostPath_eq_some resolved
  · exact opened p found
  · exact (b.inside_hostPath_iff (.saves, normalized path)).mpr (harmless.saved named)

/-- A relative path with no `..` in it is harmless in every bundle. -/
theorem harmless_of_descends (b : Bundle) {path : PathString}
    (relative : ∀ p ∈ [path, normalized path], p.isAbsolute = false)
    (descends : ∀ p ∈ [path, normalized path], ['.', '.'] ∉ p.steps) : b.Harmless path := by
  have keeps : ∀ attempt : Folder × PathString, attempt.2 ∈ [path, normalized path] →
      b.Keeps attempt := by
    intro attempt member
    unfold Keeps ComesBack
    rw [relative _ member, if_neg Bool.false_ne_true, route_ups_eq_zero (descends _ member),
      Nat.zero_sub, List.rtake_zero]
    exact List.nil_prefix
  refine ⟨fun before attempt after split => .inl (keeps attempt ?_), fun _ => keeps _ (by simp)⟩
  have tried : attempt ∈ attempts path := by
    rw [split]
    exact List.mem_append_right _ List.mem_cons_self
  exact (mem_attempts tried).1

-- `../game/a.png` comes back to the bundle `/game`, and `../../a.png` does not.
example : ComesBack ["game".toList] 0 "../game/a.png".toList ∧
    ¬ ComesBack ["game".toList] 1 "../../a.png".toList := by decide +kernel

/-- A bundle in `/game`, on a host with a file of its own. -/
def game : Bundle := { cwd := [], bundleDir := "/game".toList }

def hostFiles : FileSystem :=
  .ofFiles [["etc".toList, "passwd".toList], ["game".toList, "Manifest.plist".toList]]

end Bundle
end Clicky
