import Mathlib.Data.List.DropRight

/-! Path strings and the places they lead to, on a file system without symbolic links. A place
is the list of names from the root down. -/

abbrev PathString := List Char
abbrev Place := List (List Char)

namespace PathString

def isAbsolute (p : PathString) : Bool := p.head? == some '/'

/-- An absolute path replaces the one it is joined to. -/
def join (base p : PathString) : PathString :=
  if p.isAbsolute then p
  else if base = [] ∨ base.getLast? = some '/' then base ++ p
  else base ++ '/' :: p

/-- The steps of a path as they are written, with the empty ones. -/
def steps (p : PathString) : List (List Char) := p.splitOn '/'

/-- Repeated separators and the dots in between do not count, except for a dot in front. -/
def components (p : PathString) : List (List Char) :=
  match p.steps with
  | [] => []
  | first :: rest =>
    (if first = [] then [] else [first]) ++ rest.filter fun s => s ≠ [] ∧ s ≠ ['.']

/-- The path without its last component. -/
def parent (p : PathString) : Option PathString :=
  match p.components with
  | [] => none
  | c :: cs => some ((if p.isAbsolute then ['/'] else []) ++ ['/'].intercalate (c :: cs).dropLast)

def move (place : Place) (step : List Char) : Place :=
  if step = [] ∨ step = ['.'] then place
  else if step = ['.', '.'] then place.dropLast
  else place ++ [step]

def start (cwd : Place) (p : PathString) : Place := if p.isAbsolute then [] else cwd

/-- The places that steps are taken from. -/
def places : Place → List (List Char) → List Place
  | _, [] => []
  | place, s :: ss => place :: places (move place s) ss

def trail (cwd : Place) (p : PathString) : List Place := places (start cwd p) p.steps

/-- Where a path leads to, with the dots resolved. -/
def locate (cwd : Place) (p : PathString) : Place := p.steps.foldl move (start cwd p)

@[simp] theorem move_nil (place : Place) : move place [] = place := rfl

theorem steps_ne_nil (p : PathString) : p.steps ≠ [] := List.splitOn_ne_nil '/' p

theorem steps_append_slash (base p : PathString) :
    steps (base ++ '/' :: p) = base.steps ++ p.steps := List.splitOn_append_cons_self base p

theorem start_append_slash (cwd : Place) (base p : PathString) :
    start cwd (base ++ '/' :: p) = start cwd (base ++ ['/']) := by
  cases base <;> rfl

theorem locate_slash_end (cwd : Place) {base : PathString} (nonempty : base ≠ []) :
    locate cwd (base ++ ['/']) = locate cwd base := by
  have same : start cwd (base ++ ['/']) = start cwd base := by
    cases base with
    | nil => exact absurd rfl nonempty
    | cons c cs => rfl
  unfold locate
  rw [same, steps_append_slash, List.foldl_append]
  rfl

theorem locate_slash (cwd : Place) (base p : PathString) :
    locate cwd (base ++ '/' :: p) = p.steps.foldl move (locate cwd (base ++ ['/'])) := by
  unfold locate
  rw [start_append_slash, steps_append_slash, steps_append_slash, List.foldl_append,
    List.foldl_append]
  rfl

theorem locate_join (cwd : Place) (base : PathString) {p : PathString}
    (relative : p.isAbsolute = false) :
    locate cwd (join base p) = p.steps.foldl move (locate cwd base) := by
  rw [join, relative, if_neg Bool.false_ne_true]
  by_cases empty : base = []
  · subst empty
    rw [if_pos (.inl rfl), List.nil_append, locate, start, relative]
    rfl
  · by_cases slash : base.getLast? = some '/'
    · rw [if_pos (.inr slash)]
      obtain ⟨front, rfl⟩ := List.getLast?_eq_some_iff.mp slash
      rw [List.append_assoc]
      exact locate_slash cwd front p
    · rw [if_neg (not_or.mpr ⟨empty, slash⟩), locate_slash, locate_slash_end cwd empty]

/-- The steps of a path come to going up some directories and then down along the names left. -/
structure Route where
  ups : ℕ
  downs : List (List Char)
  deriving DecidableEq, Repr

namespace Route

/-- A `..` takes back the name before it, or goes up when there is none. -/
def step (r : Route) (s : List Char) : Route :=
  if s = [] ∨ s = ['.'] then r
  else if s = ['.', '.'] then
    if r.downs = [] then { r with ups := r.ups + 1 } else { r with downs := r.downs.dropLast }
  else { r with downs := r.downs ++ [s] }

def follow (r : Route) (place : Place) : Place := place.rdrop r.ups ++ r.downs

theorem dropLast_rdrop (place : Place) (n : ℕ) :
    (place.rdrop n).dropLast = place.rdrop (n + 1) := by
  rw [List.dropLast_eq_take]
  exact List.rdrop_add n 1

theorem follow_step (r : Route) (place : Place) (s : List Char) :
    (r.step s).follow place = move (r.follow place) s := by
  unfold step move
  split
  · rfl
  · split
    · split
      · rename_i top
        simp only [follow, top, List.append_nil, dropLast_rdrop]
      · rename_i below
        exact (List.dropLast_append_of_ne_nil below).symm
    · exact (List.append_assoc _ _ _).symm

theorem follow_foldl (r : Route) (place : Place) (ss : List (List Char)) :
    (ss.foldl step r).follow place = ss.foldl move (r.follow place) := by
  induction ss generalizing r with
  | nil => rfl
  | cons s ss ih => rw [List.foldl_cons, List.foldl_cons, ih, follow_step]

theorem ups_foldl_step {ss : List (List Char)} (descends : ['.', '.'] ∉ ss) (r : Route) :
    (ss.foldl step r).ups = r.ups := by
  induction ss generalizing r with
  | nil => rfl
  | cons s ss ih =>
    have straight : s ≠ ['.', '.'] := fun same => descends (same ▸ List.mem_cons_self)
    rw [List.foldl_cons, ih fun member => descends (List.mem_cons_of_mem s member), step]
    split <;> rfl

/-- Going up leaves a directory by its last names, and the way down comes back to it when it
begins with these. -/
theorem prefix_follow_iff (r : Route) (home below : Place) :
    home <+: r.follow (home ++ below) ↔ home.rtake (r.ups - below.length) <+: r.downs := by
  obtain ⟨ups, downs⟩ := r
  simp only [follow]
  obtain shallow | deep := Nat.le_total ups below.length
  · rw [List.rdrop_append_of_le_length _ shallow, Nat.sub_eq_zero_of_le shallow,
      List.rtake_zero, List.append_assoc]
    exact iff_of_true (List.prefix_append _ _) (List.nil_prefix)
  · obtain ⟨out, rfl⟩ := Nat.exists_eq_add_of_le deep
    rw [List.rdrop_append_length_add, Nat.add_sub_cancel_left]
    nth_rewrite 1 [← List.take_append_drop (home.length - out) home]
    exact List.prefix_append_right_inj _

end Route

def route (p : PathString) : Route := p.steps.foldl Route.step ⟨0, []⟩

theorem foldl_move (p : PathString) (place : Place) :
    p.steps.foldl move place = p.route.follow place :=
  calc p.steps.foldl move place
      = p.steps.foldl move (Route.follow ⟨0, []⟩ place) := by simp [Route.follow]
    _ = p.route.follow place := (Route.follow_foldl ⟨0, []⟩ place p.steps).symm

theorem route_ups_eq_zero {p : PathString} (descends : ['.', '.'] ∉ p.steps) :
    p.route.ups = 0 := Route.ups_foldl_step descends ⟨0, []⟩

/-- A path put behind a directory some way below `home` leads to a place in `home`: it goes up no
further than that way, or comes back along the names it left. An absolute path comes down all the
way from the root. -/
def ComesBack (home : Place) (depth : ℕ) (p : PathString) : Prop :=
  (if p.isAbsolute then home else home.rtake (p.route.ups - depth)) <+: p.route.downs

instance (home : Place) (depth : ℕ) (p : PathString) : Decidable (ComesBack home depth p) :=
  inferInstanceAs (Decidable (_ <+: _))

theorem prefix_locate_join_iff {cwd home below : Place} {base : PathString} (p : PathString)
    (leads : locate cwd base = home ++ below) :
    home <+: locate cwd (join base p) ↔ ComesBack home below.length p := by
  unfold ComesBack
  cases absolute : p.isAbsolute with
  | false =>
    rw [locate_join cwd base absolute, leads, foldl_move, Route.prefix_follow_iff]
    rfl
  | true =>
    have same : locate cwd (join base p) = p.route.downs := by
      rw [join, if_pos absolute, locate, start, if_pos absolute, foldl_move, Route.follow,
        List.rdrop_nil, List.nil_append]
    rw [same, if_pos rfl]

end PathString

inductive NodeKind where
  | dir | file
  deriving DecidableEq, Repr

/-- Every node but the root has a directory above it. -/
structure FileSystem where
  kind : Place → Option NodeKind
  root : kind [] = some .dir
  parents : ∀ place name, (kind (place ++ [name])).isSome = true → kind place = some .dir

namespace FileSystem
open PathString

/-- One step of the walk along a path. There is no way on from a file, not even with a dot. -/
def enter (fs : FileSystem) (place : Place) (step : List Char) : Option Place :=
  if fs.kind place = some .dir then
    if step = [] ∨ step = ['.'] then some place
    else if step = ['.', '.'] then some place.dropLast
    else if (fs.kind (place ++ [step])).isSome then some (place ++ [step])
    else none
  else none

def walk (fs : FileSystem) : Place → List (List Char) → Option Place
  | place, [] => some place
  | place, s :: ss => (fs.enter place s).bind fun place => fs.walk place ss

/-- What a path leads to, if there is something. -/
def resolve (fs : FileSystem) (cwd : Place) (p : PathString) : Option Place :=
  if p = [] then none else fs.walk (start cwd p) p.steps

def exists? (fs : FileSystem) (cwd : Place) (p : PathString) : Bool := (fs.resolve cwd p).isSome

theorem kind_of_prefix (fs : FileSystem) {place below : Place} (inside : place <+: below)
    (dir : fs.kind below = some .dir) : fs.kind place = some .dir := by
  obtain ⟨rest, rfl⟩ := inside
  induction rest using List.reverseRecOn with
  | nil => rwa [List.append_nil] at dir
  | append_singleton rest name ih =>
    rw [← List.append_assoc] at dir
    exact ih (fs.parents _ name (by rw [dir]; rfl))

theorem enter_eq_some_iff {fs : FileSystem} {place next : Place} {s : List Char} :
    fs.enter place s = some next ↔
      fs.kind place = some .dir ∧ (fs.kind (move place s)).isSome = true ∧ next = move place s := by
  unfold enter move
  by_cases dir : fs.kind place = some .dir
  · have higher := fs.kind_of_prefix (List.dropLast_prefix place) dir
    rw [if_pos dir]
    split_ifs with dot up there
    · simp [dir, eq_comm]
    · simp [dir, higher, eq_comm]
    · simp [dir, there, eq_comm]
    · simp [there]
  · simp [dir]

theorem walk_isSome_iff {fs : FileSystem} {place : Place} {ss : List (List Char)} :
    (fs.walk place ss).isSome = true ↔ (∀ on ∈ places place ss, fs.kind on = some .dir) ∧
      (ss ≠ [] → (fs.kind (ss.foldl move place)).isSome = true) := by
  induction ss generalizing place with
  | nil => simp [walk, places]
  | cons s ss ih =>
    have first : (fs.walk place (s :: ss)).isSome = true ↔ fs.kind place = some .dir ∧
        (fs.kind (move place s)).isSome = true ∧ (fs.walk (move place s) ss).isSome = true := by
      constructor
      · intro walked
        obtain ⟨place', walked⟩ := Option.isSome_iff_exists.mp walked
        obtain ⟨next, entered, rest⟩ := Option.bind_eq_some_iff.mp walked
        obtain ⟨dir, there, rfl⟩ := enter_eq_some_iff.mp entered
        exact ⟨dir, there, by rw [rest]; rfl⟩
      · rintro ⟨dir, there, rest⟩
        rw [walk, enter_eq_some_iff.mpr ⟨dir, there, rfl⟩]
        exact rest
    rw [first, ih]
    cases ss with
    | nil => simp [places]
    | cons s' ss =>
      simp only [places, List.forall_mem_cons, List.foldl_cons, ne_eq, reduceCtorEq,
        not_false_eq_true, forall_const]
      constructor
      · rintro ⟨dir, -, ⟨next, rest⟩, there⟩
        exact ⟨⟨dir, next, rest⟩, there⟩
      · rintro ⟨⟨dir, next, rest⟩, there⟩
        exact ⟨dir, by rw [next]; rfl, ⟨next, rest⟩, there⟩

theorem exists?_iff {fs : FileSystem} {cwd : Place} {p : PathString} :
    fs.exists? cwd p = true ↔ p ≠ [] ∧ (∀ on ∈ trail cwd p, fs.kind on = some .dir) ∧
      (fs.kind (locate cwd p)).isSome = true := by
  unfold exists? resolve
  split
  · simp [*]
  · rename_i named
    rw [walk_isSome_iff]
    simp [named, trail, locate, steps_ne_nil]

def above (files : List Place) (place : Place) : Bool :=
  files.any fun f => place.isPrefixOf f && place != f

def kindAmong (files : List Place) (place : Place) : Option NodeKind :=
  if place = [] || above files place then some .dir
  else if files.contains place then some .file
  else none

theorem above_of_append {files : List Place} {place f : Place} {name : List Char}
    (member : f ∈ files) (inside : place ++ [name] <+: f) : above files place = true := by
  obtain ⟨rest, rfl⟩ := inside
  exact List.any_eq_true.mpr ⟨_, member, by simp⟩

theorem kindAmong_parents (files : List Place) (place : Place) (name : List Char)
    (there : (kindAmong files (place ++ [name])).isSome = true) :
    kindAmong files place = some .dir := by
  have higher : above files place = true := by
    unfold kindAmong at there
    split at there
    · rename_i dir
      simp only [List.append_eq_nil_iff, List.cons_ne_nil, and_false, decide_false,
        Bool.false_or] at dir
      obtain ⟨f, member, inside⟩ := List.any_eq_true.mp dir
      exact above_of_append member (List.isPrefixOf_iff_prefix.mp ((Bool.and_eq_true _ _).mp inside).1)
    · split at there
      · rename_i file
        exact above_of_append (List.contains_iff_mem.mp file) (List.prefix_refl _)
      · cases there
  simp [kindAmong, higher]

/-- The file system with the given files, and the directories above them. -/
def ofFiles (files : List Place) : FileSystem where
  kind := kindAmong files
  root := rfl
  parents := kindAmong_parents files

/-- A path leads to a place it has come by, or right below one. -/
theorem foldl_move_below (place : Place) {ss : List (List Char)} (some : ss ≠ []) :
    ∃ on ∈ places place ss, ss.foldl move place <+: on ∨ ∃ name, ss.foldl move place = on ++ [name] := by
  induction ss generalizing place with
  | nil => exact absurd rfl some
  | cons s ss ih =>
    by_cases last : ss = []
    · subst last
      refine ⟨place, List.mem_cons_self, ?_⟩
      simp only [List.foldl_cons, List.foldl_nil, move]
      split_ifs with dot up
      · exact .inl (List.prefix_refl place)
      · exact .inl (List.dropLast_prefix place)
      · exact .inr ⟨s, rfl⟩
    · obtain ⟨on, member, below⟩ := ih (move place s) last
      exact ⟨on, List.mem_cons_of_mem _ member, below⟩

def leastKind (cwd : Place) (p : PathString) (place : Place) : Option NodeKind :=
  if ∃ on ∈ trail cwd p, place <+: on then some .dir
  else if place = locate cwd p then some .file
  else none

theorem leastKind_parents (cwd : Place) (p : PathString) (place : Place) (name : List Char)
    (there : (leastKind cwd p (place ++ [name])).isSome = true) :
    leastKind cwd p place = some .dir := by
  have higher : ∃ on ∈ trail cwd p, place <+: on := by
    unfold leastKind at there
    split_ifs at there with dir target
    · obtain ⟨on, member, inside⟩ := dir
      exact ⟨on, member, (List.prefix_append place [name]).trans inside⟩
    · obtain ⟨on, member, below | ⟨last, same⟩⟩ :=
        foldl_move_below (start cwd p) (steps_ne_nil p)
      · exact absurd ⟨on, member, target ▸ below⟩ dir
      · obtain ⟨rfl, -⟩ := List.append_inj' (target.trans same) rfl
        exact ⟨place, member, List.prefix_refl place⟩
    · cases there
  exact if_pos higher

/-- The file system with what a path needs to be there, and nothing else. -/
def least (cwd : Place) (p : PathString) : FileSystem where
  kind := leastKind cwd p
  root := by
    obtain ⟨on, member, _⟩ := foldl_move_below (start cwd p) (steps_ne_nil p)
    exact if_pos ⟨on, member, List.nil_prefix⟩
  parents := leastKind_parents cwd p

theorem dir_of_least {fs : FileSystem} {cwd : Place} {p : PathString}
    (there : fs.exists? cwd p = true) {place : Place}
    (dir : (least cwd p).kind place = some .dir) : fs.kind place = some .dir := by
  simp only [least, leastKind] at dir
  split_ifs at dir with below target
  · obtain ⟨on, member, inside⟩ := below
    exact fs.kind_of_prefix inside ((exists?_iff.mp there).2.1 on member)
  · cases dir

theorem isSome_of_least {fs : FileSystem} {cwd : Place} {p : PathString}
    (there : fs.exists? cwd p = true) {place : Place}
    (node : ((least cwd p).kind place).isSome = true) : (fs.kind place).isSome = true := by
  by_cases dir : (least cwd p).kind place = some .dir
  · rw [dir_of_least there dir]
    rfl
  · simp only [least, leastKind] at node dir
    split_ifs at node dir with below target
    · exact absurd rfl dir
    · rw [target]
      exact (exists?_iff.mp there).2.2
    · cases node

/-- What is there on the least file system of a path is there wherever the path is. -/
theorem exists?_of_least {fs : FileSystem} {cwd : Place} {p q : PathString}
    (found : (least cwd p).exists? cwd q = true) (there : fs.exists? cwd p = true) :
    fs.exists? cwd q = true := by
  obtain ⟨named, dirs, node⟩ := exists?_iff.mp found
  exact exists?_iff.mpr ⟨named, fun on member => dir_of_least there (dirs on member),
    isSome_of_least there node⟩

end FileSystem
