import ValkyrieRs.Lib.Walk
import ValkyrieRs.Fs

/-!
# Guest paths and the rootfs

`get_path_at` and `resolve_guest_path` append the guest path to a directory without resolving its
`..` components.  Here paths are resolved lexically, as walks from the host's working directory,
and a guest path turns out to stay inside the rootfs exactly when it goes down again along every
component of the rootfs that it went up past.
-/

namespace ValkyrieRs

open Walk

/-- A component of a path. -/
abbrev Name := List Char

/-! ## Lexical resolution -/

/-- The move that one component of a path makes. -/
def moveOf (name : Name) : Move Name :=
  if name = [] ∨ name = ['.'] then .stay else if name = ['.', '.'] then .up else .down name

/-- The moves of a path. -/
def moves (path : List Char) : List (Move Name) := (path.splitOn '/').map moveOf

/-- The name of an entry of a directory. -/
def IsEntry (name : Name) : Prop :=
  name ≠ [] ∧ name ≠ ['.'] ∧ name ≠ ['.', '.'] ∧ '/' ∉ name

instance (name : Name) : Decidable (IsEntry name) := inferInstanceAs (Decidable (_ ∧ _))

/-- The host's working directory, an absolute path without `.` and `..` components. -/
structure WorkingDir where
  names : List Name
  entries : ∀ name ∈ names, IsEntry name

/-- What `current_dir` returns. -/
def WorkingDir.text (dir : WorkingDir) : List Char := '/' :: ['/'].intercalate dir.names

/-- The place that a host path names. -/
def resolve (dir : WorkingDir) (path : List Char) : List Name :=
  walk (if path.head? = some '/' then [] else dir.names) (moves path)

/-- The path names the rootfs or a place below it. -/
def Inside (dir : WorkingDir) (rootfs path : List Char) : Prop :=
  resolve dir rootfs <+: resolve dir path

instance (dir : WorkingDir) (rootfs path : List Char) : Decidable (Inside dir rootfs path) :=
  inferInstanceAs (Decidable (_ <+: _))

variable {dir : WorkingDir} {rootfs base path start : List Char} {name : Name}

theorem moveOf_entry (h : IsEntry name) : moveOf name = .down name := by
  obtain ⟨h₁, h₂, h₃, -⟩ := h
  simp [moveOf, h₁, h₂, h₃]

theorem moves_append_slash (a b : List Char) : moves (a ++ '/' :: b) = moves a ++ moves b := by
  rw [moves, List.splitOn_append_cons_of_beq a b rfl, List.map_append]
  rfl

@[simp] theorem walk_moves_nil (place : List Name) : walk place (moves []) = place := rfl

@[simp] theorem walk_moves_slash (place : List Name) :
    walk place (moves ('/' :: path)) = walk place (moves path) := by
  rw [← List.nil_append ('/' :: path), moves_append_slash, walk_append, walk_moves_nil]

@[simp] theorem climb_moves_slash : climb (moves ('/' :: path)) = climb (moves path) := by
  rw [← List.nil_append ('/' :: path), moves_append_slash]
  rfl

@[simp] theorem climb_moves_trimSlashes : climb (moves (trimSlashes path)) = climb (moves path) := by
  induction path with
  | nil => rfl
  | cons c path ih =>
    by_cases slash : c = '/'
    · subst slash
      rw [climb_moves_slash, ← ih]
      rfl
    · have keep : trimSlashes (c :: path) = c :: path :=
        List.dropWhile_cons_of_neg (by simpa using slash)
      rw [keep]

theorem walk_moves_trimSlashes (place : List Name) :
    walk place (moves (trimSlashes path)) = walk place (moves path) := by
  rw [walk_eq, walk_eq, climb_moves_trimSlashes]

theorem trimSlashes_relative : (trimSlashes path).head? ≠ some '/' := by
  intro absolute
  have last := List.head?_dropWhile_not (· == '/') path
  rw [← trimSlashes, absolute] at last
  simp at last

/-! ## Appending -/

/-- An appended path is walked from the directory. -/
theorem resolve_push (relative : path.head? ≠ some '/') :
    resolve dir (push base path) = walk (resolve dir base) (moves path) := by
  rw [push, if_neg relative]
  split_ifs with ends
  · rcases ends with rfl | ends
    · simp [resolve, relative]
    · obtain ⟨front, rfl⟩ := List.getLast?_eq_some_iff.1 ends
      have head : (front ++ ['/'] ++ path).head? = (front ++ ['/']).head? := by
        cases front <;> rfl
      rw [resolve, resolve, head, List.append_assoc, List.singleton_append, moves_append_slash,
        moves_append_slash, walk_append, walk_append, walk_moves_nil]
  · obtain ⟨nonempty, -⟩ := not_or.1 ends
    have head : (base ++ '/' :: path).head? = base.head? := by
      cases base with
      | nil => exact (nonempty rfl).elim
      | cons => rfl
    rw [resolve, resolve, head, moves_append_slash, walk_append]

theorem resolve_push_trimSlashes :
    resolve dir (push base (trimSlashes path)) = walk (resolve dir base) (moves path) := by
  rw [resolve_push trimSlashes_relative, walk_moves_trimSlashes]

/-- The working directory is a descent. -/
theorem walk_text (place : List Name) : walk place (moves dir.text) = place ++ dir.names := by
  rw [WorkingDir.text, walk_moves_slash]
  obtain ⟨names, entries⟩ := dir
  show walk place (moves (['/'].intercalate names)) = place ++ names
  rcases eq_or_ne names [] with rfl | some
  · simp [List.intercalate_nil]
  · rw [moves, List.splitOn_intercalate '/' (fun name mem => (entries name mem).2.2.2) some]
    clear some
    induction names generalizing place with
    | nil => simp
    | cons name names ih =>
      have entry := moveOf_entry (entries name (.head _))
      show walk (step place (moveOf name)) (names.map moveOf) = _
      rw [entry, step, ih _ fun n mem => entries n (.tail _ mem), List.append_assoc]
      rfl

/-- `get_cwd_path` gives a directory inside the rootfs. -/
theorem inside_getCwdPath (h : getCwdPath rootfs (some dir.text) = some start) :
    Inside dir rootfs start := by
  rw [getCwdPath, Option.map_some, Option.some_inj] at h
  split_ifs at h with top
  · rw [← h]
    exact List.prefix_rfl
  · rw [← h, Inside, resolve_push_trimSlashes, walk_text]
    exact List.prefix_append _ _

/-! ## Guest paths -/

/-- The directory that the guest path is taken from. -/
def startDir (rootfs : List Char) (dir : WorkingDir) (table : FdTable) (dirfd : U32)
    (path : List Char) : Option (List Char) :=
  if path.head? = some '/' then some rootfs
  else if dirfd ≠ atFdcwd then (table.lookup (dirfd.signExtend 64)).map (·.path)
  else getCwdPath rootfs (some dir.text)

/-- The path goes down again along each component of the rootfs that it goes up past. -/
def ReturnsTo (dir : WorkingDir) (rootfs start path : List Char) : Prop :=
  (resolve dir rootfs).drop ((resolve dir start).length - (climb (moves path)).up) <+:
    (climb (moves path)).names

instance (dir : WorkingDir) (rootfs start path : List Char) :
    Decidable (ReturnsTo dir rootfs start path) := inferInstanceAs (Decidable (_ <+: _))

/-- A path without `..` components returns to where it starts. -/
theorem returnsTo_of_noUp (below : Inside dir rootfs start) (noUp : .up ∉ moves path) :
    ReturnsTo dir rootfs start path :=
  (isPrefix_walk_iff below).1 (List.IsPrefix.trans below (isPrefix_walk_of_noUp noUp))

theorem inside_push_iff (below : Inside dir rootfs start) :
    Inside dir rootfs (push start (trimSlashes path)) ↔ ReturnsTo dir rootfs start path := by
  rw [Inside, resolve_push_trimSlashes]
  exact isPrefix_walk_iff below

theorem inside_resolveGuestPath_iff :
    Inside dir rootfs (resolveGuestPath rootfs path) ↔ ReturnsTo dir rootfs rootfs path := by
  have below : Inside dir rootfs rootfs := List.prefix_rfl
  rw [resolveGuestPath]
  split_ifs with absolute
  · exact inside_push_iff below
  · rw [Inside, resolve_push absolute]
    exact isPrefix_walk_iff below

variable {table : FdTable} {dirfd : U32}

/-- `get_path_at` appends the path to the directory that it is taken from. -/
theorem getPathAt_eq_some_iff {hostPath : List Char} :
    getPathAt rootfs (some dir.text) table dirfd path = some (some hostPath) ↔
      ∃ start, startDir rootfs dir table dirfd (trim path) = some start ∧
        push start (trimSlashes (trim path)) = hostPath := by
  simp only [getPathAt, startDir]
  by_cases absolute : (trim path).head? = some '/'
  · simp [absolute]
  · rw [if_neg absolute, if_neg absolute]
    by_cases descriptor : dirfd ≠ atFdcwd
    · rw [if_pos descriptor, if_pos descriptor]
      cases table.lookup (dirfd.signExtend 64) <;> simp
    · rw [if_neg descriptor, if_neg descriptor]
      cases getCwdPath rootfs (some dir.text) <;> simp

theorem inside_startDir
    (recorded : dirfd ≠ atFdcwd → ∀ df, table.lookup (dirfd.signExtend 64) = some df →
      Inside dir rootfs df.path)
    (h : startDir rootfs dir table dirfd path = some start) : Inside dir rootfs start := by
  unfold startDir at h
  split_ifs at h with absolute descriptor
  · cases h
    exact List.prefix_rfl
  · obtain ⟨df, found, rfl⟩ := Option.map_eq_some_iff.1 h
    exact recorded descriptor df found
  · exact inside_getCwdPath h

/-- A guest opens the parent of the rootfs. -/
theorem path_leaves_rootfs :
    ¬ ∀ hostPath, getPathAt "/srv/rootfs".toList (some (WorkingDir.text ⟨[], nofun⟩)) ∅ atFdcwd
        "/../etc/passwd".toList = some (some hostPath) →
      Inside ⟨[], nofun⟩ "/srv/rootfs".toList hostPath := by
  intro inside
  have outside : ¬ Inside ⟨[], nofun⟩ "/srv/rootfs".toList "/srv/rootfs/../etc/passwd".toList := by
    decide
  exact outside (inside _ (by decide))

/-- A guest path stays inside the rootfs exactly when it goes down again along the components of
the rootfs that it goes up past. -/
theorem guest_paths_inside_iff (dir : WorkingDir) (rootfs : List Char) (table : FdTable)
    (dirfd : U32)
    (recorded : dirfd ≠ atFdcwd → ∀ df, table.lookup (dirfd.signExtend 64) = some df →
      Inside dir rootfs df.path)
    (path : List Char) :
    ((∀ hostPath, getPathAt rootfs (some dir.text) table dirfd path = some (some hostPath) →
        Inside dir rootfs hostPath) ↔
      ∀ start, startDir rootfs dir table dirfd (trim path) = some start →
        ReturnsTo dir rootfs start (trim path)) ∧
    (Inside dir rootfs (resolveGuestPath rootfs path) ↔ ReturnsTo dir rootfs rootfs path) := by
  refine ⟨⟨fun inside start from_ => ?_, fun returns hostPath found => ?_⟩,
    inside_resolveGuestPath_iff⟩
  · apply (inside_push_iff (inside_startDir recorded from_)).1
    exact inside _ (getPathAt_eq_some_iff.2 ⟨start, from_, rfl⟩)
  · obtain ⟨start, from_, rfl⟩ := getPathAt_eq_some_iff.1 found
    exact (inside_push_iff (inside_startDir recorded from_)).2 (returns start from_)

/-- A table with the directory `/srv/rootfs/etc` as descriptor 3. -/
def etcTable : FdTable :=
  (∅ : FdTable).insert 3 ⟨3, "/srv/rootfs/etc".toList, 0, 0⟩

theorem guest_paths_inside_iff_descriptor :
    ((∀ hostPath, getPathAt "/srv/rootfs".toList (some (WorkingDir.text ⟨[], nofun⟩)) etcTable 3
          "../usr".toList = some (some hostPath) →
        Inside ⟨[], nofun⟩ "/srv/rootfs".toList hostPath) ↔
      ∀ start, startDir "/srv/rootfs".toList ⟨[], nofun⟩ etcTable 3 (trim "../usr".toList) =
          some start →
        ReturnsTo ⟨[], nofun⟩ "/srv/rootfs".toList start (trim "../usr".toList)) ∧
    (Inside ⟨[], nofun⟩ "/srv/rootfs".toList
        (resolveGuestPath "/srv/rootfs".toList "../usr".toList) ↔
      ReturnsTo ⟨[], nofun⟩ "/srv/rootfs".toList "/srv/rootfs".toList "../usr".toList) := by
  refine guest_paths_inside_iff ⟨[], nofun⟩ _ etcTable 3 (fun _ df found => ?_) _
  obtain rfl : ⟨3, "/srv/rootfs/etc".toList, 0, 0⟩ = df := Option.some_inj.1 found
  decide

end ValkyrieRs
