import RowFilter.Text.Split
import RowFilter.Text.Utf8

/-!
# Files — a tree of files as a value

`Files` holds files and directories by the names on their paths from the root, and the directory
where relative paths start.  A path is followed name by name, so the first name that leads nowhere
decides the fault: one that is missing, a file where a directory is needed, or a name that is too
long.  A slash at the end asks for a directory: no file can be read there, and none can be written.
What is written can be read back at the same path (`read_of_write`), and writing it once more changes
nothing (`write_again`).
-/

namespace RowFilter

set_option autoImplicit false

/-- The bytes of a file. -/
abbrev Bytes := List UInt8

namespace Files

inductive Entry where
  | file (bytes : Bytes)
  | directory
  deriving DecidableEq

inductive Fault where
  | notFound
  | notDirectory
  | isDirectory
  | nameTooLong
  /-- A path with a zero byte, which no name can hold. -/
  | zeroByte
  deriving DecidableEq, Repr

namespace Fault

def message : Fault → String
  | notFound => "No such file or directory (os error 2)"
  | notDirectory => "Not a directory (os error 20)"
  | isDirectory => "Is a directory (os error 21)"
  | nameTooLong => "File name too long (os error 36)"
  | zeroByte => "file name contained an unexpected NUL byte"

end Fault

/-! ## Paths -/

/-- A path, read. -/
structure Path where
  /-- Whether it starts at the root. -/
  rooted : Bool
  /-- What stands between its slashes; several slashes count as one. -/
  names : List String
  /-- Whether a slash ends it. -/
  slashed : Bool

namespace Path

/-- The most bytes of a path. -/
def maxSize : Nat := 4095

/-- The most bytes of a name. -/
def maxNameSize : Nat := 255

/-- The bytes that a text takes. -/
def size (s : String) : Nat := (Text.Utf8.encode s.toList).length

def read (s : String) : Except Fault Path :=
  if Char.ofNat 0 ∈ s.toList then .error .zeroByte
  else if s.toList = [] then .error .notFound
  else if maxSize < size s then .error .nameTooLong
  else .ok
    { rooted := s.toList.head? = some '/'
      names := ((Text.split '/' s.toList).filter (fun name => name ≠ [])).map String.ofList
      slashed := s.toList.getLast? = some '/' }

end Path

end Files

structure Files where
  /-- The directory where relative paths start; it and those above it exist. -/
  here : List String
  entries : List (List String × Files.Entry)

namespace Files

/-- What stands at the names from the root. -/
def get? (files : Files) (names : List String) : Option Entry :=
  if names.isPrefixOf files.here then some .directory
  else (files.entries.find? (fun entry => entry.1 == names)).map (·.2)

/-- What stands at a name in a directory. -/
def lookUp (files : Files) (directory : List String) (name : String) :
    Except Fault (Option Entry) :=
  if Path.maxNameSize < Path.size name then .error .nameTooLong
  else .ok (files.get? (directory ++ [name]))

/-- Where a path leads, before the last name on it is looked up. -/
inductive Place where
  /-- A directory, which exists. -/
  | directory
  /-- A name in a directory that exists. -/
  | inside (directory : List String) (name : String)
  deriving DecidableEq

/-- Follows names from a directory; `.` stays there and `..` goes up. -/
def follow (files : Files) (directory : List String) : List String → Except Fault Place
  | [] => .ok .directory
  | name :: rest =>
    if name = "." then follow files directory rest
    else if name = ".." then follow files directory.dropLast rest
    else if rest.isEmpty then .ok (.inside directory name)
    else
      match files.lookUp directory name with
      | .error fault => .error fault
      | .ok none => .error .notFound
      | .ok (some (.file _)) => .error .notDirectory
      | .ok (some .directory) => follow files (directory ++ [name]) rest

def place (files : Files) (path : Path) : Except Fault Place :=
  files.follow (if path.rooted then [] else files.here) path.names

/-! ## Reading -/

/-- What stands at a path. -/
def find (files : Files) (s : String) : Except Fault Entry := do
  let path ← Path.read s
  match ← files.place path with
  | .directory => .ok .directory
  | .inside directory name =>
    match ← files.lookUp directory name with
    | none => .error .notFound
    | some .directory => .ok .directory
    | some (.file bytes) => if path.slashed then .error .notDirectory else .ok (.file bytes)

def read (files : Files) (s : String) : Except Fault Bytes := do
  match ← files.find s with
  | .directory => .error .isDirectory
  | .file bytes => .ok bytes

/-- Whether a path can be opened for reading; a directory can be opened though not read. -/
def check (files : Files) (s : String) : Except Fault Unit :=
  (files.find s).map fun _ => ()

/-! ## Writing -/

/-- The files with one more, or with one replaced. -/
def put (files : Files) (names : List String) (bytes : Bytes) : Files :=
  { files with
    entries := (names, .file bytes) :: files.entries.filter (fun entry => entry.1 != names) }

/-- Writes a file, in place of the one at the path if there is one.  A slash at the end is refused
before the last name is looked up. -/
def write (files : Files) (s : String) (bytes : Bytes) : Except Fault Files := do
  let path ← Path.read s
  match ← files.place path with
  | .directory => .error .isDirectory
  | .inside directory name =>
    if path.slashed then .error .isDirectory
    else
      match ← files.lookUp directory name with
      | some .directory => .error .isDirectory
      | _ => .ok (files.put (directory ++ [name]) bytes)

/-! ## What is written can be read -/

theorem get?_put_of_ne {files : Files} {names other : List String} {bytes : Bytes}
    (ne : other ≠ names) : (files.put names bytes).get? other = files.get? other := by
  have flip : names ≠ other := ne.symm
  simp only [get?, put]
  congr 2
  simp only [List.find?_cons, beq_eq_false_iff_ne.2 flip]
  induction files.entries with
  | nil => rfl
  | cons entry rest ih =>
    by_cases h : entry.1 = names
    · simp [h, flip, ih]
    · simp [List.find?_cons, h, ih]

theorem get?_put_self {files : Files} {names : List String} {bytes : Bytes}
    (free : files.get? names ≠ some .directory) :
    (files.put names bytes).get? names = some (.file bytes) := by
  by_cases above : names.isPrefixOf files.here = true
  · exact absurd (if_pos above) free
  · simp [get?, put, above]

/-- The same directories are in both, whatever the files. -/
structure SameDirectories (a b : Files) : Prop where
  here : a.here = b.here
  directory_iff : ∀ names, a.get? names = some .directory ↔ b.get? names = some .directory

theorem SameDirectories.refl (files : Files) : SameDirectories files files := ⟨rfl, fun _ => Iff.rfl⟩

theorem SameDirectories.symm {a b : Files} (same : SameDirectories a b) : SameDirectories b a :=
  ⟨same.here.symm, fun names => (same.directory_iff names).symm⟩

/-- A path is followed through directories alone. -/
theorem SameDirectories.follow {a b : Files} (same : SameDirectories a b) {place : Place}
    {directory rest : List String} (led : a.follow directory rest = .ok place) :
    b.follow directory rest = .ok place := by
  induction rest generalizing directory with
  | nil => exact led
  | cons name rest ih =>
    simp only [Files.follow] at led ⊢
    by_cases stay : name = "."
    · rw [if_pos stay] at led ⊢
      exact ih led
    rw [if_neg stay] at led ⊢
    by_cases up : name = ".."
    · rw [if_pos up] at led ⊢
      exact ih led
    rw [if_neg up] at led ⊢
    by_cases last : rest.isEmpty = true
    · rw [if_pos last] at led ⊢
      exact led
    rw [if_neg last] at led ⊢
    simp only [lookUp] at led ⊢
    by_cases long : Path.maxNameSize < Path.size name
    · simp [long] at led
    rw [if_neg long] at led ⊢
    have through : a.get? (directory ++ [name]) = some .directory := by
      cases found : a.get? (directory ++ [name]) with
      | none => simp [found] at led
      | some entry => cases entry with
        | file => simp [found] at led
        | directory => rfl
    have through' := (same.directory_iff _).mp through
    simp only [through] at led
    simp only [through']
    exact ih led

theorem SameDirectories.place {a b : Files} (same : SameDirectories a b) {path : Path}
    {place : Place} (led : a.place path = .ok place) : b.place path = .ok place := by
  rw [Files.place, ← same.here]
  exact same.follow led

/-- A file takes no directory away when it is put where none is. -/
theorem sameDirectories_put {files : Files} {names : List String} {bytes : Bytes}
    (free : files.get? names ≠ some .directory) : SameDirectories files (files.put names bytes) where
  here := rfl
  directory_iff other := by
    by_cases h : other = names
    · subst h
      simp [free, get?_put_self free]
    · rw [get?_put_of_ne h]

theorem place_put {files : Files} {names : List String} {bytes : Bytes}
    (free : files.get? names ≠ some .directory) {path : Path} {place : Place}
    (led : files.place path = .ok place) : (files.put names bytes).place path = .ok place :=
  (sameDirectories_put free).place led

theorem put_put (files : Files) (names : List String) (bytes : Bytes) :
    (files.put names bytes).put names bytes = files.put names bytes := by
  simp [put, List.filter_filter]

/-- What is written is put at a name in a directory, where no directory is. -/
theorem put_of_write {files after : Files} {s : String} {bytes : Bytes}
    (written : files.write s bytes = .ok after) :
    ∃ path directory name, Path.read s = .ok path ∧ path.slashed = false ∧
      files.place path = .ok (.inside directory name) ∧ ¬ Path.maxNameSize < Path.size name ∧
      files.get? (directory ++ [name]) ≠ some .directory ∧
      after = files.put (directory ++ [name]) bytes := by
  simp only [write, bind, Except.bind] at written
  cases readPath : Path.read s with
  | error => simp [readPath] at written
  | ok path =>
    cases led : files.place path with
    | error => simp [readPath, led] at written
    | ok place =>
      cases place with
      | directory => simp [readPath, led] at written
      | inside directory name =>
        by_cases slash : path.slashed = true
        · simp [readPath, led, slash] at written
        by_cases long : Path.maxNameSize < Path.size name
        · simp [readPath, led, slash, lookUp, long] at written
        have free : files.get? (directory ++ [name]) ≠ some .directory := by
          intro full
          simp [readPath, led, slash, lookUp, long, full] at written
        refine ⟨path, directory, name, rfl, Bool.eq_false_iff.mpr slash, led, long, free, ?_⟩
        simp only [readPath, led, slash, lookUp, long, if_false] at written
        split at written
        · simp at written
        · exact (Except.ok.inj written).symm

theorem read_of_write {files after : Files} {s : String} {bytes : Bytes}
    (written : files.write s bytes = .ok after) : after.read s = .ok bytes := by
  obtain ⟨path, directory, name, readPath, slash, led, long, free, rfl⟩ := put_of_write written
  simp [read, find, readPath, place_put free led, lookUp, long, slash, get?_put_self free, bind,
    Except.bind]

/-- Writing the same once more changes nothing. -/
theorem write_again {files after : Files} {s : String} {bytes : Bytes}
    (written : files.write s bytes = .ok after) : after.write s bytes = .ok after := by
  obtain ⟨path, directory, name, readPath, slash, led, long, free, rfl⟩ := put_of_write written
  simp [write, readPath, place_put free led, lookUp, long, slash, get?_put_self free, bind,
    Except.bind, put_put]

/-- Whether a path can be written, and at which names, is a matter of directories. -/
theorem SameDirectories.write {a b after : Files} (same : SameDirectories a b) {s : String}
    {bytes : Bytes} (written : a.write s bytes = .ok after) (bytes' : Bytes) :
    ∃ names, after = a.put names bytes ∧ b.write s bytes' = .ok (b.put names bytes') := by
  obtain ⟨path, directory, name, readPath, slash, led, long, free, rfl⟩ := put_of_write written
  have free' : b.get? (directory ++ [name]) ≠ some .directory :=
    fun full => free ((same.directory_iff _).mpr full)
  refine ⟨directory ++ [name], rfl, ?_⟩
  simp [Files.write, readPath, same.place led, slash, lookUp, long, bind, Except.bind]

end Files

end RowFilter
