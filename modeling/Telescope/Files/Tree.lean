import Telescope.Files.Path

/-!
# File trees

A file system as a value: directories, and files with their text and whether they can be executed.
One of the directories is where a program works. An absolute path starts at the root and any other
path there; both may lead anywhere in the tree. Reading, writing and making directories are functions
on it, which fail as the file system would: on names that are missing, that are too long, or that
stand for the other kind of entry. There are no links, and nothing is refused for want of permission.
-/

namespace Telescope

/-- What a name stands for. -/
inductive Entry
  /-- a directory -/
  | directory
  /-- a file with its text, and whether it can be executed -/
  | file (text : String) (executable : Bool)
deriving DecidableEq, Repr

/-- Why an operation on files failed. -/
inductive FileError
  /-- a name on the path does not exist -/
  | notFound
  /-- something exists where a directory was to be made -/
  | exists
  /-- a file stands where the path needs a directory -/
  | notDirectory
  /-- a directory stands where the path needs a file -/
  | isDirectory
  /-- a name or the path is longer than the file system allows -/
  | tooLong
  /-- the path holds the zero character -/
  | zeroCharacter
deriving DecidableEq, Repr

/-- The system's message for a failure. -/
def FileError.message : FileError → String
  | .notFound => "No such file or directory (os error 2)"
  | .exists => "File exists (os error 17)"
  | .notDirectory => "Not a directory (os error 20)"
  | .isDirectory => "Is a directory (os error 21)"
  | .tooLong => "File name too long (os error 36)"
  | .zeroCharacter => "file name contained an unexpected NUL byte"

/-- The entries of a file system, each at its place: the names on the way to it from the root. -/
structure Files where
  /-- the place of the working directory -/
  home : List String
  /-- places and entries, in the order in which they were made -/
  entries : List (List String × Entry)
deriving Repr

namespace Files

/-- Nothing but a working directory, at the root. -/
def empty : Files := ⟨[], []⟩

instance : Inhabited Files := ⟨empty⟩

/-! ## Places -/

/-- The entry at a place; the working directory and those above it are always there. -/
def get? (files : Files) (place : List String) : Option Entry :=
  if place <+: files.home then some .directory
  else (files.entries.find? fun e => e.1 == place).map (·.2)

/-- The entries with one of them made anew. -/
def putIn (place : List String) (entry : Entry) :
    List (List String × Entry) → List (List String × Entry)
  | [] => [(place, entry)]
  | e :: rest => if e.1 == place then (place, entry) :: rest else e :: putIn place entry rest

/-- Makes an entry, in place of the one that was there. -/
def put (files : Files) (place : List String) (entry : Entry) : Files :=
  ⟨files.home, putIn place entry files.entries⟩

/-- What was put in is found. -/
theorem find?_putIn_self (place : List String) (entry : Entry) (es : List (List String × Entry)) :
    (putIn place entry es).find? (fun e => e.1 == place) = some (place, entry) := by
  induction es with
  | nil => simp [putIn]
  | cons e rest ih => by_cases h : e.1 == place <;> simp_all [putIn]

/-- At other places nothing has changed. -/
theorem find?_putIn_of_ne {place other : List String} (h : other ≠ place) (entry : Entry)
    (es : List (List String × Entry)) :
    (putIn place entry es).find? (fun e => e.1 == other) = es.find? fun e => e.1 == other := by
  have hp : (place == other) = false := by simpa using Ne.symm h
  induction es with
  | nil => simp [putIn, hp]
  | cons e rest ih =>
    by_cases he : e.1 == place
    · have : (e.1 == other) = false := by rw [beq_iff_eq.1 he]; exact hp
      simp [putIn, he, hp, this]
    · by_cases ho : e.1 == other <;> simp_all [putIn]

/-- What was put at a place is found there. -/
theorem get?_put_self (files : Files) {place : List String} (h : ¬ place <+: files.home)
    (entry : Entry) : (files.put place entry).get? place = some entry := by
  simp [get?, put, h, find?_putIn_self]

/-- Other places keep what they have. -/
theorem get?_put_of_ne (files : Files) {place other : List String} (h : other ≠ place)
    (entry : Entry) : (files.put place entry).get? other = files.get? other := by
  simp [get?, put, find?_putIn_of_ne h]

/-! ## Ways -/

/-- The longest name that the file system takes, in bytes. -/
def longestName : Nat := 255

/-- The longest path that the file system takes, in bytes. -/
def longestPath : Nat := 4095

/-- Refuses paths that no operation can follow. -/
def check (path : String) : Except FileError Unit :=
  if path.toList.any (· == '\x00') then .error .zeroCharacter
  else if longestPath < path.utf8ByteSize then .error .tooLong
  else .ok ()

/-- Where the names of a path start: at the root if it is absolute, otherwise where the program
works. -/
def start (home : List String) (path : String) : List String :=
  if Path.isAbsolute path then [] else home

/-- The place that a name leads to, whether or not anything is there. The directory above the root is
the root itself. -/
def step (place : List String) (name : String) : Except FileError (List String) :=
  if name == "." then .ok place
  else if name == ".." then .ok place.dropLast
  else if longestName < name.utf8ByteSize then .error .tooLong
  else .ok (place ++ [name])

/-- The directory that a name leads to. -/
def enter (files : Files) (place : List String) (name : String) : Except FileError (List String) := do
  let next ← step place name
  match files.get? next with
  | some .directory => .ok next
  | some (.file _ _) => .error .notDirectory
  | none => .error .notFound

/-- The directory at the end of some names. -/
def follow (files : Files) (place : List String) (names : List String) :
    Except FileError (List String) :=
  names.foldlM (files.enter ·) place

/-- The place that a path names as a file: the directories before the last name exist. -/
def locate (files : Files) (path : String) : Except FileError (List String) := do
  check path
  let names := Path.names path
  match names.getLast? with
  | none => .error (if path.isEmpty then .notFound else .isDirectory)
  | some last =>
    let directory ← files.follow (start files.home path) names.dropLast
    let place ← step directory last
    if last == "." || last == ".." then .error .isDirectory
    else .ok place

/-! ## Operations -/

/-- The text of a file. -/
def read (files : Files) (path : String) : Except FileError String := do
  let place ← files.locate path
  match files.get? place with
  | some (.file text _) => if Path.endsInSlash path then .error .notDirectory else .ok text
  | some .directory => .error .isDirectory
  | none => .error .notFound

/-- Writes a file, with this text and nothing else. A file that was there stays executable. -/
def write (files : Files) (path text : String) : Except FileError Files := do
  let place ← files.locate path
  if Path.endsInSlash path then .error .isDirectory
  else
    match files.get? place with
    | some .directory => .error .isDirectory
    | some (.file _ executable) => .ok (files.put place (.file text executable))
    | none => .ok (files.put place (.file text false))

/-- Makes a file executable. -/
def allowExecution (files : Files) (path : String) : Except FileError Files := do
  let place ← files.locate path
  match files.get? place with
  | some (.file text _) => .ok (files.put place (.file text true))
  | some .directory => .ok files
  | none => .error .notFound

/-- Makes the directories that some names lead through, starting at a place. What was made before a
failure stays. -/
def makeFrom (files : Files) (place : List String) : List String → Files × Except FileError Unit
  | [] => (files, .ok ())
  | name :: rest =>
    match step place name with
    | .error e => (files, .error e)
    | .ok next =>
      match files.get? next with
      | some .directory => makeFrom files next rest
      | some (.file _ _) => (files, .error (if rest.isEmpty then .exists else .notDirectory))
      | none => makeFrom (files.put next .directory) next rest

/-- Makes a directory and those above it, as far as they do not exist. -/
def makeDirectories (files : Files) (path : String) : Files × Except FileError Unit :=
  match check path with
  | .error e => (files, .error e)
  | .ok () => makeFrom files (start files.home path) (Path.names path)

/-! ## Whole trees -/

/-- Makes a file with the directories that lead to it, or a directory if the path ends in a slash.
What cannot be made is left out. -/
def add (files : Files) (path text : String) : Files :=
  if Path.endsInSlash path then (files.makeDirectories path).1
  else
    let files := match Path.directory? path with
      | some directory => (files.makeDirectories directory).1
      | none => files
    match files.write path text with
    | .ok files => files
    | .error _ => files

/-- The files with these paths and texts, seen from a working directory at the root. -/
def ofTexts (texts : List (String × String)) : Files :=
  texts.foldl (fun files (path, text) => files.add path text) empty

/-- The entries that another tree does not have, in the order in which they were made. -/
def since (files before : Files) : List (List String × Entry) :=
  files.entries.filter fun (place, entry) => before.get? place != some entry

end Files

end Telescope
