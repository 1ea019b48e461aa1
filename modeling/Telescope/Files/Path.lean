/-!
# Paths

A path is a text whose names are divided by slashes. Paths are joined as texts and otherwise left as
they are: nothing is resolved or shortened.
-/

namespace Telescope.Path

/-- The path of `part` as seen from `base`. An absolute part stands for itself, and an empty base
adds nothing; otherwise one slash divides the two. -/
def join (base part : String) : String :=
  if part.toList.head? == some '/' then part
  else if base.isEmpty || base.toList.getLast? == some '/' then base ++ part
  else base ++ "/" ++ part

/-- What comes after the last slash. -/
def fileName (path : String) : String :=
  String.ofList (path.toList.reverse.takeWhile (· != '/')).reverse

/-- What comes before the last slash; `none` if there is no slash. -/
def directory? (path : String) : Option String :=
  match path.toList.reverse.dropWhile (· != '/') with
  | [] => none
  | _ :: rest => some (String.ofList rest.reverse)

/-- The names of a path given the start of the first one, last character first; two slashes in a row
have nothing between them. -/
def namesFrom (name : List Char) : List Char → List String
  | [] => if name.isEmpty then [] else [String.ofList name.reverse]
  | c :: rest =>
    if c = '/' then
      if name.isEmpty then namesFrom [] rest else String.ofList name.reverse :: namesFrom [] rest
    else namesFrom (c :: name) rest

/-- The names between the slashes. -/
def names (path : String) : List String :=
  namesFrom [] path.toList

/-- Whether a path starts at the root of the file system. -/
def isAbsolute (path : String) : Bool :=
  path.toList.head? == some '/'

/-- Whether a path can only be that of a directory, because it ends in a slash. -/
def endsInSlash (path : String) : Bool :=
  path.toList.getLast? == some '/'

/-- An absolute path is not joined to anything. -/
theorem join_absolute {part : String} (h : isAbsolute part = true) (base : String) :
    join base part = part := by
  unfold isAbsolute at h
  simp [join, h]

end Telescope.Path
