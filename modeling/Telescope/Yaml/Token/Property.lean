import Telescope.Yaml.Spot
import Telescope.Yaml.Token
import Telescope.Yaml.Token.Quoted

/-!
# Anchors, tags and directives

The names that stand around nodes. An anchor names a node, a tag its kind. A tag is a handle and the
rest; the handle stands for the start of a name that a directive gives. Tags may hold escaped octets,
which have to be UTF-8; each octet counts as one character here. An escaped zero ends the text of a
tag, though what follows it up to the end of the tag has to be in order too.
-/

namespace Telescope.Yaml

/-- The letters, digits and marks in front of a text, and what follows them. -/
def nameRun (rest : List Spot) : List Char × List Spot :=
  (Spot.chars (rest.takeWhile fun s => isName s.char), rest.dropWhile fun s => isName s.char)

/-! ## Anchors -/

/-- The marks that may follow the name of an anchor at once. -/
def endsAnchor (rest : List Spot) : Bool :=
  Spot.atGap rest || match rest with
    | s :: _ => "?:,]\x7d%@\x60".toList.contains s.char
    | [] => true

/-- The name of an anchor, after its mark. -/
def anchorName? (rest : List Spot) : Option (List Char × List Spot) :=
  let (name, rest) := nameRun rest
  if name.isEmpty || !endsAnchor rest then none else some (name, rest)

/-! ## Tags -/

/-- The characters of a tag; within angle brackets there are a few more. -/
def isTagCharacter (verbatim : Bool) (c : Char) : Bool :=
  isName c || ";/?:@&=+$.!~*'()".toList.contains c || (verbatim && ",[]".toList.contains c)

/-- The number of octets that follow the first one of a character. -/
def octetsAfter? (octet : Nat) : Option Nat :=
  if octet < 0x80 then some 0
  else if octet < 0xc0 then none
  else if octet < 0xe0 then some 1
  else if octet < 0xf0 then some 2
  else if octet < 0xf8 then some 3
  else none

/-- The number of octets still to follow after an octet, of which `pending` were to follow before. -/
def octet? (pending octet : Nat) : Option Nat :=
  if pending = 0 then octetsAfter? octet
  else if 0x80 ≤ octet ∧ octet < 0xc0 then some (pending - 1)
  else none

/-- The characters of a tag in front of a text, and what follows them. -/
def tagText? (verbatim : Bool) (pending : Nat) : List Spot → Option (List Char × List Spot)
  | [] => if pending = 0 then some ([], []) else none
  | s :: rest =>
    if s.char = '%' then
      match rest with
      | a :: b :: rest =>
        match Quoted.hexDigit? a.char, Quoted.hexDigit? b.char with
        | some a, some b =>
          match octet? pending (a * 16 + b) with
          | none => none
          | some pending =>
            (tagText? verbatim pending rest).map fun (cs, rest) => (Char.ofNat (a * 16 + b) :: cs, rest)
        | _, _ => none
      | _ => none
    else if pending ≠ 0 then none
    else if isTagCharacter verbatim s.char then
      (tagText? verbatim 0 rest).map fun (cs, rest) => (s.char :: cs, rest)
    else some ([], s :: rest)

/-- The characters in front of the first zero. -/
def beforeZero (cs : List Char) : List Char :=
  cs.takeWhile (· != '\x00')

/-- The text of a tag that holds at least one character. -/
def someTagText? (verbatim : Bool) (rest : List Spot) : Option (List Char × List Spot) :=
  match tagText? verbatim 0 rest with
  | some ([], _) | none => none
  | some (text, rest) => some (beforeZero text, rest)

/-- A tag between angle brackets, after the opening one: it has no handle. -/
def verbatimTag? (rest : List Spot) : Option (Token × List Spot) :=
  match someTagText? true rest with
  | some (text, s :: rest) => if s.char = '>' then some (.tag [] text, rest) else none
  | _ => none

/-- A tag with a handle, after its first mark. Two marks enclose a handle; otherwise the handle is
the mark alone, and a mark with nothing behind it is a tag of its own. -/
def handledTag? (rest : List Spot) : Option (Token × List Spot) :=
  let (name, rest) := nameRun rest
  if Spot.startsWith '!' rest then
    (someTagText? false (rest.drop 1)).map fun (text, rest) =>
      (.tag ('!' :: (name ++ ['!'])) text, rest)
  else
    (tagText? false 0 rest).map fun (text, rest) =>
      match name ++ beforeZero text with
      | [] => (.tag [] ['!'], rest)
      | text => (.tag ['!'] text, rest)

/-- A tag, after its first mark. A gap or, between brackets, a comma has to follow. -/
def tag? (inFlow : Bool) (rest : List Spot) : Option (Token × List Spot) :=
  let found := if Spot.startsWith '<' rest then verbatimTag? (rest.drop 1) else handledTag? rest
  match found with
  | some (tag, rest) =>
    if Spot.atGap rest || (inFlow && Spot.startsWith ',' rest) then some (tag, rest) else none
  | none => none

/-! ## Directives -/

/-- The text without the blanks in front. -/
def skipBlanks (rest : List Spot) : List Spot :=
  rest.dropWhile fun s => isBlank s.char

/-- The value of some decimal digits. -/
def decimal (digits : List Char) : Nat :=
  digits.foldl (fun n c => n * 10 + (c.toNat - '0'.toNat)) 0

/-- A number of one to nine digits. -/
def versionNumber? (rest : List Spot) : Option (Nat × List Spot) :=
  let digits := Spot.chars (rest.takeWhile fun s => s.char.isDigit)
  if digits.isEmpty || 9 < digits.length then none
  else some (decimal digits, rest.drop digits.length)

/-- The directive that gives the version. -/
def versionDirective? (rest : List Spot) : Option (Token × List Spot) := do
  let (major, rest) ← versionNumber? (skipBlanks rest)
  if !Spot.startsWith '.' rest then none
  let (minor, rest) ← versionNumber? (rest.drop 1)
  return (.version major minor, rest)

/-- The handle of a directive: a mark alone, or two with a name between. -/
def handleName? (rest : List Spot) : Option (List Char × List Spot) :=
  if !Spot.startsWith '!' rest then none
  else
    let (name, rest) := nameRun (rest.drop 1)
    if Spot.startsWith '!' rest then some ('!' :: (name ++ ['!']), rest.drop 1)
    else if name.isEmpty then some (['!'], rest)
    else none

/-- The directive that says what a handle stands for. -/
def handleDirective? (rest : List Spot) : Option (Token × List Spot) := do
  let (name, rest) ← handleName? (skipBlanks rest)
  if (skipBlanks rest).length = rest.length then none
  let (text, rest) ← someTagText? true (skipBlanks rest)
  if !Spot.atGap rest then none
  return (.handle name text, rest)

/-- A directive after its mark, up to the end of its line. -/
def directive? (rest : List Spot) : Option (Token × List Spot) := do
  let (name, rest) := nameRun rest
  if name.isEmpty || !Spot.atGap rest then none
  let (token, rest) ←
    if name = "YAML".toList then versionDirective? rest
    else if name = "TAG".toList then handleDirective? rest
    else none
  return (token, ← Spot.lineRest? rest)

end Telescope.Yaml
