/-!
# Tokens

A YAML text is a list of tokens. The indentation of its lines has become tokens too: a block is begun
by one token and ended by another.
-/

namespace Telescope.Yaml

/-- How a scalar is written. -/
inductive Style
  /-- without quotes -/
  | plain
  /-- between quotes -/
  | quoted
  /-- as a block whose line ends stay -/
  | literal
  /-- as a block whose line ends become blanks -/
  | folded
deriving DecidableEq, Repr

/-- The smallest parts of a text. Anchors are numbered. -/
inductive Token
  /-- the version of YAML -/
  | version (major minor : Nat)
  /-- what a tag handle stands for -/
  | handle (name text : List Char)
  /-- three hyphens -/
  | documentStart
  /-- three points -/
  | documentEnd
  /-- the items of a sequence follow, indented -/
  | blockSequence
  /-- the pairs of a mapping follow, indented -/
  | blockMapping
  /-- the innermost block ends -/
  | blockEnd
  /-- an opening bracket -/
  | flowSequence
  /-- a closing bracket -/
  | flowSequenceEnd
  /-- an opening brace -/
  | flowMapping
  /-- a closing brace -/
  | flowMappingEnd
  /-- a hyphen before an item -/
  | item
  /-- a comma -/
  | comma
  /-- a key follows -/
  | key
  /-- a value follows -/
  | value
  /-- the number of the node that is meant -/
  | alias (number : Nat)
  /-- the number of the node that follows -/
  | anchor (number : Nat)
  /-- the tag of the node that follows: its handle and the rest -/
  | tag (name rest : List Char)
  /-- a scalar -/
  | scalar (style : Style) (text : List Char)
deriving DecidableEq, Repr

end Telescope.Yaml
