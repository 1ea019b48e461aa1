import Telescope.Decimal.Reader
import Telescope.Yaml.Node
import Telescope.Yaml.Token.Stream

/-!
# Reading values from YAML

`Document.ofText?` reads the only document of a text. What a node means depends on what it is read
as: `text?` takes any scalar as it is, while `float?` and `unsigned?` take scalars without quotes that
are written as numbers. A key or item that is left out is an empty scalar; it can be read as a text,
as an empty list and as a mapping without pairs.
-/

namespace Telescope.Yaml

/-- A document. -/
structure Document where
  /-- its content -/
  root : Node
  /-- the nodes with an anchor by their numbers, the last one first -/
  anchored : List (Nat × Node)

namespace Document

/-- The document with this content. -/
def ofNode (root : Node) : Document := ⟨root, root.anchored.reverse⟩

/-- The only document of a text. -/
def ofText? (text : List Char) : Option Document := do
  return ofNode (← Node.ofTokens? (← Token.ofText? text))

/-- The node that is meant: that of the anchor in place of an alias. -/
def target (d : Document) (node : Node) : Node :=
  match node with
  | .alias number => (d.anchored.lookup number).getD node
  | _ => node

/-! ## Scalars -/

/-- The tags of numbers, by which a literal block can be one. -/
def standardTag (kind : String) : List Char := ("tag:yaml.org,2002:" ++ kind).toList

/-- The text of a scalar that can be a number: it has no quotes, or it is a literal block with the tag
of the wanted kind. -/
def numeral? (d : Document) (kind : String) (node : Node) : Option (List Char) :=
  match d.target node with
  | .scalar p style text =>
    if style = .plain ∨ (style = .literal ∧ p.tag = some (standardTag kind)) then some text else none
  | _ => none

/-- The text without a plus sign in front. -/
def dropPlus : List Char → List Char
  | '+' :: rest => rest
  | text => text

/-- Whether a text begins with a sign. -/
def isSigned : List Char → Bool
  | '+' :: _ | '-' :: _ => true
  | _ => false

/-- The values that are no numbers. -/
def specialFloat? (text : List Char) : Option Float :=
  if [".inf", ".Inf", ".INF"].contains (String.ofList (dropPlus text)) then some (1.0 / 0.0)
  else if ["-.inf", "-.Inf", "-.INF"].contains (String.ofList text) then some (-(1.0 / 0.0))
  else if [".nan", ".NaN", ".NAN"].contains (String.ofList text) then some (0.0 / 0.0)
  else none

/-- The double that a text stands for: finite, or one of the special values. -/
def readFloat? (text : List Char) : Option Float :=
  if (dropPlus text).length < text.length ∧ isSigned (dropPlus text) then none
  else
    (specialFloat? text).or
      (match Telescope.readFloat? (dropPlus text) with
      | some x => if x.isFinite then some x else none
      | none => none)

/-- The value of a digit of any base up to sixteen. -/
def digitIn? (base : Nat) (c : Char) : Option Nat :=
  (Quoted.hexDigit? c).filter (· < base)

/-- The 64-bit number with these digits, at least one. -/
def digitsIn? (base : Nat) (digits : List Char) : Option UInt64 :=
  if digits.isEmpty then none
  else
    match digits.mapM (digitIn? base) with
    | none => none
    | some ds =>
      let n := ds.foldl (fun n d => n * base + d) 0
      if n < UInt64.size then some (UInt64.ofNat n) else none

/-- The number with the mark of a base in front. -/
def basedNumber? : List Char → Option UInt64
  | '0' :: 'x' :: digits => digitsIn? 16 digits
  | '0' :: 'o' :: digits => digitsIn? 8 digits
  | '0' :: 'b' :: digits => digitsIn? 2 digits
  | _ => none

/-- Whether a run of digits begins with a zero that it does not need; that makes it a text. -/
def hasLeadingZero : List Char → Bool
  | '0' :: c :: rest => (c :: rest).all Char.isDigit
  | _ => false

/-- The 64-bit number that a text stands for. -/
def readUnsigned? (text : List Char) : Option UInt64 :=
  let digits := dropPlus text
  (basedNumber? digits).or
    (if isSigned digits ∨ hasLeadingZero digits then none else digitsIn? 10 digits)

/-! ## Nodes as what they are read as -/

/-- A scalar as a text. -/
def text? (d : Document) (node : Node) : Option String :=
  match d.target node with
  | .scalar _ _ text => some (String.ofList text)
  | _ => none

/-- A scalar as a double. -/
def float? (d : Document) (node : Node) : Option Float :=
  (d.numeral? "float" node).bind readFloat?

/-- A scalar as an unsigned number. -/
def unsigned? (d : Document) (node : Node) : Option UInt64 :=
  (d.numeral? "int" node).bind readUnsigned?

/-- A sequence all of whose items can be read. -/
def listOf? {α : Type} (d : Document) (read? : Node → Option α) (node : Node) : Option (List α) :=
  match d.target node with
  | .sequence _ items => items.mapM read?
  | .scalar _ .plain [] => some []
  | _ => none

/-- The pairs of a mapping whose keys are texts. -/
def fields? (d : Document) (node : Node) : Option (List (String × Node)) :=
  match d.target node with
  | .mapping _ pairs => pairs.mapM fun (key, value) => (d.text? key).map (·, value)
  | .scalar _ .plain [] => some []
  | _ => none

/-- The values of the fields of a record, in the order of their names. No other name may occur, and
none twice. -/
def slots? (d : Document) (names : List String) (node : Node) : Option (List (Option Node)) :=
  match d.fields? node with
  | none => none
  | some fields =>
    if (fields.all fun field => names.contains field.1)
        && (names.all fun name => (fields.filter fun field => field.1 == name).length ≤ 1) then
      some (names.map fun name => fields.lookup name)
    else none

end Document

end Telescope.Yaml
