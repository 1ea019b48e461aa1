import Telescope.Yaml.Token.Block
import Telescope.Yaml.Token.Plain
import Telescope.Yaml.Token.Property
import Telescope.Yaml.Token.Quoted

/-!
# The tokens of a text

`Token.ofText?` takes a text apart. Most tokens follow from the next character; two things need a
memory.

* Blocks: a token that begins a line deeper than the block around it begins a new block, and a line
  that is less deep ends all blocks that are deeper (`Lexer.startBlock`, `Lexer.endBlocks`).
* Keys: nothing tells a key from another scalar until the colon comes. So the place of every token
  that may begin a key is kept; the colon puts the mark of a key in front of that token. A key has to
  be in one line and shorter than 1024 characters.
-/

namespace Telescope.Yaml

/-- Something that is a key if a colon follows. -/
structure OpenKey where
  /-- whether nothing but a key may stand there -/
  required : Bool
  /-- the number of tokens before it -/
  slot : Nat
  /-- where it begins -/
  place : Place

/-- A text that is being taken apart. -/
structure Lexer where
  /-- what is left of the text -/
  rest : List Spot
  /-- the place at its end -/
  finish : Place
  /-- the tokens found so far -/
  tokens : Array Token
  /-- the indentation of the innermost block, `-1` outside of all blocks -/
  indent : Int
  /-- the indentations of the blocks around it, the innermost first -/
  outer : List Int
  /-- whether a key may begin here -/
  keyAllowed : Bool
  /-- what may be a key on the innermost level of brackets -/
  openKey : Option OpenKey
  /-- what may be a key on the levels around it, the innermost first -/
  outerKeys : List (Option OpenKey)
  /-- the anchors with their numbers -/
  anchors : List (List Char × Nat)

namespace Lexer

/-- A text of which nothing has been read. -/
def start (rest : List Spot) (finish : Place) : Lexer :=
  ⟨rest, finish, #[], -1, [], true, none, [], []⟩

/-- Whether brackets are open. -/
def inFlow (l : Lexer) : Bool := !l.outerKeys.isEmpty

/-- The place of what is left. -/
def place (l : Lexer) : Place :=
  match l.rest with
  | [] => l.finish
  | s :: _ => s.place

/-- One more token. -/
def push (l : Lexer) (t : Token) : Lexer := { l with tokens := l.tokens.push t }

/-- One more token, and what is left after it. -/
def take (l : Lexer) (t : Token) (rest : List Spot) : Lexer :=
  { l with tokens := l.tokens.push t, rest := rest }

/-! ## Blanks -/

/-- Passes over blanks, comments and line ends. Outside of brackets a key may begin after a line end,
and then a tab is no blank. -/
def skipFrom (inFlow : Bool) (inComment keyAllowed : Bool) : List Spot → Bool × List Spot
  | [] => (keyAllowed, [])
  | s :: rest =>
    if isBreak s.char then skipFrom inFlow false (keyAllowed || !inFlow) rest
    else if inComment then skipFrom inFlow true keyAllowed rest
    else if s.char = byteOrderMark ∧ s.place.column = 0 then skipFrom inFlow false keyAllowed rest
    else if s.char = ' ' ∨ (s.char = '\t' ∧ (inFlow ∨ ¬ keyAllowed)) then
      skipFrom inFlow false keyAllowed rest
    else if s.char = '#' then skipFrom inFlow true keyAllowed rest
    else (keyAllowed, s :: rest)

/-- Passes over what stands between tokens. -/
def skip (l : Lexer) : Lexer :=
  let (keyAllowed, rest) := skipFrom l.inFlow false l.keyAllowed l.rest
  { l with keyAllowed := keyAllowed, rest := rest }

/-! ## Blocks -/

/-- Begins a block at a column if that is deeper than the block around it. The token is the last one
or, if a slot is given, stands there. -/
def startBlock (l : Lexer) (column : Nat) (slot : Option Nat) (t : Token) : Lexer :=
  if l.inFlow || decide ((column : Int) ≤ l.indent) then l
  else
    { l with
      indent := column
      outer := l.indent :: l.outer
      tokens := match slot with
        | none => l.tokens.push t
        | some i => l.tokens.insertIdxIfInBounds i t }

/-- Ends the blocks that are deeper than a column. -/
def endDeeper (column : Int) : Int → List Int → Array Token → Int × List Int × Array Token
  | indent, [], tokens => (indent, [], tokens)
  | indent, next :: outer, tokens =>
    if indent ≤ column then (indent, next :: outer, tokens)
    else endDeeper column next outer (tokens.push .blockEnd)

/-- Ends the blocks that are deeper than a column; between brackets there are none to end. -/
def endBlocks (l : Lexer) (column : Int) : Lexer :=
  if l.inFlow then l
  else
    let (indent, outer, tokens) := endDeeper column l.indent l.outer l.tokens
    { l with indent := indent, outer := outer, tokens := tokens }

/-! ## Keys -/

/-- The longest key. -/
def longestKey : Nat := 1024

/-- What may be a key, unless the text at `here` is too far from it. -/
def expire? (here : Place) : Option OpenKey → Option (Option OpenKey)
  | none => some none
  | some key =>
    if key.place.line < here.line ∨ key.place.index + longestKey < here.index then
      if key.required then none else some none
    else some (some key)

/-- Forgets what is too far away to be a key. -/
def expireKeys? (l : Lexer) : Option Lexer := do
  let openKey ← expire? l.place l.openKey
  let outerKeys ← l.outerKeys.mapM (expire? l.place)
  return { l with openKey := openKey, outerKeys := outerKeys }

/-- Forgets what may be a key on the innermost level. -/
def forgetKey? (l : Lexer) : Option Lexer :=
  match l.openKey with
  | some key => if key.required then none else some { l with openKey := none }
  | none => some l

/-- Keeps the place of a token that may begin a key. -/
def keepKey? (l : Lexer) : Option Lexer :=
  if !l.keyAllowed then some l
  else
    l.forgetKey?.map fun l =>
      let required := !l.inFlow && l.indent == l.place.column
      { l with openKey := some ⟨required, l.tokens.size, l.place⟩ }

/-! ## Single tokens -/

/-- A document begins or ends: no block and no key goes on. -/
def documentMark? (l : Lexer) (t : Token) : Option Lexer :=
  (l.endBlocks (-1)).forgetKey?.map fun l =>
    { l with keyAllowed := false }.take t (l.rest.drop 3)

/-- A directive, after its mark. -/
def directive? (l : Lexer) (rest : List Spot) : Option Lexer := do
  let l ← (l.endBlocks (-1)).forgetKey?
  let (t, rest) ← Yaml.directive? rest
  return { l with keyAllowed := false }.take t rest

/-- An opening bracket. -/
def openFlow? (l : Lexer) (t : Token) (rest : List Spot) : Option Lexer :=
  l.keepKey?.map fun l =>
    { l with outerKeys := l.openKey :: l.outerKeys, openKey := none, keyAllowed := true }.take t rest

/-- A closing bracket. -/
def closeFlow? (l : Lexer) (t : Token) (rest : List Spot) : Option Lexer :=
  l.forgetKey?.map fun l =>
    let l := match l.outerKeys with
      | [] => l
      | key :: outer => { l with openKey := key, outerKeys := outer }
    { l with keyAllowed := false }.take t rest

/-- A comma. -/
def comma? (l : Lexer) (rest : List Spot) : Option Lexer :=
  l.forgetKey?.map fun l => { l with keyAllowed := true }.take .comma rest

/-- The mark of an item. -/
def item? (l : Lexer) (rest : List Spot) : Option Lexer :=
  if !l.inFlow && !l.keyAllowed then none
  else
    (l.startBlock l.place.column none .blockSequence).forgetKey?.map fun l =>
      { l with keyAllowed := true }.take .item rest

/-- The mark of a key. -/
def key? (l : Lexer) (rest : List Spot) : Option Lexer :=
  if !l.inFlow && !l.keyAllowed then none
  else
    (l.startBlock l.place.column none .blockMapping).forgetKey?.map fun l =>
      { l with keyAllowed := !l.inFlow }.take .key rest

/-- The mark of a value. What may be a key is one now: its mark is put in front of it, and a block
begins there if it is deep enough. -/
def value? (l : Lexer) (rest : List Spot) : Option Lexer :=
  match l.openKey with
  | some key =>
    let l := { l with tokens := l.tokens.insertIdxIfInBounds key.slot .key, openKey := none }
    let l := l.startBlock key.place.column (some key.slot) .blockMapping
    some ({ l with keyAllowed := false }.take .value rest)
  | none =>
    if !l.inFlow && !l.keyAllowed then none
    else
      let l := l.startBlock l.place.column none .blockMapping
      some ({ l with keyAllowed := !l.inFlow }.take .value rest)

/-- A new number for the anchor of this name. -/
def addAnchor (anchors : List (List Char × Nat)) (name : List Char) : List (List Char × Nat) :=
  (name, anchors.length) :: anchors.filter fun a => a.1 != name

/-- The mark of an anchor. Its number is that of the names known before. -/
def anchor? (l : Lexer) (rest : List Spot) : Option Lexer := do
  let l ← l.keepKey?
  let (name, rest) ← anchorName? rest
  return { l with keyAllowed := false, anchors := addAnchor l.anchors name }.take
    (.anchor l.anchors.length) rest

/-- The mark of an alias; the anchor has to be known. -/
def alias? (l : Lexer) (rest : List Spot) : Option Lexer := do
  let l ← l.keepKey?
  let (name, rest) ← anchorName? rest
  let number ← l.anchors.lookup name
  return { l with keyAllowed := false }.take (.alias number) rest

/-- A tag, after its first mark. -/
def tag? (l : Lexer) (rest : List Spot) : Option Lexer := do
  let l ← l.keepKey?
  let (t, rest) ← Yaml.tag? l.inFlow rest
  return { l with keyAllowed := false }.take t rest

/-- A scalar between quotes, after the first one. -/
def quoted? (l : Lexer) (double : Bool) (rest : List Spot) : Option Lexer := do
  let l ← l.keepKey?
  let (text, rest) ← Yaml.quoted? double rest
  return { l with keyAllowed := false }.take (.scalar .quoted text) rest

/-- A block scalar, after its mark. -/
def block? (l : Lexer) (style : Style) (rest : List Spot) : Option Lexer := do
  let l ← l.forgetKey?
  let (text, rest) ← Yaml.block? (style == .literal) l.indent rest
  return { l with keyAllowed := true }.take (.scalar style text) rest

/-- A plain scalar. If it ends with a line, a key may follow. -/
def plain? (l : Lexer) : Option Lexer := do
  let l ← l.keepKey?
  let (read, rest) ← Yaml.plain? l.inFlow (l.indent + 1) l.rest
  return { l with keyAllowed := read.broken }.take (.scalar .plain read.words) rest

/-! ## All tokens -/

/-- Whether a plain scalar may begin with a character, given what follows it. -/
def startsPlain (inFlow : Bool) (c : Char) (rest : List Spot) : Bool :=
  if c = '-' then !Spot.atGap rest
  else if c = '?' ∨ c = ':' then !inFlow && !Spot.atGap rest
  else !isBlank c && !",[]\x7b\x7d#&*!|>'\"%@\x60".toList.contains c

/-- The token that begins with a character at the front of the text. -/
def tokenAt? (l : Lexer) (s : Spot) (rest : List Spot) : Option Lexer :=
  let inFlow := l.inFlow
  let mark := inFlow || Spot.atGap rest
  if s.place.column = 0 ∧ s.char = '%' then l.directive? rest
  else if Spot.isMark '-' (s :: rest) then l.documentMark? .documentStart
  else if Spot.isMark '.' (s :: rest) then l.documentMark? .documentEnd
  else
    match s.char with
    | '[' => l.openFlow? .flowSequence rest
    | '\x7b' => l.openFlow? .flowMapping rest
    | ']' => l.closeFlow? .flowSequenceEnd rest
    | '\x7d' => l.closeFlow? .flowMappingEnd rest
    | ',' => l.comma? rest
    | '*' => l.alias? rest
    | '&' => l.anchor? rest
    | '!' => l.tag? rest
    | '\'' => l.quoted? false rest
    | '"' => l.quoted? true rest
    | c =>
      if c = '-' ∧ Spot.atGap rest then l.item? rest
      else if c = '?' ∧ mark then l.key? rest
      else if c = ':' ∧ mark then l.value? rest
      else if c = '|' ∧ ¬ inFlow then l.block? .literal rest
      else if c = '>' ∧ ¬ inFlow then l.block? .folded rest
      else if startsPlain inFlow c rest then l.plain?
      else none

/-- Reads all tokens; each takes at least one character. -/
def run? : Nat → Lexer → Option Lexer
  | 0, _ => none
  | count + 1, l => do
    let l ← l.skip.expireKeys?
    let l := l.endBlocks l.place.column
    match l.rest with
    | [] => (l.endBlocks (-1)).forgetKey?
    | s :: rest => run? count (← l.tokenAt? s rest)

end Lexer

/-- The tokens of a text; `none` if it cannot be taken apart. -/
def Token.ofText? (text : List Char) : Option (List Token) := do
  let (rest, finish) ← Spot.ofText? text
  let l ← Lexer.run? (rest.length + 1) (Lexer.start rest finish)
  return l.tokens.toList

end Telescope.Yaml
