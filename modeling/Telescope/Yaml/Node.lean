import Telescope.Yaml.Token

/-!
# Nodes

A document is a tree of scalars, sequences and mappings, in which an alias stands for the node of an
anchor. `Node.ofTokens?` reads the only document of a list of tokens.

Each reader takes what it reads from the front of the tokens and returns what is left. No way from
reader to reader is longer than twice the number of tokens taken on it, which bounds the depth.
-/

namespace Telescope.Yaml

/-- What stands before a node. -/
structure Properties where
  /-- the number of its anchor -/
  anchor : Option Nat
  /-- its tag -/
  tag : Option (List Char)

/-- Whether nothing stands before a node. -/
def Properties.isEmpty (p : Properties) : Bool := p.anchor.isNone && p.tag.isNone

/-- A node. -/
inductive Node
  /-- a text -/
  | scalar (properties : Properties) (style : Style) (text : List Char)
  /-- some nodes in order -/
  | sequence (properties : Properties) (items : List Node)
  /-- pairs of nodes in order -/
  | mapping (properties : Properties) (pairs : List (Node × Node))
  /-- the node of the anchor with this number -/
  | alias (number : Nat)

namespace Node

/-- No anchor and no tag. -/
def plainProperties : Properties := ⟨none, none⟩

/-- What stands where nothing is written. -/
def nothing : Node := .scalar plainProperties .plain []

instance : Inhabited Node := ⟨nothing⟩

/-! ## Properties -/

/-- What tag handles stand for. -/
abbrev Handles := List (List Char × List Char)

/-- The handles that need no directive. -/
def standardHandles : Handles :=
  [("!".toList, "!".toList), ("!!".toList, "tag:yaml.org,2002:".toList)]

/-- The tag that a handle and a rest stand for; without a handle the rest is all. -/
def tagName? (handles : Handles) (handle rest : List Char) : Option (List Char) :=
  if handle.isEmpty then some rest else (handles.lookup handle).map (· ++ rest)

/-- The properties in front of some tokens: an anchor and a tag in either order, both optional. -/
def properties? (handles : Handles) : List Token → Option (Properties × List Token)
  | .anchor n :: .tag handle rest :: ts =>
    (tagName? handles handle rest).map fun tag => (⟨some n, some tag⟩, ts)
  | .tag handle rest :: .anchor n :: ts =>
    (tagName? handles handle rest).map fun tag => (⟨some n, some tag⟩, ts)
  | .anchor n :: ts => some (⟨some n, none⟩, ts)
  | .tag handle rest :: ts =>
    (tagName? handles handle rest).map fun tag => (⟨none, some tag⟩, ts)
  | ts => some (plainProperties, ts)

/-! ## Readers -/

/-- Where a node may stand. -/
inductive Context
  /-- between brackets -/
  | flow
  /-- in a block -/
  | block
  /-- in a block, as a key or a value: there a sequence need not be indented -/
  | pair
deriving DecidableEq, Repr

/-- Whether a key or a value of a block is missing before this token. -/
def endsPart : Token → Bool
  | .key | .value | .blockEnd => true
  | _ => false

/-- Whether an item of a sequence is missing before this token. -/
def endsItem : Token → Bool
  | .item | .blockEnd => true
  | _ => false

/-- Whether an item of a sequence that is not indented is missing before this token. -/
def endsOpenItem : Token → Bool
  | .item | .key | .value | .blockEnd => true
  | _ => false

/-- Whether a key between brackets is missing before this token. -/
def endsFlowKey : Token → Bool
  | .value | .comma | .flowMappingEnd | .flowSequenceEnd => true
  | _ => false

/-- Whether a value between brackets is missing before this token. -/
def endsFlowValue : Token → Bool
  | .comma | .flowMappingEnd | .flowSequenceEnd => true
  | _ => false

mutual

/-- A node. -/
def read (handles : Handles) : Nat → Context → List Token → Option (Node × List Token)
  | 0, _, _ => none
  | _ + 1, _, .alias n :: ts => some (.alias n, ts)
  | depth + 1, context, ts =>
    match properties? handles ts with
    | none => none
    | some (p, ts) =>
      match ts with
      | .scalar style text :: ts => some (.scalar p style text, ts)
      | .flowSequence :: ts =>
        (flowItems handles depth true ts).map fun (xs, ts) => (.sequence p xs, ts)
      | .flowMapping :: ts =>
        (flowPairs handles depth true ts).map fun (xs, ts) => (.mapping p xs, ts)
      | .blockSequence :: ts =>
        if context = .flow then none
        else (items handles depth ts).map fun (xs, ts) => (.sequence p xs, ts)
      | .blockMapping :: ts =>
        if context = .flow then none
        else (pairs handles depth ts).map fun (xs, ts) => (.mapping p xs, ts)
      | .item :: _ =>
        if context = .pair then
          (openItems handles depth ts).map fun (xs, ts) => (.sequence p xs, ts)
        else if p.isEmpty then none
        else some (.scalar p .plain [], ts)
      | _ => if p.isEmpty then none else some (.scalar p .plain [], ts)

/-- A node that may be missing before certain tokens. -/
def readUnless (handles : Handles) (isEnd : Token → Bool) :
    Nat → Context → List Token → Option (Node × List Token)
  | 0, _, _ => none
  | depth + 1, context, ts =>
    if (ts.head?.map isEnd).getD false then some (nothing, ts) else read handles depth context ts

/-- The items of an indented sequence, and its end. -/
def items (handles : Handles) : Nat → List Token → Option (List Node × List Token)
  | depth + 1, .item :: ts =>
    match readUnless handles endsItem depth .block ts with
    | none => none
    | some (x, ts) => (items handles depth ts).map fun (xs, ts) => (x :: xs, ts)
  | _, .blockEnd :: ts => some ([], ts)
  | _, _ => none

/-- The items of a sequence that is not indented; it ends where no further item comes. -/
def openItems (handles : Handles) : Nat → List Token → Option (List Node × List Token)
  | depth + 1, .item :: ts =>
    match readUnless handles endsOpenItem depth .block ts with
    | none => none
    | some (x, ts) => (openItems handles depth ts).map fun (xs, ts) => (x :: xs, ts)
  | 0, .item :: _ => none
  | _, ts => some ([], ts)

/-- The pairs of an indented mapping, and its end. -/
def pairs (handles : Handles) : Nat → List Token → Option (List (Node × Node) × List Token)
  | depth + 1, .key :: ts =>
    match readUnless handles endsPart depth .pair ts with
    | none => none
    | some (k, .value :: ts) =>
      match readUnless handles endsPart depth .pair ts with
      | none => none
      | some (v, ts) => (pairs handles depth ts).map fun (kvs, ts) => ((k, v) :: kvs, ts)
    | some (k, ts) => (pairs handles depth ts).map fun (kvs, ts) => ((k, nothing) :: kvs, ts)
  | _, .blockEnd :: ts => some ([], ts)
  | _, _ => none

/-- The value of a pair between brackets, if there is one. -/
def flowValue (handles : Handles) : Nat → List Token → Option (Node × List Token)
  | depth + 1, .value :: ts => readUnless handles endsFlowValue depth .flow ts
  | 0, _ => none
  | _, ts => some (nothing, ts)

/-- The items of a sequence between brackets, and the closing bracket. A key makes an item a mapping
of one pair. A comma divides two items and may follow the last one. -/
def flowItems (handles : Handles) : Nat → Bool → List Token → Option (List Node × List Token)
  | 0, _, _ => none
  | _, _, .flowSequenceEnd :: ts => some ([], ts)
  | depth + 1, isFirst, ts =>
    let ts' := if isFirst then ts else ts.drop 1
    if !isFirst && ts.head? != some .comma then none
    else
      match ts' with
      | .flowSequenceEnd :: ts => some ([], ts)
      | .key :: ts =>
        match readUnless handles endsFlowKey depth .flow ts with
        | none => none
        | some (k, ts) =>
          match flowValue handles depth ts with
          | none => none
          | some (v, ts) =>
            (flowItems handles depth false ts).map fun (xs, ts) =>
              (.mapping plainProperties [(k, v)] :: xs, ts)
      | ts =>
        match read handles depth .flow ts with
        | none => none
        | some (x, ts) => (flowItems handles depth false ts).map fun (xs, ts) => (x :: xs, ts)

/-- The pairs of a mapping between brackets, and the closing brace. A node that is no key is one
without a value. -/
def flowPairs (handles : Handles) :
    Nat → Bool → List Token → Option (List (Node × Node) × List Token)
  | 0, _, _ => none
  | _, _, .flowMappingEnd :: ts => some ([], ts)
  | depth + 1, isFirst, ts =>
    let ts' := if isFirst then ts else ts.drop 1
    if !isFirst && ts.head? != some .comma then none
    else
      match ts' with
      | .flowMappingEnd :: ts => some ([], ts)
      | .key :: ts =>
        match readUnless handles endsFlowKey depth .flow ts with
        | none => none
        | some (k, ts) =>
          match flowValue handles depth ts with
          | none => none
          | some (v, ts) =>
            (flowPairs handles depth false ts).map fun (kvs, ts) => ((k, v) :: kvs, ts)
      | ts =>
        match read handles depth .flow ts with
        | none => none
        | some (k, ts) =>
          (flowPairs handles depth false ts).map fun (kvs, ts) => ((k, nothing) :: kvs, ts)

end

/-! ## Documents -/

/-- Whether a version can be read. -/
def isKnownVersion (major minor : Nat) : Bool := major == 1 && (minor == 1 || minor == 2)

/-- The handles that the directives in front of some tokens define, if no directive stands twice. -/
def directives? (versionSeen : Bool) (handles : Handles) : List Token → Option (Handles × List Token)
  | .version major minor :: ts =>
    if versionSeen || !isKnownVersion major minor then none else directives? true handles ts
  | .handle name text :: ts =>
    if (handles.lookup name).isSome then none
    else directives? versionSeen (handles ++ [(name, text)]) ts
  | ts => some (handles, ts)

/-- Whether a document without content ends before this token. -/
def endsDocument : Token → Bool
  | .version _ _ | .handle _ _ | .documentStart | .documentEnd => true
  | _ => false

/-- The content of a document whose start is marked; it may be missing. -/
def markedContent? (handles : Handles) (ts : List Token) : Option (Node × List Token) :=
  match ts with
  | [] => some (nothing, [])
  | t :: _ => if endsDocument t then some (nothing, ts) else read handles (2 * ts.length + 2) .block ts

/-- The first document of some tokens. Directives need a start mark; without them it may be left
out. -/
def document? (ts : List Token) : Option (Node × List Token) :=
  match ts with
  | [] => none
  | .version _ _ :: _ | .handle _ _ :: _ | .documentStart :: _ =>
    match directives? false [] ts with
    | some (handles, .documentStart :: ts) => markedContent? (handles ++ standardHandles) ts
    | _ => none
  | ts => read standardHandles (2 * ts.length + 2) .block ts

/-- The only document of some tokens; nothing but end marks may follow it. -/
def ofTokens? (ts : List Token) : Option Node :=
  match document? ts with
  | some (node, ts) => if ts.all (· == .documentEnd) then some node else none
  | none => none

/-! ## Anchors -/

mutual

/-- The nodes with an anchor, in the order in which they begin. -/
def anchored : Node → List (Nat × Node)
  | .scalar p style text => p.anchor.toList.map (·, .scalar p style text)
  | .sequence p items => p.anchor.toList.map (·, .sequence p items) ++ anchoredItems items
  | .mapping p pairs => p.anchor.toList.map (·, .mapping p pairs) ++ anchoredPairs pairs
  | .alias _ => []

/-- The nodes with an anchor in some nodes. -/
def anchoredItems : List Node → List (Nat × Node)
  | [] => []
  | x :: xs => anchored x ++ anchoredItems xs

/-- The nodes with an anchor in some pairs. -/
def anchoredPairs : List (Node × Node) → List (Nat × Node)
  | [] => []
  | (k, v) :: kvs => anchored k ++ (anchored v ++ anchoredPairs kvs)

end

end Node

end Telescope.Yaml
