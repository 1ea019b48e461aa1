import Telescope.Yaml.Token.Folding

/-!
# Plain scalars

A scalar without quotes ends before a colon with a gap behind it, before a comment, before a line
that is not indented enough, and between brackets before any of their marks.
-/

namespace Telescope.Yaml

namespace Plain

/-- The marks of collections between brackets. -/
def isFlowMark (c : Char) : Bool :=
  c = ',' ∨ c = '[' ∨ c = ']' ∨ c = '\x7b' ∨ c = '\x7d'

/-- Whether a scalar ends before the character `c` with `rest` behind it. -/
def endsBefore (inFlow : Bool) (c : Char) (rest : List Spot) : Bool :=
  (c == ':' && Spot.atGap rest) || (inFlow && isFlowMark c)

/-- Whether a colon between brackets stands where it can be neither text nor mark. -/
def isStrayColon (inFlow : Bool) (c : Char) (rest : List Spot) : Bool :=
  inFlow && c == ':' &&
    match rest with
    | s :: _ => isFlowMark s.char || s.char == '?'
    | [] => false

/-- Whether the first word after a gap does not belong to the scalar. -/
def endsAfterGap (inFlow : Bool) (indent : Int) (s : Spot) (rest : List Spot) : Bool :=
  (!inFlow && decide ((s.place.column : Int) < indent)) || Spot.atDocumentMark (s :: rest) ||
    s.char == '#'

/-- Reads on in a scalar. `afterGap` says whether blanks came right before. -/
def readFrom (inFlow : Bool) (indent : Int) (f : Folding) (afterGap : Bool) :
    List Spot → Option (Folding × List Spot)
  | [] => some (f, [])
  | s :: rest =>
    if isBlank s.char then
      if f.broken && s.char == '\t' && decide ((s.place.column : Int) < indent) then none
      else readFrom inFlow indent (f.blank s.char) true rest
    else if isBreak s.char then readFrom inFlow indent (f.lineEnd s.char) true rest
    else if afterGap && endsAfterGap inFlow indent s rest then some (f, s :: rest)
    else if isStrayColon inFlow s.char rest then none
    else if endsBefore inFlow s.char rest then some (f, s :: rest)
    else readFrom inFlow indent (f.put s.char) false rest

end Plain

/-- Reads a plain scalar: what was read, and what follows it and the blanks behind it. -/
def plain? (inFlow : Bool) (indent : Int) (rest : List Spot) : Option (Folding × List Spot) :=
  Plain.readFrom inFlow indent Folding.empty false rest

end Telescope.Yaml
