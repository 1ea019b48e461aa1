/-!
# Blanks

White space in texts is Unicode's: the ASCII blanks and line ends, and the wider spaces of other
scripts. Two operations depend on it: `trim` takes the blanks off both ends of a text, and `words`
splits a text at every run of blanks.
-/

namespace Telescope.Text

/-- The white space of Unicode. -/
def isBlank (c : Char) : Bool :=
  let n := c.toNat
  (9 ≤ n ∧ n ≤ 13) ∨ n = 0x20 ∨ n = 0x85 ∨ n = 0xa0 ∨ n = 0x1680 ∨ (0x2000 ≤ n ∧ n ≤ 0x200a)
    ∨ n = 0x2028 ∨ n = 0x2029 ∨ n = 0x202f ∨ n = 0x205f ∨ n = 0x3000

/-- The text without the blanks at its start. -/
def trimStart (text : List Char) : List Char :=
  text.dropWhile isBlank

/-- The text without the blanks at its ends. -/
def trim (text : List Char) : List Char :=
  (trimStart (trimStart text).reverse).reverse

/-- The words of a text, given the one that its first characters continue. -/
def wordsFrom (word : List Char) : List Char → List (List Char)
  | [] => if word.isEmpty then [] else [word.reverse]
  | c :: rest =>
    if isBlank c then
      if word.isEmpty then wordsFrom [] rest else word.reverse :: wordsFrom [] rest
    else wordsFrom (c :: word) rest

/-- The runs of characters between blanks. -/
def words (text : List Char) : List (List Char) :=
  wordsFrom [] text

/-- A blank in front changes no word. -/
theorem words_cons_blank {c : Char} (h : isBlank c = true) (rest : List Char) :
    words (c :: rest) = words rest := by
  simp [words, wordsFrom, h]

end Telescope.Text
