import Telescope.Json.Reader
import Telescope.Proofs.ExactParts
import Telescope.Proofs.NumberText

/-!
# Numbers in JSON texts

`Json.Literal` is the grammar of numbers: a sign, digits without idle zeros in front, a fraction and an
exponent. The reader takes any such text as a whole, up to what may follow a value
(`Literal.literal?_append`); and the texts of whole numbers and of finite doubles are such texts,
whatever the style (`literal_toDigits`, `literal_chars`).

Reading takes as much of a text as it can. So a number is read as a whole only if what follows does
not continue it, and a sign, a point or an exponent might. After a value stand a comma or a bracket,
if anything (`Ends`), and none of these does.
-/

namespace Telescope.Json

/-! ## The grammar

There is one type for each of the parts, and each says what the part may be when it is absent. A
whole part that starts with a zero is that zero. -/

/-- At least one digit, and digits only. -/
def Digits (run : List Char) : Prop := run ≠ [] ∧ ∀ c ∈ run, c.isDigit = true

/-- The digits after the point, or nothing. -/
inductive Fraction : List Char → Prop
  | absent : Fraction []
  | present {run : List Char} (h : Digits run) : Fraction ('.' :: run)

/-- An exponent, or nothing. -/
inductive Exponent : List Char → Prop
  | absent : Exponent []
  | present {sign run : List Char} (hsign : sign ∈ [[], ['-'], ['+']]) (h : Digits run) :
    Exponent ('e' :: (sign ++ run))

/-- The text of a number without its sign. -/
inductive Magnitude : List Char → Prop
  | parts {whole decimals exponent : List Char} (hwhole : Digits whole)
    (hzero : whole.head? = some '0' → whole = ['0']) (hdecimals : Fraction decimals)
    (hexponent : Exponent exponent) : Magnitude (whole ++ decimals ++ exponent)

/-- The text of a number. -/
inductive Literal : List Char → Prop
  | positive {l : List Char} (h : Magnitude l) : Literal l
  | negative {l : List Char} (h : Magnitude l) : Literal ('-' :: l)

/-- What may follow a value. -/
def Ends (rest : List Char) : Prop := ∀ c ∈ rest.head?, c ∈ [',', ']', '\x7d']

/-- A value may be the end of the text. -/
theorem ends_nil : Ends [] := nofun

/-- One of the three marks may follow it. -/
theorem ends_cons {c : Char} (h : c ∈ [',', ']', '\x7d']) (rest : List Char) : Ends (c :: rest) := by
  rintro d ⟨⟩
  exact h

/-- The text does not go on with a digit. -/
def EndsDigits (rest : List Char) : Prop := ∀ c ∈ rest.head?, c.isDigit = false

/-- Digits end where another character stands. -/
theorem endsDigits_cons {c : Char} (h : c.isDigit = false) (rest : List Char) :
    EndsDigits (c :: rest) := by
  rintro d ⟨⟩
  exact h

/-- None of the marks is a digit. -/
theorem Ends.endsDigits {rest : List Char} (h : Ends rest) : EndsDigits rest := by
  have hmarks : ∀ c ∈ [',', ']', '\x7d'], c.isDigit = false := by simp
  exact fun c hc => hmarks c (h c hc)

/-- Digits are read up to the end of the run. -/
theorem Digits.digits_append {run rest : List Char} (h : Digits run) (hrest : EndsDigits rest) :
    Reader.digits (run ++ rest) = (run, rest) :=
  Reader.digits_of_digits h.2 hrest

/-! ## Reading

There is one law for each part of the reader: it takes its part from the front and leaves the rest.
The law for the whole follows them through the text. -/

/-- There is no sign before a digit. -/
theorem minus_of_isDigit {c : Char} (hc : c.isDigit = true) (rest : List Char) :
    minus (c :: rest) = ([], c :: rest) := by
  unfold minus
  split
  · next heq =>
    rw [(List.cons.inj heq).1] at hc
    exact absurd hc (by decide)
  · rfl

/-- The whole part is taken, if no zero is idle in it. -/
theorem whole?_append {run rest : List Char} (h : Digits run)
    (hzero : run.head? = some '0' → run = ['0']) (hrest : EndsDigits rest) :
    whole? (run ++ rest) = some (run, rest) := by
  unfold whole?
  rw [h.digits_append hrest]
  split
  · next heq => exact absurd (congrArg Prod.fst heq) h.1
  · next heq =>
    have hrun := congrArg Prod.fst heq
    dsimp only at hrun
    have hshort := hzero (by rw [hrun]; rfl)
    rw [hshort] at hrun
    exact absurd hrun (by simp)
  · next heq =>
    cases heq
    rfl

/-- A fraction is taken with its point, or nothing if there is none. -/
theorem Fraction.decimals?_append {decimals rest : List Char} (h : Fraction decimals)
    (hpoint : rest.head? ≠ some '.') (hrest : EndsDigits rest) :
    decimals? (decimals ++ rest) = some (decimals, rest) := by
  cases h with
  | absent =>
    rw [List.nil_append]
    unfold decimals?
    split
    · exact absurd rfl hpoint
    · rfl
  | @present run h =>
    rw [List.cons_append, decimals?, h.digits_append hrest]
    split
    · next heq => exact absurd (congrArg Prod.fst heq) h.1
    · next heq =>
      cases heq
      rfl

/-- The sign of an exponent is taken, or nothing before a digit. -/
theorem exponentSign_append {sign run rest : List Char} (hsign : sign ∈ [[], ['-'], ['+']])
    (h : Digits run) : exponentSign (sign ++ run ++ rest) = (sign, run ++ rest) := by
  simp only [List.mem_cons, List.not_mem_nil, or_false] at hsign
  obtain rfl | rfl | rfl := hsign
  · obtain ⟨c, tail, rfl⟩ := List.exists_cons_of_ne_nil h.1
    have hc := h.2 c List.mem_cons_self
    rw [List.nil_append, List.cons_append]
    unfold exponentSign
    split
    · next heq =>
      rw [(List.cons.inj heq).1] at hc
      exact absurd hc (by decide)
    · next heq =>
      rw [(List.cons.inj heq).1] at hc
      exact absurd hc (by decide)
    · rfl
  · rfl
  · rfl

/-- An exponent is taken with its mark, or nothing if there is none. -/
theorem Exponent.exponent?_append {exponent rest : List Char} (h : Exponent exponent)
    (hrest : Ends rest) : exponent? (exponent ++ rest) = some (exponent, rest) := by
  cases h with
  | absent =>
    rw [List.nil_append]
    cases rest with
    | nil => rfl
    | cons c rest =>
      have hmarks : ∀ c ∈ [',', ']', '\x7d'], ¬ (c = 'e' ∨ c = 'E') := by simp
      rw [exponent?, if_neg (hmarks c (hrest c rfl))]
  | @present sign run hsign h =>
    rw [List.cons_append, exponent?, if_pos (.inl rfl), exponentSign_append hsign h]
    dsimp only
    rw [h.digits_append hrest.endsDigits]
    split
    · next heq => exact absurd (congrArg Prod.fst heq) h.1
    · next heq =>
      cases heq
      rfl

/-- No mark of the grammar but its own starts an exponent or what follows a value. -/
theorem Exponent.head?_append {exponent rest : List Char} (h : Exponent exponent) (hrest : Ends rest) :
    ∀ c ∈ (exponent ++ rest).head?, c ∈ ['e', ',', ']', '\x7d'] := by
  cases h with
  | absent => exact fun c hc => List.mem_cons_of_mem _ (hrest c hc)
  | present hsign h =>
    rintro c ⟨⟩
    exact List.mem_cons_self

/-- What follows the whole part is no digit, be it a point, the mark of the exponent or the end. -/
theorem Fraction.endsDigits_append {decimals rest : List Char} (h : Fraction decimals)
    (hrest : ∀ c ∈ rest.head?, c ∈ ['e', ',', ']', '\x7d']) :
    EndsDigits (decimals ++ rest) := by
  cases h with
  | absent =>
    have hmarks : ∀ c ∈ ['e', ',', ']', '\x7d'], c.isDigit = false := by simp
    exact fun c hc => hmarks c (hrest c hc)
  | present h => exact endsDigits_cons (by decide) _

/-- A number without its sign starts with a digit. -/
theorem Magnitude.exists_cons {l : List Char} (h : Magnitude l) :
    ∃ c rest, l = c :: rest ∧ c.isDigit = true := by
  cases h with
  | parts hwhole hzero hdecimals hexponent =>
    obtain ⟨c, tail, rfl⟩ := List.exists_cons_of_ne_nil hwhole.1
    exact ⟨c, _, rfl, hwhole.2 c List.mem_cons_self⟩

/-- A number starts with a minus sign or with a digit. -/
theorem Literal.exists_cons {l : List Char} (h : Literal l) :
    ∃ c rest, l = c :: rest ∧ (c = '-' ∨ c.isDigit = true) := by
  cases h with
  | positive h =>
    obtain ⟨c, rest, hl, hc⟩ := h.exists_cons
    exact ⟨c, rest, hl, .inr hc⟩
  | negative h => exact ⟨'-', _, rfl, .inl rfl⟩

/-- The parts are taken one after the other, once the sign is off. -/
theorem Magnitude.literal?_append {sign l rest text : List Char} (h : Magnitude l) (hrest : Ends rest)
    (hsign : minus text = (sign, l ++ rest)) : literal? text = some (sign ++ l, rest) := by
  cases h with
  | @parts whole decimals exponent hwhole hzero hdecimals hexponent =>
    have hmarks := hexponent.head?_append hrest
    have hpoint : (exponent ++ rest).head? ≠ some '.' := fun h => absurd (hmarks _ h) (by decide)
    have hend : EndsDigits (exponent ++ rest) := Fraction.absent.endsDigits_append hmarks
    rw [List.append_assoc, List.append_assoc] at hsign
    simp only [literal?, hsign, whole?_append hwhole hzero (hdecimals.endsDigits_append hmarks),
      hdecimals.decimals?_append hpoint hend, hexponent.exponent?_append hrest,
      Option.bind_eq_bind, Option.bind_some, Option.pure_def, List.append_assoc]

/-- **A number is read as a whole,** whatever comes after it. -/
theorem Literal.literal?_append {l rest : List Char} (h : Literal l) (hrest : Ends rest) :
    literal? (l ++ rest) = some (l, rest) := by
  cases h with
  | positive h =>
    obtain ⟨c, tail, rfl, hc⟩ := h.exists_cons
    exact h.literal?_append hrest (minus_of_isDigit hc _)
  | @negative l h =>
    have hminus : minus ('-' :: l ++ rest) = (['-'], l ++ rest) := rfl
    exact h.literal?_append hrest hminus

/-! ## Characters

The characters of a number are those of all texts of numbers, so none of them needs an escape. -/

/-- Digits are such characters. -/
theorem Digits.numeric {run : List Char} (h : Digits run) : Numeric run :=
  fun c hc => .inl (h.2 c hc)

/-- So are those of a fraction. -/
theorem Fraction.numeric {decimals : List Char} (h : Fraction decimals) : Numeric decimals := by
  cases h with
  | absent => exact nofun
  | present h => exact .cons (by decide) h.numeric

/-- And those of an exponent. -/
theorem Exponent.numeric {exponent : List Char} (h : Exponent exponent) : Numeric exponent := by
  cases h with
  | absent => exact nofun
  | @present sign run hsign h =>
    have hnumeric : ∀ sign ∈ [[], ['-'], ['+']], Numeric sign := by decide
    exact .cons (by decide) ((hnumeric sign hsign).append h.numeric)

/-- A number has only characters of numbers. -/
theorem Literal.numeric {l : List Char} (h : Literal l) : Numeric l := by
  have hparts : ∀ {m}, Magnitude m → Numeric m := by
    rintro m ⟨hwhole, -, hdecimals, hexponent⟩
    exact (hwhole.numeric.append hdecimals.numeric).append hexponent.numeric
  cases h with
  | positive h => exact hparts h
  | negative h => exact .cons (by decide) (hparts h)

/-! ## Writing

Each way of writing a number is taken to a form of the grammar. The digits of a double do not start
with a zero, unless the double is zero, so no zero is idle. -/

/-- Digits go on with digits. -/
theorem Digits.append {run more : List Char} (h : Digits run) (hmore : ∀ c ∈ more, c.isDigit = true) :
    Digits (run ++ more) :=
  ⟨List.append_ne_nil_of_left_ne_nil h.1 _, List.forall_mem_append.2 ⟨h.2, hmore⟩⟩

/-- A whole number is written in digits. -/
theorem digits_toDigits (n : Nat) : Digits (Nat.toDigits 10 n) :=
  ⟨Nat.toDigits_ne_nil, fun _ hc => isDigit_of_mem_toDigits hc⟩

/-- Digits that do not start with a zero are a number, with a fraction and an exponent behind them or
without. -/
theorem magnitude_of_head? {run decimals exponent : List Char} (h : Digits run)
    (hzero : run.head? ≠ some '0') (hdecimals : Fraction decimals) (hexponent : Exponent exponent) :
    Magnitude (run ++ decimals ++ exponent) :=
  .parts h (fun hhead => absurd hhead hzero) hdecimals hexponent

/-- So are a zero and a fraction. -/
theorem magnitude_zero {decimals : List Char} (hdecimals : Fraction decimals) :
    Magnitude ('0' :: decimals) := by
  have hwhole : Digits ['0'] := ⟨List.cons_ne_nil _ _, by simp⟩
  have hmagnitude := Magnitude.parts hwhole (fun _ => rfl) hdecimals .absent
  rwa [List.append_nil] at hmagnitude

/-- The text of a whole number is one of a number. -/
theorem literal_toDigits (n : Nat) : Literal (Nat.toDigits 10 n) := by
  obtain rfl | hpos := Nat.eq_zero_or_pos n
  · exact .positive (magnitude_zero .absent)
  · have hmagnitude := magnitude_of_head? (digits_toDigits n) (head?_toDigits hpos) .absent .absent
    rw [List.append_nil, List.append_nil] at hmagnitude
    exact .positive hmagnitude

/-- The mark of a whole number is a fraction. -/
theorem fraction_wholeFraction (wholeFraction : Bool) :
    Fraction (if wholeFraction then ['.', '0'] else []) := by
  cases wholeFraction with
  | false => exact .absent
  | true => exact .present ⟨List.cons_ne_nil _ _, by simp⟩

/-- Digits with a point put among them are a number. A point before the first of them has a zero in
front, and that is the only number that starts with one. -/
theorem magnitude_positionalText (wholeFraction : Bool) {run : List Char} (h : Digits run)
    (hzero : run.head? ≠ some '0') (point : Int) :
    Magnitude (NumberStyle.positionalText wholeFraction run point) := by
  unfold NumberStyle.positionalText
  split
  · refine magnitude_zero (.present ⟨List.append_ne_nil_of_right_ne_nil _ h.1, ?_⟩)
    exact List.forall_mem_append.2 ⟨fun _ => isDigit_of_mem_zeros, h.2⟩
  · next hpos =>
    split
    · next hlt =>
      have htake : Digits (run.take point.toNat) := by
        refine ⟨fun hnil => ?_, fun c hc => h.2 c (List.mem_of_mem_take hc)⟩
        have hlength := congrArg List.length hnil
        rw [List.length_take, List.length_nil] at hlength
        omega
      have hdrop : Digits (run.drop point.toNat) := by
        refine ⟨fun hnil => ?_, fun c hc => h.2 c (List.mem_of_mem_drop hc)⟩
        have hlength := congrArg List.length hnil
        rw [List.length_drop, List.length_nil] at hlength
        omega
      have hhead : (run.take point.toNat).head? ≠ some '0' := by
        rwa [List.head?_take, if_neg (by omega)]
      have hmagnitude := magnitude_of_head? htake hhead (.present hdrop) .absent
      rwa [List.append_nil] at hmagnitude
    · have hhead : (run ++ List.replicate (point.toNat - run.length) '0').head? ≠ some '0' := by
        rwa [List.head?_append_of_ne_nil _ h.1]
      have hmagnitude := magnitude_of_head? (h.append fun _ => isDigit_of_mem_zeros) hhead
        (fraction_wholeFraction wholeFraction) .absent
      rwa [List.append_nil] at hmagnitude

/-- The first digit, the others as a fraction, and an exponent are a number. -/
theorem magnitude_exponentText (plusSign : Bool) {run : List Char} (h : Digits run)
    (hzero : run.head? ≠ some '0') (point : Int) :
    Magnitude (NumberStyle.exponentText plusSign run point) := by
  obtain ⟨c, rest, rfl⟩ := List.exists_cons_of_ne_nil h.1
  have hfirst : Digits [c] :=
    ⟨List.cons_ne_nil _ _, fun d hd => h.2 d (List.mem_of_mem_take (i := 1) hd)⟩
  have hfraction : Fraction (if (c :: rest).length ≤ 1 then [] else '.' :: rest) := by
    split
    · exact .absent
    · next hlong =>
      refine .present ⟨?_, fun d hd => h.2 d (List.mem_cons_of_mem _ hd)⟩
      rintro rfl
      exact hlong (Nat.le_refl _)
  have hexponent : ∀ sign ∈ [[], ['-'], ['+']],
      Exponent ('e' :: (sign ++ Nat.toDigits 10 (point - 1).natAbs)) :=
    fun sign hsign => .present hsign (digits_toDigits _)
  refine magnitude_of_head? hfirst hzero hfraction (hexponent _ ?_)
  split
  · simp
  · cases plusSign <;> simp

/-- A decimal without its sign is written as a number, whatever the style. -/
theorem magnitude_magnitudeText (style : NumberStyle) (d : Decimal) :
    Magnitude (style.magnitudeText d) := by
  unfold NumberStyle.magnitudeText
  split
  · exact magnitude_zero (fraction_wholeFraction _)
  · next hne =>
    have hzero := head?_toDigits (Nat.pos_of_ne_zero hne)
    dsimp only
    split
    · exact magnitude_positionalText _ (digits_toDigits _) hzero _
    · exact magnitude_exponentText _ (digits_toDigits _) hzero _

/-- **A finite double is written as a number.** -/
theorem literal_chars (style : NumberStyle) {x : Float} (h : x.isFinite = true) :
    Literal (style.chars x) := by
  obtain ⟨b, hb⟩ := Binary.exists_ofFloat? h
  unfold NumberStyle.chars
  rw [hb]
  have hmagnitude := magnitude_magnitudeText style (b.shortest style.tie)
  cases hnegative : (b.shortest style.tie).negative with
  | true =>
    simp only [NumberStyle.decimalText, hnegative]
    exact .negative hmagnitude
  | false =>
    simp only [NumberStyle.decimalText, hnegative]
    exact .positive hmagnitude

end Telescope.Json
