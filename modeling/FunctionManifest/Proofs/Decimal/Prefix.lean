import FunctionManifest.Proofs.Decimal.Numeral

/-!
# What numbers are read from

An integer is read from what `\s*([+-]?\d+)` captures, another number from what
`\s*([+-]?(?:\d+\.?\d*|\.\d+)(?:[eE][+-]?\d+)?)` does. All repetitions and options take what they
can, so the longest match is captured. The readers of numbers have a grammar of their own, in which
underscores may stand between digits.
-/

namespace FunctionManifest.Decimal

variable {text body captured digits rest : Text} {negative : Bool}

/-! ## Expressions -/

inductive IsSign : Text → Bool → Prop
  | none : IsSign [] false
  | plus : IsSign [.char '+'] false
  | minus : IsSign [.char '-'] true

/-- A match behind `[+-]?`. -/
inductive Signed (Matches : Text → Prop) : Text → Prop
  | intro {sign body : Text} {negative : Bool} (hsign : IsSign sign negative)
      (hbody : Matches body) : Signed Matches (sign ++ body)

/-- A match of `\d+`. -/
def MatchesDigits (text : Text) : Prop := IsDigits text ∧ text ≠ []

/-- A match of `\d+\.?\d*|\.\d+`. -/
inductive MatchesMantissa : Text → Prop
  | whole {whole : Text} (hwhole : MatchesDigits whole) : MatchesMantissa whole
  | point {whole fraction : Text} (hwhole : MatchesDigits whole) (hfraction : IsDigits fraction) :
      MatchesMantissa (whole ++ .char '.' :: fraction)
  | fraction {fraction : Text} (hfraction : MatchesDigits fraction) :
      MatchesMantissa (.char '.' :: fraction)

def IsExponentLetter (c : Letter) : Prop := c = .char 'e' ∨ c = .char 'E'

/-- A match of `(?:[eE][+-]?\d+)?`. -/
inductive MatchesExponent : Text → Prop
  | none : MatchesExponent []
  | some {c : Letter} {digits : Text} (hletter : IsExponentLetter c)
      (hdigits : Signed MatchesDigits digits) : MatchesExponent (c :: digits)

inductive MatchesUnsigned : Text → Prop
  | intro {mantissa exponent : Text} (hmantissa : MatchesMantissa mantissa)
      (hexponent : MatchesExponent exponent) : MatchesUnsigned (mantissa ++ exponent)

/-- The longest match at the start of a text. -/
structure Longest (Matches : Text → Prop) (text taken rest : Text) : Prop where
  split : text = taken ++ rest
  isMatch : Matches taken
  longest : ∀ other rest', text = other ++ rest' → Matches other → other.length ≤ taken.length

/-- The longest match behind the blanks at the start of a text. -/
def Captures (Matches : Text → Prop) (text captured : Text) : Prop :=
  ∃ blanks start rest, text = blanks ++ start ∧ (∀ c ∈ blanks, Text.isBlank c = true) ∧
    Longest Matches start captured rest

theorem captures_of_match {Matches : Text → Prop} (h : Matches text) :
    Captures Matches text text := by
  refine ⟨[], text, [], rfl, nofun, (List.append_nil text).symm, h, ?_⟩
  rintro other rest hother -
  rw [hother, List.length_append]
  omega

/-! ## Readers -/

/-- Digits with single underscores between them, and their values. -/
inductive DigitPart : Text → List Nat → Prop
  | digit {c : Letter} {value : Nat} (hdigit : Text.digitValue? c = some value) :
      DigitPart [c] [value]
  | digits {c : Letter} {value : Nat} {rest : Text} {values : List Nat}
      (hdigit : Text.digitValue? c = some value) (hrest : DigitPart rest values) :
      DigitPart (c :: rest) (value :: values)
  | underscore {c : Letter} {value : Nat} {rest : Text} {values : List Nat}
      (hdigit : Text.digitValue? c = some value) (hrest : DigitPart rest values) :
      DigitPart (c :: .char '_' :: rest) (value :: values)

/-- An integer is read from a sign and digits, unless there are too many of them. -/
inductive ReadsInt : Text → Int → Prop
  | intro {sign part : Text} {negative : Bool} {values : List Nat} (hsign : IsSign sign negative)
      (hpart : DigitPart part values) (hlimit : values.length ≤ digitLimit) :
      ReadsInt (sign ++ part) (signed negative (ofDigits values))

/-- Digits before and after a point. One of the sides may be missing, and without digits behind it
the point may be as well. -/
inductive ReadsNumber : Text → List Nat → List Nat → Prop
  | fraction {part : Text} {values : List Nat} (hpart : DigitPart part values) :
      ReadsNumber (.char '.' :: part) [] values
  | both {whole part : Text} {wholeValues values : List Nat} (hwhole : DigitPart whole wholeValues)
      (hpart : DigitPart part values) :
      ReadsNumber (whole ++ .char '.' :: part) wholeValues values
  | whole {whole : Text} {values : List Nat} (hwhole : DigitPart whole values) :
      ReadsNumber whole values []
  | point {whole : Text} {values : List Nat} (hwhole : DigitPart whole values) :
      ReadsNumber (whole ++ [.char '.']) values []

inductive ReadsExponent : Text → Int → Prop
  | none : ReadsExponent [] 0
  | some {c : Letter} {sign part : Text} {negative : Bool} {values : List Nat}
      (hletter : IsExponentLetter c) (hsign : IsSign sign negative)
      (hpart : DigitPart part values) :
      ReadsExponent (c :: (sign ++ part)) (signed negative (ofDigits values))

/-- The nearest number is read from a sign, a number and an exponent. -/
inductive ReadsFloat : Text → Binary64 → Prop
  | intro {sign number exponent : Text} {negative : Bool} {whole fraction : List Nat} {n : Int}
      (hsign : IsSign sign negative) (hnumber : ReadsNumber number whole fraction)
      (hexponent : ReadsExponent exponent n) :
      ReadsFloat (sign ++ (number ++ exponent))
        (.ofDecimal negative (ofDigits (whole ++ fraction)) (n - fraction.length))

/-! ## Digits -/

theorem isDigit_iff {c : Letter} :
    Text.isDigit c = true ↔ ∃ value, Text.digitValue? c = some value := by
  rw [Text.isDigit, Option.isSome_iff_exists]

theorem length_digitValues (h : IsDigits digits) : (digitValues digits).length = digits.length := by
  induction digits with
  | nil => rfl
  | cons c digits ih =>
    obtain ⟨hc, hdigits⟩ := List.forall_mem_cons.mp h
    obtain ⟨value, hvalue⟩ := isDigit_iff.mp hc
    rw [digitValues, List.filterMap_cons_some hvalue, List.length_cons, ← digitValues, ih hdigits,
      List.length_cons]

theorem digitValues_eq_nil_iff (h : IsDigits digits) : digitValues digits = [] ↔ digits = [] := by
  rw [← List.length_eq_zero_iff, length_digitValues h, List.length_eq_zero_iff]

theorem MatchesDigits.digitPart (h : MatchesDigits digits) :
    DigitPart digits (digitValues digits) := by
  obtain ⟨hdigits, hne⟩ := h
  induction digits with
  | nil => exact absurd rfl hne
  | cons c digits ih =>
    obtain ⟨hc, hdigits⟩ := List.forall_mem_cons.mp hdigits
    obtain ⟨value, hvalue⟩ := isDigit_iff.mp hc
    rw [digitValues, List.filterMap_cons_some hvalue, ← digitValues]
    cases digits with
    | nil => exact .digit hvalue
    | cons d digits => exact .digits hvalue (ih hdigits (List.cons_ne_nil d digits))

/-- Without underscores the reader reads the digits as they are. -/
theorem DigitPart.values_eq {values : List Nat} (h : DigitPart digits values)
    (hdigits : IsDigits digits) : values = digitValues digits := by
  induction h with
  | digit hdigit => rw [digitValues, List.filterMap_cons_some hdigit, List.filterMap_nil]
  | digits hdigit _ ih =>
    rw [digitValues, List.filterMap_cons_some hdigit, ← digitValues,
      ih (List.forall_mem_cons.mp hdigits).2]
  | underscore =>
    have hunderscore := hdigits (.char '_') (by simp)
    exact absurd hunderscore (by decide)

theorem DigitPart.exists_cons {values : List Nat} (h : DigitPart digits values) :
    ∃ c rest, digits = c :: rest ∧ Text.isDigit c = true := by
  cases h with
  | digit hdigit | digits hdigit | underscore hdigit =>
    exact ⟨_, _, rfl, isDigit_iff.mpr ⟨_, hdigit⟩⟩

theorem isDigits_takeWhile (text : Text) : IsDigits (text.takeWhile Text.isDigit) :=
  fun c hc => List.all_eq_true.mp List.all_takeWhile c hc

theorem ends_dropWhile (text : Text) : Ends (text.dropWhile Text.isDigit) := by
  intro c hc
  have h := List.head?_dropWhile_not Text.isDigit text
  rw [Option.mem_def.mp hc] at h
  exact h

theorem IsDigits.length_le (h : IsDigits digits) (rest : Text) :
    digits.length ≤ ((digits ++ rest).takeWhile Text.isDigit).length := by
  rw [List.takeWhile_append_of_pos h, List.length_append]
  omega

/-! ## Blanks and signs -/

/-- What a match begins with is neither a blank nor a sign. -/
def Opens (Matches : Text → Prop) : Prop :=
  ∀ text, Matches text → ∃ c rest, text = c :: rest ∧ Text.isBlank c = false ∧
    c ≠ .char '+' ∧ c ≠ .char '-'

theorem isBlank_of_isDigit {c : Letter} (h : Text.isDigit c = true) : Text.isBlank c = false := by
  have hapart : ∀ base ∈ Text.digitZeros, ∀ range ∈ Text.blankRanges,
      range.2 < base ∨ base + 9 < range.1 := by decide
  obtain ⟨value, hvalue⟩ := isDigit_iff.mp h
  obtain ⟨base, hfind, -⟩ := Option.map_eq_some_iff.mp hvalue
  have hmem := List.mem_of_find?_eq_some hfind
  have hin : (decide (base ≤ c.code) && decide (c.code ≤ base + 9)) = true := by
    simpa using List.find?_some hfind
  simp only [Bool.and_eq_true, decide_eq_true_eq] at hin
  rw [Bool.eq_false_iff]
  intro hblank
  obtain ⟨range, hrange, hblank⟩ := List.any_eq_true.mp hblank
  obtain ⟨hfrom, hto⟩ := Bool.and_eq_true_iff.mp hblank
  have hfrom : range.1 ≤ c.code := of_decide_eq_true hfrom
  have hto : c.code ≤ range.2 := of_decide_eq_true hto
  have := hapart base hmem range hrange
  omega

theorem ne_sign_of_isDigit {c : Letter} (h : Text.isDigit c = true) :
    c ≠ .char '+' ∧ c ≠ .char '-' := by
  constructor
  · rintro rfl
    exact absurd h (by decide)
  · rintro rfl
    exact absurd h (by decide)

theorem opens_digits : Opens MatchesDigits := by
  rintro text ⟨hdigits, hne⟩
  obtain ⟨c, rest, rfl⟩ := List.exists_cons_of_ne_nil hne
  have hc := hdigits c List.mem_cons_self
  exact ⟨c, rest, rfl, isBlank_of_isDigit hc, ne_sign_of_isDigit hc⟩

theorem opens_unsigned : Opens MatchesUnsigned := by
  rintro _ ⟨hmantissa, _⟩
  cases hmantissa with
  | whole hwhole | point hwhole =>
    obtain ⟨c, rest, rfl, hc⟩ := opens_digits _ hwhole
    exact ⟨c, _, rfl, hc⟩
  | fraction =>
    exact ⟨.char '.', _, rfl, by decide, nofun, nofun⟩

theorem takeSign_append {sign : Text} {c : Letter} (hsign : IsSign sign negative)
    (hplus : c ≠ .char '+') (hminus : c ≠ .char '-') (rest : Text) :
    takeSign (sign ++ c :: rest) = (negative, c :: rest) := by
  cases hsign with
  | plus | minus => rfl
  | none =>
    rw [List.nil_append]
    unfold takeSign
    split
    · simp_all
    · simp_all
    · rfl

theorem exists_sign (text : Text) :
    ∃ sign, IsSign sign (takeSign text).1 ∧ text = sign ++ (takeSign text).2 := by
  unfold takeSign
  split
  · exact ⟨_, .minus, rfl⟩
  · exact ⟨_, .plus, rfl⟩
  · exact ⟨_, .none, rfl⟩

section

variable {Matches : Text → Prop} (hopens : Opens Matches)

include hopens

theorem takeSign_match {sign taken : Text} (hsign : IsSign sign negative) (h : Matches taken)
    (rest : Text) : takeSign (sign ++ (taken ++ rest)) = (negative, taken ++ rest) := by
  obtain ⟨c, tail, rfl, -, hplus, hminus⟩ := hopens taken h
  exact takeSign_append hsign hplus hminus (tail ++ rest)

theorem longest_signed_iff :
    Longest (Signed Matches) text captured rest ↔
      ∃ sign taken, captured = sign ++ taken ∧ IsSign sign (takeSign text).1 ∧
        text = sign ++ (takeSign text).2 ∧ Longest Matches (takeSign text).2 taken rest := by
  constructor
  · rintro ⟨rfl, ⟨hsign, hbody⟩, hlongest⟩
    rename_i sign taken negative
    have htake := takeSign_match hopens hsign hbody rest
    rw [List.append_assoc, htake]
    refine ⟨sign, taken, rfl, hsign, rfl, rfl, hbody, fun other rest' hother hmatch => ?_⟩
    have htext : sign ++ taken ++ rest = sign ++ other ++ rest' := by
      rw [List.append_assoc, List.append_assoc]
      exact congrArg _ hother
    have hlength := hlongest (sign ++ other) rest' htext (.intro hsign hmatch)
    rw [List.length_append, List.length_append] at hlength
    omega
  · rintro ⟨sign, taken, rfl, hsign, htext, hsplit, hmatch, hlongest⟩
    refine ⟨?_, .intro hsign hmatch, ?_⟩
    · rw [List.append_assoc, ← hsplit]
      exact htext
    · rintro _ rest' hother ⟨hsign', hmatch'⟩
      rename_i sign' other _
      rw [List.append_assoc] at hother
      have htake := takeSign_match hopens hsign' hmatch' rest'
      rw [← hother] at htake
      have hlength := hlongest other rest' (by rw [htake]) hmatch'
      have hsame : sign.length = sign'.length := by
        have hboth : sign ++ (takeSign text).2 = sign' ++ (takeSign text).2 := by
          rw [← htext, htake]
          exact hother
        rw [List.append_cancel_right hboth]
      rw [List.length_append, List.length_append]
      omega

theorem dropWhile_blanks {blanks sign taken : Text}
    (hblanks : ∀ c ∈ blanks, Text.isBlank c = true) (hsign : IsSign sign negative)
    (h : Matches taken) (rest : Text) :
    (blanks ++ (sign ++ (taken ++ rest))).dropWhile Text.isBlank = sign ++ (taken ++ rest) := by
  rw [List.dropWhile_append_of_pos hblanks]
  obtain ⟨c, tail, rfl, hc, -⟩ := hopens taken h
  cases hsign with
  | none => exact List.dropWhile_cons_of_neg (by simp [hc])
  | plus | minus => rfl

theorem captures_iff :
    Captures (Signed Matches) text captured ↔
      ∃ rest, Longest (Signed Matches) (text.dropWhile Text.isBlank) captured rest := by
  constructor
  · rintro ⟨blanks, start, rest, rfl, hblanks, hlongest⟩
    refine ⟨rest, ?_⟩
    obtain ⟨rfl, ⟨hsign, hbody⟩, -⟩ := id hlongest
    rw [List.append_assoc] at hlongest ⊢
    rwa [dropWhile_blanks hopens hblanks hsign hbody]
  · rintro ⟨rest, hlongest⟩
    exact ⟨text.takeWhile Text.isBlank, text.dropWhile Text.isBlank, rest,
      List.takeWhile_append_dropWhile.symm,
      fun c hc => List.all_eq_true.mp List.all_takeWhile c hc, hlongest⟩

end

/-! ## Integers -/

theorem longest_digits (h : body.takeWhile Text.isDigit ≠ []) :
    Longest MatchesDigits body (body.takeWhile Text.isDigit) (body.dropWhile Text.isDigit) where
  split := List.takeWhile_append_dropWhile.symm
  isMatch := ⟨isDigits_takeWhile body, h⟩
  longest := by
    rintro other rest' rfl ⟨hdigits, -⟩
    exact hdigits.length_le rest'

theorem takeWhile_ne_nil (h : MatchesDigits digits) (rest : Text) :
    (digits ++ rest).takeWhile Text.isDigit ≠ [] := by
  rw [List.takeWhile_append_of_pos h.1]
  exact List.append_ne_nil_of_left_ne_nil h.2 _

/-- Only one match is the longest. -/
theorem Longest.unique {Matches : Text → Prop} {taken taken' rest' : Text}
    (h : Longest Matches text taken rest) (h' : Longest Matches text taken' rest') :
    taken = taken' ∧ rest = rest' := by
  have hle := h.longest taken' rest' h'.split h'.isMatch
  have hge := h'.longest taken rest h.split h.isMatch
  exact List.append_inj (h.split.symm.trans h'.split) (by omega)

theorem leadingInt?_eq (text : Text) :
    leadingInt? text =
      if (takeSign (text.dropWhile Text.isBlank)).2.takeWhile Text.isDigit = [] then none
      else some ((takeSign (text.dropWhile Text.isBlank)).1,
        digitRun (takeSign (text.dropWhile Text.isBlank)).2) := by
  unfold leadingInt?
  generalize takeSign (text.dropWhile Text.isBlank) = start
  obtain ⟨negative, body⟩ := start
  have hnil := digitValues_eq_nil_iff (isDigits_takeWhile body)
  by_cases hempty : body.takeWhile Text.isDigit = []
  · rw [if_pos hempty]
    exact if_pos (hnil.mpr hempty)
  · rw [if_neg hempty]
    exact if_neg (mt hnil.mp hempty)

/-- The digits that are captured are those that are read. -/
theorem leadingInt?_of_captures (h : Captures (Signed MatchesDigits) text captured) :
    ∃ sign negative digits, captured = sign ++ digits ∧ IsSign sign negative ∧
      MatchesDigits digits ∧ leadingInt? text = some (negative, digitValues digits) := by
  obtain ⟨rest, hlongest⟩ := (captures_iff opens_digits).mp h
  obtain ⟨sign, taken, rfl, hsign, -, hbody⟩ := (longest_signed_iff opens_digits).mp hlongest
  have hne := takeWhile_ne_nil hbody.isMatch rest
  rw [← hbody.split] at hne
  obtain ⟨htaken, -⟩ := hbody.unique (longest_digits hne)
  refine ⟨sign, _, taken, rfl, hsign, hbody.isMatch, ?_⟩
  rw [leadingInt?_eq, if_neg hne, htaken, digitRun, digitValues]

theorem leadingInt?_eq_none_iff :
    leadingInt? text = none ↔ ¬∃ captured, Captures (Signed MatchesDigits) text captured := by
  constructor
  · rintro hnone ⟨captured, hcaptured⟩
    obtain ⟨_, _, _, -, -, -, hsome⟩ := leadingInt?_of_captures hcaptured
    rw [hnone] at hsome
    cases hsome
  · intro hnone
    rw [leadingInt?_eq]
    by_cases hempty : (takeSign (text.dropWhile Text.isBlank)).2.takeWhile Text.isDigit = []
    · exact if_pos hempty
    · obtain ⟨sign, hsign, htext⟩ := exists_sign (text.dropWhile Text.isBlank)
      have hlongest := (longest_signed_iff opens_digits).mpr
        ⟨sign, _, rfl, hsign, htext, longest_digits hempty⟩
      exact absurd ⟨_, (captures_iff opens_digits).mpr ⟨_, hlongest⟩⟩ hnone

/-- The reader of integers accepts what is captured unless it has too many digits. -/
theorem readsInt_iff {sign : Text} (hsign : IsSign sign negative) (hdigits : MatchesDigits digits)
    {n : Int} :
    ReadsInt (sign ++ digits) n ↔ digits.length ≤ digitLimit ∧
      n = signed negative (ofDigits (digitValues digits)) := by
  constructor
  · intro hreads
    generalize htext : sign ++ digits = text at hreads
    cases hreads with
    | @intro sign' part negative' values hsign' hpart hlimit =>
      obtain ⟨c, rest, rfl, hc⟩ := hpart.exists_cons
      obtain ⟨hplus, hminus⟩ := ne_sign_of_isDigit hc
      have htake := takeSign_match opens_digits hsign hdigits []
      rw [List.append_nil, htext, takeSign_append hsign' hplus hminus, Prod.mk.injEq] at htake
      obtain ⟨rfl, rfl⟩ := htake
      have hvalues := hpart.values_eq hdigits.1
      subst hvalues
      rw [length_digitValues hdigits.1] at hlimit
      exact ⟨hlimit, rfl⟩
  · rintro ⟨hlimit, rfl⟩
    exact .intro hsign hdigits.digitPart (by rwa [length_digitValues hdigits.1])

/-! ## Mantissas -/

theorem digits_split {digits' rest' : Text} (h : IsDigits digits) (hrest : Ends rest)
    (h' : IsDigits digits') (hsame : digits ++ rest = digits' ++ rest') :
    digits'.length ≤ digits.length ∧ (Ends rest' → digits' = digits ∧ rest' = rest) := by
  constructor
  · have hle := h'.length_le rest'
    rwa [← hsame, takeWhile_digits h hrest] at hle
  · intro hrest'
    have hdigits : digits' = digits := by
      rw [← takeWhile_digits h' hrest', ← hsame, takeWhile_digits h hrest]
    subst hdigits
    exact ⟨rfl, (List.append_cancel_left hsame).symm⟩

theorem ends_point (rest : Text) : Ends (.char '.' :: rest) := by
  rintro c ⟨⟩
  decide

theorem ends_letter {c : Letter} (h : IsExponentLetter c) (rest : Text) : Ends (c :: rest) := by
  rintro d ⟨⟩
  rcases h with rfl | rfl <;> decide +kernel

/-- A mantissa at the start of a text, and what follows it. Others are not longer, and where an
exponent could follow one it is the same. -/
structure IsMantissaOf (body mantissa rest : Text) : Prop where
  split : body = mantissa ++ rest
  isMatch : MatchesMantissa mantissa
  longest : ∀ other tail, body = other ++ tail → MatchesMantissa other →
    other.length ≤ mantissa.length ∧
      ∀ c tail', IsExponentLetter c → tail = c :: tail' → tail = rest

theorem isMantissaOf_point {fraction : Text} (h : IsDigits digits) (hfraction : IsDigits fraction)
    (hne : digits ≠ [] ∨ fraction ≠ []) (hrest : Ends rest) :
    IsMantissaOf (digits ++ .char '.' :: (fraction ++ rest)) (digits ++ .char '.' :: fraction)
      rest where
  split := by rw [List.append_assoc, List.cons_append]
  isMatch := by
    by_cases hdigits : digits = []
    · subst hdigits
      exact .fraction ⟨hfraction, hne.resolve_left (absurd rfl)⟩
    · exact .point ⟨h, hdigits⟩ hfraction
  longest := by
    intro other tail hother hmatch
    -- Behind a point that is met there are digits, and at most those of the fraction.
    have hbehind : ∀ before after, IsDigits before → IsDigits after →
        digits ++ .char '.' :: (fraction ++ rest) = before ++ .char '.' :: (after ++ tail) →
        (before ++ Letter.char '.' :: after).length ≤
            (digits ++ Letter.char '.' :: fraction).length ∧
          ∀ c tail', IsExponentLetter c → tail = c :: tail' → tail = rest := by
      intro before after hbefore hafter hsame
      obtain ⟨rfl, hpoint⟩ := (digits_split h (ends_point _) hbefore hsame).2 (ends_point _)
      obtain ⟨hlength, hends⟩ := digits_split hfraction hrest hafter (List.cons.inj hpoint).2.symm
      constructor
      · simp only [List.length_append, List.length_cons]
        omega
      · rintro c tail' hletter rfl
        exact (hends (ends_letter hletter _)).2
    cases hmatch with
    | whole hwhole =>
      obtain ⟨hlength, hends⟩ := digits_split h (ends_point _) hwhole.1 hother
      constructor
      · rw [List.length_append]
        omega
      · rintro c tail' hletter rfl
        have hpoint := (hends (ends_letter hletter _)).2
        rw [(List.cons.inj hpoint).1] at hletter
        exact hletter.elim nofun nofun
    | @point before after hwhole hafter =>
      rw [List.append_assoc, List.cons_append] at hother
      exact hbehind before after hwhole.1 hafter hother
    | @fraction after hafter =>
      exact hbehind [] after nofun hafter.1 hother

theorem isMantissaOf_whole (h : MatchesDigits digits) (hrest : Ends rest)
    (hpoint : ∀ c ∈ rest.head?, c ≠ .char '.') : IsMantissaOf (digits ++ rest) digits rest where
  split := rfl
  isMatch := .whole h
  longest := by
    intro other tail hother hmatch
    have hno : ∀ before after, IsDigits before → digits ++ rest ≠ before ++ .char '.' :: after := by
      intro before after hbefore hsame
      have hrest' := ((digits_split h.1 hrest hbefore hsame).2 (ends_point _)).2
      subst hrest'
      exact hpoint _ rfl rfl
    cases hmatch with
    | whole hwhole =>
      obtain ⟨hlength, hends⟩ := digits_split h.1 hrest hwhole.1 hother
      refine ⟨hlength, ?_⟩
      rintro c tail' hletter rfl
      exact (hends (ends_letter hletter _)).2
    | @point before after hwhole hafter =>
      rw [List.append_assoc] at hother
      exact absurd hother (hno before _ hwhole.1)
    | @fraction after hafter =>
      exact absurd hother (hno [] _ nofun)

/-- A text starts with digits, a point and digits, or with digits only. -/
theorem mantissa_cases (body : Text) :
    (∃ digits fraction rest, body = digits ++ .char '.' :: (fraction ++ rest) ∧ IsDigits digits ∧
        IsDigits fraction ∧ Ends rest) ∨
      ∃ digits rest, body = digits ++ rest ∧ IsDigits digits ∧ Ends rest ∧
        ∀ c ∈ rest.head?, c ≠ .char '.' := by
  have hsplit : body = body.takeWhile Text.isDigit ++ body.dropWhile Text.isDigit :=
    List.takeWhile_append_dropWhile.symm
  by_cases hpoint : ∃ rest, body.dropWhile Text.isDigit = .char '.' :: rest
  · obtain ⟨rest, hrest⟩ := hpoint
    refine .inl ⟨_, rest.takeWhile Text.isDigit, rest.dropWhile Text.isDigit, ?_,
      isDigits_takeWhile body, isDigits_takeWhile rest, ends_dropWhile rest⟩
    rw [List.takeWhile_append_dropWhile, ← hrest]
    exact hsplit
  · refine .inr ⟨_, _, hsplit, isDigits_takeWhile body, ends_dropWhile body, ?_⟩
    rintro c hc rfl
    obtain ⟨rest, hrest⟩ := List.head?_eq_some_iff.mp (Option.mem_def.mp hc)
    exact hpoint ⟨rest, hrest⟩

/-! ## Exponents -/

theorem longest_integer (h : (takeSign text).2.takeWhile Text.isDigit ≠ []) :
    ∃ sign, IsSign sign (takeSign text).1 ∧
      Longest (Signed MatchesDigits) text (sign ++ (takeSign text).2.takeWhile Text.isDigit)
        ((takeSign text).2.dropWhile Text.isDigit) := by
  obtain ⟨sign, hsign, htext⟩ := exists_sign text
  exact ⟨sign, hsign, (longest_signed_iff opens_digits).mpr
    ⟨sign, _, rfl, hsign, htext, longest_digits h⟩⟩

theorem not_signed_of_nil (h : (takeSign text).2.takeWhile Text.isDigit = []) {taken : Text}
    (hsplit : text = taken ++ rest) : ¬Signed MatchesDigits taken := by
  rintro ⟨hsign, hdigits⟩
  rw [List.append_assoc] at hsplit
  have htake := takeSign_match opens_digits hsign hdigits rest
  rw [hsplit, htake] at h
  exact takeWhile_ne_nil hdigits rest h

/-- What the exponent is read as is what the longest match says. -/
theorem exists_exponent (text : Text) :
    ∃ exponent rest, Longest MatchesExponent text exponent rest ∧
      ReadsExponent exponent (exponentOf text) := by
  have hnone : exponentOf text = 0 →
      (∀ c tail rest, IsExponentLetter c → Signed MatchesDigits tail → text ≠ c :: (tail ++ rest)) →
      ∃ exponent rest, Longest MatchesExponent text exponent rest ∧
        ReadsExponent exponent (exponentOf text) := by
    intro hzero hno
    refine ⟨[], text, ⟨rfl, .none, ?_⟩, by rw [hzero]; exact .none⟩
    rintro _ rest hother (_ | ⟨hletter, hdigits⟩)
    · exact le_rfl
    · exact absurd hother (hno _ _ _ hletter hdigits)
  cases text with
  | nil => exact hnone rfl nofun
  | cons c text =>
    by_cases hletter : IsExponentLetter c
    · have hvalue : exponentOf (c :: text) =
          signed (takeSign text).1 (ofDigits (digitRun (takeSign text).2)) := if_pos hletter
      by_cases hempty : (takeSign text).2.takeWhile Text.isDigit = []
      · apply hnone
        · rw [hvalue, digitRun, hempty]
          cases (takeSign text).1 <;> rfl
        · rintro d tail rest - hdigits hsame
          exact not_signed_of_nil hempty (List.cons.inj hsame).2 hdigits
      · obtain ⟨sign, hsign, hlongest⟩ := longest_integer hempty
        refine ⟨c :: (sign ++ (takeSign text).2.takeWhile Text.isDigit),
          (takeSign text).2.dropWhile Text.isDigit, ?_, ?_⟩
        · refine ⟨?_, .some hletter hlongest.isMatch, ?_⟩
          · rw [List.cons_append, ← hlongest.split]
          · rintro _ rest hother (_ | ⟨-, hdigits⟩)
            · exact Nat.zero_le _
            · have hlength := hlongest.longest _ rest (List.cons.inj hother).2 hdigits
              rw [List.length_cons, List.length_cons]
              omega
        · rw [hvalue]
          have hpart : MatchesDigits ((takeSign text).2.takeWhile Text.isDigit) :=
            ⟨isDigits_takeWhile _, hempty⟩
          exact .some hletter hsign hpart.digitPart
    · apply hnone
      · exact if_neg hletter
      · rintro d tail rest hletter' - hsame
        rw [(List.cons.inj hsame).1] at hletter
        exact hletter hletter'

/-! ## Numbers -/

/-- The mantissa is read, and with it the exponent that follows it. -/
theorem exists_unsigned {mantissa : Text} (h : IsMantissaOf body mantissa rest) :
    ∃ exponent rest', Longest MatchesUnsigned body (mantissa ++ exponent) rest' ∧
      ReadsExponent exponent (exponentOf rest) := by
  obtain ⟨exponent, rest', hlongest, hreads⟩ := exists_exponent rest
  refine ⟨exponent, rest', ⟨?_, .intro h.isMatch hlongest.isMatch, ?_⟩, hreads⟩
  · rw [List.append_assoc, ← hlongest.split]
    exact h.split
  · rintro _ after hother ⟨hmantissa, hexponent⟩
    rename_i other otherExponent
    rw [List.append_assoc] at hother
    obtain ⟨hlength, hsame⟩ := h.longest other _ hother hmantissa
    rw [List.length_append, List.length_append]
    have hbehind : otherExponent.length ≤ exponent.length := by
      cases hexponent with
      | none => exact Nat.zero_le _
      | @some c digits hletter hdigits =>
        have htail := hsame c (digits ++ after) hletter rfl
        exact hlongest.longest _ after htail.symm (.some hletter hdigits)
    omega

/-- What a number without a sign is read as. -/
def unsigned? (negative : Bool) (body : Text) : Option Binary64 :=
  let (whole, fraction, rest) := takeFraction body
  if whole = [] ∧ fraction = [] then none
  else
    some (.ofDecimal negative (ofDigits (whole ++ fraction)) (exponentOf rest - fraction.length))

theorem leadingFloat?_eq (text : Text) :
    leadingFloat? text = unsigned? (takeSign (text.dropWhile Text.isBlank)).1
      (takeSign (text.dropWhile Text.isBlank)).2 := rfl

/-- The longest match of a number without a sign gives its value. -/
structure IsUnsigned (negative : Bool) (body taken rest : Text) (x : Binary64) : Prop where
  longest : Longest MatchesUnsigned body taken rest
  value : unsigned? negative body = some x
  reads : ∀ sign, IsSign sign negative → ReadsFloat (sign ++ taken) x

theorem exists_isUnsigned {mantissa : Text} {whole fraction : List Nat}
    (h : IsMantissaOf body mantissa rest) (hparts : takeFraction body = (whole, fraction, rest))
    (hne : ¬(whole = [] ∧ fraction = [])) (hreads : ReadsNumber mantissa whole fraction)
    (negative : Bool) : ∃ taken rest' x, IsUnsigned negative body taken rest' x := by
  obtain ⟨exponent, rest', hlongest, hexponent⟩ := exists_unsigned h
  refine ⟨mantissa ++ exponent, rest', _, hlongest, ?_, fun sign hsign =>
    .intro hsign hreads hexponent⟩
  simp only [unsigned?, hparts, if_neg hne]

theorem MatchesDigits.exists_cons (h : MatchesDigits digits) :
    ∃ c rest, digits = c :: rest ∧ Text.isDigit c = true := by
  obtain ⟨c, rest, rfl⟩ := List.exists_cons_of_ne_nil h.2
  exact ⟨c, rest, rfl, h.1 c List.mem_cons_self⟩

theorem MatchesUnsigned.starts (h : MatchesUnsigned text) :
    (∃ c rest, text = c :: rest ∧ Text.isDigit c = true) ∨
      ∃ c rest, text = .char '.' :: c :: rest ∧ Text.isDigit c = true := by
  obtain ⟨hmantissa, -⟩ := h
  cases hmantissa with
  | whole hwhole | point hwhole =>
    obtain ⟨c, rest, rfl, hc⟩ := hwhole.exists_cons
    exact .inl ⟨c, _, rfl, hc⟩
  | fraction hfraction =>
    obtain ⟨c, rest, rfl, hc⟩ := hfraction.exists_cons
    exact .inr ⟨c, _, rfl, hc⟩

theorem readsNumber_of_point {fraction : Text} (hdigits : IsDigits digits)
    (hfraction : IsDigits fraction) (hne : ¬(digits = [] ∧ fraction = [])) :
    ReadsNumber (digits ++ .char '.' :: fraction) (digitValues digits) (digitValues fraction) := by
  by_cases hleft : digits = []
  · subst hleft
    have hright : MatchesDigits fraction := ⟨hfraction, fun hright => hne ⟨rfl, hright⟩⟩
    exact .fraction hright.digitPart
  · have hwhole : MatchesDigits digits := ⟨hdigits, hleft⟩
    by_cases hright : fraction = []
    · subst hright
      exact .point hwhole.digitPart
    · have hpart : MatchesDigits fraction := ⟨hfraction, hright⟩
      exact .both hwhole.digitPart hpart.digitPart

theorem isUnsigned_or (negative : Bool) (body : Text) :
    (∃ taken rest x, IsUnsigned negative body taken rest x) ∨
      unsigned? negative body = none ∧
        ∀ taken rest, body = taken ++ rest → ¬MatchesUnsigned taken := by
  rcases mantissa_cases body with ⟨digits, fraction, rest, rfl, hdigits, hfraction, hrest⟩ |
    ⟨digits, rest, rfl, hdigits, hrest, hpoint⟩
  · have hparts := takeFraction_point hdigits hfraction hrest
    by_cases hempty : digits = [] ∧ fraction = []
    · obtain ⟨rfl, rfl⟩ := hempty
      refine .inr ⟨by simp only [unsigned?, hparts]; rfl, ?_⟩
      rintro taken tail hsame hmatch
      rcases hmatch.starts with ⟨c, after, rfl, hc⟩ | ⟨c, after, rfl, hc⟩
      · obtain ⟨rfl, -⟩ := List.cons.inj hsame
        exact absurd hc (by decide)
      · have hrest' : rest = c :: (after ++ tail) := (List.cons.inj hsame).2
        rw [hrest c (by rw [hrest']; rfl)] at hc
        cases hc
    · refine .inl (exists_isUnsigned
        (isMantissaOf_point hdigits hfraction (not_and_or.mp hempty) hrest) hparts ?_
        (readsNumber_of_point hdigits hfraction hempty) negative)
      rwa [digitValues_eq_nil_iff hdigits, digitValues_eq_nil_iff hfraction]
  · have hparts := takeFraction_whole hdigits hrest hpoint
    by_cases hempty : digits = []
    · subst hempty
      refine .inr ⟨by simp only [unsigned?, hparts]; rfl, ?_⟩
      rintro taken tail hsame hmatch
      rw [List.nil_append] at hsame
      rcases hmatch.starts with ⟨c, after, rfl, hc⟩ | ⟨c, after, rfl, -⟩
      · rw [hrest c (by rw [hsame]; rfl)] at hc
        cases hc
      · exact absurd rfl (hpoint (.char '.') (by rw [hsame]; rfl))
    · have hwhole : MatchesDigits digits := ⟨hdigits, hempty⟩
      refine .inl (exists_isUnsigned (isMantissaOf_whole hwhole hrest hpoint) hparts ?_
        (.whole hwhole.digitPart) negative)
      rw [digitValues_eq_nil_iff hdigits]
      exact fun h => hempty h.1

/-- What is captured is accepted by the reader of numbers, and is read as it reads it. -/
theorem leadingFloat?_of_captures (h : Captures (Signed MatchesUnsigned) text captured) :
    ∃ x, leadingFloat? text = some x ∧ ReadsFloat captured x := by
  obtain ⟨rest, hlongest⟩ := (captures_iff opens_unsigned).mp h
  obtain ⟨sign, taken, rfl, hsign, -, hbody⟩ := (longest_signed_iff opens_unsigned).mp hlongest
  rw [leadingFloat?_eq]
  rcases isUnsigned_or (takeSign (text.dropWhile Text.isBlank)).1
    (takeSign (text.dropWhile Text.isBlank)).2 with ⟨taken', rest', x, hread⟩ | ⟨-, hno⟩
  · obtain ⟨rfl, -⟩ := hbody.unique hread.longest
    exact ⟨x, hread.value, hread.reads sign hsign⟩
  · exact absurd hbody.isMatch (hno taken rest hbody.split)

theorem leadingFloat?_eq_none_iff :
    leadingFloat? text = none ↔ ¬∃ captured, Captures (Signed MatchesUnsigned) text captured := by
  constructor
  · rintro hnone ⟨captured, hcaptured⟩
    obtain ⟨x, hsome, -⟩ := leadingFloat?_of_captures hcaptured
    rw [hnone] at hsome
    cases hsome
  · intro hnone
    rw [leadingFloat?_eq]
    rcases isUnsigned_or (takeSign (text.dropWhile Text.isBlank)).1
      (takeSign (text.dropWhile Text.isBlank)).2 with ⟨taken, rest, x, hread⟩ | ⟨hvalue, -⟩
    · obtain ⟨sign, hsign, htext⟩ := exists_sign (text.dropWhile Text.isBlank)
      have hlongest := (longest_signed_iff opens_unsigned).mpr
        ⟨sign, taken, rfl, hsign, htext, hread.longest⟩
      exact absurd ⟨_, (captures_iff opens_unsigned).mpr ⟨rest, hlongest⟩⟩ hnone
    · exact hvalue

end FunctionManifest.Decimal
