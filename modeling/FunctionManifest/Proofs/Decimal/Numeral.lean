import FunctionManifest.Decimal.Numeral
import FunctionManifest.Proofs.Decimal.Shortest
import FunctionManifest.Proofs.Text.Token

/-!
# Reading numerals back

A number that is written is a numeral to its end, and reading it gives the number again.
-/

namespace FunctionManifest.Decimal

open Text (ofChars)

/-! ## Runs of digits -/

def IsDigits (text : Text) : Prop := ∀ c ∈ text, Text.isDigit c = true

/-- No run of digits goes on where the text starts. -/
def Ends (text : Text) : Prop := ∀ c ∈ text.head?, Text.isDigit c = false

def digitValues (digits : Text) : List Nat := digits.filterMap Text.digitValue?

variable {digits rest : Text}

theorem takeWhile_digits (h : IsDigits digits) (hrest : Ends rest) :
    (digits ++ rest).takeWhile Text.isDigit = digits := by
  rw [List.takeWhile_append_of_pos h]
  cases rest with
  | nil => simp
  | cons c rest => simp [hrest c rfl]

theorem afterDigits_digits (h : IsDigits digits) (hrest : Ends rest) :
    afterDigits (digits ++ rest) = rest := by
  rw [afterDigits, List.dropWhile_append_of_pos h]
  cases rest with
  | nil => rfl
  | cons c rest => simp [hrest c rfl]

theorem digitRun_digits (h : IsDigits digits) (hrest : Ends rest) :
    digitRun (digits ++ rest) = digitValues digits := by
  rw [digitRun, takeWhile_digits h hrest, digitValues]

/-! ## Plain digits -/

def AllDigits (chars : List Char) : Prop := ∀ c ∈ chars, c.isDigit = true

def values (chars : List Char) : List Nat := chars.map fun c => c.toNat - '0'.toNat

variable {chars chars' : List Char} {negative : Bool}

theorem bounds_of_isDigit {c : Char} (h : c.isDigit = true) :
    '0'.toNat ≤ c.toNat ∧ c.toNat ≤ '0'.toNat + 9 := by
  simpa [Char.isDigit, UInt32.le_iff_toNat_le] using h

theorem digitValue?_of_isDigit {c : Char} (h : c.isDigit = true) :
    Text.digitValue? c = some (c.toNat - '0'.toNat) := by
  obtain ⟨hlow, hhigh⟩ := bounds_of_isDigit h
  unfold Text.digitValue? Text.digitZeros
  rw [List.find?_cons_of_pos]
  · rfl
  · exact Bool.and_eq_true_iff.mpr ⟨decide_eq_true hlow, decide_eq_true hhigh⟩

theorem AllDigits.isDigits (h : AllDigits chars) : IsDigits (ofChars chars) := by
  intro c hc
  obtain ⟨digit, hdigit, rfl⟩ := List.mem_map.mp hc
  rw [Text.isDigit, digitValue?_of_isDigit (h digit hdigit)]
  rfl

theorem digitValues_ofChars (h : AllDigits chars) : digitValues (ofChars chars) = values chars := by
  induction chars with
  | nil => rfl
  | cons c chars ih =>
    obtain ⟨hc, hchars⟩ := List.forall_mem_cons.mp h
    have htext : ofChars (c :: chars) = .char c :: ofChars chars := rfl
    rw [htext, digitValues, List.filterMap_cons_some (digitValue?_of_isDigit hc), ← digitValues,
      ih hchars]
    rfl

theorem digitRun_ofChars (h : AllDigits chars) : digitRun (ofChars chars) = values chars := by
  have hends : Ends [] := nofun
  have hrun := digitRun_digits h.isDigits hends
  rwa [List.append_nil, digitValues_ofChars h] at hrun

theorem ofDigits_values (chars : List Char) :
    ofDigits (values chars) = Nat.ofDigitChars 10 chars 0 := by
  rw [ofDigits, values, List.foldl_map]
  rfl

theorem values_append : values (chars ++ chars') = values chars ++ values chars' := List.map_append

theorem allDigits_toDigits (n : Nat) : AllDigits (Nat.toDigits 10 n) := by
  intro c hc
  exact Nat.isDigit_of_mem_toDigits (by decide) (by decide) hc

/-! ## Signs -/

theorem isBlank_eq_false {c : Char} (h : c.isDigit = true) : Text.isBlank c = false := by
  have hranges : ∀ range ∈ Text.blankRanges, range.2 < '0'.toNat ∨ '0'.toNat + 9 < range.1 := by
    decide
  obtain ⟨hlow, hhigh⟩ := bounds_of_isDigit h
  rw [Bool.eq_false_iff]
  intro hblank
  obtain ⟨range, hrange, hin⟩ := List.any_eq_true.mp hblank
  obtain ⟨hfrom, hto⟩ := Bool.and_eq_true_iff.mp hin
  have hfrom : range.1 ≤ c.toNat := of_decide_eq_true hfrom
  have hto : c.toNat ≤ range.2 := of_decide_eq_true hto
  have := hranges range hrange
  omega

def signChars (negative : Bool) : List Char := if negative then ['-'] else []

/-- A sign before a digit is taken, and nothing stands before it. -/
theorem takeSign_digits {c : Char} (hc : c.isDigit = true) (chars : List Char) :
    takeSign ((ofChars (signChars negative ++ c :: chars)).dropWhile Text.isBlank) =
      (negative, ofChars (c :: chars)) := by
  cases negative with
  | true => rfl
  | false =>
    have hplus : c ≠ '+' := by
      rintro rfl
      cases hc
    have hminus : c ≠ '-' := by
      rintro rfl
      cases hc
    have hcons : ofChars (signChars false ++ c :: chars) = .char c :: ofChars chars := rfl
    rw [hcons, List.dropWhile_cons_of_neg (by simp [isBlank_eq_false hc])]
    unfold takeSign
    split
    · simp_all
    · simp_all
    · rfl

/-! ## Integers -/

theorem leadingInt?_ofInt (n : Int) :
    leadingInt? (Text.ofInt n) = some (decide (n < 0), values (Nat.toDigits 10 n.natAbs)) := by
  have hne : Nat.toDigits 10 n.natAbs ≠ [] := Nat.toDigits_ne_nil
  obtain ⟨c, chars, hchars⟩ := List.exists_cons_of_ne_nil hne
  have hdigits := allDigits_toDigits n.natAbs
  rw [hchars] at hdigits
  have htext : Text.ofInt n = ofChars (signChars (decide (n < 0)) ++ c :: chars) := by
    rw [Text.ofInt, Text.ofNat, hchars]
    by_cases hneg : n < 0
    · simp [hneg, signChars, ofChars, Text.ofString]
    · simp [hneg, signChars, ofChars, Text.ofString]
  have hrun := digitRun_ofChars hdigits
  have hne : values (c :: chars) ≠ [] := by simp [values]
  unfold leadingInt?
  rw [htext, takeSign_digits (hdigits c List.mem_cons_self), hchars]
  simp [hrun, hne]

theorem signed_natAbs (n : Int) : signed (decide (n < 0)) n.natAbs = n := by
  by_cases hneg : n < 0
  · simp only [signed, hneg, decide_true, if_true]
    omega
  · simp only [signed, hneg, decide_false, Bool.false_eq_true, if_false]
    omega

theorem ofDigits_toDigits (n : Nat) : ofDigits (values (Nat.toDigits 10 n)) = n := by
  rw [ofDigits_values, Nat.ofDigitChars_ten_toDigits]

/-! ## Fractions and exponents -/

theorem takeFraction_point {digits' : Text} (h : IsDigits digits) (h' : IsDigits digits')
    (hrest : Ends rest) :
    takeFraction (digits ++ .char '.' :: (digits' ++ rest)) =
      (digitValues digits, digitValues digits', rest) := by
  have hends : Ends (.char '.' :: (digits' ++ rest)) := by
    rintro c ⟨⟩
    decide
  simp only [takeFraction, afterDigits_digits h hends, digitRun_digits h hends,
    digitRun_digits h' hrest, afterDigits_digits h' hrest]

theorem takeFraction_whole (h : IsDigits digits) (hrest : Ends rest)
    (hpoint : ∀ c ∈ rest.head?, c ≠ .char '.') :
    takeFraction (digits ++ rest) = (digitValues digits, [], rest) := by
  simp only [takeFraction, afterDigits_digits h hrest, digitRun_digits h hrest]
  split
  · exact absurd rfl (hpoint _ rfl)
  · rfl

open Binary64 (exponentText layout zeros)

theorem allDigits_zeros (n : Nat) : AllDigits (zeros n) := by
  intro c hc
  rw [List.eq_of_mem_replicate hc]
  rfl

theorem AllDigits.append (h : AllDigits chars) (h' : AllDigits chars') :
    AllDigits (chars ++ chars') :=
  List.forall_mem_append.mpr ⟨h, h'⟩

theorem ofDigits_padded (k n : Nat) :
    ofDigits (digitRun (ofChars (zeros k ++ Nat.toDigits 10 n))) = n := by
  have hdigits := (allDigits_zeros k).append (allDigits_toDigits n)
  rw [digitRun_ofChars hdigits, ofDigits_values, Nat.ofDigitChars_append, zeros,
    Nat.ofDigitChars_replicate_zero, Nat.mul_zero, Nat.ofDigitChars_ten_toDigits]

theorem exponentOf_exponentText (n : Int) :
    exponentOf (.char 'e' :: ofChars (exponentText n)) = n := by
  unfold exponentText
  by_cases hneg : n < 0
  · rw [if_pos hneg]
    change signed true (ofDigits (digitRun (ofChars (zeros _ ++ Nat.toDigits 10 n.natAbs)))) = n
    rw [ofDigits_padded, signed, if_pos rfl]
    omega
  · rw [if_neg hneg]
    change signed false (ofDigits (digitRun (ofChars (zeros _ ++ Nat.toDigits 10 n.natAbs)))) = n
    rw [ofDigits_padded, signed, if_neg (by decide)]
    omega

theorem leadingFloat?_of_parts {c : Char} (hc : c.isDigit = true) {whole fraction : List Nat}
    (hparts : takeFraction (ofChars (c :: chars)) = (whole, fraction, rest)) (hne : whole ≠ []) :
    leadingFloat? (ofChars (signChars negative ++ c :: chars)) =
      some (.ofDecimal negative (ofDigits (whole ++ fraction))
        (exponentOf rest - fraction.length)) := by
  unfold leadingFloat?
  rw [takeSign_digits hc]
  simp [hparts, hne]

/-! ## Numbers as they are laid out -/

theorem ofChars_append : ofChars (chars ++ chars') = ofChars chars ++ ofChars chars' :=
  List.map_append

theorem ofChars_cons (c : Char) (chars : List Char) :
    ofChars (c :: chars) = .char c :: ofChars chars := rfl

section

variable (hchars : AllDigits chars) (hne : chars ≠ [])

include hchars hne

theorem leadingFloat?_exponent (negative : Bool) (n : Int) :
    leadingFloat? (ofChars (signChars negative ++ (chars ++ 'e' :: exponentText n))) =
      some (.ofDecimal negative (Nat.ofDigitChars 10 chars 0) n) := by
  have hparts : takeFraction (ofChars chars ++ .char 'e' :: ofChars (exponentText n)) =
      (values chars, [], .char 'e' :: ofChars (exponentText n)) := by
    rw [← digitValues_ofChars hchars]
    exact takeFraction_whole hchars.isDigits (by rintro _ ⟨⟩; decide) (by rintro _ ⟨⟩; decide)
  obtain ⟨c, digits, rfl⟩ := List.exists_cons_of_ne_nil hne
  have htext : ofChars (c :: (digits ++ 'e' :: exponentText n)) =
      ofChars (c :: digits) ++ .char 'e' :: ofChars (exponentText n) := by
    simp [ofChars_append, ofChars_cons]
  rw [← htext] at hparts
  rw [List.cons_append, leadingFloat?_of_parts (hchars c List.mem_cons_self) hparts nofun,
    List.append_nil, ofDigits_values, exponentOf_exponentText, List.length_nil, Int.natCast_zero,
    Int.sub_zero]

variable (hchars' : AllDigits chars')

include hchars'

theorem leadingFloat?_point (negative : Bool) :
    leadingFloat? (ofChars (signChars negative ++ (chars ++ '.' :: chars'))) =
      some (.ofDecimal negative (Nat.ofDigitChars 10 (chars ++ chars') 0) (-chars'.length)) := by
  have hparts : takeFraction (ofChars chars ++ .char '.' :: (ofChars chars' ++ [])) =
      (values chars, values chars', []) := by
    rw [← digitValues_ofChars hchars, ← digitValues_ofChars hchars']
    exact takeFraction_point hchars.isDigits hchars'.isDigits (by rintro _ ⟨⟩)
  obtain ⟨c, digits, rfl⟩ := List.exists_cons_of_ne_nil hne
  have htext : ofChars (c :: (digits ++ '.' :: chars')) =
      ofChars (c :: digits) ++ .char '.' :: (ofChars chars' ++ []) := by
    simp [ofChars_append, ofChars_cons]
  rw [← htext] at hparts
  rw [List.cons_append, leadingFloat?_of_parts (hchars c List.mem_cons_self) hparts nofun,
    ← values_append, ofDigits_values, values, List.length_map, exponentOf, Int.zero_sub]

theorem leadingFloat?_point_exponent (negative : Bool) (n : Int) :
    leadingFloat?
        (ofChars (signChars negative ++ (chars ++ '.' :: (chars' ++ 'e' :: exponentText n)))) =
      some (.ofDecimal negative (Nat.ofDigitChars 10 (chars ++ chars') 0)
        (n - chars'.length)) := by
  have hparts : takeFraction (ofChars chars ++ .char '.' ::
        (ofChars chars' ++ .char 'e' :: ofChars (exponentText n))) =
      (values chars, values chars', .char 'e' :: ofChars (exponentText n)) := by
    rw [← digitValues_ofChars hchars, ← digitValues_ofChars hchars']
    exact takeFraction_point hchars.isDigits hchars'.isDigits (by rintro _ ⟨⟩; decide)
  obtain ⟨c, digits, rfl⟩ := List.exists_cons_of_ne_nil hne
  have htext : ofChars (c :: (digits ++ '.' :: (chars' ++ 'e' :: exponentText n))) =
      ofChars (c :: digits) ++ .char '.' ::
        (ofChars chars' ++ .char 'e' :: ofChars (exponentText n)) := by
    simp [ofChars_append, ofChars_cons]
  rw [← htext] at hparts
  rw [List.cons_append, leadingFloat?_of_parts (hchars c List.mem_cons_self) hparts nofun,
    ← values_append, ofDigits_values, values, List.length_map, exponentOf_exponentText]

end

theorem leadingFloat?_layout (h : AllDigits chars) (hne : chars ≠ []) (point : Int) :
    leadingFloat? (ofChars (signChars negative ++ layout chars point)) =
      some (.ofDecimal negative (Nat.ofDigitChars 10 chars 0) (point - chars.length)) := by
  have hzero : AllDigits ['0'] := by
    rintro c (_ | ⟨_, ⟨⟩⟩)
    rfl
  unfold layout
  rw [if_neg hne]
  split
  · -- Zeros stand between the point and the digits.
    have hlength : -((zeros point.natAbs ++ chars).length : Int) = point - chars.length := by
      rw [List.length_append, zeros, List.length_replicate]
      omega
    have hread := leadingFloat?_point hzero nofun
      ((allDigits_zeros point.natAbs).append h) negative
    rw [hlength] at hread
    refine hread.trans ?_
    simp [Nat.ofDigitChars_append, zeros, Nat.ofDigitChars_replicate_zero, Nat.ofDigitChars_cons]
  · split
    · extract_lets whole
      split
      · -- Zeros stand between the digits and the point.
        have hwhole := h.append (allDigits_zeros (whole - chars.length))
        have hne' : chars ++ zeros (whole - chars.length) ≠ [] :=
          List.append_ne_nil_of_left_ne_nil hne _
        have hread := leadingFloat?_point hwhole hne' hzero negative
        have hdigits : Nat.ofDigitChars 10 (chars ++ zeros (whole - chars.length) ++ ['0']) 0 =
            Nat.ofDigitChars 10 chars 0 * 10 ^ (whole - chars.length + 1) := by
          simp [Nat.ofDigitChars_append, zeros, Nat.ofDigitChars_replicate_zero,
            Nat.ofDigitChars_cons]
          ring
        have hexponent : -((['0'] : List Char).length : Int) =
            point - chars.length - ((whole - chars.length + 1 : Nat) : Int) := by
          simp
          omega
        rw [hdigits, hexponent, Binary64.ofDecimal_mul_pow] at hread
        exact hread
      · -- The point stands among the digits.
        have hwhole : AllDigits (chars.take whole) := fun c hc => h c (List.mem_of_mem_take hc)
        have hfraction : AllDigits (chars.drop whole) := fun c hc => h c (List.mem_of_mem_drop hc)
        have hne' : chars.take whole ≠ [] := by
          simp [hne]
          omega
        have hread := leadingFloat?_point hwhole hne' hfraction negative
        have hexponent : -((chars.drop whole).length : Int) = point - chars.length := by
          rw [List.length_drop]
          omega
        rw [List.take_append_drop, hexponent] at hread
        exact hread
    · obtain ⟨c, digits, rfl⟩ := List.exists_cons_of_ne_nil hne
      obtain ⟨hc, hdigits⟩ := List.forall_mem_cons.mp h
      have hfirst : AllDigits [c] := List.forall_mem_singleton.mpr hc
      by_cases hnil : digits = []
      · subst hnil
        exact leadingFloat?_exponent hfirst nofun negative (point - 1)
      · have hread := leadingFloat?_point_exponent hfirst nofun hdigits negative
          (point - 1)
        have hexponent : point - 1 - (digits.length : Int) =
            point - ((c :: digits).length : Int) := by
          rw [List.length_cons]
          omega
        rw [hexponent] at hread
        simpa [hnil] using hread

/-! ## Numbers as they are written -/

/-- The digits that are kept have the zeros of the others behind them. -/
theorem toDigits_eq_digitsAndPoint (digits : Nat) (exponent : Int) :
    ∃ k, Nat.toDigits 10 digits = (Binary64.digitsAndPoint digits exponent).1 ++ zeros k ∧
      (Binary64.digitsAndPoint digits exponent).2 =
        exponent + ((Binary64.digitsAndPoint digits exponent).1.length + k : Nat) := by
  let reversed := (Nat.toDigits 10 digits).reverse
  let isZero : Char → Bool := fun c => c = '0'
  have hzeros : reversed.takeWhile isZero = zeros (reversed.takeWhile isZero).length := by
    apply List.eq_replicate_of_mem
    intro c hc
    exact of_decide_eq_true (List.all_eq_true.mp List.all_takeWhile c hc)
  have hsplit : Nat.toDigits 10 digits =
      (reversed.dropWhile isZero).reverse ++ zeros (reversed.takeWhile isZero).length := by
    rw [zeros, ← List.reverse_replicate, ← zeros, ← hzeros, ← List.reverse_append,
      List.takeWhile_append_dropWhile, List.reverse_reverse]
  refine ⟨_, hsplit, ?_⟩
  have hlength := congrArg List.length hsplit
  rw [List.length_append, zeros, List.length_replicate] at hlength
  change exponent + ((Nat.toDigits 10 digits).length : Int) = _
  rw [hlength]
  rfl

theorem leadingFloat?_digitsAndPoint (negative : Bool) (digits : Nat) (exponent : Int) :
    leadingFloat? (ofChars (signChars negative ++
        layout (Binary64.digitsAndPoint digits exponent).1
          (Binary64.digitsAndPoint digits exponent).2)) =
      some (.ofDecimal negative digits exponent) := by
  obtain ⟨k, hdigits, hpoint⟩ := toDigits_eq_digitsAndPoint digits exponent
  generalize (Binary64.digitsAndPoint digits exponent).1 = kept at *
  generalize (Binary64.digitsAndPoint digits exponent).2 = point at *
  have hall := allDigits_toDigits digits
  rw [hdigits] at hall
  have hkept : AllDigits kept := fun c hc => hall c (List.mem_append_left _ hc)
  have hvalue : digits = Nat.ofDigitChars 10 kept 0 * 10 ^ k := by
    rw [← Nat.ofDigitChars_ten_toDigits (n := digits), hdigits, Nat.ofDigitChars_append, zeros,
      Nat.ofDigitChars_replicate_zero, Nat.mul_comm]
  by_cases hne : kept = []
  · -- Without digits it is zero, whatever the exponent.
    have hzero : digits = 0 := by
      rw [hvalue, hne, Nat.ofDigitChars_nil, Nat.zero_mul]
    have hlayout : layout [] point = ['0', '.', '0'] := rfl
    rw [hne, hlayout, hzero, Binary64.ofDecimal_zero]
    cases negative <;> rfl
  · have hexponent : point - kept.length = exponent + k := by omega
    rw [leadingFloat?_layout hkept hne, hexponent, hvalue,
      ← Binary64.ofDecimal_mul_pow negative _ k (exponent + k), Int.add_sub_cancel]

theorem leadingFloat?_text {significand : Nat} {power : Int}
    (h : Binary64.IsNormal significand power) (negative : Bool) :
    leadingFloat? (Binary64.text (.finite negative significand power)) =
      some (.finite negative significand power) := by
  have hread := Binary64.ofDecimal_shortestDecimal h
  rcases hdecimal : Binary64.shortestDecimal significand power with ⟨digits, exponent⟩
  have htext := leadingFloat?_digitsAndPoint negative digits exponent
  rw [hdecimal] at hread
  rw [Binary64.ofDecimal_withSign, hread, Binary64.withSign] at htext
  simp only [Binary64.text, hdecimal]
  exact htext

end FunctionManifest.Decimal
