import FunctionManifest.Json.Text
import FunctionManifest.Value.Basic

/-!
# Tokens at the start of a text

What a text starts with can be told from what follows it: a word ends before the first letter that
no word has, and a quoted text ends at its second bare quote.
-/

namespace FunctionManifest

namespace Text

/-! ## Words -/

/-- Words are separated by blanks, commas, brackets and quotes. -/
def isWordLetter (c : Letter) : Bool :=
  c ∉ ([.char ' ', .char ',', .char '[', .char ']', .char '"'] : List Letter)

/-- No word goes on where the text starts. -/
def Stops (text : Text) : Prop := ∀ c ∈ text.head?, isWordLetter c = false

/-- A word of letters that may stand in one. -/
def IsWord (text : Text) : Prop := text ≠ [] ∧ ∀ c ∈ text, isWordLetter c = true

instance (text : Text) : Decidable (IsWord text) := inferInstanceAs (Decidable (_ ∧ _))

theorem takeWhile_word {word rest : Text} (hword : IsWord word) (hrest : Stops rest) :
    (word ++ rest).takeWhile isWordLetter = word := by
  rw [List.takeWhile_append_of_pos hword.2]
  cases rest with
  | nil => simp
  | cons c rest => simp [hrest c rfl]

/-- The word that a text starts with, and what follows it. -/
theorem word_append_inj {word rest word' rest' : Text} (hword : IsWord word) (hrest : Stops rest)
    (hword' : IsWord word') (hrest' : Stops rest') (h : word ++ rest = word' ++ rest') :
    word = word' ∧ rest = rest' := by
  have hsame : word = word' := by
    rw [← takeWhile_word hword hrest, h, takeWhile_word hword' hrest']
  subst hsame
  exact ⟨rfl, List.append_cancel_left h⟩

/-! ## Integers -/

/-- An integer in decimal digits. -/
def ofInt (n : Int) : Text := (if n < 0 then "-" else "" : Text) ++ ofNat n.natAbs

theorem ofNat_injective {m n : Nat} (h : ofNat m = ofNat n) : m = n := by
  have hdigits : Nat.toDigits 10 m = Nat.toDigits 10 n :=
    List.map_inj_right (fun _ _ => Letter.char.inj) |>.mp h
  rw [← Nat.ofDigitChars_ten_toDigits (n := m), hdigits, Nat.ofDigitChars_ten_toDigits]

theorem isDigit_of_mem_ofNat {n : Nat} {c : Letter} (h : c ∈ ofNat n) :
    ∃ digit : Char, c = digit ∧ digit.isDigit = true := by
  obtain ⟨digit, hdigit, rfl⟩ := List.mem_map.mp h
  exact ⟨digit, rfl, Nat.isDigit_of_mem_toDigits (by decide) (by decide) hdigit⟩

theorem ofNat_ne_nil (n : Nat) : ofNat n ≠ [] := fun h =>
  Nat.toDigits_ne_nil (List.map_eq_nil_iff.mp h)

/-- Where a number can begin. -/
def beginsNumber (c : Letter) : Bool := c.isIn fun c => c = '-' || c.isDigit

theorem beginsNumber_ofNat (n : Nat) : ∀ c ∈ (ofNat n).head?, beginsNumber c = true := by
  intro c hc
  obtain ⟨digit, rfl, hdigit⟩ := isDigit_of_mem_ofNat (List.mem_of_mem_head? hc)
  simp [beginsNumber, Letter.isIn, hdigit]

theorem beginsNumber_ofInt (n : Int) : ∀ c ∈ (ofInt n).head?, beginsNumber c = true := by
  unfold ofInt
  split
  · exact fun c hc => by cases hc; decide
  · exact beginsNumber_ofNat n.natAbs

theorem minus_not_mem_ofNat (n : Nat) : Letter.char '-' ∉ ofNat n := fun hmem => by
  obtain ⟨digit, hdigit, hisDigit⟩ := isDigit_of_mem_ofNat hmem
  cases hdigit
  revert hisDigit
  decide

theorem ofInt_injective {m n : Int} (h : ofInt m = ofInt n) : m = n := by
  have hsign : ∀ a b, ("-" : Text) ++ ofNat a ≠ ("" : Text) ++ ofNat b := fun a b heq => by
    have hmem : Letter.char '-' ∈ ("" : Text) ++ ofNat b := heq ▸ List.mem_cons_self
    exact minus_not_mem_ofNat b hmem
  unfold ofInt at h
  split at h <;> split at h
  · have habs := ofNat_injective (List.append_cancel_left h)
    omega
  · exact absurd h (hsign _ _)
  · exact absurd h.symm (hsign _ _)
  · have habs := ofNat_injective h
    omega

theorem isWordLetter_of_isDigit {digit : Char} (h : digit.isDigit = true) :
    isWordLetter digit = true := by
  have hne : ∀ c : Char, c.isDigit = false → Letter.char digit ≠ c := fun c hc heq => by
    cases heq
    rw [h] at hc
    cases hc
  simp [isWordLetter, hne ' ' (by decide), hne ',' (by decide), hne '[' (by decide),
    hne ']' (by decide), hne '"' (by decide)]

theorem isWord_ofInt (n : Int) : IsWord (ofInt n) := by
  have hdigits : ∀ c ∈ ofNat n.natAbs, isWordLetter c = true := fun c hc => by
    obtain ⟨digit, rfl, hdigit⟩ := isDigit_of_mem_ofNat hc
    exact isWordLetter_of_isDigit hdigit
  unfold ofInt
  split
  · exact ⟨by simp [ofString, ofChars], List.forall_mem_cons.mpr ⟨by decide, hdigits⟩⟩
  · exact ⟨ofNat_ne_nil _, hdigits⟩

end Text

/-! ## Quoted texts -/

namespace Json

/-- The letters that are written as an escape. -/
def escapedLetters : List Letter :=
  [.char '"', .char '\\'] ++ (List.range 0x20).map fun code => .char (Char.ofNat code)

theorem mem_escapedLetters_of_code {c : Letter} (h : c.code < 0x20) : c ∈ escapedLetters := by
  cases c with
  | char c =>
    refine List.mem_append_right _ (List.mem_map.mpr ⟨c.toNat, List.mem_range.mpr h, ?_⟩)
    rw [Char.ofNat_toNat]
  | half offset =>
    simp only [Letter.code, Letter.firstHalf] at h
    omega

/-- Any other letter stands for itself. -/
theorem escapedLetter_of_not_mem {c : Letter} (h : c ∉ escapedLetters) :
    escapedLetter .unicode c = [c] := by
  have hcode : ¬c.code < 0x20 := fun hcode => h (mem_escapedLetters_of_code hcode)
  have hne : ∀ d ∈ escapedLetters, c ≠ d := fun d hd heq => h (heq ▸ hd)
  simp only [escapedLetter, if_neg (hne '"' (by decide)), if_neg (hne '\\' (by decide)),
    if_neg (hne '\n' (by decide)), if_neg (hne '\r' (by decide)), if_neg (hne '\t' (by decide)),
    if_neg (show c.code ≠ 8 by omega), if_neg (show c.code ≠ 12 by omega), if_neg hcode]
  rfl

/-- An escape starts with a backslash, which no letter does that stands for itself. -/
theorem escapedLetter_cases (c : Letter) :
    (c ∈ escapedLetters ∧ ∃ tail, escapedLetter .unicode c = .char '\\' :: tail) ∨
      (c ∉ escapedLetters ∧ escapedLetter .unicode c = [c]) := by
  have hall : ∀ c ∈ escapedLetters, (escapedLetter .unicode c).head? = some (.char '\\') := by
    decide
  by_cases hc : c ∈ escapedLetters
  · exact .inl ⟨hc, List.head?_eq_some_iff.mp (hall c hc)⟩
  · exact .inr ⟨hc, escapedLetter_of_not_mem hc⟩

/-- No escape is the beginning of another one. -/
theorem escapedLetter_prefix_escape {c c' : Letter} (h : c ∈ escapedLetters)
    (h' : c' ∈ escapedLetters)
    (hstart : escapedLetter .unicode c <+: escapedLetter .unicode c') : c = c' := by
  have hall : ∀ c ∈ escapedLetters, ∀ c' ∈ escapedLetters,
      escapedLetter .unicode c <+: escapedLetter .unicode c' → c = c' := by
    decide +kernel
  exact hall c h c' h' hstart

/-- A letter can be told from what follows it. -/
theorem escapedLetter_append_inj {c c' : Letter} {rest rest' : Text}
    (h : escapedLetter .unicode c ++ rest = escapedLetter .unicode c' ++ rest') :
    c = c' ∧ rest = rest' := by
  have hbackslash : Letter.char '\\' ∈ escapedLetters := by decide
  have hsame : c = c' := by
    obtain ⟨hc, tail, htail⟩ | ⟨hc, hplain⟩ := escapedLetter_cases c <;>
      obtain ⟨hc', tail', htail'⟩ | ⟨hc', hplain'⟩ := escapedLetter_cases c'
    · rcases List.prefix_or_prefix_of_prefix (List.prefix_append _ rest) ⟨rest', h.symm⟩ with
        hstart | hstart
      · exact escapedLetter_prefix_escape hc hc' hstart
      · exact (escapedLetter_prefix_escape hc' hc hstart).symm
    · rw [htail, hplain'] at h
      exact absurd ((List.cons.inj h).1 ▸ hbackslash) hc'
    · rw [hplain, htail'] at h
      exact absurd ((List.cons.inj h).1 ▸ hbackslash) hc
    · rw [hplain, hplain'] at h
      exact (List.cons.inj h).1
  subst hsame
  exact ⟨rfl, List.append_cancel_left h⟩

theorem escapedLetter_append_ne_quote (c : Letter) (rest rest' : Text) :
    escapedLetter .unicode c ++ rest ≠ .char '"' :: rest' := by
  intro h
  obtain ⟨_, tail, htail⟩ | ⟨hc, hplain⟩ := escapedLetter_cases c
  · rw [htail] at h
    cases (List.cons.inj h).1
  · rw [hplain] at h
    exact hc ((List.cons.inj h).1 ▸ by decide)

/-- A quoted text and what follows it can be told apart. -/
theorem quoted_append_inj {text text' rest rest' : Text}
    (h : quoted .unicode text ++ rest = quoted .unicode text' ++ rest') :
    text = text' ∧ rest = rest' := by
  simp only [quoted, List.cons_append, List.append_assoc, List.cons.injEq, true_and,
    List.nil_append] at h
  induction text generalizing text' with
  | nil =>
    cases text' with
    | nil => exact ⟨rfl, (List.cons.inj h).2⟩
    | cons c' text' =>
      rw [List.flatMap_cons, List.append_assoc] at h
      exact absurd h.symm (escapedLetter_append_ne_quote _ _ _)
  | cons c text ih =>
    rw [List.flatMap_cons, List.append_assoc] at h
    cases text' with
    | nil => exact absurd h (escapedLetter_append_ne_quote _ _ _)
    | cons c' text' =>
      rw [List.flatMap_cons, List.append_assoc] at h
      obtain ⟨rfl, hrest⟩ := escapedLetter_append_inj h
      obtain ⟨rfl, rfl⟩ := ih hrest
      exact ⟨rfl, rfl⟩

end Json

end FunctionManifest
