import FunctionManifest.Proofs.Param.Fallback

/-!
# Integers at the start of a text

What an integer param reads of a text, said without the expression that captures it: blanks, an
optional sign and a run of digits that ends where the rest of the text begins. A number that is
printed in front of such a rest is read back.
-/

namespace FunctionManifest

namespace Decimal

variable {text digits rest : Text} {negative : Bool}

/-- The text starts with an integer of this sign, and these are all of its digits. -/
inductive StartsWithInt : Text → Bool → Text → Prop
  | intro {blanks sign digits rest : Text} {negative : Bool}
      (hblanks : ∀ c ∈ blanks, Text.isBlank c = true) (hsign : IsSign sign negative)
      (hdigits : MatchesDigits digits) (hrest : Ends rest) :
      StartsWithInt (blanks ++ (sign ++ (digits ++ rest))) negative digits

/-! ## Reading from the start -/

theorem StartsWithInt.leadingInt? (h : StartsWithInt text negative digits) :
    leadingInt? text = some (negative, digitValues digits) := by
  obtain ⟨hblanks, hsign, hdigits, hrest⟩ := h
  rename_i rest
  rw [leadingInt?_eq, dropWhile_blanks opens_digits hblanks hsign hdigits,
    takeSign_match opens_digits hsign hdigits]
  rw [if_neg (takeWhile_ne_nil hdigits rest), digitRun_digits hdigits.1 hrest]

theorem StartsWithInt.matchesDigits (h : StartsWithInt text negative digits) :
    MatchesDigits digits := by
  cases h with
  | intro _ _ hdigits _ => exact hdigits

theorem exists_startsWithInt {values : List Nat}
    (h : Decimal.leadingInt? text = some (negative, values)) :
    ∃ digits, StartsWithInt text negative digits := by
  rw [leadingInt?_eq] at h
  obtain ⟨sign, hsign, htext⟩ := exists_sign (text.dropWhile Text.isBlank)
  generalize takeSign (text.dropWhile Text.isBlank) = start at h hsign htext
  obtain ⟨negative', body⟩ := start
  by_cases hempty : body.takeWhile Text.isDigit = []
  · rw [if_pos hempty] at h
    cases h
  rw [if_neg hempty] at h
  obtain ⟨rfl, -⟩ := Prod.mk.inj (Option.some.inj h)
  refine ⟨body.takeWhile Text.isDigit, ?_⟩
  have hblanks : ∀ c ∈ text.takeWhile Text.isBlank, Text.isBlank c = true := fun c hc =>
    List.all_eq_true.mp List.all_takeWhile c hc
  have hstart := StartsWithInt.intro hblanks hsign ⟨isDigits_takeWhile body, hempty⟩
    (ends_dropWhile body)
  rwa [List.takeWhile_append_dropWhile, ← htext, List.takeWhile_append_dropWhile] at hstart

theorem leadingInt?_of_not_starts (h : ¬∃ negative digits, StartsWithInt text negative digits) :
    leadingInt? text = none := by
  cases hlead : leadingInt? text with
  | none => rfl
  | some found =>
    obtain ⟨digits, hdigits⟩ := exists_startsWithInt hlead
    exact absurd ⟨_, digits, hdigits⟩ h

/-! ## Reading what is printed -/

theorem ofInt_eq (n : Int) :
    ∃ sign, IsSign sign (decide (n < 0)) ∧ Text.ofInt n = sign ++ Text.ofNat n.natAbs := by
  unfold Text.ofInt
  by_cases hneg : n < 0
  · rw [if_pos hneg, decide_eq_true hneg]
    exact ⟨_, .minus, rfl⟩
  · rw [if_neg hneg, decide_eq_false hneg]
    exact ⟨_, .none, rfl⟩

theorem startsWithInt_ofInt (n : Int) (hrest : Ends rest) :
    StartsWithInt (Text.ofInt n ++ rest) (decide (n < 0)) (Text.ofNat n.natAbs) := by
  obtain ⟨sign, hsign, htext⟩ := ofInt_eq n
  have hne : Text.ofNat n.natAbs ≠ [] := by
    unfold Text.ofNat Text.ofChars
    exact mt List.map_eq_nil_iff.mp Nat.toDigits_ne_nil
  have hdigits : MatchesDigits (Text.ofNat n.natAbs) :=
    ⟨(allDigits_toDigits n.natAbs).isDigits, hne⟩
  have hstart := StartsWithInt.intro (List.forall_mem_nil _) hsign hdigits hrest
  rwa [List.nil_append, ← List.append_assoc, ← htext] at hstart

theorem signed_ofInt (n : Int) :
    signed (decide (n < 0)) (ofDigits (digitValues (Text.ofNat n.natAbs))) = n := by
  rw [Text.ofNat, digitValues_ofChars (allDigits_toDigits n.natAbs), ofDigits_toDigits,
    signed_natAbs]

theorem digitCount_le_of_lt {n : Nat} (h : n < 10 ^ digitLimit) :
    Binary64.digitCount n ≤ digitLimit := by
  by_cases hzero : n = 0
  · rw [Binary64.digitCount, if_pos hzero]
    decide
  · exact (Binary64.digitCount_le_iff hzero digitLimit).mpr h

end Decimal

open Decimal Eval

section

variable {call : Caller} {s : Session} {v : Value} {p : Param} {label name raw : Text}

/-! ## Reading a variable -/

theorem readInt_of_startsWithInt {digits : Text} {negative : Bool}
    (h : StartsWithInt raw negative digits) (hlimit : digits.length ≤ digitLimit) :
    readInt label raw = .ok (.int (signed negative (ofDigits (digitValues digits)))) := by
  have hshort : ¬digitLimit < (digitValues digits).length := by
    rw [length_digitValues h.matchesDigits.1]
    exact Nat.not_lt.mpr hlimit
  simp only [readInt, h.leadingInt?, if_neg hshort]

theorem readInt_of_not_starts (h : ¬∃ negative digits, StartsWithInt raw negative digits) :
    readInt label raw = ⟨.ok (.int 0), [complaint label raw "an integer"]⟩ := by
  rw [readInt, leadingInt?_of_not_starts h]

section

variable (hcell : s.heap.cell? v = some (.param p)) (hkind : p.kind = .int)
  (hlabel : p.name = .text label) (hname : Environment.keep label = .ok name)
  (hset : Assoc.get? s.environment name = some raw) (hne : raw ≠ [])

include hlabel hname hset hne

/-- The variable counts before the default is looked at. -/
theorem on_readText_of_set (zero : Value) (read : Text → Text → Reading) :
    (p.readText s.heap (printed call) s.environment zero read).on s =
      (.ok (read label raw), s) := by
  have htext : s.environment.text? name = some raw := by
    rw [Environment.text?, hset, Option.filter_some, decide_eq_true hne, if_pos rfl]
  simp only [Param.readText, Param.text?, on_bind, on_ofExcept, hlabel,
    rawText?_text s.environment s.heap hname, htext, next_ok, on_pure]

include hcell hkind

theorem on_value_int_of_set {reading : Reading} (hread : readInt label raw = reading) :
    (getAttribute call v "value").on s = (ofReading reading >>= intern).on s := by
  apply on_value_of_read hcell
  rw [read_int hkind, on_readText_of_set hlabel hname hset hne, hread]

theorem on_value_of_startsWithInt {digits : Text} {negative : Bool}
    (h : StartsWithInt raw negative digits) (hlimit : digits.length ≤ digitLimit) :
    (getAttribute call v "value").on s =
      (.ok (.int (signed negative (ofDigits (digitValues digits)))), s) := by
  rw [on_value_int_of_set hcell hkind hlabel hname hset hne (readInt_of_startsWithInt h hlimit),
    on_bind, on_ofReading_of_none rfl]
  rfl

theorem on_value_of_not_starts (h : ¬∃ negative digits, StartsWithInt raw negative digits) :
    (getAttribute call v "value").on s =
      (.ok (.int 0), s.warned (complaint label raw "an integer")) := by
  rw [on_value_int_of_set hcell hkind hlabel hname hset hne (readInt_of_not_starts h),
    on_bind, on_ofReading_of_warning rfl]
  rfl

theorem on_value_of_ofInt {n : Int} {rest : Text} (hsmall : n.natAbs < 10 ^ digitLimit)
    (hrest : Ends rest) (hraw : raw = Text.ofInt n ++ rest) :
    (getAttribute call v "value").on s = (.ok (.int n), s) := by
  subst hraw
  have hlimit : (Text.ofNat n.natAbs).length ≤ digitLimit := by
    rw [Text.ofNat, Text.ofChars, List.length_map]
    exact (digitCount_le_digitLimit_iff n.natAbs).mp (digitCount_le_of_lt hsmall)
  rw [on_value_of_startsWithInt hcell hkind hlabel hname hset hne (startsWithInt_ofInt n hrest)
    hlimit, signed_ofInt]

end

end

end FunctionManifest
