import FunctionManifest.Proofs.Decimal.Rounding

/-!
# The shortest decimal

What is written of a number is read back as the number: its digits were tried, or they give the
number exactly.
-/

namespace FunctionManifest.Binary64

variable {significand digits : Nat} {power exponent : Int} {negative : Bool}

/-! ## Counting digits -/

theorem digitCount_le_iff {n : Nat} (hn : n ≠ 0) (k : Nat) : digitCount n ≤ k ↔ n < 10 ^ k := by
  rw [digitCount, if_neg hn]
  cases k with
  | zero =>
    have hlength := @Nat.length_toDigits_pos 10 n
    constructor <;> omega
  | succ k => exact Nat.length_toDigits_le_iff (by decide) (Nat.succ_pos k)

theorem digitCount_mul_pow {n : Nat} (hn : n ≠ 0) (k : Nat) :
    digitCount (n * 10 ^ k) = digitCount n + k := by
  have hten : 0 < 10 ^ k := Nat.pow_pos (by decide)
  have hne : n * 10 ^ k ≠ 0 := Nat.mul_ne_zero hn hten.ne'
  apply le_antisymm
  · rw [digitCount_le_iff hne, Nat.pow_add]
    exact Nat.mul_lt_mul_of_pos_right ((digitCount_le_iff hn _).mp le_rfl) hten
  · by_contra hlt
    obtain ⟨m, hm⟩ : ∃ m, digitCount n = m + 1 := by
      have hpos : ¬digitCount n ≤ 0 := by
        rw [digitCount_le_iff hn]
        omega
      exact ⟨digitCount n - 1, by omega⟩
    have hsmall : digitCount (n * 10 ^ k) ≤ m + k := by omega
    rw [digitCount_le_iff hne, Nat.pow_add] at hsmall
    have hle := (digitCount_le_iff hn m).mpr (Nat.lt_of_mul_lt_mul_right hsmall)
    omega

/-! ## Reading digits with an exponent -/

/-- The position of the decimal point is one that a number can have. -/
def InReach (digits : Nat) (exponent : Int) : Prop :=
  -400 ≤ exponent + digitCount digits ∧ exponent + digitCount digits ≤ 400

theorem ofDecimal_zero (negative : Bool) (exponent : Int) :
    ofDecimal negative 0 exponent = zero negative := by
  simp [ofDecimal]

theorem ofDecimal_eq_ofQuotient (hne : digits ≠ 0) (hreach : InReach digits exponent)
    {num den : Nat} (hden : 0 < den) (h : (num / den : ℚ) = digits * 10 ^ exponent)
    (negative : Bool) : ofDecimal negative digits exponent = ofQuotient negative num den := by
  have hlow := Int.not_lt.mpr hreach.1
  have hhigh := Int.not_lt.mpr hreach.2
  have hzero : ¬(digits = 0 ∨ exponent + digitCount digits < -400) := by simp [hne, hlow]
  unfold ofDecimal
  rw [if_neg hzero, if_neg hhigh]
  split
  · apply ofQuotient_eq (Nat.pow_pos (by decide)) hden
    have hexponent : exponent = -(exponent.natAbs : Int) := by omega
    rw [h]
    conv_rhs => rw [hexponent, zpow_neg, zpow_natCast]
    push_cast [Nat.pow_eq]
    rw [div_eq_mul_inv]
  · apply ofQuotient_eq one_pos hden
    have hexponent : exponent = (exponent.natAbs : Int) := by omega
    rw [h]
    conv_rhs => rw [hexponent, zpow_natCast]
    push_cast [Nat.pow_eq]
    rw [div_one]

theorem exists_quotient (digits : Nat) (exponent : Int) :
    ∃ num den : Nat, 0 < den ∧ (num / den : ℚ) = digits * 10 ^ exponent := by
  obtain ⟨n, rfl | rfl⟩ := exponent.eq_nat_or_neg
  · exact ⟨digits * 10 ^ n, 1, one_pos, by push_cast; rw [div_one, zpow_natCast]⟩
  · refine ⟨digits, 10 ^ n, Nat.pow_pos (by decide), ?_⟩
    push_cast
    rw [zpow_neg, zpow_natCast, div_eq_mul_inv]

/-- Zeros at the end of the digits change nothing when the exponent makes up for them. -/
theorem ofDecimal_mul_pow (negative : Bool) (digits k : Nat) (exponent : Int) :
    ofDecimal negative (digits * 10 ^ k) (exponent - k) = ofDecimal negative digits exponent := by
  by_cases hdigits : digits = 0
  · rw [hdigits, Nat.zero_mul, ofDecimal_zero, ofDecimal_zero]
  have hne : digits * 10 ^ k ≠ 0 := Nat.mul_ne_zero hdigits (Nat.pow_pos (by decide)).ne'
  have hcount := digitCount_mul_pow hdigits k
  have hpoint : exponent - k + digitCount (digits * 10 ^ k) = exponent + digitCount digits := by
    omega
  by_cases hreach : InReach digits exponent
  · have hreach' : InReach (digits * 10 ^ k) (exponent - k) := by
      unfold InReach
      rw [hpoint]
      exact hreach
    obtain ⟨num, den, hden, hquotient⟩ := exists_quotient digits exponent
    rw [ofDecimal_eq_ofQuotient hdigits hreach hden hquotient]
    apply ofDecimal_eq_ofQuotient hne hreach' hden
    rw [hquotient, zpow_sub₀ (by norm_num), zpow_natCast]
    push_cast
    field_simp
  · unfold ofDecimal
    rw [hpoint]
    rcases not_and_or.mp hreach with hlow | hhigh
    · rw [if_pos (.inr (Int.not_le.mp hlow)), if_pos (.inr (Int.not_le.mp hlow))]
    · have hlow : ¬exponent + digitCount digits < -400 := by omega
      rw [if_neg (not_or.mpr ⟨hne, hlow⟩), if_neg (not_or.mpr ⟨hdigits, hlow⟩),
        if_pos (Int.not_le.mp hhigh), if_pos (Int.not_le.mp hhigh)]

/-! ## Signs -/

/-- The number with this sign. -/
def withSign (negative : Bool) : Binary64 → Binary64
  | .nan identity => .nan identity
  | .infinite _ => .infinite negative
  | .finite _ significand power => .finite negative significand power

theorem ofQuotient_withSign (negative : Bool) (num den : Nat) :
    ofQuotient negative num den = (ofQuotient false num den).withSign negative := by
  have hbounded : ∀ significand power,
      bounded negative significand power = (bounded false significand power).withSign negative := by
    intro significand power
    unfold bounded
    split <;> rfl
  unfold ofQuotient ofRounded
  split
  · rfl
  · simp only [hbounded]
    split <;> rfl

theorem ofDecimal_withSign (negative : Bool) (digits : Nat) (exponent : Int) :
    ofDecimal negative digits exponent = (ofDecimal false digits exponent).withSign negative := by
  simp only [ofDecimal, ofQuotient_withSign negative, apply_ite (withSign negative)]
  rfl

/-! ## Digits that were tried -/

theorem ofDecimal_withDigits? {count : Nat}
    (h : withDigits? significand power count = some (digits, exponent)) :
    ofDecimal false digits exponent = .finite false significand power := by
  unfold withDigits? at h
  obtain ⟨num, den⟩ := magnitude significand power
  obtain ⟨found, hfound, heq⟩ := Option.map_eq_some_iff.mp h
  cases heq
  simpa using List.find?_some hfound

/-! ## Exact digits -/

theorem two_pow_le_ten_pow {k n : Nat} (h : k ≤ 3 * n) : 2 ^ k ≤ 10 ^ n := by
  calc
    2 ^ k ≤ 2 ^ (3 * n) := Nat.pow_le_pow_right (by decide) h
    _ = 8 ^ n := Nat.pow_mul 2 3 n
    _ ≤ 10 ^ n := Nat.pow_le_pow_left (by decide) n

theorem ten_pow_le_five_pow {n k : Nat} (h : n ≤ 3 * k) : 10 ^ (n - k) ≤ 5 ^ n := by
  rcases le_total n k with hle | hge
  · rw [Nat.sub_eq_zero_of_le hle]
    exact Nat.one_le_pow n 5 (by decide)
  · calc
      10 ^ (n - k) = 2 ^ (n - k) * 5 ^ (n - k) := Nat.mul_pow 2 5 _
      _ ≤ 2 ^ (2 * k) * 5 ^ (n - k) := by
        gcongr
        · decide
        · omega
      _ = 4 ^ k * 5 ^ (n - k) := by rw [Nat.pow_mul]
      _ ≤ 5 ^ k * 5 ^ (n - k) := by
        gcongr
        decide
      _ = 5 ^ n := by rw [← Nat.pow_add, Nat.add_sub_cancel' hge]

theorem exactDecimal_ne_zero (hne : significand ≠ 0) (power : Int) :
    (exactDecimal significand power).1 ≠ 0 := by
  unfold exactDecimal
  split
  · exact Nat.mul_ne_zero hne (Nat.pow_pos (by decide)).ne'
  · exact Nat.mul_ne_zero hne (Nat.pow_pos (by decide)).ne'

theorem exactDecimal_value (significand : Nat) (power : Int) :
    ((exactDecimal significand power).1 : ℚ) * 10 ^ (exactDecimal significand power).2 =
      significand * 2 ^ power := by
  unfold exactDecimal
  split
  · obtain ⟨n, rfl⟩ : ∃ n : Nat, power = -n := ⟨power.natAbs, by omega⟩
    have hten : (10 : ℚ) ^ n = 5 ^ n * 2 ^ n := by rw [← mul_pow]; norm_num
    simp only [Int.natAbs_neg, Int.natAbs_natCast, Nat.pow_eq, zpow_neg, zpow_natCast, hten]
    push_cast
    field_simp
  · obtain ⟨n, rfl⟩ : ∃ n : Nat, power = n := ⟨power.natAbs, by omega⟩
    simp only [Int.natAbs_natCast, Nat.pow_eq, zpow_zero, zpow_natCast]
    push_cast
    ring

theorem inReach_exactDecimal (h : IsNormal significand power) (hne : significand ≠ 0) :
    InReach (exactDecimal significand power).1 (exactDecimal significand power).2 := by
  have hleast := h.least
  have hgreatest := h.greatest
  unfold leastPower at hleast
  unfold greatestPower at hgreatest
  have hdigits := exactDecimal_ne_zero hne power
  unfold InReach
  by_cases hneg : power < 0
  · obtain ⟨n, rfl⟩ : ∃ n : Nat, power = -n := ⟨power.natAbs, by omega⟩
    simp only [exactDecimal, hneg, if_true, Int.natAbs_neg, Int.natAbs_natCast, Nat.pow_eq] at *
    have hlow : ∀ k, n ≤ 3 * k → ¬digitCount (significand * 5 ^ n) ≤ n - k := by
      intro k hk
      rw [digitCount_le_iff hdigits, not_lt]
      calc
        10 ^ (n - k) ≤ 5 ^ n := ten_pow_le_five_pow hk
        _ ≤ significand * 5 ^ n := Nat.le_mul_of_pos_left _ (Nat.pos_of_ne_zero hne)
    have hhigh : ∀ k, 53 ≤ 3 * k → digitCount (significand * 5 ^ n) ≤ k + n := by
      intro k hk
      rw [digitCount_le_iff hdigits, Nat.pow_add]
      apply Nat.mul_lt_mul_of_lt_of_le
      · exact h.lt.trans_le (two_pow_le_ten_pow hk)
      · exact Nat.pow_le_pow_left (by decide) n
      · exact Nat.pow_pos (by decide)
    have hlow := hlow 400 (by omega)
    have hhigh := hhigh 400 (by omega)
    omega
  · obtain ⟨n, rfl⟩ : ∃ n : Nat, power = n := ⟨power.natAbs, by omega⟩
    simp only [exactDecimal, hneg, if_false, Int.natAbs_natCast, Nat.pow_eq] at *
    have hhigh : ∀ k, 53 + n ≤ 3 * k → digitCount (significand * 2 ^ n) ≤ k := by
      intro k hk
      rw [digitCount_le_iff hdigits]
      calc
        significand * 2 ^ n < 2 ^ 53 * 2 ^ n :=
          Nat.mul_lt_mul_of_pos_right h.lt (Nat.pow_pos (by decide))
        _ = 2 ^ (53 + n) := (Nat.pow_add 2 53 n).symm
        _ ≤ 10 ^ k := two_pow_le_ten_pow hk
    have hhigh := hhigh 400 (by omega)
    omega

theorem IsNormal.power_of_zero (h : IsNormal 0 power) : power = leastPower := by
  rcases h.least.eq_or_lt with heq | hlt
  · exact heq.symm
  · have := h.full hlt
    omega

theorem ofDecimal_exactDecimal (h : IsNormal significand power) :
    ofDecimal false (exactDecimal significand power).1 (exactDecimal significand power).2 =
      .finite false significand power := by
  by_cases hne : significand = 0
  · subst hne
    have hdigits : (exactDecimal 0 power).1 = 0 := by
      unfold exactDecimal
      split <;> exact Nat.zero_mul _
    rw [hdigits, ofDecimal_zero, h.power_of_zero, zero]
  · obtain ⟨num, den, hden, hquotient⟩ :=
      exists_quotient (exactDecimal significand power).1 (exactDecimal significand power).2
    have hvalue := exactDecimal_value significand power
    rw [ofDecimal_eq_ofQuotient (exactDecimal_ne_zero hne power) (inReach_exactDecimal h hne) hden
      hquotient]
    exact ofQuotient_exact h hne hden (hquotient.trans hvalue) false

theorem ofDecimal_shortestDecimal (h : IsNormal significand power) :
    ofDecimal false (shortestDecimal significand power).1 (shortestDecimal significand power).2 =
      .finite false significand power := by
  unfold shortestDecimal
  cases hfind : (List.range 17).findSome? fun n => withDigits? significand power (n + 1) with
  | none => exact ofDecimal_exactDecimal h
  | some found =>
    obtain ⟨n, -, hn⟩ := List.exists_of_findSome?_eq_some hfind
    exact ofDecimal_withDigits? hn

end FunctionManifest.Binary64
