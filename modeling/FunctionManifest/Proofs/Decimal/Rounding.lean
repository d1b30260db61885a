import FunctionManifest.Decimal.Binary64
import Mathlib.Algebra.Order.Field.Power
import Mathlib.Data.Int.Log
import Mathlib.Data.Rat.Floor
import Mathlib.Tactic.FieldSimp
import Mathlib.Tactic.Ring

/-!
# Rounding decimals

What a decimal is read as depends only on the number that it stands for. A number that is
represented is read as itself, and all that is read is in normal form.
-/

namespace FunctionManifest.Binary64

/-- The significand has 53 bits, fewer only with the least power. -/
structure IsNormal (significand : Nat) (power : Int) : Prop where
  lt : significand < 2 ^ 53
  least : leastPower ≤ power
  greatest : power ≤ greatestPower
  full : leastPower < power → 2 ^ 52 ≤ significand

def IsCanonical : Binary64 → Prop
  | .finite _ significand power => IsNormal significand power
  | _ => True

theorem ofQuotient_of_ne {num : Nat} (hnum : num ≠ 0) (negative : Bool) (den : Nat) :
    ofQuotient negative num den =
      ofRounded negative (roundedAt num den (powerFor num den)) (powerFor num den) :=
  if_neg hnum

/-! ## The power of a quotient -/

section

variable {num den num' den' : Nat} {power : Int}

theorem scaled_pos (num : Nat) (hden : 0 < den) (power : Int) : 0 < (scaled num den power).2 := by
  unfold scaled
  split
  · exact hden
  · exact Nat.mul_pos hden (Nat.pow_pos (by decide))

theorem scaled_eq (num den : Nat) (power : Int) :
    ((scaled num den power).1 : ℚ) / (scaled num den power).2 = num / den / 2 ^ power := by
  unfold scaled
  split
  · rename_i hlt
    have hpower : power = -(power.natAbs : Int) := by omega
    have htwo : (2 : ℚ) ^ power = (2 ^ power.natAbs)⁻¹ := by
      conv_lhs => rw [hpower, zpow_neg, zpow_natCast]
    simp only [Nat.pow_eq, Nat.cast_mul, Nat.cast_pow, Nat.cast_ofNat, htwo]
    field_simp
  · rename_i hge
    have hpower : power = (power.natAbs : Int) := by omega
    have htwo : (2 : ℚ) ^ power = 2 ^ power.natAbs := by
      conv_lhs => rw [hpower, zpow_natCast]
    simp only [Nat.pow_eq, Nat.cast_mul, Nat.cast_pow, Nat.cast_ofNat, htwo]
    field_simp

theorem quotient_pos (hnum : num ≠ 0) (hden : 0 < den) : (0 : ℚ) < num / den := by
  have := Nat.pos_of_ne_zero hnum
  positivity

theorem log2_bounds {n : Nat} (hn : n ≠ 0) :
    (2 : ℚ) ^ (n.log2 : Int) ≤ n ∧ (n : ℚ) < 2 ^ ((n.log2 : Int) + 1) := by
  constructor
  · rw [zpow_natCast]
    exact_mod_cast Nat.log2_self_le hn
  · rw [← Nat.cast_succ, zpow_natCast]
    exact_mod_cast @Nat.lt_log2_self n

/-- The power that is guessed from the bits of both sides is at most one too great. -/
theorem log_quotient (hnum : num ≠ 0) (hden : 0 < den) :
    Int.log 2 (num / den : ℚ) ≤ num.log2 - den.log2 ∧
      (num.log2 : Int) - den.log2 - 1 ≤ Int.log 2 (num / den : ℚ) := by
  have hq := quotient_pos hnum hden
  obtain ⟨hnumLow, hnumHigh⟩ := log2_bounds hnum
  obtain ⟨hdenLow, hdenHigh⟩ := log2_bounds hden.ne'
  have hden' : (0 : ℚ) < den := by exact_mod_cast hden
  constructor
  · apply Int.lt_add_one_iff.mp
    apply (Int.lt_zpow_iff_log_lt (by decide) hq).mp
    rw [div_lt_iff₀ hden']
    calc
      (num : ℚ) < 2 ^ ((num.log2 : Int) + 1) := hnumHigh
      _ = 2 ^ ((num.log2 : Int) - den.log2 + 1) * 2 ^ (den.log2 : Int) := by
        rw [← zpow_add₀ two_ne_zero]
        congr 1
        ring
      _ ≤ _ := by
        push_cast
        gcongr
  · apply (Int.zpow_le_iff_le_log (by decide) hq).mp
    rw [le_div_iff₀ hden']
    calc
      ((2 : ℕ) : ℚ) ^ ((num.log2 : Int) - den.log2 - 1) * den
      _ ≤ 2 ^ ((num.log2 : Int) - den.log2 - 1) * 2 ^ ((den.log2 : Int) + 1) := by
        push_cast
        gcongr
      _ = 2 ^ (num.log2 : Int) := by
        rw [← zpow_add₀ two_ne_zero]
        congr 1
        ring
      _ ≤ num := hnumLow

/-- How many bits the scaled quotient has depends on its logarithm. -/
theorem scaled_lt_iff (hnum : num ≠ 0) (hden : 0 < den) (guess : Int) (k : Nat) :
    (scaled num den guess).1 < (scaled num den guess).2 * 2 ^ k ↔
      Int.log 2 (num / den : ℚ) < guess + k := by
  have hq := quotient_pos hnum hden
  have hpos : (0 : ℚ) < (scaled num den guess).2 := by exact_mod_cast scaled_pos num hden guess
  rw [← Int.lt_zpow_iff_log_lt (by decide) hq, ← @Nat.cast_lt ℚ]
  push_cast
  rw [zpow_add₀ two_ne_zero, ← div_lt_iff₀' hpos, scaled_eq, div_lt_iff₀' (by positivity),
    zpow_natCast]

theorem powerFor_eq (hnum : num ≠ 0) (hden : 0 < den) :
    powerFor num den = max leastPower (Int.log 2 (num / den : ℚ) - 52) := by
  obtain ⟨hhigh, hlow⟩ := log_quotient hnum hden
  have hbelow (guess : Int) : (scaled num den guess).1 <
      (scaled num den guess).2 * Nat.pow 2 52 ↔ Int.log 2 (num / den : ℚ) < guess + 52 :=
    scaled_lt_iff hnum hden guess 52
  unfold powerFor
  simp only [hbelow]
  split <;> congr 1 <;> omega

/-! ## Rounding depends on the quotient only -/

theorem roundedQuotient_mul {k : Nat} (hk : 0 < k) (num den : Nat) :
    roundedQuotient (num * k) (den * k) = roundedQuotient num den := by
  have htwice : 2 * (num % den * k) = 2 * (num % den) * k := by ring
  simp only [roundedQuotient, Nat.mul_div_mul_right _ _ hk, Nat.mul_mod_mul_right, htwice,
    Nat.mul_lt_mul_right hk]

theorem roundedQuotient_eq (hden : 0 < den) (hden' : 0 < den') (h : num * den' = num' * den) :
    roundedQuotient num den = roundedQuotient num' den' := by
  calc
    roundedQuotient num den
    _ = roundedQuotient (num * den') (den * den') := (roundedQuotient_mul hden' num den).symm
    _ = roundedQuotient (num' * den) (den' * den) := by rw [h, Nat.mul_comm den]
    _ = roundedQuotient num' den' := roundedQuotient_mul hden num' den'

theorem div_eq_div_iff_mul (hden : 0 < den) (hden' : 0 < den') :
    (num / den : ℚ) = num' / den' ↔ num * den' = num' * den := by
  have hden : (den : ℚ) ≠ 0 := by exact_mod_cast hden.ne'
  have hden' : (den' : ℚ) ≠ 0 := by exact_mod_cast hden'.ne'
  rw [div_eq_div_iff hden hden']
  exact_mod_cast Iff.rfl

theorem roundedAt_def (num den : Nat) (power : Int) :
    roundedAt num den power =
      roundedQuotient (scaled num den power).1 (scaled num den power).2 := by
  unfold roundedAt
  obtain ⟨top, bottom⟩ := scaled num den power
  rfl

theorem roundedAt_eq (hden : 0 < den) (hden' : 0 < den') (h : (num / den : ℚ) = num' / den')
    (power : Int) : roundedAt num den power = roundedAt num' den' power := by
  have hpos := scaled_pos num hden power
  have hpos' := scaled_pos num' hden' power
  rw [roundedAt_def, roundedAt_def]
  apply roundedQuotient_eq hpos hpos'
  apply (div_eq_div_iff_mul hpos hpos').mp
  rw [scaled_eq, scaled_eq, h]

theorem ofQuotient_eq (hden : 0 < den) (hden' : 0 < den') (h : (num / den : ℚ) = num' / den')
    (negative : Bool) : ofQuotient negative num den = ofQuotient negative num' den' := by
  have hcross := (div_eq_div_iff_mul hden hden').mp h
  by_cases hnum : num = 0
  · subst hnum
    rw [Nat.zero_mul, eq_comm, Nat.mul_eq_zero] at hcross
    have hnum' := hcross.resolve_right hden.ne'
    simp [ofQuotient, hnum']
  · have hnum' : num' ≠ 0 := by
      rintro rfl
      rw [Nat.zero_mul, Nat.mul_eq_zero] at hcross
      exact hcross.elim hnum hden'.ne'
    rw [ofQuotient_of_ne hnum, ofQuotient_of_ne hnum', powerFor_eq hnum hden,
      powerFor_eq hnum' hden', h, roundedAt_eq hden hden' h]

/-! ## Numbers that are represented -/

theorem log_value {significand : Nat} (hne : significand ≠ 0) (power : Int) :
    Int.log 2 (significand * 2 ^ power : ℚ) = significand.log2 + power := by
  have hpos : (0 : ℚ) < significand * 2 ^ power := by
    have := Nat.pos_of_ne_zero hne
    positivity
  obtain ⟨hlow, hhigh⟩ := log2_bounds hne
  apply le_antisymm
  · apply Int.lt_add_one_iff.mp
    apply (Int.lt_zpow_iff_log_lt (by decide) hpos).mp
    push_cast
    rw [add_right_comm, zpow_add₀ two_ne_zero]
    gcongr
  · apply (Int.zpow_le_iff_le_log (by decide) hpos).mp
    push_cast
    rw [zpow_add₀ two_ne_zero]
    gcongr

theorem IsNormal.power_eq {significand : Nat} (h : IsNormal significand power)
    (hne : significand ≠ 0) : max leastPower (significand.log2 + power - 52) = power := by
  have hhigh : significand.log2 < 53 := (Nat.log2_lt hne).mpr h.lt
  have hleast := h.least
  rcases hleast.eq_or_lt with heq | hlt
  · omega
  · have hlow : 52 ≤ significand.log2 := (Nat.le_log2 hne).mpr (h.full hlt)
    omega

theorem ofQuotient_exact {significand : Nat} (hnormal : IsNormal significand power)
    (hne : significand ≠ 0) (hden : 0 < den) (h : (num / den : ℚ) = significand * 2 ^ power)
    (negative : Bool) : ofQuotient negative num den = .finite negative significand power := by
  have hnum : num ≠ 0 := by
    rintro rfl
    have hpos : (0 : ℚ) < significand * 2 ^ power := by
      have := Nat.pos_of_ne_zero hne
      positivity
    rw [Nat.cast_zero, zero_div] at h
    exact hpos.ne h
  have hpower : powerFor num den = power := by
    rw [powerFor_eq hnum hden, h, log_value hne, hnormal.power_eq hne]
  have hround : roundedAt num den power = significand := by
    have hpos := scaled_pos num hden power
    calc
      roundedAt num den power
      _ = roundedQuotient significand 1 := by
        rw [roundedAt_def]
        apply roundedQuotient_eq hpos one_pos
        apply (div_eq_div_iff_mul hpos one_pos).mp
        rw [scaled_eq, h]
        field_simp
        simp
      _ = significand := by simp [roundedQuotient, Nat.mod_one]
  have hlt : significand ≠ Nat.pow 2 53 := hnormal.lt.ne
  have hgreatest := Int.not_lt.mpr hnormal.greatest
  rw [ofQuotient_of_ne hnum, hpower, hround, ofRounded, if_neg hlt, bounded, if_neg hgreatest]

/-! ## All that is read is in normal form -/

theorem roundedQuotient_bounds (num den : Nat) :
    num / den ≤ roundedQuotient num den ∧ roundedQuotient num den ≤ num / den + 1 := by
  unfold roundedQuotient
  extract_lets quotient twice
  split
  · omega
  · split <;> omega

theorem roundedAt_le (hnum : num ≠ 0) (hden : 0 < den) :
    roundedAt num den (powerFor num den) ≤ 2 ^ 53 := by
  have hpower : Int.log 2 (num / den : ℚ) < powerFor num den + (53 : Nat) := by
    rw [powerFor_eq hnum hden]
    omega
  have hlt := Nat.div_lt_of_lt_mul ((scaled_lt_iff hnum hden _ 53).mpr hpower)
  rw [roundedAt_def]
  exact (roundedQuotient_bounds _ _).2.trans hlt

theorem le_roundedAt (hnum : num ≠ 0) (hden : 0 < den) (hleast : leastPower < powerFor num den) :
    2 ^ 52 ≤ roundedAt num den (powerFor num den) := by
  have hpower : ¬Int.log 2 (num / den : ℚ) < powerFor num den + (52 : Nat) := by
    rw [powerFor_eq hnum hden] at hleast ⊢
    omega
  have hle := Nat.not_lt.mp (mt (scaled_lt_iff hnum hden _ 52).mp hpower)
  have hpos := scaled_pos num hden (powerFor num den)
  rw [roundedAt_def]
  apply le_trans _ (roundedQuotient_bounds _ _).1
  rw [Nat.le_div_iff_mul_le hpos, Nat.mul_comm]
  exact hle

theorem isCanonical_bounded {significand : Nat} (hlt : significand < 2 ^ 53)
    (hleast : leastPower ≤ power) (hfull : leastPower < power → 2 ^ 52 ≤ significand)
    (negative : Bool) : (bounded negative significand power).IsCanonical := by
  unfold bounded
  split
  · trivial
  · exact ⟨hlt, hleast, by omega, hfull⟩

theorem isCanonical_zero (negative : Bool) : (zero negative).IsCanonical :=
  ⟨by decide, le_rfl, by decide, fun h => absurd h (lt_irrefl _)⟩

theorem isCanonical_ofQuotient (negative : Bool) (hden : 0 < den) :
    (ofQuotient negative num den).IsCanonical := by
  by_cases hnum : num = 0
  · rw [ofQuotient, if_pos hnum]
    exact isCanonical_zero negative
  · have hleast : leastPower ≤ powerFor num den := by
      rw [powerFor_eq hnum hden]
      exact le_max_left _ _
    have hle := roundedAt_le hnum hden
    rw [ofQuotient_of_ne hnum, ofRounded]
    split
    · exact isCanonical_bounded (Nat.pow_lt_pow_right (by decide) (by decide)) (by omega)
        (fun _ => le_rfl) negative
    · rename_i hne
      exact isCanonical_bounded (lt_of_le_of_ne hle hne) hleast (le_roundedAt hnum hden) negative

theorem isCanonical_ofDecimal (negative : Bool) (digits : Nat) (exponent : Int) :
    (ofDecimal negative digits exponent).IsCanonical := by
  unfold ofDecimal
  extract_lets magnitude
  split
  · exact isCanonical_zero negative
  · split
    · trivial
    · split
      · exact isCanonical_ofQuotient negative (Nat.pow_pos (by decide))
      · exact isCanonical_ofQuotient negative one_pos

end

end FunctionManifest.Binary64
