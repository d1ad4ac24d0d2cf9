import Lifecycle.Counters
import Mathlib.Data.Nat.Cast.Basic

/-! # Whole numbers as binary64 numbers

A whole number below `2 ^ 53` is a binary64 number. Rounding takes it at the exponent that gives its
significand 53 bits, which only adds zeros at the end, so nothing is lost. -/

namespace Lifecycle.Binary64

variable {n : Nat}

theorem pow2_eq (k : Nat) : pow2 k = 2 ^ k := rfl

theorem log2_le (h0 : n ≠ 0) (h : n < 2 ^ 53) : n.log2 ≤ 52 := by
  have hlt := (Nat.log2_lt h0).2 h
  omega

theorem two_pow_le_shifted (h0 : n ≠ 0) (h : n < 2 ^ 53) : 2 ^ 52 ≤ n * 2 ^ (52 - n.log2) := by
  have hlog := log2_le h0 h
  have hsplit : 2 ^ n.log2 * 2 ^ (52 - n.log2) = 2 ^ 52 := by
    rw [← Nat.pow_add]
    congr 1
    omega
  rw [← hsplit]
  exact Nat.mul_le_mul_right _ (Nat.log2_self_le h0)

theorem shifted_lt (h0 : n ≠ 0) (h : n < 2 ^ 53) : n * 2 ^ (52 - n.log2) < 2 ^ 53 := by
  have hlog := log2_le h0 h
  have hsplit : 2 ^ (n.log2 + 1) * 2 ^ (52 - n.log2) = 2 ^ 53 := by
    rw [← Nat.pow_add]
    congr 1
    omega
  rw [← hsplit]
  exact Nat.mul_lt_mul_of_pos_right Nat.lt_log2_self (Nat.two_pow_pos _)

theorem scaleDown_one (h0 : n ≠ 0) (h : n < 2 ^ 53) :
    scaleDown n 1 ((n.log2 : Int) - 52) = (n * 2 ^ (52 - n.log2), 1) := by
  have hlog := log2_le h0 h
  have hneg : (-((n.log2 : Int) - 52)).toNat = 52 - n.log2 := by omega
  have hpos : ((n.log2 : Int) - 52).toNat = 0 := by omega
  rw [scaleDown, hneg, hpos]
  rfl

theorem exponentOf_one (h0 : n ≠ 0) (h : n < 2 ^ 53) : exponentOf n 1 = (n.log2 : Int) - 52 := by
  have hguess : (n.log2 : Int) - ((1 : Nat).log2 : Nat) - 52 = (n.log2 : Int) - 52 := by
    rw [show (1 : Nat).log2 = 0 from rfl]
    omega
  have hfull : ¬ n * 2 ^ (52 - n.log2) < 1 * pow2 52 := by
    have hle := two_pow_le_shifted h0 h
    rw [Nat.one_mul, pow2_eq]
    omega
  have hleast : ¬ (n.log2 : Int) - 52 < minExponent := by
    rw [minExponent]
    omega
  simp only [exponentOf, hguess, scaleDown_one h0 h, if_neg hfull, if_neg hleast]

theorem divideEven_one (m : Nat) : divideEven m 1 = m := by
  simp [divideEven, Nat.mod_one]

theorem ofQuotient_of_scaled {num den m d significand : Nat} {e : Int} (h0 : num ≠ 0)
    (he : exponentOf num den = e) (hscaled : scaleDown num den e = (m, d))
    (hrounded : divideEven m d = significand) (short : significand ≠ pow2 53)
    (range : ¬ maxExponent < e) (negative : Bool) :
    ofQuotient negative num den = .finite negative significand e := by
  unfold ofQuotient
  rw [if_neg h0]
  -- the exponent is bound by a `have`, which has to go before it can be rewritten
  conv => lhs; zeta
  rw [he, hscaled]
  dsimp only
  rw [hrounded, if_neg short]
  exact if_neg range

theorem ofQuotient_one (h0 : n ≠ 0) (h : n < 2 ^ 53) :
    ofQuotient false n 1 =
      .finite false (n * 2 ^ (52 - n.log2)) ((n.log2 : Int) - 52) := by
  have hlog := log2_le h0 h
  have short : n * 2 ^ (52 - n.log2) ≠ pow2 53 := by
    have hlt := shifted_lt h0 h
    rw [pow2_eq]
    omega
  have range : ¬ maxExponent < (n.log2 : Int) - 52 := by
    rw [maxExponent]
    omega
  exact ofQuotient_of_scaled h0 (exponentOf_one h0 h) (scaleDown_one h0 h) (divideEven_one _) short
    range false

theorem toRat?_zero (negative : Bool) : (zero negative).toRat? = some 0 := by
  cases negative <;> simp [toRat?, zero]

theorem toRat?_ofRat_natCast (h : n < 2 ^ 53) :
    (ofRat ((n : Int) : Rat)).toRat? = some ((n : Int) : Rat) := by
  have hsign : decide (((n : Int) : Rat) < 0) = false := by
    rw [decide_eq_false_iff_not, Rat.not_lt]
    exact Rat.intCast_nonneg.2 (Int.natCast_nonneg n)
  rw [ofRat, hsign, Rat.num_intCast, Rat.den_intCast, Int.natAbs_natCast]
  by_cases h0 : n = 0
  · rw [h0, ofQuotient_zero, toRat?_zero]
    rfl
  · have hlog := log2_le h0 h
    have hneg : (-((n.log2 : Int) - 52)).toNat = 52 - n.log2 := by omega
    have hpos : ((n.log2 : Int) - 52).toNat = 0 := by omega
    have hpow : (2 ^ (52 - n.log2) : Nat) ≠ 0 := Nat.ne_of_gt (Nat.two_pow_pos _)
    rw [ofQuotient_one h0 h]
    simp only [toRat?, hneg, hpos, pow2_eq, Bool.false_eq_true, if_false, Nat.pow_zero]
    rw [← Rat.mkRat_one, Option.some.injEq, Rat.mkRat_eq_iff hpow Nat.one_ne_zero]
    simp

end Lifecycle.Binary64

namespace Lifecycle.Counters

/-- The counters hold any number of deployments below `2 ^ 53` exactly. -/
theorem held?_natCast {n : Nat} (h : n < 2 ^ 53) : held? (n : Int) = some (n : Int) := by
  rw [held?, Binary64.toRat?_ofRat_natCast h, Option.map_some, Rat.num_intCast]

end Lifecycle.Counters
