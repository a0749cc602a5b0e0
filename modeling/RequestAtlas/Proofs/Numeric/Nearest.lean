import RequestAtlas.Numeric.Binary64
import Mathlib.Algebra.Order.Field.Power
import Mathlib.Data.Nat.Digits.Defs
import Mathlib.Tactic.FieldSimp
import Mathlib.Tactic.Linarith
/-!
# The double nearest to a natural number

`Rounds q x` says what rounding means: `x` is a double no other is nearer to `q` than, its mantissa is even where
another is as near, and beyond the finite doubles it is infinite.  Main statement `rounds_ofDecimal`: reading the digits
of a natural number rounds it in this sense.

The number is scaled to 53 bits and rounded to a whole mantissa there.  A double on a coarser grid is one on the grid of
that scale, and a double on a finer one lies below the number's own power of two, which is on the grid as well.  So it
is enough to round a quotient (`roundDiv_nearest`).
-/

namespace RequestAtlas.Binary64

/-! ## The nearest double -/

/-- `a · 2 ^ e` is a finite double, or the power of two just beyond all of them. -/
def IsDouble (a e : ℤ) : Prop :=
  (|a| < 2 ^ 53 ∧ minExponent ≤ e ∧ e ≤ maxExponent) ∨ (|a| = 2 ^ 52 ∧ e = maxExponent + 1)

/-- `a · 2 ^ e` is nearest to `q` among these.  Its mantissa has 53 bits where it can, and is even where another one is
as near. -/
structure IsNearest (q : ℚ) (a e : ℤ) : Prop where
  double : IsDouble a e
  normal : e = minExponent ∨ 2 ^ 52 ≤ |a|
  nearest : ∀ b f, IsDouble b f → |q - a * 2 ^ e| ≤ |q - b * 2 ^ f|
  even : ∀ b f, IsDouble b f → (b * 2 ^ f : ℚ) ≠ a * 2 ^ e → |q - a * 2 ^ e| = |q - b * 2 ^ f| → Even a

/-- What `q` is rounded to: the nearest double, and infinity where it is the power of two beyond them. -/
inductive Rounds (q : ℚ) : Binary64 → Prop
  | finite {s : Bool} {m : Nat} {e : ℤ} (h : IsNearest q (if s then -(m : ℤ) else m) e) (hle : e ≤ maxExponent) :
      Rounds q (.finite s m e)
  | infinite {s : Bool} (h : IsNearest q (if s then -2 ^ 52 else 2 ^ 52) (maxExponent + 1)) : Rounds q (.infinite s)

/-! ## Rounding a quotient -/

/-- Rounding misses by half of the divisor at most, and by half of it only where it goes to an even quotient. -/
theorem roundDiv_error (n : Nat) {d : Nat} (hd : 0 < d) :
    2 * |(n : ℤ) - roundDiv n d * d| ≤ d ∧ (2 * |(n : ℤ) - roundDiv n d * d| = d → roundDiv n d % 2 = 0) := by
  have hr : n % d < d := Nat.mod_lt n hd
  have hn : (n : ℤ) = (n / d : Nat) * d + (n % d : Nat) := by exact_mod_cast (Nat.div_add_mod' n d).symm
  have hlow : (n : ℤ) - (n / d : Nat) * d = (n % d : Nat) := by omega
  have hhigh : (n : ℤ) - (n / d + 1 : Nat) * d = -(d - n % d : Nat) := by
    rw [Nat.cast_add, Nat.cast_one, add_mul]
    omega
  unfold roundDiv
  dsimp only
  split_ifs
  · rw [hlow, abs_of_nonneg (by omega)]
    omega
  · rw [hhigh, abs_neg, abs_of_nonneg (by omega)]
    omega
  · rw [hlow, abs_of_nonneg (by omega)]
    omega
  · rw [hhigh, abs_neg, abs_of_nonneg (by omega)]
    omega

/-- Every other multiple of `d` is further from `n`, or as far from it as an even multiple. -/
theorem roundDiv_nearest (n : Nat) {d : Nat} (hd : 0 < d) {k : ℤ} (hk : k ≠ roundDiv n d) :
    |(n : ℤ) - roundDiv n d * d| ≤ |(n : ℤ) - k * d| ∧
      (|(n : ℤ) - roundDiv n d * d| = |(n : ℤ) - k * d| → roundDiv n d % 2 = 0) := by
  obtain ⟨hhalf, heven⟩ := roundDiv_error n hd
  have happart : (d : ℤ) ≤ |((n : ℤ) - roundDiv n d * d) - (n - k * d)| := by
    have hstep : 1 ≤ |k - roundDiv n d| := Int.one_le_abs (sub_ne_zero.2 hk)
    calc (d : ℤ) = 1 * d := (one_mul _).symm
      _ ≤ |k - roundDiv n d| * |(d : ℤ)| := mul_le_mul hstep (le_abs_self _) (by omega) (abs_nonneg _)
      _ = |((n : ℤ) - roundDiv n d * d) - (n - k * d)| := by rw [← abs_mul]; ring_nf
  have htriangle := abs_sub ((n : ℤ) - roundDiv n d * d) (n - k * d)
  exact ⟨by omega, fun heq => heven (by omega)⟩

theorem roundDiv_bounds (n : Nat) (d : Nat) : n / d ≤ roundDiv n d ∧ roundDiv n d ≤ n / d + 1 := by
  unfold roundDiv
  dsimp only
  split_ifs <;> omega

/-! ## Scaling to 53 bits -/

theorem scaled_pos (n : Nat) (e : ℤ) : 0 < (scaled n 1 e).2 := by
  unfold scaled
  split
  · simp
  · exact Nat.one_pos

theorem scaled_eq (n : Nat) (e : ℤ) : ((scaled n 1 e).1 : ℚ) * 2 ^ e = n * (scaled n 1 e).2 := by
  unfold scaled
  split
  · rename_i he
    obtain ⟨k, rfl⟩ := Int.eq_ofNat_of_zero_le he
    simp
  · rename_i he
    obtain ⟨k, hk⟩ := Int.eq_ofNat_of_zero_le (show 0 ≤ -e by omega)
    obtain rfl : e = -k := by omega
    simp [zpow_neg]

/-- The exponent by which `n` is scaled to 53 bits. -/
def scale (n : Nat) : ℤ := n.log2 - 52

/-- Scaled by `2 ^ (log2 n - j)`, a number has `j + 1` bits. -/
theorem scaled_bounds {n : Nat} (hn : n ≠ 0) (j : Nat) :
    2 ^ j ≤ (scaled n 1 (n.log2 - j)).1 / (scaled n 1 (n.log2 - j)).2 ∧
      (scaled n 1 (n.log2 - j)).1 / (scaled n 1 (n.log2 - j)).2 < 2 ^ (j + 1) := by
  have hd := scaled_pos n (n.log2 - j)
  have heq := scaled_eq n (n.log2 - j)
  have hdq : (0 : ℚ) < (scaled n 1 (n.log2 - j)).2 := by exact_mod_cast hd
  have hlow : (2 : ℚ) ^ (n.log2 : ℤ) ≤ n := by exact_mod_cast Nat.log2_self_le hn
  have hhigh : (n : ℚ) < 2 ^ (n.log2 + 1 : ℤ) := by exact_mod_cast Nat.lt_log2_self
  have hpow : (0 : ℚ) < 2 ^ (n.log2 - j : ℤ) := by positivity
  have hsplit : (2 : ℚ) ^ j * 2 ^ (n.log2 - j : ℤ) = 2 ^ (n.log2 : ℤ) := by
    rw [← zpow_natCast, ← zpow_add₀ two_ne_zero]
    congr 1
    omega
  have hsplit' : (2 : ℚ) ^ (j + 1) * 2 ^ (n.log2 - j : ℤ) = 2 ^ (n.log2 + 1 : ℤ) := by
    rw [← zpow_natCast, ← zpow_add₀ two_ne_zero]
    congr 1
    push_cast
    omega
  rw [Nat.le_div_iff_mul_le hd, Nat.div_lt_iff_lt_mul hd]
  constructor
  · have h : (2 : ℚ) ^ j * (scaled n 1 (n.log2 - j)).2 ≤ (scaled n 1 (n.log2 - j)).1 := by
      refine le_of_mul_le_mul_right ?_ hpow
      rw [heq, mul_right_comm, hsplit]
      exact mul_le_mul_of_nonneg_right hlow hdq.le
    exact_mod_cast h
  · have h : ((scaled n 1 (n.log2 - j)).1 : ℚ) < 2 ^ (j + 1) * (scaled n 1 (n.log2 - j)).2 := by
      refine lt_of_mul_lt_mul_right ?_ hpow.le
      rw [heq, mul_right_comm, hsplit']
      exact mul_lt_mul_of_pos_right hhigh hdq
    exact_mod_cast h

theorem exponentFor_nat {n : Nat} (hn : n ≠ 0) : exponentFor n 1 = scale n := by
  have hone : Nat.log2 1 = 0 := by decide
  have hbounds := (scaled_bounds hn 53).1
  have hexponent : (n.log2 : ℤ) - (Nat.log2 1 : Nat) - 53 = n.log2 - (53 : Nat) := by omega
  rw [exponentFor, hexponent]
  simp only
  rw [if_neg (show ¬ _ < Nat.pow 2 53 from Nat.not_lt.2 hbounds), scale, minExponent]
  omega

theorem two_pow_scale_le {n : Nat} (hn : n ≠ 0) : (2 : ℚ) ^ 52 * 2 ^ scale n ≤ n := by
  have hlow : (2 : ℚ) ^ (n.log2 : ℤ) ≤ n := by exact_mod_cast Nat.log2_self_le hn
  rwa [← zpow_natCast, ← zpow_add₀ two_ne_zero, scale, Nat.cast_ofNat, add_sub_cancel]

/-- The mantissa to which `n` is rounded. -/
def roundedMantissa (n : Nat) : Nat := roundDiv (scaled n 1 (scale n)).1 (scaled n 1 (scale n)).2

theorem roundedMantissa_bounds {n : Nat} (hn : n ≠ 0) :
    2 ^ 52 ≤ roundedMantissa n ∧ roundedMantissa n ≤ 2 ^ 53 := by
  have hbounds : _ ∧ _ := scaled_bounds hn 52
  have hround := roundDiv_bounds (scaled n 1 (scale n)).1 (scaled n 1 (scale n)).2
  have hscale : scale n = n.log2 - (52 : Nat) := rfl
  rw [← hscale] at hbounds
  rw [roundedMantissa]
  omega

/-- The distance to a multiple of `2 ^ scale n`, in the scaled numbers. -/
theorem sub_mul_scale (n : Nat) (k : ℤ) : (n : ℚ) - k * 2 ^ scale n =
    (((scaled n 1 (scale n)).1 : ℤ) - k * (scaled n 1 (scale n)).2 : ℤ) *
      (2 ^ scale n / (scaled n 1 (scale n)).2) := by
  have hdq : ((scaled n 1 (scale n)).2 : ℚ) ≠ 0 := by exact_mod_cast (scaled_pos n (scale n)).ne'
  have heq := scaled_eq n (scale n)
  push_cast
  rw [sub_mul, mul_div_assoc', heq, mul_div_cancel_right₀ _ hdq]
  congr 1
  field_simp

/-- Every other multiple of `2 ^ scale n` is further from `n`, or as far from it as an even multiple. -/
theorem roundedMantissa_nearest (n : Nat) {k : ℤ} (hk : k ≠ roundedMantissa n) :
    |(n : ℚ) - roundedMantissa n * 2 ^ scale n| ≤ |(n : ℚ) - k * 2 ^ scale n| ∧
      (|(n : ℚ) - roundedMantissa n * 2 ^ scale n| = |(n : ℚ) - k * 2 ^ scale n| → Even (roundedMantissa n)) := by
  have hd := scaled_pos n (scale n)
  have hunit : (0 : ℚ) < 2 ^ scale n / (scaled n 1 (scale n)).2 := div_pos (by positivity) (by exact_mod_cast hd)
  have hcast : ((roundedMantissa n : ℤ) : ℚ) = roundedMantissa n := Int.cast_natCast _
  obtain ⟨hle, heven⟩ := roundDiv_nearest (scaled n 1 (scale n)).1 hd hk
  rw [← hcast, sub_mul_scale, sub_mul_scale, abs_mul, abs_mul]
  constructor
  · refine mul_le_mul_of_nonneg_right ?_ (abs_nonneg _)
    exact_mod_cast hle
  · intro heq
    have habs := mul_right_cancel₀ (abs_pos.2 hunit.ne').ne' heq
    exact Nat.even_iff.2 (heven (by exact_mod_cast habs))

/-- The same against every number of at most 53 bits: a finer one lies below the multiple `2 ^ 52`. -/
theorem roundedMantissa_closest {n : Nat} (hn : n ≠ 0) {b : ℤ} (hb : |b| < 2 ^ 53) (f : ℤ) :
    |(n : ℚ) - roundedMantissa n * 2 ^ scale n| ≤ |(n : ℚ) - b * 2 ^ f| ∧
      ((b * 2 ^ f : ℚ) ≠ roundedMantissa n * 2 ^ scale n →
        |(n : ℚ) - roundedMantissa n * 2 ^ scale n| = |(n : ℚ) - b * 2 ^ f| → Even (roundedMantissa n)) := by
  by_cases hsame : (b * 2 ^ f : ℚ) = roundedMantissa n * 2 ^ scale n
  · rw [hsame]
    exact ⟨le_rfl, fun hne => absurd rfl hne⟩
  rcases le_or_gt (scale n) f with hf | hf
  · obtain ⟨j, hj⟩ := Int.eq_ofNat_of_zero_le (sub_nonneg.2 hf)
    have hgrid : (b * 2 ^ f : ℚ) = (b * 2 ^ j : ℤ) * 2 ^ scale n := by
      push_cast
      rw [mul_assoc, ← zpow_natCast, ← zpow_add₀ two_ne_zero]
      congr 2
      omega
    have hne : (b * 2 ^ j : ℤ) ≠ roundedMantissa n := fun heq => hsame (by rw [hgrid, heq, Int.cast_natCast])
    rw [hgrid]
    exact ⟨(roundedMantissa_nearest n hne).1, fun _ => (roundedMantissa_nearest n hne).2⟩
  · have hlow : (2 : ℚ) ^ 52 * 2 ^ scale n ≤ n := two_pow_scale_le hn
    have hbelow : (b * 2 ^ f : ℚ) < 2 ^ 52 * 2 ^ scale n := by
      have hbq : (b : ℚ) < 2 ^ 53 := by exact_mod_cast (abs_lt.1 hb).2
      calc (b * 2 ^ f : ℚ) < 2 ^ 53 * 2 ^ f := mul_lt_mul_of_pos_right hbq (by positivity)
        _ = 2 ^ 52 * 2 ^ (f + 1) := by rw [zpow_add_one₀ two_ne_zero]; ring
        _ ≤ 2 ^ 52 * 2 ^ scale n := by gcongr <;> norm_num; omega
    have hstrict : |(n : ℚ) - 2 ^ 52 * 2 ^ scale n| < |(n : ℚ) - b * 2 ^ f| := by
      rw [abs_of_nonneg (sub_nonneg.2 hlow), abs_of_nonneg (by linarith)]
      linarith
    have hle : |(n : ℚ) - roundedMantissa n * 2 ^ scale n| ≤ |(n : ℚ) - 2 ^ 52 * 2 ^ scale n| := by
      by_cases hm : (2 ^ 52 : ℤ) = roundedMantissa n
      · have hmq : (2 ^ 52 : ℚ) = roundedMantissa n := by exact_mod_cast hm
        rw [hmq]
      · exact_mod_cast (roundedMantissa_nearest n hm).1
    exact ⟨hle.trans hstrict.le, fun _ heq => absurd (heq ▸ hle) hstrict.not_ge⟩

/-! ## Beyond the finite doubles -/

/-- The power of two just beyond the finite doubles. -/
def beyond : ℚ := 2 ^ 52 * 2 ^ (maxExponent + 1)

theorem beyond_le_ten_pow : beyond ≤ 10 ^ 310 := by
  have hbeyond : beyond = 2 ^ 1024 := by
    rw [beyond, ← zpow_natCast, ← zpow_add₀ two_ne_zero, ← zpow_natCast]
    rfl
  calc beyond = 2 ^ 1024 := hbeyond
    _ ≤ (2 ^ 205) ^ 5 := by rw [← pow_mul]; exact pow_le_pow_right₀ (by norm_num) (by norm_num)
    _ ≤ (10 ^ 62) ^ 5 := by gcongr; norm_num
    _ = 10 ^ 310 := by rw [← pow_mul]

theorem IsDouble.mantissa_lt {b f : ℤ} (h : IsDouble b f) : |b| < 2 ^ 53 := by
  rcases h with ⟨hb, -, -⟩ | ⟨hb, -⟩
  · exact hb
  · rw [hb]
    decide

theorem mul_lt_beyond {b f : ℤ} (hb : b < 2 ^ 53) (hf : f ≤ maxExponent) : (b * 2 ^ f : ℚ) < beyond := by
  have hbq : (b : ℚ) < 2 ^ 53 := by exact_mod_cast hb
  calc (b * 2 ^ f : ℚ) < 2 ^ 53 * 2 ^ f := mul_lt_mul_of_pos_right hbq (by positivity)
    _ ≤ 2 ^ 53 * 2 ^ maxExponent := by gcongr; norm_num
    _ = beyond := by rw [beyond, zpow_add_one₀ two_ne_zero]; ring

theorem IsDouble.le_beyond {b f : ℤ} (h : IsDouble b f) : (b * 2 ^ f : ℚ) ≤ beyond := by
  rcases h with ⟨hb, -, hf⟩ | ⟨hb, rfl⟩
  · exact (mul_lt_beyond (abs_lt.1 hb).2 hf).le
  · have hbq : (b : ℚ) ≤ 2 ^ 52 := by exact_mod_cast hb ▸ le_abs_self b
    exact mul_le_mul_of_nonneg_right hbq (by positivity)

/-- What is no nearer to any double than to the power of two beyond them is rounded to infinity. -/
theorem rounds_infinite {q : ℚ} (h : ∀ b f, IsDouble b f → |q - beyond| ≤ |q - b * 2 ^ f|) :
    Rounds q (.infinite false) := by
  have hcast : (((2 : ℤ) ^ 52 : ℤ) : ℚ) * 2 ^ (maxExponent + 1) = beyond := by
    rw [beyond]
    norm_num
  refine .infinite ⟨.inr ⟨rfl, rfl⟩, .inr le_rfl, fun b f hb => ?_, fun _ _ _ _ _ => ⟨2 ^ 51, rfl⟩⟩
  rw [if_neg (by decide), hcast]
  exact h b f hb

theorem rounds_of_beyond_le {q : ℚ} (h : beyond ≤ q) : Rounds q (.infinite false) := by
  refine rounds_infinite fun b f hb => ?_
  have hle := hb.le_beyond
  rw [abs_of_nonneg (by linarith), abs_of_nonneg (by linarith)]
  linarith

/-- The same where the nearest number with any exponent is not below that power of two. -/
theorem rounds_of_beyond_le_nearest {q x : ℚ} (hx : beyond ≤ x)
    (hnear : ∀ b f, IsDouble b f → |q - x| ≤ |q - b * 2 ^ f|) : Rounds q (.infinite false) := by
  rcases le_or_gt beyond q with hq | hq
  · exact rounds_of_beyond_le hq
  · refine rounds_infinite fun b f hb => le_trans ?_ (hnear b f hb)
    rw [abs_sub_comm, abs_sub_comm q, abs_of_nonneg (by linarith), abs_of_nonneg (by linarith)]
    linarith

/-! ## Rounding a natural number -/

/-- What rounding computes: the rounded mantissa at its scale, or half of it at the next one where it has 54 bits. -/
theorem ofRatio_nat {n : Nat} (hn : n ≠ 0) : ∃ (m : Nat) (e : ℤ),
    ofRatio false n 1 = (if maxExponent < e then .infinite false else .finite false m e) ∧
      (m * 2 ^ e : ℚ) = roundedMantissa n * 2 ^ scale n ∧ 2 ^ 52 ≤ m ∧ m < 2 ^ 53 ∧ scale n ≤ e ∧
      (Even (roundedMantissa n) → Even m) := by
  obtain ⟨hlow, hhigh⟩ := roundedMantissa_bounds hn
  by_cases hcarry : roundedMantissa n = 2 ^ 53
  · refine ⟨2 ^ 52, scale n + 1, ?_, ?_, le_rfl, by decide, by omega, fun _ => ⟨2 ^ 51, rfl⟩⟩
    · simp only [ofRatio, if_neg hn, exponentFor_nat hn]
      rw [if_pos (show roundDiv _ _ = Nat.pow 2 53 from hcarry)]
      rfl
    · rw [hcarry, zpow_add_one₀ two_ne_zero]
      push_cast
      ring
  · refine ⟨roundedMantissa n, scale n, ?_, rfl, hlow, by omega, le_rfl, id⟩
    simp only [ofRatio, if_neg hn, exponentFor_nat hn]
    rw [if_neg (show ¬ roundDiv _ _ = Nat.pow 2 53 from hcarry)]
    rfl

theorem rounds_ofRatio {n : Nat} (hn : n ≠ 0) : Rounds n (ofRatio false n 1) := by
  obtain ⟨m, e, hvalue, heq, hlow, hhigh, he, heven⟩ := ofRatio_nat hn
  have hnear : ∀ b f, IsDouble b f → |(n : ℚ) - m * 2 ^ e| ≤ |(n : ℚ) - b * 2 ^ f| := fun b f hb =>
    heq ▸ (roundedMantissa_closest hn hb.mantissa_lt f).1
  rw [hvalue]
  split
  · rename_i hrange
    have hmq : (2 ^ 52 : ℚ) ≤ m := by exact_mod_cast hlow
    have hover : beyond ≤ m * 2 ^ e := by
      rw [beyond]
      gcongr
      · norm_num
      · omega
    exact rounds_of_beyond_le_nearest hover hnear
  · rename_i hrange
    have hmin : minExponent ≤ e := by
      have hscale : scale n = n.log2 - 52 := rfl
      rw [minExponent]
      omega
    refine .finite ⟨.inl ⟨?_, hmin, by omega⟩, .inr ?_, fun b f hb => ?_, fun b f hb hne htie => ?_⟩ (by omega)
    · rw [if_neg (by decide), Nat.abs_cast]
      exact_mod_cast hhigh
    · rw [if_neg (by decide), Nat.abs_cast]
      exact_mod_cast hlow
    · exact_mod_cast hnear b f hb
    · rw [if_neg (by decide), Int.even_coe_nat]
      rw [if_neg (by decide), Int.cast_natCast, heq] at hne htie
      exact heven ((roundedMantissa_closest hn hb.mantissa_lt f).2 hne htie)

theorem rounds_zero : Rounds (0 : Nat) (.finite false 0 minExponent) := by
  have hzero : ((0 : Nat) : ℚ) - (if false then -((0 : Nat) : ℤ) else (0 : Nat) : ℤ) * 2 ^ minExponent = 0 := by simp
  refine .finite ⟨.inl ⟨?_, le_rfl, ?_⟩, .inl rfl, fun b f _ => ?_, fun _ _ _ _ _ => ⟨0, rfl⟩⟩ ?_
  · decide
  · decide
  · rw [hzero, abs_zero]
    exact abs_nonneg _
  · decide

/-- **Reading digits gives the nearest double to the number they spell.** -/
theorem rounds_ofDecimal (n : Nat) : Rounds n (ofDecimal false n 0) := by
  by_cases hn : n = 0
  · subst hn
    exact rounds_zero
  · by_cases hlarge : (310 : ℤ) < digitCount n + 0
    · have hinfinite : ofDecimal false n 0 = .infinite false := by
        simp only [ofDecimal, if_neg hn, if_pos hlarge]
      have hbig : beyond ≤ (n : ℚ) := by
        have hpow : 10 ^ 310 ≤ n := by
          by_contra hlt
          have := Nat.toDigits_length 10 n 310 (by decide) (by omega)
          rw [digitCount] at hlarge
          omega
        exact beyond_le_ten_pow.trans (by exact_mod_cast hpow)
      rw [hinfinite]
      exact rounds_of_beyond_le hbig
    · have hsmall : ¬ (digitCount n + 0 : ℤ) < -330 := by omega
      have hratio : ofDecimal false n 0 = ofRatio false n 1 := by
        simp only [ofDecimal, if_neg hn, if_neg hlarge, if_neg hsmall]
        simp
      rw [hratio]
      exact rounds_ofRatio hn

/-! ## The number a double denotes -/

/-- The number that a finite double denotes. -/
def value? : Binary64 → Option ℚ
  | finite s m e => some ((if s then -(m : ℤ) else m : ℤ) * 2 ^ e)
  | _ => none

/-- `n` is a double itself. -/
def IsExact (n : Nat) : Prop := ∃ m e : Nat, m < 2 ^ 53 ∧ (e : ℤ) ≤ maxExponent ∧ n = m * 2 ^ e

theorem value?_of_toInt? {x : Binary64} {k : ℤ} (h : x.toInt? = some k) : x.value? = some (k : ℚ) := by
  cases x with
  | infinite s => cases h
  | nan => cases h
  | finite s m e =>
    rw [value?, Option.some_inj]
    unfold toInt? at h
    dsimp only at h
    split at h
    · rename_i he
      obtain ⟨j, rfl⟩ := Int.eq_ofNat_of_zero_le he
      rw [← Option.some.inj h]
      cases s <;> simp
    · rename_i he
      obtain ⟨j, hj⟩ := Int.eq_ofNat_of_zero_le (show 0 ≤ -e by omega)
      obtain rfl : e = -j := by omega
      split at h
      · rename_i hdvd
        obtain ⟨d, rfl⟩ := Nat.dvd_of_mod_eq_zero hdvd
        rw [← Option.some.inj h]
        have hpos : 0 < 2 ^ j := by positivity
        have hcancel : (2 ^ j * d * (2 ^ j)⁻¹ : ℚ) = d := by field_simp
        cases s <;> simp [zpow_neg, Nat.mul_div_cancel_left d hpos, hcancel]
      · cases h

theorem toInt?_of_value? {x : Binary64} {k : Nat} (h : x.value? = some (k : ℚ)) : x.toInt? = some (k : ℤ) := by
  cases x with
  | infinite s => cases h
  | nan => cases h
  | finite s m e =>
    have heq := Option.some.inj h
    unfold toInt?
    dsimp only
    split
    · rename_i he
      obtain ⟨j, rfl⟩ := Int.eq_ofNat_of_zero_le he
      rw [Option.some_inj]
      cases s <;> simp at heq ⊢ <;> exact_mod_cast heq
    · rename_i he
      obtain ⟨j, hj⟩ := Int.eq_ofNat_of_zero_le (show 0 ≤ -e by omega)
      obtain rfl : e = -j := by omega
      have hpos : 0 < 2 ^ j := by positivity
      have hmul : (if s then -(m : ℤ) else m) = k * 2 ^ j := by
        rw [zpow_neg, zpow_natCast, ← div_eq_mul_inv, div_eq_iff (by positivity)] at heq
        exact_mod_cast heq
      cases s with
      | false =>
        simp only [Bool.false_eq_true, if_false] at hmul
        obtain rfl : m = k * 2 ^ j := by exact_mod_cast hmul
        simp [Nat.mul_div_cancel k hpos]
      | true =>
        -- only zero has both signs
        have hnonneg : (0 : ℤ) ≤ k * 2 ^ j := by positivity
        simp only [if_true] at hmul
        obtain rfl : m = 0 := by omega
        obtain rfl : k = 0 := by
          have hzero : (k : ℤ) * 2 ^ j = 0 := by omega
          simpa using hzero
        simp

theorem IsExact.lt_beyond {n : Nat} (h : IsExact n) : (n : ℚ) < beyond := by
  obtain ⟨m, e, hm, he, rfl⟩ := h
  have hlt := @mul_lt_beyond m e (by exact_mod_cast hm) he
  exact_mod_cast hlt

theorem Rounds.value?_of_isExact {n : Nat} {x : Binary64} (h : Rounds n x) (hn : IsExact n) :
    x.value? = some (n : ℚ) := by
  have hlt := hn.lt_beyond
  obtain ⟨m, e, hm, he, rfl⟩ := hn
  have hself : IsDouble m e := by
    refine .inl ⟨?_, ?_, he⟩
    · rw [Nat.abs_cast]
      exact_mod_cast hm
    · rw [minExponent]
      omega
  have hzero : ((m * 2 ^ e : Nat) : ℚ) - (m : ℤ) * 2 ^ (e : ℤ) = 0 := by
    push_cast
    simp
  cases h with
  | finite h hle =>
    have hnear := h.nearest m e hself
    rw [hzero, abs_zero] at hnear
    rw [value?, ← sub_eq_zero.1 (abs_nonpos_iff.1 hnear)]
  | @infinite s h =>
    have hnear := h.nearest m e hself
    rw [hzero, abs_zero] at hnear
    have heq := sub_eq_zero.1 (abs_nonpos_iff.1 hnear)
    cases s with
    | false =>
      rw [heq, if_neg (by decide), beyond] at hlt
      norm_num at hlt
    | true =>
      have hneg : ((if true then -2 ^ 52 else 2 ^ 52 : ℤ) : ℚ) * 2 ^ (maxExponent + 1) < 0 :=
        mul_neg_of_neg_of_pos (by norm_num) (by positivity)
      exact absurd (heq ▸ hneg) (Nat.cast_nonneg _).not_gt

theorem Rounds.isExact_of_value? {n : Nat} {x : Binary64} (h : Rounds n x) (hv : x.value? = some (n : ℚ)) :
    IsExact n := by
  cases h with
  | infinite h => cases hv
  | @finite s m e h hle =>
    have hm : m < 2 ^ 53 := by
      have hlt := h.double.mantissa_lt
      split at hlt <;> simp only [abs_neg, abs_of_nonneg (Int.natCast_nonneg m)] at hlt <;> omega
    have hmul : (m * 2 ^ e : ℚ) = n := by
      have habs := congrArg abs (Option.some.inj hv)
      rw [Nat.abs_cast, abs_mul, abs_of_pos (by positivity : (0 : ℚ) < 2 ^ e)] at habs
      rw [← habs]
      cases s <;> simp
    rcases le_or_gt 0 e with he | he
    · obtain ⟨j, rfl⟩ := Int.eq_ofNat_of_zero_le he
      exact ⟨m, j, hm, hle, by exact_mod_cast hmul.symm⟩
    · -- a fraction of the mantissa is below `2 ^ 53`
      have hpow : (2 : ℚ) ^ e ≤ 1 := zpow_le_one_of_nonpos₀ (by norm_num) he.le
      have hnq : (n : ℚ) ≤ m := hmul ▸ mul_le_of_le_one_right (Nat.cast_nonneg m) hpow
      have hn : n ≤ m := by exact_mod_cast hnq
      exact ⟨n, 0, by omega, by decide, (mul_one n).symm⟩

end RequestAtlas.Binary64
