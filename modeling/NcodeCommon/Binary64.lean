import Mathlib

/-!
# Rounding to `double`

`src/htsim/match.cc` keeps an action's sample probability in a `double`.
`EnableFlowCounter(n, event_queue)` stores `1.0 / n`: `n` is converted to
`double`, then the quotient is rounded.  The copy constructor reads the rate
back as `1 / other.sample_prob_`, a third rounding, and passes it to a
`size_t` parameter, a conversion that truncates and that C++ leaves undefined
when the truncated value does not fit in 64 bits.

This file models that arithmetic: IEEE-754 binary64 with round to nearest,
ties to even (`roundToDouble`), and the conversion to `size_t`
(`doubleToSizeT`, `none` where it is undefined).  Every value the model
rounds lies in `[2^-64, 2^64]`, far inside the normal range, so neither
subnormals nor the overflow to infinity are modelled: for `2^e ≤ q < 2^(e+1)`
the double nearest `q` is the multiple of `2^(e-52)` nearest `q`, `e` being
Mathlib's `Int.log 2 q`.

The rate a copy reads back is `size_t(1 / (1.0 / n))`.  Below
`2^64 - 1024` it is a `size_t` of at least `1`
(`reciprocal_roundTrip_bounds`), though not always `n` (`93` comes back as
`92`).  From `2^64 - 1024` on, `n` rounds to `2^64`, both reciprocals are
exact, and the value `2^64` does not fit (`reciprocal_roundTrip_top`).  The
first bound cannot come from the relative error `2^-53` alone: for `n` near
`2^64 - 2^11` that error allows `1 / (1.0 / n)` to land within `1024` of
`2^64`, where it would round up.  It comes from `roundToDouble_ge_of_gt`:
`1 / n` lies more than half a unit in the last place above `2^-64`, so it
rounds a whole unit above it.
-/

namespace NcodeCommon.Binary64

/-! ### Rounding to an integer, ties to even -/

/-- The integer nearest `x`; at a tie, the even one. -/
def roundHalfEven (x : ℚ) : ℤ :=
  if x - ⌊x⌋ < 1 / 2 then ⌊x⌋
  else if 1 / 2 < x - ⌊x⌋ then ⌊x⌋ + 1
  else if ⌊x⌋ % 2 = 0 then ⌊x⌋ else ⌊x⌋ + 1

/-- Rounding moves a value by at most one half. -/
theorem abs_roundHalfEven_sub_le (x : ℚ) : |(roundHalfEven x : ℚ) - x| ≤ 1 / 2 := by
  have h0 := Int.floor_le x
  have h1 := Int.lt_floor_add_one x
  rw [abs_le]
  unfold roundHalfEven
  split_ifs <;> push_cast <;> constructor <;> linarith

@[simp] theorem roundHalfEven_intCast (n : ℤ) : roundHalfEven n = n := by
  simp [roundHalfEven]

/-- Below `n - 1/2`, a value rounds to at most `n - 1`. -/
theorem roundHalfEven_le_of_lt {x : ℚ} {n : ℤ} (h : x < n - 1 / 2) : roundHalfEven x ≤ n - 1 := by
  have := (abs_le.1 (abs_roundHalfEven_sub_le x)).2
  have : roundHalfEven x < n := by exact_mod_cast (show (roundHalfEven x : ℚ) < n by linarith)
  omega

/-- Above `n + 1/2`, a value rounds to at least `n + 1`. -/
theorem le_roundHalfEven_of_lt {x : ℚ} {n : ℤ} (h : n + 1 / 2 < x) : n + 1 ≤ roundHalfEven x := by
  have := (abs_le.1 (abs_roundHalfEven_sub_le x)).1
  have : n < roundHalfEven x := by exact_mod_cast (show (n : ℚ) < roundHalfEven x by linarith)
  omega

/-- From `n - 1/2` up to an even `n`, a value rounds to `n`: the tie at
    `n - 1/2` goes to the even side. -/
theorem roundHalfEven_eq_of_even {x : ℚ} {n : ℤ} (hn : n % 2 = 0) (h1 : n - 1 / 2 ≤ x)
    (h2 : x < n) : roundHalfEven x = n := by
  have hf : ⌊x⌋ = n - 1 := by
    rw [Int.floor_eq_iff]; push_cast; constructor <;> linarith
  unfold roundHalfEven
  rw [hf]
  push_cast
  split_ifs with ha hb hc
  · exfalso; linarith
  · ring
  · omega
  · ring

/-! ### Rounding to `double` -/

/-- The `double` nearest a positive `q`, ties to even: with
    `2^e ≤ q < 2^(e+1)`, the multiple of `2^(e-52)` nearest `q`, a 53-bit
    significand. -/
def roundToDouble (q : ℚ) : ℚ :=
  let ulp : ℚ := 2 ^ (Int.log 2 q - 52)
  roundHalfEven (q / ulp) * ulp

/-- `Int.log 2 q` is the exponent of the binade `[2^e, 2^(e+1))` that holds `q`. -/
theorem log_eq_of_bounds {q : ℚ} {e : ℤ} (h1 : (2 : ℚ) ^ e ≤ q) (h2 : q < 2 ^ (e + 1)) :
    Int.log 2 q = e := by
  have hq : 0 < q := lt_of_lt_of_le (zpow_pos two_pos e) h1
  have hlt := (Int.lt_zpow_iff_log_lt (b := 2) (by norm_num) hq).1 (by simpa using h2)
  have hle := (Int.zpow_le_iff_le_log (b := 2) (by norm_num) hq).1 (by simpa using h1)
  omega

/-- The significand `q / 2^(e-52)` lies in `[2^52, 2^53)`. -/
theorem significand_bounds {q : ℚ} (hq : 0 < q) :
    (2 : ℚ) ^ (52 : ℤ) ≤ q / 2 ^ (Int.log 2 q - 52) ∧ q / 2 ^ (Int.log 2 q - 52) < 2 ^ (53 : ℤ) := by
  have hulp : (0 : ℚ) < 2 ^ (Int.log 2 q - 52) := zpow_pos two_pos _
  rw [le_div_iff₀ hulp, div_lt_iff₀ hulp, ← zpow_add₀ two_ne_zero, ← zpow_add₀ two_ne_zero]
  rw [show (52 : ℤ) + (Int.log 2 q - 52) = Int.log 2 q by ring,
    show (53 : ℤ) + (Int.log 2 q - 52) = Int.log 2 q + 1 by ring]
  exact ⟨by simpa using Int.zpow_log_le_self (b := 2) (by norm_num) hq,
    by simpa using Int.lt_zpow_succ_log_self (b := 2) (by norm_num) q⟩

/-- Rounded, it lies in `[2^52, 2^53]`: `2^53` when `q` rounds up to the next binade. -/
theorem significand_round_bounds {q : ℚ} (hq : 0 < q) :
    (2 : ℤ) ^ 52 ≤ roundHalfEven (q / 2 ^ (Int.log 2 q - 52)) ∧
      roundHalfEven (q / 2 ^ (Int.log 2 q - 52)) ≤ 2 ^ 53 := by
  obtain ⟨hlo, hhi⟩ := significand_bounds hq
  set x := q / 2 ^ (Int.log 2 q - 52)
  have h := abs_le.1 (abs_roundHalfEven_sub_le x)
  norm_num at hlo hhi h
  have h1 : (4503599627370495 : ℤ) < roundHalfEven x := by
    exact_mod_cast (show (4503599627370495 : ℚ) < roundHalfEven x by linarith)
  have h2 : roundHalfEven x < (9007199254740993 : ℤ) := by
    exact_mod_cast (show (roundHalfEven x : ℚ) < 9007199254740993 by linarith)
  norm_num
  omega

/-- A positive `q` rounds into the closed binade `[2^e, 2^(e+1)]` of `q`. -/
theorem roundToDouble_bounds {q : ℚ} (hq : 0 < q) :
    2 ^ Int.log 2 q ≤ roundToDouble q ∧ roundToDouble q ≤ 2 ^ (Int.log 2 q + 1) := by
  obtain ⟨hlo, hhi⟩ := significand_round_bounds hq
  have hulp : (0 : ℚ) < 2 ^ (Int.log 2 q - 52) := zpow_pos two_pos _
  have hlo' : (2 : ℚ) ^ (52 : ℤ) ≤ roundHalfEven (q / 2 ^ (Int.log 2 q - 52)) := by exact_mod_cast hlo
  have hhi' : (roundHalfEven (q / 2 ^ (Int.log 2 q - 52)) : ℚ) ≤ 2 ^ (53 : ℤ) := by exact_mod_cast hhi
  constructor
  · calc (2 : ℚ) ^ Int.log 2 q = 2 ^ (52 : ℤ) * 2 ^ (Int.log 2 q - 52) := by
          rw [← zpow_add₀ two_ne_zero]; ring_nf
      _ ≤ roundToDouble q := mul_le_mul_of_nonneg_right hlo' hulp.le
  · calc roundToDouble q ≤ 2 ^ (53 : ℤ) * 2 ^ (Int.log 2 q - 52) := mul_le_mul_of_nonneg_right hhi' hulp.le
      _ = 2 ^ (Int.log 2 q + 1) := by rw [← zpow_add₀ two_ne_zero]; ring_nf

theorem roundToDouble_pos {q : ℚ} (hq : 0 < q) : 0 < roundToDouble q :=
  lt_of_lt_of_le (zpow_pos two_pos _) (roundToDouble_bounds hq).1

/-- Powers of two are exact. -/
theorem roundToDouble_two_zpow (j : ℤ) : roundToDouble (2 ^ j) = 2 ^ j := by
  have hlog : Int.log 2 ((2 : ℚ) ^ j) = j := by simpa using Int.log_zpow (R := ℚ) (b := 2) (by norm_num) j
  have hsig : (2 : ℚ) ^ j / 2 ^ (j - 52) = ((2 ^ 52 : ℤ) : ℚ) := by
    rw [← zpow_sub₀ two_ne_zero]; norm_num
  simp only [roundToDouble, hlog, hsig, roundHalfEven_intCast]
  rw [Int.cast_pow, Int.cast_ofNat, ← zpow_natCast, ← zpow_add₀ two_ne_zero]; ring_nf


theorem one_le_roundToDouble {q : ℚ} (h : 1 ≤ q) : 1 ≤ roundToDouble q := by
  have hq : 0 < q := by linarith
  have hlog : 0 ≤ Int.log 2 q :=
    (Int.zpow_le_iff_le_log (b := 2) (by norm_num) hq).1 (by simpa using h)
  exact (one_le_zpow₀ one_le_two hlog).trans (roundToDouble_bounds hq).1

theorem roundToDouble_le_one {q : ℚ} (h0 : 0 < q) (h : q ≤ 1) : roundToDouble q ≤ 1 := by
  rcases h.lt_or_eq with h | rfl
  · have hlog : Int.log 2 q < 0 :=
      (Int.lt_zpow_iff_log_lt (b := 2) (by norm_num) h0).1 (by simpa using h)
    exact (roundToDouble_bounds h0).2.trans (zpow_le_one_of_nonpos₀ one_le_two (by omega))
  · exact (by simpa using roundToDouble_two_zpow 0 : roundToDouble 1 = 1).le

/-- More than half a unit in the last place above `2^e`, a value rounds at
    least a whole unit above `2^e`. -/
theorem roundToDouble_ge_of_gt {q : ℚ} {e : ℤ} (h : 2 ^ e + 2 ^ (e - 53) < q) :
    2 ^ e + 2 ^ (e - 52) ≤ roundToDouble q := by
  have hu : (0 : ℚ) < 2 ^ (e - 53) := zpow_pos two_pos _
  have hE : (2 : ℚ) ^ e = 2 ^ 53 * 2 ^ (e - 53) := by
    rw [← zpow_natCast, ← zpow_add₀ two_ne_zero]; ring_nf
  have h52 : (2 : ℚ) ^ (e - 52) = 2 * 2 ^ (e - 53) := by
    rw [show e - 52 = e - 53 + 1 by ring, zpow_add_one₀ two_ne_zero, mul_comm]
  have hq : 0 < q := by linarith
  have hle : e ≤ Int.log 2 q :=
    (Int.zpow_le_iff_le_log (b := 2) (by norm_num) hq).1 (by simpa using (by linarith : (2 : ℚ) ^ e ≤ q))
  rcases hle.lt_or_eq with hlt | rfl
  · calc 2 ^ e + 2 ^ (e - 52) ≤ (2 : ℚ) ^ (e + 1) := by
          rw [zpow_add_one₀ two_ne_zero, h52, hE]; linarith
      _ ≤ 2 ^ Int.log 2 q := zpow_le_zpow_right₀ one_le_two (by omega)
      _ ≤ roundToDouble q := (roundToDouble_bounds hq).1
  · have hsig : ((2 ^ 52 : ℤ) : ℚ) + 1 / 2 < q / 2 ^ (Int.log 2 q - 52) := by
      rw [lt_div_iff₀ (zpow_pos two_pos _), h52]; push_cast; linarith
    have hr : ((2 ^ 52 + 1 : ℤ) : ℚ) ≤ roundHalfEven (q / 2 ^ (Int.log 2 q - 52)) := by
      exact_mod_cast le_roundHalfEven_of_lt hsig
    calc 2 ^ Int.log 2 q + 2 ^ (Int.log 2 q - 52) = ((2 ^ 52 + 1 : ℤ) : ℚ) * 2 ^ (Int.log 2 q - 52) := by
          rw [h52, hE]; push_cast; ring
      _ ≤ roundToDouble q := mul_le_mul_of_nonneg_right hr (zpow_pos two_pos _).le

/-- Up to `2^64 - 1025`, a value rounds to at most `2^64 - 2^11`, the largest
    `double` below `2^64`. -/
theorem roundToDouble_le_of_le {q : ℚ} (h0 : 0 < q) (h : q ≤ 2 ^ 64 - 1025) :
    roundToDouble q ≤ 2 ^ 64 - 2 ^ 11 := by
  rcases lt_or_le q (2 ^ 63) with hlt | hge
  · have hlog : Int.log 2 q < 63 :=
      (Int.lt_zpow_iff_log_lt (b := 2) (by norm_num) h0).1 (by exact_mod_cast hlt)
    calc roundToDouble q ≤ 2 ^ (Int.log 2 q + 1) := (roundToDouble_bounds h0).2
      _ ≤ 2 ^ (63 : ℤ) := zpow_le_zpow_right₀ one_le_two (by omega)
      _ ≤ 2 ^ 64 - 2 ^ 11 := by norm_num
  · have hlog : Int.log 2 q = 63 := log_eq_of_bounds (by norm_num; linarith) (by norm_num; linarith)
    have hsig : q / 2 ^ (63 - 52 : ℤ) < ((2 ^ 53 : ℤ) : ℚ) - 1 / 2 := by
      rw [div_lt_iff₀ (by norm_num)]; norm_num; linarith
    have hr : (roundHalfEven (q / 2 ^ (63 - 52 : ℤ)) : ℚ) ≤ ((2 ^ 53 - 1 : ℤ) : ℚ) := by
      exact_mod_cast roundHalfEven_le_of_lt hsig
    simp only [roundToDouble, hlog]
    calc _ ≤ ((2 ^ 53 - 1 : ℤ) : ℚ) * 2 ^ (63 - 52 : ℤ) := mul_le_mul_of_nonneg_right hr (by norm_num)
      _ = 2 ^ 64 - 2 ^ 11 := by norm_num

/-- From `2^64 - 1024` on, a value below `2^64` rounds to `2^64`: the
    significand `2^53 - 1/2` is a tie, and `2^53` is even. -/
theorem roundToDouble_eq_two_pow_64 {q : ℚ} (h1 : 2 ^ 64 - 1024 ≤ q) (h2 : q < 2 ^ 64) :
    roundToDouble q = 2 ^ 64 := by
  have hlog : Int.log 2 q = 63 := log_eq_of_bounds (by norm_num; linarith) (by norm_num; linarith)
  have hr : roundHalfEven (q / 2 ^ (63 - 52 : ℤ)) = 2 ^ 53 :=
    roundHalfEven_eq_of_even (by norm_num) (by rw [le_div_iff₀ (by norm_num)]; norm_num; linarith)
      (by rw [div_lt_iff₀ (by norm_num)]; norm_num; linarith)
  simp only [roundToDouble, hlog, hr]
  norm_num


/-! ### The conversion to `size_t` -/

/-- The conversion of a `double` to `size_t`: truncation toward zero, and
    undefined (`none`) unless the truncated value fits in 64 bits. -/
def doubleToSizeT (x : ℚ) : Option UInt64 :=
  if -1 < x ∧ x < 2 ^ 64 then some ⌊x⌋.toNat.toUInt64 else none

theorem doubleToSizeT_of_one_le {x : ℚ} (h1 : 1 ≤ x) (h2 : x < 2 ^ 64) :
    ∃ m, doubleToSizeT x = some m ∧ m ≠ 0 := by
  have hf1 : 1 ≤ ⌊x⌋ := Int.le_floor.2 (by exact_mod_cast h1)
  have hf2 : ⌊x⌋ < 2 ^ 64 := Int.floor_lt.2 (by exact_mod_cast h2)
  refine ⟨_, if_pos ⟨by linarith, h2⟩, fun h0 => ?_⟩
  have := congrArg UInt64.toNat h0
  rw [Nat.toUInt64, UInt64.toNat_ofNat_of_lt (by simp only [UInt64.size]; omega)] at this
  simp at this
  omega

theorem doubleToSizeT_eq_none {x : ℚ} (h : 2 ^ 64 ≤ x) : doubleToSizeT x = none :=
  if_neg fun h' => absurd h'.2 (not_lt.2 h)

/-! ### `size_t(1 / (1.0 / n))` -/

/-- Below `2^64 - 1024`, the rate a copy reads back lies in
    `[1, 2^64 - 2^11]`. -/
theorem reciprocal_roundTrip_bounds {n : ℕ} (h1 : 1 ≤ n) (h2 : n < 2 ^ 64 - 1024) :
    1 ≤ roundToDouble (1 / roundToDouble (1 / roundToDouble n)) ∧
      roundToDouble (1 / roundToDouble (1 / roundToDouble n)) ≤ 2 ^ 64 - 2 ^ 11 := by
  have hn1 : (1 : ℚ) ≤ n := by exact_mod_cast h1
  have hn2 : (n : ℚ) ≤ 2 ^ 64 - 1025 := by
    have : n + 1025 ≤ 2 ^ 64 := by omega
    have : (n : ℚ) + 1025 ≤ 2 ^ 64 := by exact_mod_cast this
    linarith
  set x := roundToDouble n
  have hx1 : 1 ≤ x := one_le_roundToDouble hn1
  have hx2 : x ≤ 2 ^ 64 - 2 ^ 11 := roundToDouble_le_of_le (by linarith) hn2
  have hx0 : 0 < x := by linarith
  set p := roundToDouble (1 / x)
  -- `1 / x` lies more than half a unit in the last place above `2^-64`
  have hp : 2 ^ (-64 : ℤ) + 2 ^ (-64 - 52 : ℤ) ≤ p := by
    apply roundToDouble_ge_of_gt
    rw [lt_div_iff₀ hx0]
    norm_num
    linarith
  have hp0 : 0 < p := lt_of_lt_of_le (by positivity) hp
  have hp1 : p ≤ 1 := roundToDouble_le_one (by positivity) ((div_le_one hx0).2 hx1)
  have hy1 : 1 ≤ 1 / p := (one_le_div hp0).2 hp1
  have hy2 : 1 / p ≤ 2 ^ 64 - 1025 := by
    rw [div_le_iff₀ hp0]
    norm_num at hp
    linarith
  exact ⟨one_le_roundToDouble hy1, roundToDouble_le_of_le (by linarith) hy2⟩

/-- From `2^64 - 1024` on, the rate a copy reads back is `2^64`. -/
theorem reciprocal_roundTrip_top {n : ℕ} (h1 : 2 ^ 64 - 1024 ≤ n) (h2 : n < 2 ^ 64) :
    roundToDouble (1 / roundToDouble (1 / roundToDouble n)) = 2 ^ 64 := by
  have hn1 : (2 ^ 64 - 1024 : ℚ) ≤ n := by
    have : 2 ^ 64 ≤ n + 1024 := by omega
    have : (2 ^ 64 : ℚ) ≤ n + 1024 := by exact_mod_cast this
    linarith
  have hn2 : (n : ℚ) < 2 ^ 64 := by exact_mod_cast h2
  have h64 : (2 : ℚ) ^ 64 = 2 ^ (64 : ℤ) := (zpow_natCast 2 64).symm
  have hinv : (1 : ℚ) / 2 ^ (64 : ℤ) = 2 ^ (-64 : ℤ) := by rw [one_div, zpow_neg]
  have hinv' : (1 : ℚ) / 2 ^ (-64 : ℤ) = 2 ^ (64 : ℤ) := by rw [one_div, zpow_neg, inv_inv]
  rw [roundToDouble_eq_two_pow_64 hn1 hn2, h64, hinv, roundToDouble_two_zpow, hinv',
    roundToDouble_two_zpow]

end NcodeCommon.Binary64
