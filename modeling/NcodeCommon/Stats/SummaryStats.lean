import Mathlib

/-!
# `SummaryStats`: running extrema

`SummaryStats::Add` in `src/stats.cc` keeps a count, a sum, a sum of squares
and the extrema of the values added since `Reset()`.  `Add` moves `min_` and
`max_` by strict comparisons only, and `Reset` seeds them with
`numeric_limits<double>::max()` and `numeric_limits<double>::min()`; the
latter is the smallest positive normal double, not the most negative one.

As in `Bin.lean`, the arithmetic is that of `double`, modelled by any type
with the operations `Add` uses, here ordered linearly (a double that is not
NaN, with `-0.0` and `0.0` one value); the three limits it reads are
parameters.  After `Reset()` and any values that `Add` accepts, `min()` is the
least of `DBL_MAX` and the values and `max()` the greatest of `DBL_MIN` and
the values (`addAll_extrema`), so a sequence of values all below `DBL_MIN`,
such as `-1`, reports `DBL_MIN` as its maximum (`max_reset_add_neg_one`).
-/

namespace NcodeCommon.Stats

variable {F : Type} [LinearOrder F] [Add F] [Sub F] [Mul F] [Neg F] [Zero F]

/-- The fields of `SummaryStats` (declared in `stats.h`, not in `src/`) that
    `Add` and `Reset` write. -/
structure SummaryStats (F : Type) where
  sum_ : F
  count_ : Nat
  sumSquared_ : F
  min_ : F
  max_ : F
deriving DecidableEq, Repr

/-- `std::abs` of a double. -/
def fabs (x : F) : F := if x < 0 then -x else x

section Limits

variable (dblMax dblMin maxAddValue : F)

/-- `SummaryStats::Reset()`: sums and count to zero, `min_` to
    `numeric_limits<double>::max()` and `max_` to
    `numeric_limits<double>::min()`. -/
def SummaryStats.reset : SummaryStats F := ⟨0, 0, 0, dblMax, dblMin⟩

/-- `SummaryStats::Add(value)`: `CHECK(value < max_add_value)`, where
    `max_add_value` is `pow(numeric_limits<double>::max(), 0.5)`; the
    `LOG(FATAL)` when adding the square could overflow; the extrema moved by
    strict comparisons; then count, sum and sum of squares. -/
def SummaryStats.add (s : SummaryStats F) (value : F) : Option (SummaryStats F) :=
  if ¬value < maxAddValue then none
  else
    let valueSquared := value * value
    if (valueSquared < 0 ↔ s.sumSquared_ < 0) ∧ fabs valueSquared > dblMax - fabs s.sumSquared_ then none
    else some
      { min_ := if value < s.min_ then value else s.min_
        max_ := if value > s.max_ then value else s.max_
        count_ := s.count_ + 1
        sum_ := s.sum_ + value
        sumSquared_ := s.sumSquared_ + value * value }

/-- A sequence of `Add` calls; `none` when one aborts. -/
def SummaryStats.addAll (s : SummaryStats F) (values : List F) : Option (SummaryStats F) :=
  values.foldlM (SummaryStats.add dblMax maxAddValue) s

end Limits

/-- `SummaryStats::min()`: `CHECK(count_ > 0)`, then `min_`. -/
def SummaryStats.min (s : SummaryStats F) : Option F :=
  if 0 < s.count_ then some s.min_ else none

/-- `SummaryStats::max()`: `CHECK(count_ > 0)`, then `max_`. -/
def SummaryStats.max (s : SummaryStats F) : Option F :=
  if 0 < s.count_ then some s.max_ else none

section Moments

variable [Div F] [NatCast F]

/-- `SummaryStats::mean()`: `CHECK(count_ > 0)`, then `sum_ / count_`. -/
def SummaryStats.mean (s : SummaryStats F) : Option F :=
  if 0 < s.count_ then some (s.sum_ / s.count_) else none

/-- `SummaryStats::var()`: with `m = mean()`, `sum_squared_ / count_ - m * m`. -/
def SummaryStats.var (s : SummaryStats F) : Option F :=
  s.mean.map fun m => s.sumSquared_ / s.count_ - m * m

end Moments

/-! ### The extrema are the seeds folded with the values -/

section Limits

variable {dblMax maxAddValue : F}

/-- A completed `Add` moves the extrema to the least and greatest of the old
    extremum and the value, and counts the value. -/
theorem SummaryStats.add_eq_some {s s' : SummaryStats F} {value : F}
    (h : s.add dblMax maxAddValue value = some s') :
    s'.min_ = Min.min s.min_ value ∧ s'.max_ = Max.max s.max_ value ∧ s'.count_ = s.count_ + 1 := by
  unfold SummaryStats.add at h
  obtain ⟨-, h⟩ := Option.ite_none_left_eq_some.1 h
  obtain ⟨-, h⟩ := Option.ite_none_left_eq_some.1 h
  cases h
  refine ⟨?_, ?_, rfl⟩
  · by_cases hv : value < s.min_
    · rw [if_pos hv, min_eq_right hv.le]
    · rw [if_neg hv, min_eq_left (not_lt.1 hv)]
  · by_cases hv : value > s.max_
    · rw [if_pos hv, max_eq_right hv.le]
    · rw [if_neg hv, max_eq_left (not_lt.1 hv)]

theorem SummaryStats.addAll_eq_some {s s' : SummaryStats F} {values : List F}
    (h : s.addAll dblMax maxAddValue values = some s') :
    s'.min_ = values.foldl Min.min s.min_ ∧ s'.max_ = values.foldl Max.max s.max_ ∧
      s'.count_ = s.count_ + values.length := by
  induction values generalizing s with
  | nil => cases h; exact ⟨rfl, rfl, rfl⟩
  | cons v values ih =>
    obtain ⟨s₁, h₁, hrest⟩ := Option.bind_eq_some.1 h
    obtain ⟨hmin₁, hmax₁, hcount₁⟩ := SummaryStats.add_eq_some h₁
    obtain ⟨hmin, hmax, hcount⟩ := ih hrest
    simp only [List.foldl_cons, List.length_cons, ← hmin₁, ← hmax₁]
    exact ⟨hmin, hmax, by omega⟩

end Limits

/-- After `Reset()` and a non-empty sequence of values that `Add` accepts,
    `min()` is the least of `numeric_limits<double>::max()` and the values,
    and `max()` the greatest of `numeric_limits<double>::min()` and the
    values. -/
theorem addAll_extrema {dblMax dblMin maxAddValue : F} {values : List F} {s : SummaryStats F}
    (hne : values ≠ []) (h : (SummaryStats.reset dblMax dblMin).addAll dblMax maxAddValue values = some s) :
    s.min = some (values.foldl Min.min dblMax) ∧ s.max = some (values.foldl Max.max dblMin) := by
  obtain ⟨hmin, hmax, hcount⟩ := SummaryStats.addAll_eq_some h
  have hpos : 0 < s.count_ := by
    rw [hcount]
    exact Nat.add_pos_right _ (List.length_pos.2 hne)
  exact ⟨by rw [SummaryStats.min, if_pos hpos, hmin]; rfl, by rw [SummaryStats.max, if_pos hpos, hmax]; rfl⟩

/-! ### At the limits of `double` -/

/-- `numeric_limits<double>::max()`, `(2^53 - 1) * 2^971`. -/
def dblMaxQ : ℚ := (2 ^ 53 - 1) * 2 ^ 971

/-- `numeric_limits<double>::min()`, `2^-1022`. -/
def dblMinQ : ℚ := 1 / 2 ^ 1022

/-- `pow(numeric_limits<double>::max(), 0.5)` as the C library rounds it,
    `(2^53 - 1) * 2^459`. -/
def maxAddValueQ : ℚ := (2 ^ 53 - 1) * 2 ^ 459

/-- The values `-1` and `3` with the limits of `double`. -/
theorem addAll_extrema_neg_one_three :
    ∃ s, (SummaryStats.reset dblMaxQ dblMinQ).addAll dblMaxQ maxAddValueQ [-1, 3] = some s ∧
      s.min = some ([-1, 3].foldl Min.min dblMaxQ) ∧ s.max = some ([-1, 3].foldl Max.max dblMinQ) := by
  obtain ⟨s, hs⟩ : ∃ s, (SummaryStats.reset dblMaxQ dblMinQ).addAll dblMaxQ maxAddValueQ [-1, 3] = some s := by
    norm_num [SummaryStats.addAll, SummaryStats.add, SummaryStats.reset, fabs, dblMaxQ, dblMinQ,
      maxAddValueQ]
  exact ⟨s, hs, addAll_extrema (List.cons_ne_nil _ _) hs⟩

/-- `Reset()`, `Add(-1.0)`, `max()`: the result is
    `numeric_limits<double>::min() = 2^-1022`, not `-1`. -/
theorem max_reset_add_neg_one :
    ((SummaryStats.reset dblMaxQ dblMinQ).addAll dblMaxQ maxAddValueQ [-1]).bind SummaryStats.max =
      some dblMinQ := by
  norm_num [SummaryStats.addAll, SummaryStats.add, SummaryStats.reset, SummaryStats.max, fabs, dblMaxQ,
    dblMinQ, maxAddValueQ]

end NcodeCommon.Stats
