import Mathlib

/-!
# `Empirical2DFunction::Eval`

`src/stats.cc` stores the points of an empirical function in a
`std::map<double, double>` and evaluates it at `x` from the position of
`values_.lower_bound(x)`, the first point whose `x` is not below the query:
at `begin()` the query is taken to lie below the data and gets the low fill
value when one is set; at `end()` it lies above and gets the high fill value
when set; at a point with the query's `x` it gets that point's `y`; and
otherwise it lies strictly between two consecutive points and is
interpolated.

The map is a list of points kept sorted by strictly increasing `x`, an
invariant the structure carries; `std::map::emplace` keeps the first point
given for an `x`.  As in `Bin.lean`, the arithmetic is that of `double`,
modelled by any linearly ordered type with the operations `Eval` uses.

`eval_piecewise` gives `Eval` everywhere: no `CHECK` fails on a non-empty
map, and the answer is the piecewise definition except at the smallest
stored `x`, where `lower_bound` returns `begin()` and a set low fill value is
returned in place of the point's own `y` (`eval_low_fill_at_first_point`).
-/

namespace NcodeCommon.Stats

/-- `Empirical2DFunction::Interpolation`, declared in `stats.h`:
    `NEARERST` and `LINEAR`. -/
inductive Interpolation where
  | nearerst
  | linear
deriving DecidableEq, Repr

variable {F : Type} [LinearOrder F]

/-! ### The map -/

/-- `std::map<double, double>::emplace(p)`: insert `p` in key order, unless
    a point with its key is already there. -/
def mapEmplace : List (F × F) → F × F → List (F × F)
  | [], p => [p]
  | q :: rest, p =>
    if p.1 < q.1 then p :: q :: rest
    else if q.1 < p.1 then q :: mapEmplace rest p
    else q :: rest

/-- Keys strictly increasing. -/
def KeysSorted (m : List (F × F)) : Prop :=
  m.Pairwise fun p q => p.1 < q.1

instance (m : List (F × F)) : Decidable (KeysSorted m) :=
  inferInstanceAs (Decidable (m.Pairwise _))

theorem mem_mapEmplace {m : List (F × F)} {p q : F × F} (h : q ∈ mapEmplace m p) : q = p ∨ q ∈ m := by
  induction m with
  | nil => simpa [mapEmplace] using h
  | cons r rest ih =>
    unfold mapEmplace at h
    split_ifs at h <;> simp only [List.mem_cons] at h ⊢
    · tauto
    · rcases h with rfl | h
      · exact .inr (.inl rfl)
      · exact (ih h).imp_right .inr
    · exact .inr h

theorem keysSorted_mapEmplace {m : List (F × F)} (hm : KeysSorted m) (p : F × F) :
    KeysSorted (mapEmplace m p) := by
  induction m with
  | nil => exact List.pairwise_singleton _ _
  | cons q rest ih =>
    rw [KeysSorted, List.pairwise_cons] at hm
    unfold mapEmplace
    split_ifs with hpq hqp
    · exact List.Pairwise.cons (fun r hr => (List.mem_cons.1 hr).elim (· ▸ hpq)
        fun hr => hpq.trans (hm.1 r hr)) (List.Pairwise.cons hm.1 hm.2)
    · refine List.Pairwise.cons (fun r hr => ?_) (ih hm.2)
      rcases mem_mapEmplace hr with rfl | hr
      · exact hqp
      · exact hm.1 r hr
    · exact List.Pairwise.cons hm.1 hm.2

theorem keysSorted_foldl_mapEmplace (values : List (F × F)) {m : List (F × F)} (hm : KeysSorted m) :
    KeysSorted (values.foldl mapEmplace m) := by
  induction values generalizing m with
  | nil => exact hm
  | cons p values ih => exact ih (keysSorted_mapEmplace hm p)

/-- `values_.lower_bound(x)` as a position: the first point whose key is not
    below `x`; the length of the map for `end()`. -/
def lowerBound (m : List (F × F)) (x : F) : Nat :=
  m.findIdx fun p => ¬p.1 < x

/-! ### Where `lower_bound` lands -/

theorem lowerBound_cons (p : F × F) (m : List (F × F)) (x : F) :
    lowerBound (p :: m) x = if p.1 < x then lowerBound m x + 1 else 0 := by
  unfold lowerBound
  rw [List.findIdx_cons]
  by_cases h : p.1 < x
  · simp [h, not_le.2 h]
  · simp [h, not_lt.1 h]

/-- Points below the query are skipped. -/
theorem lowerBound_append_of_lt {pre m : List (F × F)} {x : F} (h : ∀ p ∈ pre, p.1 < x) :
    lowerBound (pre ++ m) x = pre.length + lowerBound m x := by
  induction pre with
  | nil => simp
  | cons p pre ih =>
    rw [List.cons_append, lowerBound_cons, if_pos (h p (List.mem_cons_self _ _)),
      ih fun q hq => h q (List.mem_cons_of_mem _ hq), List.length_cons]
    omega

theorem lowerBound_eq_length {m : List (F × F)} {x : F} (h : ∀ p ∈ m, p.1 < x) :
    lowerBound m x = m.length :=
  (congrArg (lowerBound · x) (List.append_nil m).symm).trans (lowerBound_append_of_lt h)

/-! ### The function -/

variable [Add F] [Sub F] [Mul F] [Div F] [Neg F]

/-- `Empirical2DFunction`: the map `values_` from `x` to `y`, whose keys are
    sorted, the interpolation, and the two fill values with their flags. -/
structure Empirical2DFunction (F : Type) [LinearOrder F] where
  values_ : List (F × F)
  sorted : KeysSorted values_
  interpolationType_ : Interpolation
  lowFillValueSet_ : Bool
  lowFillValue_ : F
  highFillValueSet_ : Bool
  highFillValue_ : F

/-- `Empirical2DFunction(values, interpolation)`: `CHECK(!values.empty())`,
    then emplace every point; no fill values. -/
def Empirical2DFunction.new [Zero F] (values : List (F × F)) (interpolation : Interpolation) :
    Option (Empirical2DFunction F) :=
  if values.isEmpty then none
  else some
    { values_ := values.foldl mapEmplace []
      sorted := keysSorted_foldl_mapEmplace values List.Pairwise.nil
      interpolationType_ := interpolation
      lowFillValueSet_ := false
      lowFillValue_ := 0
      highFillValueSet_ := false
      highFillValue_ := 0 }

/-- `Empirical2DFunction(xs, ys, interpolation)`: `CHECK(!xs.empty())` and
    `CHECK(xs.size() == ys.size())`, then emplace every `(xs[i], ys[i])`. -/
def Empirical2DFunction.ofXsYs [Zero F] (xs ys : List F) (interpolation : Interpolation) :
    Option (Empirical2DFunction F) :=
  if xs.isEmpty ∨ xs.length ≠ ys.length then none
  else Empirical2DFunction.new (xs.zip ys) interpolation

/-- `SetLowFillValue(value)`. -/
def Empirical2DFunction.setLowFillValue (f : Empirical2DFunction F) (value : F) : Empirical2DFunction F :=
  { f with lowFillValueSet_ := true, lowFillValue_ := value }

/-- `SetHighFillValue(value)`. -/
def Empirical2DFunction.setHighFillValue (f : Empirical2DFunction F) (value : F) : Empirical2DFunction F :=
  { f with highFillValueSet_ := true, highFillValue_ := value }

/-- `LinearInterpolate(x0, y0, x1, y1, x)`. -/
def linearInterpolate (x0 y0 x1 y1 x : F) : F :=
  let a := (y1 - y0) / (x1 - x0)
  let b := -a * x0 + y0
  a * x + b

/-- `Empirical2DFunction::Eval(x)`.  Dereferencing `begin()` of an empty map
    and the failed `CHECK`s are `none`; the `LOG(FATAL)` for another
    interpolation type is unreachable, `Interpolation` having two values. -/
def Empirical2DFunction.eval (f : Empirical2DFunction F) (x : F) : Option F :=
  let i := lowerBound f.values_ x
  if i = 0 then
    -- x is below the data range
    if f.lowFillValueSet_ then some f.lowFillValue_ else f.values_.head?.map (·.2)
  else if i = f.values_.length then
    -- x is above the data range
    if f.highFillValueSet_ then some f.highFillValue_ else (f.values_.get? (i - 1)).map (·.2)
  else match f.values_.get? i with
    | none => none
    | some (x1, y1) =>
      if x1 = x then some y1
      else match f.values_.get? (i - 1) with
        | none => none
        | some (x0, y0) =>
          if x0 ≤ x ∧ x1 ≥ x then
            match f.interpolationType_ with
            | .nearerst => if x - x0 > x1 - x then some y1 else some y0
            | .linear => some (linearInterpolate x0 y0 x1 y1 x)
          else none

/-! ### `Eval` everywhere -/

variable (f : Empirical2DFunction F) (x : F)

/-- At or below the smallest stored `x`, `lower_bound` is `begin()`. -/
theorem eval_of_le_first {x₀ y₀ : F} {rest : List (F × F)} (hf : f.values_ = (x₀, y₀) :: rest)
    (hx : x ≤ x₀) : f.eval x = some (if f.lowFillValueSet_ then f.lowFillValue_ else y₀) := by
  have hlb : lowerBound f.values_ x = 0 := by rw [hf, lowerBound_cons, if_neg (not_lt.2 hx)]
  simp only [Empirical2DFunction.eval, hlb, if_true]
  cases f.lowFillValueSet_ <;> simp [hf]

/-- Above the largest stored `x`, `lower_bound` is `end()`. -/
theorem eval_of_last_lt {init : List (F × F)} {xₙ yₙ : F} (hf : f.values_ = init ++ [(xₙ, yₙ)])
    (hx : xₙ < x) : f.eval x = some (if f.highFillValueSet_ then f.highFillValue_ else yₙ) := by
  have hsorted := f.sorted
  rw [hf, KeysSorted, List.pairwise_append] at hsorted
  have hlb : lowerBound f.values_ x = init.length + 1 := by
    rw [lowerBound_eq_length, hf, List.length_append, List.length_singleton]
    intro p hp
    rw [hf, List.mem_append, List.mem_singleton] at hp
    rcases hp with hp | rfl
    · exact (hsorted.2.2 p hp _ (List.mem_singleton_self _)).trans hx
    · exact hx
  have hlen : f.values_.length = init.length + 1 := by simp [hf]
  simp only [Empirical2DFunction.eval, hlb, hlen, Nat.add_one_ne_zero, if_false, if_true,
    Nat.add_sub_cancel]
  cases f.highFillValueSet_ <;> simp [hf]

/-- Strictly above a stored `x₀` and at most the next stored `x₁`,
    `lower_bound` is the point at `x₁`: its `y` when `x = x₁`, and otherwise
    the interpolation between the two points, whose `CHECK`s hold. -/
theorem eval_of_between {pre post : List (F × F)} {x₀ y₀ x₁ y₁ : F}
    (hf : f.values_ = pre ++ (x₀, y₀) :: (x₁, y₁) :: post) (h₀ : x₀ < x) (h₁ : x ≤ x₁) :
    f.eval x = some (if x₁ = x then y₁ else
      match f.interpolationType_ with
      | .nearerst => if x - x₀ > x₁ - x then y₁ else y₀
      | .linear => linearInterpolate x₀ y₀ x₁ y₁ x) := by
  have hsorted := f.sorted
  rw [hf, KeysSorted, List.pairwise_append] at hsorted
  have hpre : ∀ p ∈ pre, p.1 < x := fun p hp =>
    (hsorted.2.2 p hp _ (List.mem_cons_self _ _)).trans h₀
  have hlb : lowerBound f.values_ x = pre.length + 1 := by
    rw [hf, lowerBound_append_of_lt hpre, lowerBound_cons, if_pos h₀, lowerBound_cons, if_neg (not_lt.2 h₁)]
  have hlen : f.values_.length = pre.length + 2 + post.length := by
    simp only [hf, List.length_append, List.length_cons]
    omega
  have hget₁ : f.values_.get? (pre.length + 1) = some (x₁, y₁) := by
    rw [hf, List.get?_eq_getElem?, List.getElem?_append_right (by omega), Nat.add_sub_cancel_left]; simp
  have hget₀ : f.values_.get? pre.length = some (x₀, y₀) := by
    rw [hf, List.get?_eq_getElem?, List.getElem?_append_right (Nat.le_refl _), Nat.sub_self]; simp
  simp only [Empirical2DFunction.eval, hlb, hlen, Nat.add_one_ne_zero, if_false, hget₁,
    Nat.add_sub_cancel, hget₀]
  rw [if_neg (by omega)]
  by_cases heq : x₁ = x
  · simp [heq]
  · rw [if_neg heq, if_neg heq, if_pos ⟨h₀.le, h₁⟩]
    cases f.interpolationType_
    · exact (apply_ite some _ _ _).symm
    · rfl

/-- `Eval` on every map and every query: below or at the smallest stored
    `x` it is the low fill value when set (also at that `x` itself) and
    otherwise the first `y`; above the largest stored `x` it is the high fill
    value when set and otherwise the last `y`; and between consecutive stored
    `x₀ < x ≤ x₁` it is `y₁` at `x₁`, and otherwise the nearer point's `y`
    under `NEARERST` and `LinearInterpolate` under `LINEAR`, with no `CHECK`
    failing. -/
theorem eval_piecewise :
    (∀ x₀ y₀ rest, f.values_ = (x₀, y₀) :: rest → x ≤ x₀ →
      f.eval x = some (if f.lowFillValueSet_ then f.lowFillValue_ else y₀)) ∧
    (∀ init xₙ yₙ, f.values_ = init ++ [(xₙ, yₙ)] → xₙ < x →
      f.eval x = some (if f.highFillValueSet_ then f.highFillValue_ else yₙ)) ∧
    (∀ pre x₀ y₀ x₁ y₁ post, f.values_ = pre ++ (x₀, y₀) :: (x₁, y₁) :: post → x₀ < x → x ≤ x₁ →
      f.eval x = some (if x₁ = x then y₁ else
        match f.interpolationType_ with
        | .nearerst => if x - x₀ > x₁ - x then y₁ else y₀
        | .linear => linearInterpolate x₀ y₀ x₁ y₁ x)) :=
  ⟨fun _ _ _ hf hx => eval_of_le_first f x hf hx, fun _ _ _ hf hx => eval_of_last_lt f x hf hx,
    fun _ _ _ _ _ _ hf h₀ h₁ => eval_of_between f x hf h₀ h₁⟩

/-- The points `(0, 5)` and `(1, 7)`, interpolated linearly, with a low fill
    value `-1`: at the smallest stored `x`, the low fill value. -/
theorem eval_piecewise_first_point :
    (⟨[((0 : ℚ), (5 : ℚ)), (1, 7)], by decide, .linear, true, -1, false, 0⟩ : Empirical2DFunction ℚ).eval 0 =
      some (if true then -1 else 5) :=
  (eval_piecewise _ 0).1 0 5 [(1, 7)] rfl le_rfl

/-- The points `(0, 5)` and `(1, 7)` with low fill value `-1`: `Eval(0)` is
    `-1`, not the stored `5`. -/
theorem eval_low_fill_at_first_point :
    ((Empirical2DFunction.new [((0 : ℚ), (5 : ℚ)), (1, 7)] .linear).map
      (·.setLowFillValue (-1))).bind (·.eval 0) = some (-1) := by
  decide

end NcodeCommon.Stats
