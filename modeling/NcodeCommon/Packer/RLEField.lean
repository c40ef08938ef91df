import Mathlib.Data.BitVec
import Mathlib.Tactic.Ring

/-!
# The run-length-encoded field `RLEField<T>`

`src/packer.h` stores a sequence of unsigned values as a vector of strides
`(value_, increment_, len_, starting_index_)`, each standing for the `len_ + 1`
values `value_ + i * increment_`.  `T` is an unsigned integer type of some
width `w`: we model `T` as `BitVec w`, for every `w`, and the `size_t`
counters as `Nat`.  `Append`, `Restore` and `at` multiply an index in
`size_t` by a `T` and narrow the result back to `T`; that is arithmetic
modulo `2^w` on the cast `((i : Nat) : BitVec w)`, since `2^w` divides
`2^64`.  (The iterator's `Next` multiplies two `T`s instead, which for a `T`
narrower than `int` is `int` arithmetic that can overflow: see
`NcodeCommon.Packer.Stride.nextValue`.)

`RLEField.append` follows the three branches of `RLEField::Append`, and
`RLEField.restore` the nested loop of `Restore`.  One `Append` puts exactly its
value at the end of `Restore()` from every field (`restore_append`), which
gives the round trip over any sequence.  `min_value_` and `max_value_` are
only written when a second or later stride starts, and `max_value_` through
`std::min`: `max_value()` is not the maximum.
-/

namespace NcodeCommon.Packer

variable {w : Nat}

/-! ### Strides -/

/-- `RLEField<T>::Stride`: the values `value_ + i * increment_` for `i ≤ len_`,
    the first of which sits at `starting_index_` in the field. -/
structure Stride (w : Nat) where
  value_ : BitVec w
  increment_ : BitVec w
  len_ : Nat
  startingIndex_ : Nat
deriving DecidableEq, Repr

/-- `Stride(value, starting_index)`: increment and length start at zero. -/
def Stride.new (value : BitVec w) (startingIndex : Nat) : Stride w :=
  ⟨value, 0, 0, startingIndex⟩

/-- The values of one stride in the order `Restore` pushes them: `value_`,
    then `value_ + (i + 1) * increment_` for `i < len_`. -/
def Stride.restore (s : Stride w) : List (BitVec w) :=
  s.value_ :: (List.range s.len_).map fun i => s.value_ + ((i + 1 : Nat) : BitVec w) * s.increment_

@[simp] theorem Stride.length_restore (s : Stride w) : s.restore.length = s.len_ + 1 := by
  simp [Stride.restore]

@[simp] theorem Stride.restore_new (value : BitVec w) (startingIndex : Nat) :
    (Stride.new value startingIndex).restore = [value] := rfl

/-- Lengthening a stride by one adds its next value. -/
theorem Stride.restore_lengthen (s : Stride w) :
    { s with len_ := s.len_ + 1 }.restore =
      s.restore ++ [s.value_ + ((s.len_ + 1 : Nat) : BitVec w) * s.increment_] := by
  simp [Stride.restore, List.range_succ]

/-! ### The field and `Append` -/

/-- `RLEField<T>`: the strides, the element count, and the two extrema
    fields. -/
structure RLEField (w : Nat) where
  strides_ : List (Stride w)
  totalNumElements_ : Nat
  minValue_ : BitVec w
  maxValue_ : BitVec w
deriving DecidableEq, Repr

/-- `RLEField()`.  `min_value_` and `max_value_` have no initialiser in the
    source; `junkMin` and `junkMax` stand for whatever they hold. -/
def RLEField.init (junkMin junkMax : BitVec w) : RLEField w :=
  ⟨[], 0, junkMin, junkMax⟩

/-- `std::min(a, b)`, which returns `a` unless `b < a`. -/
def stdMin (a b : BitVec w) : BitVec w :=
  if b < a then b else a

/-- `RLEField<T>::Append(value)`: start the first stride, give a one-value
    stride its increment, extend the last stride when `value` is its next
    value, and otherwise start a new stride after it.  The `bytes`
    out-parameter of the two-argument overload is not modelled. -/
def RLEField.append (f : RLEField w) (value : BitVec w) : RLEField w :=
  let f := { f with totalNumElements_ := f.totalNumElements_ + 1 }
  match f.strides_.getLast? with
  | none => { f with strides_ := [Stride.new value 0] }
  | some last =>
    if last.len_ = 0 then
      { f with strides_ := f.strides_.dropLast ++
          [{ last with increment_ := value - last.value_, len_ := last.len_ + 1 }] }
    else if value = last.value_ + ((last.len_ + 1 : Nat) : BitVec w) * last.increment_ then
      { f with strides_ := f.strides_.dropLast ++ [{ last with len_ := last.len_ + 1 }] }
    else
      { f with
        strides_ := f.strides_ ++ [Stride.new value (last.startingIndex_ + last.len_ + 1)]
        minValue_ := stdMin f.minValue_ value
        maxValue_ := stdMin f.maxValue_ value }

/-- `RLEField(const std::vector<T>& values)`: `Append` each value in order. -/
def RLEField.ofList (junkMin junkMax : BitVec w) (values : List (BitVec w)) : RLEField w :=
  values.foldl RLEField.append (RLEField.init junkMin junkMax)

/-- `Restore()`: the values of every stride, in order. -/
def RLEField.restore (f : RLEField w) : List (BitVec w) :=
  f.strides_.flatMap Stride.restore

/-- `size()`. -/
def RLEField.size (f : RLEField w) : Nat := f.totalNumElements_

/-- `min_value()`: `CHECK(total_num_elements_ > 0)`, then `min_value_`. -/
def RLEField.minValue (f : RLEField w) : Option (BitVec w) :=
  if 0 < f.totalNumElements_ then some f.minValue_ else none

/-- `max_value()`: `CHECK(total_num_elements_ > 0)`, then `max_value_`. -/
def RLEField.maxValue (f : RLEField w) : Option (BitVec w) :=
  if 0 < f.totalNumElements_ then some f.maxValue_ else none

@[simp] theorem RLEField.size_append (f : RLEField w) (value : BitVec w) :
    (f.append value).size = f.size + 1 := by
  unfold RLEField.append RLEField.size
  dsimp only
  split
  · rfl
  · split
    · rfl
    · split <;> rfl

/-! ### The round trip -/

/-- One `Append` puts its value at the end of `Restore()`, from every field:
    each of the three branches rewrites or adds a stride whose values are the
    old ones followed by `value`. -/
theorem RLEField.restore_append (f : RLEField w) (value : BitVec w) :
    (f.append value).restore = f.restore ++ [value] := by
  unfold RLEField.append RLEField.restore
  dsimp only
  split
  · next h => simp_all
  · next last h =>
    have hsplit : f.strides_.flatMap Stride.restore =
        f.strides_.dropLast.flatMap Stride.restore ++ last.restore := by
      conv_lhs => rw [← List.dropLast_append_getLast? last h]
      simp
    split
    · next hlen => simp [hsplit, Stride.restore, hlen, List.range_succ]
    · split
      · next hnext =>
        simp only [List.flatMap_append, hsplit, List.append_assoc]
        simp [Stride.restore_lengthen, hnext]
      · simp

theorem RLEField.restore_foldl_append (f : RLEField w) (xs : List (BitVec w)) :
    (xs.foldl RLEField.append f).restore = f.restore ++ xs := by
  induction xs generalizing f with
  | nil => simp
  | cons x xs ih => simp [ih, RLEField.restore_append]

theorem RLEField.size_foldl_append (f : RLEField w) (xs : List (BitVec w)) :
    (xs.foldl RLEField.append f).size = f.size + xs.length := by
  induction xs generalizing f with
  | nil => rfl
  | cons x xs ih => simp [ih]; omega

@[simp] theorem stdMin_zero_right (a : BitVec w) : stdMin a 0#w = 0#w := by
  unfold stdMin
  split
  · rfl
  · next h =>
    have : a.toNat ≤ 0 := by simpa [BitVec.lt_def] using h
    exact BitVec.eq_of_toNat_eq (by simpa using this)

/-- At `T = uint8_t`, appending `9, 0, 0` gives `max_value() == 0`, whatever
    `max_value_` held before: the third value starts a new stride (the second
    made the increment `-9`, so `9 + 2 * (-9) = 247 ≠ 0`), and that branch
    stores `std::min(max_value_, 0)`. -/
theorem maxValue_ofList_nine_zero_zero (junkMin junkMax : BitVec 8) :
    (RLEField.ofList junkMin junkMax [9, 0, 0]).maxValue = some 0 := by
  simp [RLEField.ofList, RLEField.append, RLEField.init, Stride.new, RLEField.maxValue]

end NcodeCommon.Packer
