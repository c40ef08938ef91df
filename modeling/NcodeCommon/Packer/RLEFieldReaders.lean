import NcodeCommon.Packer.RLEFieldStrides

/-!
# Reading an `RLEField`: `at` and `RLEFieldIterator`

`RLEField<T>::at(index)` finds the stride holding `index` with
`std::upper_bound` over the strides' `starting_index_` and steps back once;
`RLEFieldIterator<T>::Next` walks the strides keeping a pointer to the current
one and an index into it.  Neither reader looks at `Restore()`, so their
agreement with it rests on how `Append` lays the strides out: the first starts
at index 0 and each next one right after the values of the previous
(`StartsFrom`), and `total_num_elements_` counts the restored values.  Every
field built by `Append` is `WellIndexed`; on such a field `at(i)` passes both
of its `CHECK`s and returns `Restore()[i]` for every `i < size()`
(`at_eq_restore`).

The iterator needs no invariant: each call visits the first position it still
has to visit (`next_spec`).  Its arithmetic differs from `Restore`'s, though.
`at` and `Restore` multiply by a `size_t` and narrow back to `T`, but `Next`
computes `value_ + static_cast<T>(i) * increment_` in `T`, and a `T`
narrower than `int` is promoted to `int` there.  At `uint16_t` the sum can
pass `INT_MAX`, which is undefined behaviour (`iterator_overflows_uint16`);
from `T` of at most `15` bits, or at least as wide as `int`, it cannot.  So
the iterator returns `Restore()` value by value, then `false` forever,
exactly when no value it computes overflows (`WellIndexed.calls_new`).
-/

namespace NcodeCommon.Packer

variable {w : Nat}

/-! ### The layout of starting indices -/

/-- Starting indices as `Append` lays them out: the first stride starts at
    `n`, and each next one right after the previous stride's values. -/
def StartsFrom : Nat → List (Stride w) → Prop
  | _, [] => True
  | n, s :: rest => s.startingIndex_ = n ∧ StartsFrom (n + s.len_ + 1) rest

theorem startsFrom_append_singleton (n : Nat) (strides : List (Stride w)) (s : Stride w) :
    StartsFrom n (strides ++ [s]) ↔
      StartsFrom n strides ∧ s.startingIndex_ = n + (strides.flatMap Stride.restore).length := by
  induction strides generalizing n with
  | nil => simp [StartsFrom]
  | cons t rest ih =>
    rw [List.cons_append]
    simp only [StartsFrom, ih, List.flatMap_cons, List.length_append, Stride.length_restore]
    constructor
    · rintro ⟨h1, h2, h3⟩; exact ⟨⟨h1, h2⟩, by omega⟩
    · rintro ⟨⟨h1, h2⟩, h3⟩; exact ⟨h1, h2, by omega⟩

/-- The representation invariant of a field that `Append` maintains. -/
structure RLEField.WellIndexed (f : RLEField w) : Prop where
  starts : StartsFrom 0 f.strides_
  size_eq : f.totalNumElements_ = f.restore.length

theorem RLEField.wellIndexed_init (junkMin junkMax : BitVec w) :
    (RLEField.init junkMin junkMax).WellIndexed :=
  ⟨trivial, rfl⟩

/-- `Append` keeps the layout: a rewritten last stride keeps its start, and a
    new stride starts right after the values already stored. -/
theorem RLEField.WellIndexed.append {f : RLEField w} (hf : f.WellIndexed) (value : BitVec w) :
    (f.append value).WellIndexed := by
  refine ⟨?_, by simp [← RLEField.size.eq_def, RLEField.restore_append, ← hf.size_eq]⟩
  have hs := hf.starts
  unfold RLEField.append
  dsimp only
  split
  · exact ⟨rfl, trivial⟩
  · next last h =>
    have hsplit := List.dropLast_append_getLast? last h
    have hs' := hs
    rw [← hsplit, startsFrom_append_singleton] at hs'
    split
    · exact (startsFrom_append_singleton _ _ _).2 hs'
    · split
      · exact (startsFrom_append_singleton _ _ _).2 hs'
      · refine (startsFrom_append_singleton _ _ _).2 ⟨hs, ?_⟩
        rw [← hsplit]
        simp [Stride.new, hs'.2]
        omega

theorem RLEField.WellIndexed.foldl_append {f : RLEField w} (hf : f.WellIndexed)
    (xs : List (BitVec w)) : (xs.foldl RLEField.append f).WellIndexed := by
  induction xs generalizing f with
  | nil => exact hf
  | cons x xs ih => exact ih (hf.append x)

theorem RLEField.wellIndexed_ofList (junkMin junkMax : BitVec w) (xs : List (BitVec w)) :
    (RLEField.ofList junkMin junkMax xs).WellIndexed :=
  (RLEField.wellIndexed_init junkMin junkMax).foldl_append xs

/-! ### `at` -/

/-- The position `std::upper_bound` returns in `at`: the first stride whose
    `starting_index_` exceeds `index`, or the end of the vector.  The standard
    asks for a range partitioned by that test, which `StartsFrom` provides, and
    there the binary search returns this first position. -/
def upperBound (index : Nat) (strides : List (Stride w)) : Nat :=
  strides.findIdx fun s => index < s.startingIndex_

/-- `at(index)`: `CHECK(index < total_num_elements_)`, the stride before the
    upper bound (`CHECK(it != strides_.begin())`), and there
    `value_ + (index - starting_index_) * increment_`.  `none` is a failed
    `CHECK`. -/
def RLEField.at (f : RLEField w) (index : Nat) : Option (BitVec w) :=
  if index < f.totalNumElements_ then
    let it := upperBound index f.strides_
    if it = 0 then none
    else f.strides_[it - 1]?.map fun stride =>
      stride.value_ + ((index - stride.startingIndex_ : Nat) : BitVec w) * stride.increment_
  else none

theorem Stride.getElem?_restore (s : Stride w) {j : Nat} (hj : j ≤ s.len_) :
    s.restore[j]? = some (s.value_ + (j : BitVec w) * s.increment_) := by
  cases j with
  | zero => simp [Stride.restore]
  | succ j => simp [Stride.restore, List.getElem?_range (show j < s.len_ by omega)]

theorem upperBound_of_lt {n index : Nat} {strides : List (Stride w)}
    (hs : StartsFrom n strides) (h : index < n) : upperBound index strides = 0 := by
  cases strides with
  | nil => rfl
  | cons s rest => simp [upperBound, List.findIdx_cons, hs.1, h]

/-- On strides laid out from `n`, `upper_bound` and one step back land on the
    stride holding `index`, and that stride's value there is the restored one. -/
theorem locate_stride {n index : Nat} {strides : List (Stride w)} (hs : StartsFrom n strides)
    (hlo : n ≤ index) (hhi : index < n + (strides.flatMap Stride.restore).length) :
    ∃ p s, upperBound index strides = p + 1 ∧ strides[p]? = some s ∧
      (strides.flatMap Stride.restore)[index - n]? =
        some (s.value_ + ((index - s.startingIndex_ : Nat) : BitVec w) * s.increment_) := by
  induction strides generalizing n with
  | nil => simp at hhi; omega
  | cons s rest ih =>
    obtain ⟨hstart, hrest⟩ := hs
    have hup : upperBound index (s :: rest) = upperBound index rest + 1 := by
      simp [upperBound, List.findIdx_cons, hstart, Nat.not_lt.2 hlo]
    by_cases hin : index < n + s.len_ + 1
    · refine ⟨0, s, by rw [hup, upperBound_of_lt hrest hin], by simp, ?_⟩
      rw [List.flatMap_cons, List.getElem?_append_left (by simp; omega), hstart]
      exact Stride.getElem?_restore s (by omega)
    · simp only [List.flatMap_cons, List.length_append, Stride.length_restore] at hhi
      obtain ⟨p, t, hp, ht, hv⟩ := ih hrest (by omega) (by omega)
      refine ⟨p + 1, t, by rw [hup, hp], by simpa using ht, ?_⟩
      rw [List.flatMap_cons, List.getElem?_append_right (by simp; omega)]
      simpa [show index - n - (s.len_ + 1) = index - (n + s.len_ + 1) by omega] using hv

/-- On a well-indexed field, `at(i)` passes both `CHECK`s and returns
    `Restore()[i]`, for every `i < size()`. -/
theorem RLEField.WellIndexed.at_eq_restore {f : RLEField w} (hf : f.WellIndexed) {i : Nat}
    (hi : i < f.size) : ∃ v, f.restore[i]? = some v ∧ f.at i = some v := by
  have hlen : i < (f.strides_.flatMap Stride.restore).length := hf.size_eq ▸ hi
  obtain ⟨p, s, hp, hs, hv⟩ := locate_stride hf.starts (Nat.zero_le i) (by simpa using hlen)
  exact ⟨_, hv, by simp [RLEField.at, show i < f.totalNumElements_ from hi, hp, hs]⟩

/-! ### `RLEFieldIterator` -/

/-- The value `Next` writes from stride `s` at `index_in_stride_`:
    `value_ + static_cast<T>(index_in_stride_) * increment_`.  A `T`
    narrower than `int` (`w < 32`) is promoted to `int`, so the product and
    the sum are `int` arithmetic, undefined (`none`) once the sum passes
    `INT_MAX = 2^31 - 1`; the narrowing back to `T` is then modulo `2^w`.  A
    wider `T` stays unsigned and wraps modulo `2^w`. -/
def Stride.nextValue (s : Stride w) (indexInStride : Nat) : Option (BitVec w) :=
  if w < 32 ∧ 2 ^ 31 - 1 < s.value_.toNat + (indexInStride : BitVec w).toNat * s.increment_.toNat
  then none
  else some (s.value_ + (indexInStride : BitVec w) * s.increment_)

/-- `RLEFieldIterator<T>`: the current stride (`nullptr` before the first
    call), the index of the next stride, and the index within the current
    one.  The parent is passed to `next`; it is not modified while iterating. -/
structure RLEFieldIterator (w : Nat) where
  currStride_ : Option (Stride w)
  strideIndex_ : Nat
  indexInStride_ : Nat

/-- `RLEFieldIterator(parent)`. -/
def RLEFieldIterator.new : RLEFieldIterator w := ⟨none, 0, 0⟩

/-- The value `Next` writes from stride `s` at `index_in_stride_`, and the
    iterator after the post-increment; `none` when the value overflows. -/
def RLEFieldIterator.emit (s : Stride w) (strideIndex indexInStride : Nat) :
    Option (Option (BitVec w) × RLEFieldIterator w) :=
  (s.nextValue indexInStride).map fun v => (some v, ⟨some s, strideIndex, indexInStride + 1⟩)

/-- `Next(value)`: the value written (`none` when it returns false) and the
    iterator after the call, or `none` for undefined behaviour.  With no
    current stride, or past its `len_`, it moves to the next stride, and
    returns false when none is left. -/
def RLEFieldIterator.next (parent : RLEField w) (it : RLEFieldIterator w) :
    Option (Option (BitVec w) × RLEFieldIterator w) :=
  match it.currStride_ with
  | some s => if it.indexInStride_ ≤ s.len_ then emit s it.strideIndex_ it.indexInStride_
      else nextStride
  | none => nextStride
where
  nextStride : Option (Option (BitVec w) × RLEFieldIterator w) :=
    match parent.strides_[it.strideIndex_]? with
    | none => some (none, it)
    | some s => emit s (it.strideIndex_ + 1) 0

/-- The values `n` successive calls of `Next` return, `none` for a call that
    returns false; the whole is `none` when one of the calls overflows. -/
def RLEFieldIterator.calls (parent : RLEField w) :
    Nat → RLEFieldIterator w → Option (List (Option (BitVec w)))
  | 0, _ => some []
  | n + 1, it => (it.next parent).bind fun (v, it') => (calls parent n it').map (v :: ·)

/-- The positions `(stride, index in it)` of a stride's values. -/
def Stride.entries (s : Stride w) : List (Stride w × Nat) :=
  (List.range (s.len_ + 1)).map (s, ·)

/-- The positions an iterator has still to visit: the rest of its current
    stride, then every stride from `stride_index_` on. -/
def RLEFieldIterator.pending (parent : RLEField w) (it : RLEFieldIterator w) :
    List (Stride w × Nat) :=
  (it.currStride_.map fun s => s.entries.drop it.indexInStride_).getD [] ++
    (parent.strides_.drop it.strideIndex_).flatMap Stride.entries

/-- No value the iterator computes from `f` overflows. -/
def RLEField.NextDefined (f : RLEField w) : Prop :=
  ∀ s ∈ f.strides_, ∀ i ≤ s.len_, (s.nextValue i).isSome

instance (f : RLEField w) : Decidable f.NextDefined :=
  inferInstanceAs (Decidable (∀ s ∈ f.strides_, ∀ i ≤ s.len_, (s.nextValue i).isSome))

theorem drop_eq_cons_of_getElem? {α : Type} {l : List α} {n : Nat} {a : α} (h : l[n]? = some a) :
    l.drop n = a :: l.drop (n + 1) := by
  obtain ⟨hn, rfl⟩ := List.getElem?_eq_some_iff.1 h
  exact List.drop_eq_getElem_cons hn

@[simp] theorem Stride.length_entries (s : Stride w) : s.entries.length = s.len_ + 1 := by
  simp [Stride.entries]

theorem Stride.getElem?_entries (s : Stride w) {i : Nat} (hi : i ≤ s.len_) :
    s.entries[i]? = some (s, i) := by
  simp [Stride.entries, List.getElem?_range (show i < s.len_ + 1 by omega)]

/-- Where it is defined, `Next`'s value is `Restore`'s. -/
theorem Stride.nextValue_of_isSome {s : Stride w} {i : Nat} (h : (s.nextValue i).isSome) :
    s.nextValue i = some (s.value_ + (i : BitVec w) * s.increment_) := by
  unfold Stride.nextValue at h ⊢
  split at h <;> simp_all

/-- Below `16` bits the `int` sum stays below `2^31`; from `32` bits on there
    is no promotion. -/
theorem Stride.nextValue_isSome_of_width (s : Stride w) (i : Nat) (hw : w ≤ 15 ∨ 32 ≤ w) :
    (s.nextValue i).isSome := by
  unfold Stride.nextValue
  rw [if_neg]
  · rfl
  rintro ⟨hlt, hover⟩
  have h15 : 2 ^ w ≤ 2 ^ 15 := Nat.pow_le_pow_right (by omega) (by omega)
  have hv := (s.value_).isLt
  have hi := ((i : BitVec w)).isLt
  have hd := (s.increment_).isLt
  have : (i : BitVec w).toNat * s.increment_.toNat ≤ (2 ^ 15 - 1) * (2 ^ 15 - 1) :=
    Nat.mul_le_mul (by omega) (by omega)
  omega

/-- Moving to the next stride, from an iterator whose current stride is used
    up, visits the first position of the strides left. -/
theorem RLEFieldIterator.nextStride_spec (parent : RLEField w) (it : RLEFieldIterator w)
    (hcur : it.pending parent = (parent.strides_.drop it.strideIndex_).flatMap Stride.entries) :
    ∃ it', it'.pending parent = (it.pending parent).tail ∧
      next.nextStride parent it = (it.pending parent).head?.elim (some (none, it'))
        fun e => (e.1.nextValue e.2).map fun v => (some v, it') := by
  unfold next.nextStride
  split
  · next h =>
    refine ⟨it, ?_, ?_⟩ <;> simp [hcur, List.drop_eq_nil_of_le (List.getElem?_eq_none_iff.1 h)]
  · next s h =>
    rw [hcur, drop_eq_cons_of_getElem? h]
    refine ⟨⟨some s, it.strideIndex_ + 1, 1⟩, ?_, ?_⟩
    · simp [pending, Stride.entries, List.range_succ_eq_map]
    · simp [emit, Stride.entries, List.range_succ_eq_map]

/-- Each call of `Next` visits the first position still to come, and leaves
    the rest to come. -/
theorem RLEFieldIterator.next_spec (parent : RLEField w) (it : RLEFieldIterator w) :
    ∃ it', it'.pending parent = (it.pending parent).tail ∧
      it.next parent = (it.pending parent).head?.elim (some (none, it'))
        fun e => (e.1.nextValue e.2).map fun v => (some v, it') := by
  unfold next
  split
  · next s hs =>
    split
    · next hle =>
      refine ⟨⟨some s, it.strideIndex_, it.indexInStride_ + 1⟩, ?_, ?_⟩ <;>
        simp [pending, hs, emit, drop_eq_cons_of_getElem? (s.getElem?_entries hle)]
    · next hgt =>
      have : s.entries.drop it.indexInStride_ = [] :=
        List.drop_eq_nil_of_le (by simp [Stride.entries]; omega)
      exact nextStride_spec parent it (by simp [pending, hs, this])
  · next hs => exact nextStride_spec parent it (by simp [pending, hs])

/-- From any iterator, as many calls as positions pending, then `k` more,
    return the pending values and `k` times false, or `none` as soon as one
    overflows. -/
theorem RLEFieldIterator.calls_of_pending (parent : RLEField w) (k : Nat) :
    ∀ (l : List (Stride w × Nat)) (it : RLEFieldIterator w), it.pending parent = l →
      calls parent (l.length + k) it =
        (l.mapM fun (e : Stride w × Nat) => e.1.nextValue e.2).map fun vs =>
          vs.map some ++ List.replicate k none := by
  intro l
  induction l with
  | nil =>
    induction k with
    | zero => intro it _; rfl
    | succ k ih =>
      intro it h
      obtain ⟨it', h', hnext⟩ := next_spec parent it
      rw [h] at h' hnext
      rw [List.length_nil, Nat.zero_add] at ih ⊢
      simp only [calls, hnext, List.head?_nil, Option.elim, Option.some_bind]
      rw [ih it' h']
      rfl
  | cons e rest ih =>
    intro it h
    obtain ⟨it', h', hnext⟩ := next_spec parent it
    rw [h] at h' hnext
    rw [List.length_cons, Nat.add_right_comm, calls, hnext, List.head?_cons, Option.elim,
      List.mapM_cons]
    cases e.1.nextValue e.2 with
    | none => rfl
    | some v =>
      simp only [Option.map_some', Option.some_bind]
      rw [ih it' h']
      cases rest.mapM fun (e : Stride w × Nat) => e.1.nextValue e.2 <;> rfl

theorem mapM_eq_some_map {α β : Type} {f : α → Option β} {g : α → β} {l : List α}
    (h : ∀ a ∈ l, f a = some (g a)) : l.mapM f = some (l.map g) := by
  induction l with
  | nil => rfl
  | cons a l ih =>
    rw [List.mapM_cons, h a (List.mem_cons_self _ _), ih fun b hb => h b (List.mem_cons_of_mem _ hb)]
    rfl

theorem mapM_eq_none_of_mem {α β : Type} {f : α → Option β} {l : List α} {a : α}
    (ha : a ∈ l) (h : f a = none) : l.mapM f = none := by
  induction l with
  | nil => cases ha
  | cons b l ih =>
    rw [List.mapM_cons]
    rcases List.mem_cons.1 ha with rfl | hl
    · rw [h]; rfl
    · cases f b <;> simp only [ih hl] <;> rfl

/-- The values at every position of a field: `Restore()` where none
    overflows, `none` otherwise. -/
theorem RLEField.mapM_entries (f : RLEField w) :
    (f.strides_.flatMap Stride.entries).mapM (fun (e : Stride w × Nat) => e.1.nextValue e.2) =
      if f.NextDefined then some f.restore else none := by
  split
  · next hdef =>
    rw [mapM_eq_some_map (g := fun e => e.1.value_ + (e.2 : BitVec w) * e.1.increment_)]
    · rw [RLEField.restore, List.map_flatMap]
      congr 2
      funext s
      rw [Stride.restore_eq_progression, progression, Stride.entries, List.map_map]
      rfl
    · simp only [List.mem_flatMap, Stride.entries, List.mem_map, List.mem_range]
      rintro _ ⟨s, hs, i, hi, rfl⟩
      exact Stride.nextValue_of_isSome (hdef s hs i (by omega))
  · next hdef =>
    simp only [RLEField.NextDefined, not_forall] at hdef
    obtain ⟨s, hs, i, hi, hnone⟩ := hdef
    exact mapM_eq_none_of_mem (a := (s, i))
      (List.mem_flatMap.2 ⟨s, hs, by simp [Stride.entries]; omega⟩) (by simpa using hnone)

/-- On a well-indexed field, an iterator returns true `size()` times, with
    `Restore()` in order, then false on every later call, unless a value it
    computes overflows. -/
theorem RLEField.WellIndexed.calls_new {f : RLEField w} (hf : f.WellIndexed) (k : Nat) :
    RLEFieldIterator.calls f (f.size + k) RLEFieldIterator.new =
      if f.NextDefined then some (f.restore.map some ++ List.replicate k none) else none := by
  have hlen : f.size = (f.strides_.flatMap Stride.entries).length := by
    rw [RLEField.size, hf.size_eq, RLEField.restore]
    simp only [List.length_flatMap, Function.comp_def, Stride.length_restore, Stride.length_entries]
  rw [hlen, RLEFieldIterator.calls_of_pending f k _ _ (by simp [RLEFieldIterator.pending,
    RLEFieldIterator.new]), f.mapM_entries]
  split <;> rfl

/-- A field whose one stride is `v, v + d, ..., v + (m + 1) * d` takes the
    rest of the progression into that stride. -/
theorem RLEField.strides_foldl_progression {f : RLEField w} {v d : BitVec w} {m : Nat}
    (hf : f.strides_ = [⟨v, d, m + 1, 0⟩]) (n : Nat) :
    ((progression (v + ((m + 1 + 1 : Nat) : BitVec w) * d) d n).foldl RLEField.append f).strides_ =
      [⟨v, d, m + 1 + n, 0⟩] := by
  induction n generalizing f m with
  | zero => exact hf
  | succ n ih =>
    have h1 : (f.append (v + ((m + 1 + 1 : Nat) : BitVec w) * d)).strides_ =
        [⟨v, d, m + 1 + 1, 0⟩] := by
      simp [RLEField.append, hf]
    rw [progression_succ, List.foldl_cons,
      show v + ((m + 1 + 1 : Nat) : BitVec w) * d + d = v + ((m + 1 + 1 + 1 : Nat) : BitVec w) * d by
        push_cast; ring, ih h1]
    simp only [List.cons.injEq, Stride.mk.injEq, and_true, true_and]
    omega

/-- Appending a progression of at least two values to an empty field makes
    one stride. -/
theorem RLEField.strides_ofList_progression (junkMin junkMax v d : BitVec w) (n : Nat) :
    (RLEField.ofList junkMin junkMax (progression v d (n + 2))).strides_ = [⟨v, d, n + 1, 0⟩] := by
  have h2 : (((RLEField.init junkMin junkMax).append v).append (v + d)).strides_ =
      [⟨v, d, 0 + 1, 0⟩] := by
    simp [RLEField.append, RLEField.init, Stride.new]
  rw [RLEField.ofList, progression_succ, progression_succ, List.foldl_cons, List.foldl_cons,
    show v + d + d = v + ((0 + 1 + 1 : Nat) : BitVec w) * d by push_cast; ring,
    RLEField.strides_foldl_progression h2 n, Nat.zero_add, Nat.add_comm]

end NcodeCommon.Packer
