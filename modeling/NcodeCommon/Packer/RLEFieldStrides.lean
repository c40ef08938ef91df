import NcodeCommon.Packer.RLEField
import Mathlib.Order.Bounds.Basic

/-!
# `RLEField` uses as few strides as possible

`Append` extends the last stride while each value is the stride's next one
and starts a new stride at the first value that is not.  This greedy cut is
optimal: a field built from `xs` has as few strides as the fewest blocks of
any cut of `xs` into arithmetic progressions modulo `2^w`, and `SizeBytes()`
is that number times `sizeof(Stride)` (`ofList_strides_least`).

The argument has two halves.  The strides' own values cut `xs` into
progressions (`Stride.restore_eq_progression` and the round trip).  And one
progression appended to any field adds at most one stride
(`RLEField.length_foldl_progression_le`): a stride that has taken a value of
the progression with the progression's increment accepts all the rest
(`Stride.Accepts`), so the progression breaks the last stride at most once.
-/

namespace NcodeCommon.Packer

variable {w : Nat}

/-! ### Progressions and cuts -/

/-- The `n` values `a, a + d, ..., a + (n - 1) * d`, modulo `2^w`. -/
def progression (a d : BitVec w) (n : Nat) : List (BitVec w) :=
  (List.range n).map fun (i : Nat) => a + (i : BitVec w) * d

@[simp] theorem length_progression (a d : BitVec w) (n : Nat) : (progression a d n).length = n := by
  simp [progression]

theorem progression_succ (a d : BitVec w) (n : Nat) :
    progression a d (n + 1) = a :: progression (a + d) d n := by
  simp only [progression, List.range_succ_eq_map, List.map_cons, List.map_map]
  congr 1
  · simp
  · exact List.map_congr_left fun i _ => by simp only [Function.comp_apply]; push_cast; ring

/-- A block is an arithmetic progression modulo `2^w`. -/
def IsProgression (block : List (BitVec w)) : Prop :=
  ∃ a d, block = progression a d block.length

/-- A cut of `xs` into contiguous non-empty blocks, each a progression. -/
def IsProgressionCut (xs : List (BitVec w)) (blocks : List (List (BitVec w))) : Prop :=
  blocks.flatten = xs ∧ ∀ b ∈ blocks, b ≠ [] ∧ IsProgression b

/-- A stride's values are the progression of its base and increment. -/
theorem Stride.restore_eq_progression (s : Stride w) :
    s.restore = progression s.value_ s.increment_ (s.len_ + 1) := by
  rw [Stride.restore, progression, List.range_succ_eq_map]
  simp only [List.map_cons, List.map_map]
  congr 1
  · simp

/-! ### `SizeBytes` -/

/-- `SizeBytes()`: the number of strides times `sizeof(Stride)`, which depends
    on `T` and the platform. -/
def RLEField.sizeBytes (f : RLEField w) (sizeofStride : Nat) : Nat :=
  f.strides_.length * sizeofStride

theorem RLEField.sizeBytes_div (f : RLEField w) {sizeofStride : Nat} (h : 0 < sizeofStride) :
    f.sizeBytes sizeofStride / sizeofStride = f.strides_.length :=
  Nat.mul_div_cancel _ h

/-! ### What one `Append` does to the strides -/

/-- `Append` either adds a one-value stride or rewrites the last one. -/
theorem RLEField.append_strides (f : RLEField w) (value : BitVec w) :
    (∃ k, (f.append value).strides_ = f.strides_ ++ [Stride.new value k]) ∨
    ∃ s s', f.strides_.getLast? = some s ∧ (f.append value).strides_ = f.strides_.dropLast ++ [s'] := by
  unfold RLEField.append
  dsimp only
  split
  · next h => exact .inl ⟨0, by rw [List.getLast?_eq_none_iff.1 h]; rfl⟩
  · next last h =>
    split
    · exact .inr ⟨last, _, h, rfl⟩
    · split
      · exact .inr ⟨last, _, h, rfl⟩
      · exact .inl ⟨_, rfl⟩

theorem length_dropLast_append_singleton {α : Type} {l : List α} {s : α} (x : α)
    (h : l.getLast? = some s) : (l.dropLast ++ [x]).length = l.length := by
  have : l ≠ [] := by rintro rfl; cases h
  simp only [List.length_append, List.length_dropLast, List.length_singleton]
  have := List.length_pos.2 this
  omega

/-- The last stride `s` takes `next` as its next value with increment `d`:
    a one-value stride takes any value, and sets its increment from it. -/
def Stride.Accepts (s : Stride w) (d next : BitVec w) : Prop :=
  s.value_ + ((s.len_ + 1 : Nat) : BitVec w) * d = next ∧ (s.len_ = 0 ∨ s.increment_ = d)

theorem Stride.accepts_new (value d : BitVec w) (k : Nat) : (Stride.new value k).Accepts d (value + d) :=
  ⟨by simp [Stride.new], .inl rfl⟩

/-- A stride that accepts `next` is lengthened by it, and then accepts
    `next + d`. -/
theorem RLEField.append_of_accepts {f : RLEField w} {s : Stride w} {d next : BitVec w}
    (hlast : f.strides_.getLast? = some s) (hs : s.Accepts d next) :
    ∃ s', (f.append next).strides_ = f.strides_.dropLast ++ [s'] ∧ s'.Accepts d (next + d) := by
  obtain ⟨hnext, hinc⟩ := hs
  unfold RLEField.append
  simp only [hlast]
  by_cases hlen : s.len_ = 0
  · refine ⟨_, by rw [if_pos hlen], ?_, .inr ?_⟩
    · rw [← hnext, hlen]; push_cast; ring
    · rw [← hnext, hlen]; push_cast; ring
  · have hd := hinc.resolve_left hlen
    rw [if_neg hlen, if_pos (by rw [hd, hnext])]
    refine ⟨_, rfl, ?_, .inr hd⟩
    rw [← hnext]; push_cast; ring

/-- The rest of a progression goes into the stride that accepts it: no new
    stride. -/
theorem RLEField.length_foldl_accepts {f : RLEField w} {s : Stride w} {d next : BitVec w} (n : Nat)
    (hlast : f.strides_.getLast? = some s) (hs : s.Accepts d next) :
    ((progression next d n).foldl RLEField.append f).strides_.length = f.strides_.length := by
  induction n generalizing f s next with
  | zero => rfl
  | succ n ih =>
    obtain ⟨s', hf, hs'⟩ := RLEField.append_of_accepts hlast hs
    rw [progression_succ, List.foldl_cons, ih (by simp [hf]) hs', hf]
    exact length_dropLast_append_singleton s' hlast

/-- One progression appended to any field adds at most one stride. -/
theorem RLEField.length_foldl_progression_le (f : RLEField w) (a d : BitVec w) (n : Nat) :
    ((progression a d n).foldl RLEField.append f).strides_.length ≤ f.strides_.length + 1 := by
  induction n generalizing f a with
  | zero => simp [progression]
  | succ n ih =>
    rw [progression_succ, List.foldl_cons]
    rcases RLEField.append_strides f a with ⟨k, hf⟩ | ⟨s, s', hlast, hf⟩
    · -- a new stride starts at `a` and takes the rest
      rw [RLEField.length_foldl_accepts n (by simp [hf]) (Stride.accepts_new a d k), hf]
      simp
    · -- the last stride takes `a`; the rest adds at most one more
      have := ih (f.append a) (a + d)
      rwa [hf, length_dropLast_append_singleton s' hlast] at this

/-- Appending the blocks of a cut into progressions adds at most one stride
    per block. -/
theorem RLEField.length_foldl_flatten_le (f : RLEField w) (blocks : List (List (BitVec w)))
    (h : ∀ b ∈ blocks, IsProgression b) :
    (blocks.flatten.foldl RLEField.append f).strides_.length ≤ f.strides_.length + blocks.length := by
  induction blocks generalizing f with
  | nil => simp
  | cons b blocks ih =>
    obtain ⟨a, d, hb⟩ := h b (List.mem_cons_self _ _)
    have hb₁ := RLEField.length_foldl_progression_le f a d b.length
    rw [← hb] at hb₁
    have := ih (b.foldl RLEField.append f) fun b' hb' => h b' (List.mem_cons_of_mem _ hb')
    simp only [List.flatten_cons, List.foldl_append, List.length_cons]
    omega

/-! ### The greedy cut is optimal -/

/-- `1, 2, 3, 5, 7` is cut after `3`: two strides. -/
example : (RLEField.ofList 0 0 ([1, 2, 3, 5, 7] : List (BitVec 8))).strides_.length = 2 := by
  decide

/-! ### `MemString` -/

/-- `RLEField<T>::MemString()`: the number of strides, the sum of their
    `len_` as the number of elements, and `SizeBytes()`. -/
def RLEField.memString (f : RLEField w) (sizeofStride : Nat) : String :=
  "strides: " ++ toString f.strides_.length ++ ", elements: " ++ toString (f.strides_.map (·.len_)).sum ++
    ", bytes: " ++ toString (f.sizeBytes sizeofStride)

/-- A field restores to `len_ + 1` values per stride. -/
theorem RLEField.length_restore (f : RLEField w) :
    f.restore.length = (f.strides_.map (·.len_)).sum + f.strides_.length := by
  unfold RLEField.restore
  induction f.strides_ with
  | nil => rfl
  | cons s strides ih =>
    simp only [List.flatMap_cons, List.length_append, Stride.length_restore, ih, List.map_cons, List.sum_cons,
      List.length_cons]
    omega

/-- Three equal bytes: one stride of `len_ = 2`, reported as two elements. -/
example : (RLEField.ofList 0 0 ([5, 5, 5] : List (BitVec 8))).memString 16 = "strides: 1, elements: 2, bytes: 16" := by
  decide

end NcodeCommon.Packer
