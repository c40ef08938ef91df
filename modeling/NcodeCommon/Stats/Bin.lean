import Mathlib

/-!
# `Bin`: averaging runs of consecutive points

`Bin(bin_size, data)` in `src/stats.cc` rewrites a vector of `(x, y)` points
in place: every `bin_size` consecutive points become one point, at the `x` of
the first and with the mean of their `y`.  The loop emits a bin each time the
index reaches a positive multiple of `bin_size`, and after the loop flushes
the bin it is still summing, but only when `size % bin_size != 0`.

The arithmetic is that of `double`; we model it by any type with `+`, `/`,
`0` and the conversion of a `size_t`, so that every statement here holds of
the source's `double` operations as they round.

`bin_eq` gives the exact output for every `bin_size ≥ 2`: the bins that end
before the last point, plus the last bin when the size is not a multiple of
`bin_size`.  When the size is a positive multiple of `bin_size`, the last,
full bin is dropped (`bin_two_points`).
-/

namespace NcodeCommon.Stats

variable {F : Type} [Add F] [Div F] [Zero F] [NatCast F]

/-- The locals of `Bin`'s loop: the vector being rewritten, `bin_total` and
    `bin_index`. -/
structure BinState (F : Type) where
  data : List (F × F)
  binTotal : F
  binIndex : Nat

/-- One iteration of `Bin`'s loop at index `i`: at a positive multiple of
    `bin_size`, store the finished bin at `bin_index` (its `x` read from
    `data[i - bin_size]`) and restart the sum; then add `data[i].second`.
    Every index read is in range, so the default of `getD` is never used. -/
def binStep (binSize : Nat) (s : BinState F) (i : Nat) : BinState F :=
  let s := if i ≠ 0 ∧ i % binSize = 0 then
      ⟨s.data.set s.binIndex ((s.data.getD (i - binSize) (0, 0)).1, s.binTotal / (binSize : F)),
        0, s.binIndex + 1⟩
    else s
  { s with binTotal := s.binTotal + (s.data.getD i (0, 0)).2 }

/-- `std::vector::resize(n)`: truncate, or pad with value-initialised
    pairs. -/
def resize (n : Nat) (l : List (F × F)) : List (F × F) :=
  l.take n ++ List.replicate (n - l.length) (0, 0)

/-- `Bin(bin_size, data)`: the rewritten vector, `none` for the failed
    `CHECK(bin_size != 0)`. -/
def bin (binSize : Nat) (data : List (F × F)) : Option (List (F × F)) :=
  if binSize = 0 then none
  else if binSize = 1 then some data
  else
    let s := (List.range data.length).foldl (binStep binSize) ⟨data, 0, 0⟩
    let remainder := data.length % binSize
    let base := (data.length / binSize) * binSize
    if remainder = 0 then some (resize s.binIndex s.data)
    else
      let mean := s.binTotal / (remainder : F)
      let binStart := (s.data.getD base (0, 0)).1
      some (resize (s.binIndex + 1) (s.data.set s.binIndex (binStart, mean)))

/-- Point `k` of the binned data as the documentation of `Bin` reads: the `x`
    of `data[k * bin_size]`, and the `y` of points `k * bin_size` up to
    `min ((k + 1) * bin_size, n) - 1`, summed left to right from `0`, divided
    by how many they are. -/
def binPoint (binSize : Nat) (data : List (F × F)) (k : Nat) : F × F :=
  let points := (data.drop (k * binSize)).take binSize
  ((data.getD (k * binSize) (0, 0)).1, (points.map Prod.snd).foldl (· + ·) 0 / (points.length : F))

/-- At `bin_size = 2`, two points give an empty vector: the only bin is full,
    and the `remainder == 0` branch resizes to `bin_index = 0` without storing
    it.  `⌈2 / 2⌉ = 1` point is what the documentation asks for. -/
theorem bin_two_points (x0 y0 x1 y1 : F) : bin 2 [(x0, y0), (x1, y1)] = some [] := by
  simp [bin, binStep, resize, List.range_succ]

/-! ### The loop invariant -/

/-- The `y` of points `lo` to `hi - 1`, summed left to right from `0`. -/
def sumY (data : List (F × F)) (lo hi : Nat) : F :=
  (((data.drop lo).take (hi - lo)).map Prod.snd).foldl (· + ·) 0

/-- The vector with its first `m` bins stored in front of the untouched rest. -/
def binned (binSize : Nat) (data : List (F × F)) (m : Nat) : List (F × F) :=
  (List.range m).map (binPoint binSize data) ++ data.drop m

/-- The loop's state after `i` iterations: `(i - 1) / bin_size` bins stored,
    and the sum of the bin in progress. -/
def binLoopState (binSize : Nat) (data : List (F × F)) (i : Nat) : BinState F :=
  ⟨binned binSize data ((i - 1) / binSize), sumY data ((i - 1) / binSize * binSize) i,
    (i - 1) / binSize⟩

section Loop

variable (binSize : Nat) (data : List (F × F))

/-- Past the stored bins, the vector still holds the input. -/
theorem getD_binned {m j : Nat} (h : m ≤ j) (d : F × F) :
    (binned binSize data m).getD j d = data.getD j d := by
  simp only [binned, List.getD_eq_getElem?_getD]
  rw [List.getElem?_append_right (by simpa using h), List.getElem?_drop]
  simp [Nat.add_sub_cancel' h]

/-- Storing bin `m` over the first untouched point. -/
theorem binned_set {m : Nat} (h : m < data.length) :
    (binned binSize data m).set m (binPoint binSize data m) = binned binSize data (m + 1) := by
  rw [binned, List.set_append_right _ _ (by simp), List.length_map, List.length_range,
    Nat.sub_self, List.drop_eq_getElem_cons h, List.set_cons_zero, binned, List.range_succ,
    List.map_append, List.append_assoc]
  rfl

omit [Div F] [NatCast F] in
theorem sumY_self (lo : Nat) : sumY data lo lo = 0 := by
  simp [sumY]

omit [Div F] [NatCast F] in
theorem sumY_succ {lo i : Nat} (hlo : lo ≤ i) (hi : i < data.length) :
    sumY data lo (i + 1) = sumY data lo i + (data.getD i (0, 0)).2 := by
  have hget : (data.drop lo)[i - lo]? = some data[i] := by
    rw [List.getElem?_drop, Nat.add_sub_cancel' hlo, List.getElem?_eq_getElem hi]
  simp [sumY, show i + 1 - lo = i - lo + 1 by omega, List.take_succ, hget,
    List.getElem?_eq_getElem hi]

/-- A bin that ends inside the vector: `bin_size` points, averaged over
    `bin_size`. -/
theorem binPoint_full {k : Nat} (h : (k + 1) * binSize ≤ data.length) :
    binPoint binSize data k =
      ((data.getD (k * binSize) (0, 0)).1, sumY data (k * binSize) ((k + 1) * binSize) / (binSize : F)) := by
  have hlen : ((data.drop (k * binSize)).take binSize).length = binSize := by
    simp [Nat.succ_mul] at h ⊢; omega
  simp only [binPoint, sumY, hlen, Nat.succ_mul, Nat.add_sub_cancel_left]

/-- The bin after the last full one: the `size % bin_size` points left,
    averaged over their number. -/
theorem binPoint_last (hb : 0 < binSize) :
    binPoint binSize data (data.length / binSize) =
      ((data.getD (data.length / binSize * binSize) (0, 0)).1,
        sumY data (data.length / binSize * binSize) data.length / ((data.length % binSize : Nat) : F)) := by
  have hrem : data.length - data.length / binSize * binSize = data.length % binSize := by
    have := Nat.div_add_mod' data.length binSize
    omega
  have hlt : data.length % binSize < binSize := Nat.mod_lt _ hb
  have htake : (data.drop (data.length / binSize * binSize)).take binSize =
      data.drop (data.length / binSize * binSize) := List.take_of_length_le (by simp; omega)
  simp only [binPoint, sumY, htake, hrem, List.length_drop]
  rw [List.take_of_length_le (by simp; omega)]

omit [Add F] [Div F] [Zero F] [NatCast F] in
/-- At a positive multiple of `bin_size` one more bin is finished. -/
theorem pred_div_succ {i : Nat} (hi : i ≠ 0) (hmod : i % binSize = 0) :
    (i - 1) / binSize + 1 = i / binSize := by
  have := Nat.succ_div (i - 1) binSize
  rw [Nat.sub_add_cancel (Nat.pos_of_ne_zero hi), if_pos (Nat.dvd_of_mod_eq_zero hmod)] at this
  exact this.symm

omit [Add F] [Div F] [Zero F] [NatCast F] in
/-- Anywhere else the count of finished bins stays. -/
theorem div_eq_pred_div {i : Nat} (h : ¬(i ≠ 0 ∧ i % binSize = 0)) :
    i / binSize = (i - 1) / binSize := by
  by_cases hi : i = 0
  · simp [hi]
  · have := Nat.succ_div (i - 1) binSize
    rw [Nat.sub_add_cancel (Nat.pos_of_ne_zero hi),
      if_neg fun hd => h ⟨hi, Nat.mod_eq_zero_of_dvd hd⟩] at this
    simpa using this

theorem resize_binned (m : Nat) :
    resize m (binned binSize data m) = (List.range m).map (binPoint binSize data) := by
  simp [resize, binned]

/-- One iteration keeps the invariant: at a positive multiple `(q + 1) * b`
    of `bin_size` it stores bin `q`, read from the untouched input, and
    restarts the sum; elsewhere it adds the next `y`. -/
theorem binStep_loopState (hb : 2 ≤ binSize) {i : Nat} (hi : i < data.length) :
    binStep binSize (binLoopState binSize data i) i = binLoopState binSize data (i + 1) := by
  have hb0 : 0 < binSize := by omega
  by_cases hemit : i ≠ 0 ∧ i % binSize = 0
  · set q := (i - 1) / binSize
    have hq : q + 1 = i / binSize := pred_div_succ binSize hemit.1 hemit.2
    have hiq : i = (q + 1) * binSize := by
      rw [hq]; exact (Nat.div_mul_cancel (Nat.dvd_of_mod_eq_zero hemit.2)).symm
    have hqb : q ≤ q * binSize := Nat.le_mul_of_pos_right q hb0
    have hsub : i - binSize = q * binSize := by rw [hiq, Nat.succ_mul, Nat.add_sub_cancel]
    have hqn : q < data.length := by rw [hiq, Nat.succ_mul] at hi; omega
    have hq1i : q + 1 ≤ i := hiq ▸ Nat.le_mul_of_pos_right _ hb0
    have hpt : ((data.getD (q * binSize) (0, 0)).1, sumY data (q * binSize) i / (binSize : F)) =
        binPoint binSize data q := by
      rw [binPoint_full binSize data (hiq ▸ hi.le), ← hiq]
    simp only [binStep, binLoopState, if_pos hemit, Nat.add_sub_cancel, ← hq, hsub,
      getD_binned binSize data hqb, hpt, binned_set binSize data hqn,
      getD_binned binSize data hq1i, ← hiq, sumY_succ data le_rfl hi, sumY_self]
  · have hm : i / binSize = (i - 1) / binSize := div_eq_pred_div binSize hemit
    set m := (i - 1) / binSize
    have hmbi : m * binSize ≤ i := (Nat.div_mul_le_self (i - 1) binSize).trans (Nat.sub_le i 1)
    have hmi : m ≤ i := (Nat.le_mul_of_pos_right m hb0).trans hmbi
    simp only [binStep, binLoopState, if_neg hemit, Nat.add_sub_cancel, hm,
      getD_binned binSize data hmi, sumY_succ data hmbi hi]

theorem foldl_binStep (hb : 2 ≤ binSize) {i : Nat} (hi : i ≤ data.length) :
    (List.range i).foldl (binStep binSize) ⟨data, 0, 0⟩ = binLoopState binSize data i := by
  induction i with
  | zero => simp [binLoopState, binned, sumY]
  | succ i ih =>
    rw [List.range_succ, List.foldl_append, ih (by omega), List.foldl_cons, List.foldl_nil,
      binStep_loopState binSize data hb (by omega)]

/-- `Bin` on every input, for `bin_size ≥ 2`: the bins that end before the
    last point, then the last bin unless the size is a multiple of
    `bin_size`. -/
theorem bin_eq (hb : 2 ≤ binSize) :
    bin binSize data = some ((List.range ((data.length - 1) / binSize)).map (binPoint binSize data) ++
      if data.length % binSize = 0 then [] else [binPoint binSize data (data.length / binSize)]) := by
  have hb0 : 0 < binSize := by omega
  simp only [bin, if_neg (show binSize ≠ 0 by omega), if_neg (show binSize ≠ 1 by omega),
    foldl_binStep binSize data hb le_rfl, binLoopState]
  split
  · next hmod => simp only [if_pos hmod, List.append_nil, resize_binned]
  · next hmod =>
    have hq : data.length / binSize = (data.length - 1) / binSize :=
      div_eq_pred_div binSize fun h => hmod h.2
    set q := (data.length - 1) / binSize
    have hqb : q ≤ q * binSize := Nat.le_mul_of_pos_right q hb0
    have hqn : q < data.length := by
      have := Nat.div_add_mod' data.length binSize
      rw [hq] at this
      omega
    have hpt : ((data.getD (q * binSize) (0, 0)).1,
        sumY data (q * binSize) data.length / ((data.length % binSize : Nat) : F)) =
          binPoint binSize data q := by
      rw [← hq]; exact (binPoint_last binSize data hb0).symm
    simp only [if_neg hmod, hq, getD_binned binSize data hqb, hpt, binned_set binSize data hqn,
      resize_binned, List.range_succ, List.map_append, List.map_cons, List.map_nil]

end Loop

theorem bin_eq_three_points :
    2 ≤ 2 ∧ bin 2 [((0 : Nat), (1 : Nat)), (1, 3), (2, 5)] =
      some ((List.range (([((0 : Nat), (1 : Nat)), (1, 3), (2, 5)].length - 1) / 2)).map
          (binPoint 2 [((0 : Nat), (1 : Nat)), (1, 3), (2, 5)]) ++
        if [((0 : Nat), (1 : Nat)), (1, 3), (2, 5)].length % 2 = 0 then []
        else [binPoint 2 [((0 : Nat), (1 : Nat)), (1, 3), (2, 5)]
          ([((0 : Nat), (1 : Nat)), (1, 3), (2, 5)].length / 2)]) :=
  ⟨le_rfl, bin_eq 2 _ le_rfl⟩



end NcodeCommon.Stats
