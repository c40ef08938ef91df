import Mathlib

/-!
# Printing the time left

`ProgressIndicator::HandleEvent` prints the time a simulation has left with
`PrintTimeDiff`, which splits a count of milliseconds into days, hours,
minutes, seconds and milliseconds by C++'s `/` and `%`, and then writes each
unit from the first non-zero one on: its figure and its plural word, or its
singular word when the figure is `1`.

What the text is for is to be read back.  We state how a reader reads it
(`readTimeDiff`: each figure times the milliseconds its word names) and prove
that over every count the text is a run of figures with unit words, the first
figure at least `1`, which reads back to the count; a negative count, which
`ProgressIndicator` makes when a `uint64_t` estimate does not fit the signed
count, writes nothing and reads as `0` (`printTimeDiff_reads_back`).
-/

namespace NcodeCommon.Htsim

/-! ### The text `PrintTimeDiff` writes -/

/-- One block `if (printed_earlier || v >= 1)` of `PrintTimeDiff`, on the text
    written so far and `printed_earlier`: it writes `v` and the unit's plural
    word, or its singular word when `v` is `1`.  The first block tests
    `days >= 1` alone, which is the same test while nothing is written. -/
def printUnit (out : String × Bool) (v : Int) (plural singular : String) : String × Bool :=
  if out.2 || decide (1 ≤ v) then (out.1 ++ toString v ++ (if 1 ≠ v then plural else singular), true)
  else out

/-- `PrintTimeDiff(out, chrono_diff)` on the `std::chrono::milliseconds` that
    `ProgressIndicator::HandleEvent` passes it, so that the `duration_cast`
    changes nothing: the text written to `out`.  The count is signed, and
    C++'s `/` and `%` truncate toward zero (`Int.tdiv`, `Int.tmod`). -/
def printTimeDiff (chronoDiff : Int) : String :=
  let msecs := chronoDiff.tmod 1000
  let diff := chronoDiff.tdiv 1000
  let secs := diff.tmod 60
  let diff := diff.tdiv 60
  let mins := diff.tmod 60
  let diff := diff.tdiv 60
  let hours := diff.tmod 24
  let days := diff.tdiv 24
  let out := printUnit ("", false) days " days " " day "
  let out := printUnit out hours " hours " " hour "
  let out := printUnit out mins " minutes " " minute "
  let out := printUnit out secs " seconds " " second "
  (printUnit out msecs " milliseconds" " millisecond").1

/-! ### Units and figures -/

/-- A unit `PrintTimeDiff` writes: its length in milliseconds and its plural
    and singular words. -/
structure TimeUnit where
  ms : Int
  plural : String
  singular : String

def TimeUnit.days : TimeUnit := ⟨86400000, " days ", " day "⟩
def TimeUnit.hours : TimeUnit := ⟨3600000, " hours ", " hour "⟩
def TimeUnit.minutes : TimeUnit := ⟨60000, " minutes ", " minute "⟩
def TimeUnit.seconds : TimeUnit := ⟨1000, " seconds ", " second "⟩
def TimeUnit.milliseconds : TimeUnit := ⟨1, " milliseconds", " millisecond"⟩

/-- The word a figure is written with. -/
def TimeUnit.word (u : TimeUnit) (v : Int) : String := if 1 ≠ v then u.plural else u.singular

/-- The figures `PrintTimeDiff` computes from a count, each with its unit,
    largest unit first. -/
def timeDiffFigures (chronoDiff : Int) : List (Int × TimeUnit) :=
  let diff₁ := chronoDiff.tdiv 1000
  let diff₂ := diff₁.tdiv 60
  let diff₃ := diff₂.tdiv 60
  [(diff₃.tdiv 24, .days), (diff₃.tmod 24, .hours), (diff₂.tmod 60, .minutes), (diff₁.tmod 60, .seconds),
    (chronoDiff.tmod 1000, .milliseconds)]

/-- `PrintTimeDiff` writes its figures one block after another. -/
theorem printTimeDiff_eq_foldl (d : Int) :
    printTimeDiff d =
      ((timeDiffFigures d).foldl (fun out f => printUnit out f.1 f.2.plural f.2.singular) ("", false)).1 :=
  rfl

/-! ### Reading the text back -/

/-- The text of figures written with their words, one after another. -/
def writePieces : List (Int × String) → String
  | [] => ""
  | (v, w) :: ps => toString v ++ w ++ writePieces ps

/-- How a reader takes a word of the text: the milliseconds of the unit it
    names, in the plural or the singular. -/
def unitMs (w : String) : Option Int :=
  ([TimeUnit.days, .hours, .minutes, .seconds, .milliseconds].find? fun u => w = u.plural || w = u.singular).map
    TimeUnit.ms

/-- Reading figures and words back: each figure times the milliseconds its
    word names, summed; `none` at a word that names no unit. -/
def readTimeDiff : List (Int × String) → Option Int
  | [] => some 0
  | (v, w) :: ps => do
    let ms ← unitMs w
    let rest ← readTimeDiff ps
    some (v * ms + rest)

/-- A reader takes both words of the unit for its length. -/
def TimeUnit.Readable (u : TimeUnit) : Prop := unitMs u.plural = some u.ms ∧ unitMs u.singular = some u.ms

theorem readable_of_mem_timeDiffFigures {d : Int} {f : Int × TimeUnit} (h : f ∈ timeDiffFigures d) :
    f.2.Readable := by
  simp only [timeDiffFigures, List.mem_cons, List.mem_singleton, List.not_mem_nil, or_false] at h
  rcases h with rfl | rfl | rfl | rfl | rfl <;> exact ⟨rfl, rfl⟩

/-- Figures written with readable units read back as the sum of each figure
    times its unit's length. -/
theorem readTimeDiff_map_word {l : List (Int × TimeUnit)} (h : ∀ f ∈ l, f.2.Readable) :
    readTimeDiff (l.map fun f => (f.1, f.2.word f.1)) = some (l.map fun f => f.1 * f.2.ms).sum := by
  induction l with
  | nil => rfl
  | cons f l ih =>
    have hword : unitMs (f.2.word f.1) = some f.2.ms := by
      obtain ⟨hp, hs⟩ := h f (List.mem_cons_self _ _)
      unfold TimeUnit.word
      split <;> assumption
    simp only [List.map_cons, readTimeDiff, hword, ih fun g hg => h g (List.mem_cons_of_mem _ hg),
      Option.bind_eq_bind, Option.some_bind, List.sum_cons]

/-! ### The blocks of `PrintTimeDiff` -/

/-- Once a unit is written, every later block writes its figure. -/
theorem foldl_printUnit_written (l : List (Int × TimeUnit)) (s : String) :
    l.foldl (fun out f => printUnit out f.1 f.2.plural f.2.singular) (s, true) =
      (s ++ writePieces (l.map fun f => (f.1, f.2.word f.1)), true) := by
  induction l generalizing s with
  | nil => simp only [List.foldl_nil, List.map_nil, writePieces, String.append_empty]
  | cons f l ih =>
    have hwrite : printUnit (s, true) f.1 f.2.plural f.2.singular = (s ++ toString f.1 ++ f.2.word f.1, true) := rfl
    rw [List.foldl_cons, hwrite, ih]
    simp only [List.map_cons, writePieces, String.append_assoc]

/-- Before any unit is written, the blocks skip the figures below `1` and
    write the rest. -/
theorem foldl_printUnit_unwritten (l : List (Int × TimeUnit)) (s : String) :
    (l.foldl (fun out f => printUnit out f.1 f.2.plural f.2.singular) (s, false)).1 =
      s ++ writePieces ((l.dropWhile fun f => decide (f.1 < 1)).map fun f => (f.1, f.2.word f.1)) := by
  induction l generalizing s with
  | nil => simp only [List.foldl_nil, List.dropWhile_nil, List.map_nil, writePieces, String.append_empty]
  | cons f l ih =>
    by_cases hf : f.1 < 1
    · have hskip : printUnit (s, false) f.1 f.2.plural f.2.singular = (s, false) := by
        simp only [printUnit, Bool.false_or, decide_eq_true_eq, if_neg (Int.not_le.2 hf)]
      rw [List.foldl_cons, hskip, ih]
      simp only [List.dropWhile_cons, decide_eq_true_eq, hf, if_true]
    · have hwrite : printUnit (s, false) f.1 f.2.plural f.2.singular = (s ++ toString f.1 ++ f.2.word f.1, true) := by
        simp only [printUnit, Bool.false_or, decide_eq_true_eq, if_pos (Int.not_lt.1 hf), TimeUnit.word]
      rw [List.foldl_cons, hwrite, foldl_printUnit_written]
      simp only [List.dropWhile_cons, decide_eq_true_eq, hf, if_false, List.map_cons, writePieces,
        String.append_assoc]

/-- Skipping leading figures that are `0` leaves the sum they read as. -/
theorem sum_dropWhile_of_nonneg {l : List (Int × TimeUnit)} (h : ∀ f ∈ l, 0 ≤ f.1) :
    ((l.dropWhile fun f => decide (f.1 < 1)).map fun f => f.1 * f.2.ms).sum = (l.map fun f => f.1 * f.2.ms).sum := by
  induction l with
  | nil => rfl
  | cons f l ih =>
    by_cases hf : f.1 < 1
    · have hzero : f.1 = 0 := by have := h f (List.mem_cons_self _ _); omega
      simp only [List.dropWhile_cons, decide_eq_true_eq, hf, if_true]
      rw [ih fun g hg => h g (List.mem_cons_of_mem _ hg), List.map_cons, List.sum_cons, hzero, Int.zero_mul,
        Int.zero_add]
    · simp only [List.dropWhile_cons, decide_eq_true_eq, hf, if_false]

/-! ### The figures as numbers -/

/-- C++'s `/` on a count that is not positive. -/
theorem tdiv_of_nonpos {a b : Int} (ha : a ≤ 0) (hb : 0 ≤ b) : a.tdiv b = -((-a) / b) := by
  rw [← Int.tdiv_eq_ediv (Int.neg_nonneg_of_nonpos ha) hb, Int.neg_tdiv, Int.neg_neg]

/-- C++'s `%` on a count that is not positive. -/
theorem tmod_of_nonpos {a b : Int} (ha : a ≤ 0) (hb : 0 ≤ b) : a.tmod b = -((-a) % b) := by
  rw [Int.tmod_def, tdiv_of_nonpos ha hb, Int.emod_def, Int.mul_neg, Int.sub_neg, Int.neg_sub, Int.sub_neg,
    Int.add_comm]

/-- The figures of a count that is not negative are not negative, and they
    read back as the count. -/
theorem timeDiffFigures_of_nonneg {d : Int} (hd : 0 ≤ d) :
    (∀ f ∈ timeDiffFigures d, 0 ≤ f.1) ∧ ((timeDiffFigures d).map fun f => f.1 * f.2.ms).sum = d := by
  simp (disch := omega) only [timeDiffFigures, Int.tdiv_eq_ediv, Int.tmod_eq_emod, List.mem_cons,
    List.mem_singleton, List.not_mem_nil, or_false, forall_eq_or_imp, forall_eq, List.map_cons, List.map_nil,
    List.sum_cons, List.sum_nil, TimeUnit.days, TimeUnit.hours, TimeUnit.minutes, TimeUnit.seconds,
    TimeUnit.milliseconds]
  omega

/-- Every figure of a negative count is below `1`. -/
theorem timeDiffFigures_of_neg {d : Int} (hd : d < 0) : ∀ f ∈ timeDiffFigures d, f.1 < 1 := by
  simp (disch := omega) only [timeDiffFigures, tdiv_of_nonpos, tmod_of_nonpos, List.mem_cons,
    List.mem_singleton, List.not_mem_nil, or_false, forall_eq_or_imp, forall_eq]
  omega

/-! ### The text reads back as the count -/

/-- `PrintTimeDiff` writes a run of figures with unit words whose first figure
    is at least `1` (no leading unit of `0`), and the run reads back as the
    count, or as `0` for a negative count, of which nothing is written. -/
theorem printTimeDiff_reads_back (d : Int) :
    ∃ ps, printTimeDiff d = writePieces ps ∧ readTimeDiff ps = some (max d 0) ∧
      (∀ p ∈ ps.head?, 1 ≤ p.1) ∧ (d < 0 → printTimeDiff d = "") := by
  have hneg : d < 0 → (timeDiffFigures d).dropWhile (fun f => decide (f.1 < 1)) = [] := fun hd =>
    List.dropWhile_eq_nil_iff.2 fun f hf => decide_eq_true (timeDiffFigures_of_neg hd f hf)
  have hprint : printTimeDiff d = writePieces
      (((timeDiffFigures d).dropWhile fun f => decide (f.1 < 1)).map fun f => (f.1, f.2.word f.1)) := by
    rw [printTimeDiff_eq_foldl, foldl_printUnit_unwritten, String.empty_append]
  refine ⟨_, hprint, ?_, ?_, fun hd => by rw [hprint, hneg hd]; rfl⟩
  · rw [readTimeDiff_map_word fun f hf => readable_of_mem_timeDiffFigures (List.dropWhile_subset _ hf)]
    by_cases hd : 0 ≤ d
    · obtain ⟨hnonneg, hsum⟩ := timeDiffFigures_of_nonneg hd
      rw [sum_dropWhile_of_nonneg hnonneg, hsum, Int.max_eq_left hd]
    · rw [hneg (by omega), Int.max_eq_right (by omega)]
      rfl
  · intro p hp
    have hhead := List.head?_dropWhile_not (fun f : Int × TimeUnit => decide (f.1 < 1)) (timeDiffFigures d)
    rw [List.head?_map, Option.mem_def, Option.map_eq_some'] at hp
    obtain ⟨f, hf, rfl⟩ := hp
    rw [hf] at hhead
    simpa only [decide_eq_false_iff_not, Int.not_lt] using hhead

/-- The units after the first written one are written even when `0`. -/
example : printTimeDiff 5000 = "5 seconds 0 milliseconds" := by decide

end NcodeCommon.Htsim
